import DocTransfer.Proofs.EditLoop.Refinement
import DocTransfer.Proofs.Text.Find

/-! # An interrupted edit loop loses nothing

Whenever the loop puts a question, the text in question is the one it stored last. So wherever it is
stopped, by the model or by the sink, what has been stored is the work of all batches that were
absorbed before. -/

namespace DocTransfer.Transfer

open Model Text

/-! ## The text stored last -/

/-- The text that a record stored last, or the one it began with. -/
def lastHanded (source : List Char) (events : List Event) : List Char :=
  ((handed events).getLastD (String.ofList source)).toList

@[simp] theorem lastHanded_nil (source : List Char) : lastHanded source [] = source := by
  simp [lastHanded, handed]

/-- An answered request hands over the text that it makes. -/
theorem lastHanded_answeredEvents_append (prompt : String) (code : List Char) (a : Completion)
    (events : List Event) :
    lastHanded code (answeredEvents prompt code a ++ events) =
      lastHanded (patch (batchOf a) code).code events := by
  by_cases happlied : (patch (batchOf a) code).applied = 0
  · simp [lastHanded, happlied, patch_code_of_applied_eq_zero happlied]
  · simp [lastHanded, happlied, List.getLast?_cons]

/-! ## Where an event stands -/

/-- A prompt in what is seen of a loop is that of its first request, or comes after that. -/
theorem answeredEvents_append_eq_asked {q prompt : String} {code : List Char} {a : Completion}
    {rest before after : List Event}
    (h : answeredEvents q code a ++ rest = before ++ .asked prompt :: after) :
    before = [] ∧ prompt = q ∨
    ∃ before', before = answeredEvents q code a ++ before' ∧
      rest = before' ++ .asked prompt :: after := by
  cases before with
  | nil =>
      simp only [answeredEvents, List.cons_append, List.nil_append, List.cons.injEq,
        Event.asked.injEq] at h
      exact .inl ⟨rfl, h.1.symm⟩
  | cons first before =>
      simp only [answeredEvents, List.cons_append, List.cons.injEq] at h
      obtain ⟨rfl, htail⟩ := h
      have hmem : Event.asked prompt ∉ .answered a :: absorbEvents (batchOf a) code := by
        unfold absorbEvents
        split <;> simp
      obtain ⟨before', rfl, hrest⟩ := append_eq_append_cons_of_not_mem hmem htail
      exact .inr ⟨before', rfl, hrest⟩

theorem answeredEvents_eq_asked {q prompt : String} {code : List Char} {a : Completion}
    {before after : List Event}
    (h : answeredEvents q code a = before ++ .asked prompt :: after) : before = [] ∧ prompt = q := by
  rw [← List.append_nil (answeredEvents _ _ _)] at h
  obtain hfirst | ⟨before', -, hrest⟩ := answeredEvents_append_eq_asked h
  · exact hfirst
  · simp at hrest

/-! ## Prompts show what is stored -/

theorem Brief.nextPrompt_eq (b : Brief) (p : Progress) :
    b.nextPrompt p = b.prompt (p.requests + (prompts []).length + 1) (lastHanded p.code []) := by
  simp [Brief.nextPrompt, prompts]

/-- Each prompt of a course shows the text that was handed over last. -/
theorem Course.prompt_eq_lastHanded {b : Brief} {n : Nat} {p : Progress} {events : List Event}
    {result : Except Error Outcome} (h : Course b n p events result)
    {before after : List Event} {prompt : String}
    (hsplit : events = before ++ .asked prompt :: after) :
    prompt = b.prompt (p.requests + (prompts before).length + 1) (lastHanded p.code before) := by
  induction h generalizing before with
  | refused n p e =>
      cases before with
      | nil =>
          simp only [List.nil_append, List.cons.injEq, Event.asked.injEq] at hsplit
          rw [← hsplit.1]
          exact b.nextPrompt_eq p
      | cons first before => simp [List.singleton_eq_append_iff] at hsplit
  | lost n p a e happlied =>
      obtain ⟨rfl, rfl⟩ | ⟨before', rfl, hrest⟩ := answeredEvents_append_eq_asked hsplit
      · exact b.nextPrompt_eq p
      · simp [List.singleton_eq_append_iff] at hrest
  | settled n p a hidle =>
      obtain ⟨rfl, rfl⟩ := answeredEvents_eq_asked hsplit
      exact b.nextPrompt_eq p
  | spent p a hbusy =>
      obtain ⟨rfl, rfl⟩ := answeredEvents_eq_asked hsplit
      exact b.nextPrompt_eq p
  | @again n p a events result hbusy _ ih =>
      obtain ⟨rfl, rfl⟩ | ⟨before', rfl, hrest⟩ := answeredEvents_append_eq_asked hsplit
      · exact b.nextPrompt_eq p
      · rw [ih hrest, lastHanded_answeredEvents_append]
        simp [Nat.add_assoc, Nat.add_comm]

/-! ## One text for each effective batch -/

/-- The places, counted from zero, of the batches of which something is applied to the text they
meet. -/
def effective (source : List Char) (received : List (List Edit)) : List Nat :=
  (List.range received.length).filter fun k =>
    0 < (patch (received.getD k []) (textAfter source received k)).applied

theorem effective_cons (source : List Char) (edits : List Edit) (received : List (List Edit)) :
    effective source (edits :: received) =
      (if (patch edits source).applied = 0 then [] else [0]) ++
        (effective (patch edits source).code received).map (· + 1) := by
  simp only [effective, List.length_cons, List.range_succ_eq_map, List.filter_cons,
    List.filter_map, Function.comp_def, List.getD_cons_zero, List.getD_cons_succ, textAfter_zero,
    Nat.succ_eq_add_one, textAfter_cons_succ]
  by_cases happlied : (patch edits source).applied = 0
  · simp [happlied]
  · simp [happlied, Nat.pos_of_ne_zero happlied]

/-- The texts that a sink gets to see when the batches arrive: one after each effective batch. -/
def storedTexts (source : List Char) (received : List (List Edit)) : List String :=
  (effective source received).map fun k => String.ofList (textAfter source received (k + 1))

@[simp] theorem storedTexts_nil (source : List Char) : storedTexts source [] = [] := rfl

theorem storedTexts_cons (source : List Char) (edits : List Edit) (received : List (List Edit)) :
    storedTexts source (edits :: received) =
      (if (patch edits source).applied = 0 then []
        else [String.ofList (patch edits source).code]) ++
        storedTexts (patch edits source).code received := by
  by_cases happlied : (patch edits source).applied = 0
  · simp [storedTexts, effective_cons, happlied, Function.comp_def]
  · simp [storedTexts, effective_cons, happlied, Function.comp_def]

/-- The texts of a course that were handed over are those after its effective batches. -/
theorem Course.handed_eq {b : Brief} {n : Nat} {p : Progress} {events : List Event}
    {result : Except Error Outcome} (h : Course b n p events result) :
    handed events = storedTexts p.code (batches events) := by
  induction h with
  | refused n p e => simp
  | lost n p a e happlied => simp [storedTexts_cons]
  | settled n p a hidle => simp [storedTexts_cons]
  | spent p a hbusy => simp [storedTexts_cons]
  | again hbusy _ ih => simp [storedTexts_cons, ih]

/-! ## Failures end the loop -/

/-- A record without a failure. -/
def Calm (events : List Event) : Prop :=
  ∀ e, .lost e ∉ events ∧ .refused e ∉ events

theorem calm_answeredEvents (prompt : String) (code : List Char) (a : Completion) :
    Calm (answeredEvents prompt code a) := by
  intro e
  unfold answeredEvents absorbEvents
  split <;> simp

theorem Calm.append {xs ys : List Event} (hx : Calm xs) (hy : Calm ys) : Calm (xs ++ ys) := by
  intro e
  simp [hx e, hy e]

/-- A course shows no failure, or one at its very end. When a request fails, all that was received
before it has been handed over. -/
theorem Course.calm_or_failure {b : Brief} {n : Nat} {p : Progress} {events : List Event}
    {result : Except Error Outcome} (h : Course b n p events result) :
    (∃ o, result = .ok o ∧ Calm events) ∨
    (∃ e steady, result = .error e ∧ events = steady ++ [.lost e] ∧ Calm steady) ∨
    (∃ e steady, result = .error e ∧ events = steady ++ [.refused e] ∧ Calm steady ∧
      lastHanded p.code steady = (patch (batches steady).flatten p.code).code) := by
  induction h with
  | refused n p e =>
      refine .inr (.inr ⟨e, [.asked (b.nextPrompt p)], rfl, rfl, fun e => by simp, ?_⟩)
      simp [lastHanded, handed, batches]
  | lost n p a e happlied =>
      exact .inr (.inl ⟨e, _, rfl, rfl, calm_answeredEvents _ _ a⟩)
  | settled n p a hidle => exact .inl ⟨_, rfl, calm_answeredEvents _ _ a⟩
  | spent p a hbusy => exact .inl ⟨_, rfl, calm_answeredEvents _ _ a⟩
  | @again n p a events result hbusy _ ih =>
      have hcalm := calm_answeredEvents (b.nextPrompt p) p.code a
      obtain ⟨o, ho, hevents⟩ | ⟨e, steady, he, rfl, hsteady⟩ |
        ⟨e, steady, he, rfl, hsteady, hlast⟩ := ih
      · exact .inl ⟨o, ho, hcalm.append hevents⟩
      · exact .inr (.inl ⟨e, _, he, (List.append_assoc ..).symm, hcalm.append hsteady⟩)
      · refine .inr (.inr ⟨e, _, he, (List.append_assoc ..).symm, hcalm.append hsteady, ?_⟩)
        rw [lastHanded_answeredEvents_append]
        simpa using hlast

/-- An event that a list does not hold can only be the one that follows the list. -/
theorem eq_of_append_singleton_eq {steady before after : List Event} {last x : Event}
    (hx : x ∉ steady) (h : steady ++ [last] = before ++ x :: after) :
    before = steady ∧ x = last ∧ after = [] := by
  obtain ⟨before', rfl, hrest⟩ := append_eq_append_cons_of_not_mem hx h
  obtain ⟨rfl, hlast⟩ | ⟨-, hnil⟩ := List.singleton_eq_append_iff.mp hrest
  · simp_all
  · simp at hnil

/-- A lost text is the last thing seen of a course, and its cause is the result. -/
theorem Course.eq_of_lost {b : Brief} {n : Nat} {p : Progress} {events : List Event}
    {result : Except Error Outcome} (h : Course b n p events result)
    {before after : List Event} {e : Error} (hsplit : events = before ++ .lost e :: after) :
    after = [] ∧ result = .error e := by
  obtain ⟨o, -, hcalm⟩ | ⟨e', steady, hresult, rfl, hcalm⟩ | ⟨e', steady, -, rfl, hcalm, -⟩ :=
    h.calm_or_failure
  · exact absurd (by simp [hsplit]) (hcalm e).1
  · obtain ⟨-, hlast, hafter⟩ := eq_of_append_singleton_eq (hcalm e).1 hsplit
    cases hlast
    exact ⟨hafter, hresult⟩
  · obtain ⟨-, hlast, -⟩ := eq_of_append_singleton_eq (hcalm e).1 hsplit
    cases hlast

/-- A refusal is the last thing seen of a course, its cause is the result, and all that was received
before it has been handed over. -/
theorem Course.eq_of_refused {b : Brief} {n : Nat} {p : Progress} {events : List Event}
    {result : Except Error Outcome} (h : Course b n p events result)
    {before after : List Event} {e : Error} (hsplit : events = before ++ .refused e :: after) :
    after = [] ∧ result = .error e ∧
      lastHanded p.code before = (patch (batches before).flatten p.code).code := by
  obtain ⟨o, -, hcalm⟩ | ⟨e', steady, -, rfl, hcalm⟩ | ⟨e', steady, hresult, rfl, hcalm, hhanded⟩ :=
    h.calm_or_failure
  · exact absurd (by simp [hsplit]) (hcalm e).2
  · obtain ⟨-, hlast, -⟩ := eq_of_append_singleton_eq (hcalm e).2 hsplit
    cases hlast
  · obtain ⟨rfl, hlast, hafter⟩ := eq_of_append_singleton_eq (hcalm e).2 hsplit
    cases hlast
    exact ⟨hafter, hresult, hhanded⟩

variable {σ φ : Type}

/-- What is seen of an edit loop, wherever it is stopped. Each prompt shows the text handed over
last, or the source. A text is handed over once for each batch of which something was applied: the
source as patched by all batches up to this one. A failure ends the loop and is its result, and the
loop fails in no other way; when a request fails, the text handed over last is the source as patched
by all batches received. -/
theorem editLoop_crash_safe (service : Service σ) (sink : Sink φ) (maxPasses : Nat) (b : Brief)
    (source : String) (s : Session σ φ) :
    ∃ trace, (editLoop service sink maxPasses b source s).2.events = s.events ++ trace ∧
      (∀ before prompt after, trace = before ++ .asked prompt :: after →
        prompt = b.prompt ((prompts before).length + 1)
          ((handed before).getLastD source).toList) ∧
      handed trace = storedTexts source.toList (batches trace) ∧
      (∀ before e after, trace = before ++ .lost e :: after →
        after = [] ∧ (editLoop service sink maxPasses b source s).1 = .error e) ∧
      (∀ before e after, trace = before ++ .refused e :: after →
        after = [] ∧ (editLoop service sink maxPasses b source s).1 = .error e ∧
        ((handed before).getLastD source).toList =
          (patch (batches before).flatten source.toList).code) ∧
      (∀ e, (editLoop service sink maxPasses b source s).1 = .error e →
        ∃ before, trace = before ++ [.lost e] ∨ trace = before ++ [.refused e]) := by
  obtain ⟨trace, htrace, hcourse⟩ := editLoop_course service sink maxPasses b source s
  refine ⟨trace, htrace, ?_, hcourse.handed_eq, ?_, ?_, ?_⟩
  · intro before prompt after hsplit
    simpa [lastHanded] using hcourse.prompt_eq_lastHanded hsplit
  · intro before e after hsplit
    exact hcourse.eq_of_lost hsplit
  · intro before e after hsplit
    simpa [lastHanded] using hcourse.eq_of_refused hsplit
  · intro e herror
    rw [herror] at hcourse
    obtain ⟨o, ho, -⟩ | ⟨e', steady, he, hevents, -⟩ | ⟨e', steady, he, hevents, -⟩ :=
      hcourse.calm_or_failure
    · cases ho
    · cases he
      exact ⟨steady, .inl hevents⟩
    · cases he
      exact ⟨steady, .inr hevents⟩

end DocTransfer.Transfer
