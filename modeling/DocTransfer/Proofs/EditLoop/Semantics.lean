import DocTransfer.Proofs.Edit.Patch
import DocTransfer.Transfer.EditLoop

/-! # The courses that an edit loop can take

Passes, phases and the two counters of the loop come down to one rule a request: it is refused, its
text is lost, it is the last one, or another request follows. The rules mention neither the model
nor the sink, so that what holds of every course holds whatever these two do. -/

namespace DocTransfer.Transfer

open Model

/-! ## Views of a record -/

/-- The prompts of a record. -/
def prompts (events : List Event) : List String :=
  events.filterMap fun
    | .asked prompt => some prompt
    | _ => none

/-- The edits in an answer. -/
def batchOf (answer : Completion) : List Edit :=
  answerEdits answer.text.toList

/-- The batches of edits in the answers of a record. -/
def batches (events : List Event) : List (List Edit) :=
  events.filterMap fun
    | .answered answer => some (batchOf answer)
    | _ => none

/-- The texts of a record that were handed to the sink. -/
def handed (events : List Event) : List String :=
  events.filterMap fun
    | .stored text => some text
    | _ => none

@[simp] theorem prompts_append (xs ys : List Event) :
    prompts (xs ++ ys) = prompts xs ++ prompts ys :=
  List.filterMap_append

@[simp] theorem batches_append (xs ys : List Event) :
    batches (xs ++ ys) = batches xs ++ batches ys :=
  List.filterMap_append

@[simp] theorem handed_append (xs ys : List Event) : handed (xs ++ ys) = handed xs ++ handed ys :=
  List.filterMap_append

@[simp] theorem prompts_refused (prompt : String) (e : Error) :
    prompts [.asked prompt, .refused e] = [prompt] := rfl

@[simp] theorem batches_refused (prompt : String) (e : Error) :
    batches [.asked prompt, .refused e] = [] := rfl

@[simp] theorem handed_refused (prompt : String) (e : Error) :
    handed [.asked prompt, .refused e] = [] := rfl

@[simp] theorem prompts_lost (e : Error) : prompts [.lost e] = [] := rfl

@[simp] theorem batches_lost (e : Error) : batches [.lost e] = [] := rfl

@[simp] theorem handed_lost (e : Error) : handed [.lost e] = [] := rfl

/-! ## One request -/

/-- What is seen of a batch that reaches a text. -/
def absorbEvents (edits : List Edit) (code : List Char) : List Event :=
  if (patch edits code).applied = 0 then [] else [.stored (String.ofList (patch edits code).code)]

/-- What is seen of a request that is answered. -/
def answeredEvents (prompt : String) (code : List Char) (a : Completion) : List Event :=
  .asked prompt :: .answered a :: absorbEvents (batchOf a) code

@[simp] theorem prompts_answeredEvents (prompt : String) (code : List Char) (a : Completion) :
    prompts (answeredEvents prompt code a) = [prompt] := by
  unfold answeredEvents absorbEvents
  split <;> rfl

@[simp] theorem batches_answeredEvents (prompt : String) (code : List Char) (a : Completion) :
    batches (answeredEvents prompt code a) = [batchOf a] := by
  unfold answeredEvents absorbEvents
  split <;> rfl

@[simp] theorem handed_answeredEvents (prompt : String) (code : List Char) (a : Completion) :
    handed (answeredEvents prompt code a) =
      if (patch (batchOf a) code).applied = 0 then []
      else [String.ofList (patch (batchOf a) code).code] := by
  unfold answeredEvents absorbEvents
  split <;> rfl

/-- The progress after a batch. The count of passes is not its business. -/
def Progress.absorbed (p : Progress) (edits : List Edit) : Progress :=
  { p with
    code := (patch edits p.code).code
    applied := p.applied + (patch edits p.code).applied
    skipped := p.skipped + (patch edits p.code).skipped }

variable {σ φ : Type}

/-- A request is refused or answered. -/
theorem ask_cases (service : Service σ) (sink : Sink φ) (label prompt : String)
    (s : Session σ φ) :
    (∃ e s', ask service sink label prompt s = (.error e, s') ∧
      s'.events = s.events ++ [.asked prompt, .refused e]) ∨
    (∃ a s', ask service sink label prompt s = (.ok a.text, s') ∧
      s'.events = s.events ++ [.asked prompt, .answered a]) := by
  unfold ask
  cases service.complete s.model prompt false with
  | mk reply model =>
      cases reply with
      | error e => exact .inl ⟨e, _, rfl, rfl⟩
      | ok a => exact .inr ⟨a, _, rfl, rfl⟩

/-- A text handed to the sink is kept or lost. -/
theorem store_cases (sink : Sink φ) (text : String) (s : Session σ φ) :
    (∃ e s', store sink text s = (.error e, s') ∧ s'.events = s.events ++ [.stored text, .lost e]) ∨
    (∃ s', store sink text s = (.ok (), s') ∧ s'.events = s.events ++ [.stored text]) := by
  unfold store
  cases sink.store s.sink text with
  | mk result after =>
      cases result with
      | error e => exact .inl ⟨e, _, rfl, rfl⟩
      | ok _ => exact .inr ⟨_, rfl, rfl⟩

/-- A batch is absorbed, or its text is lost. The second needs an edit that was applied. -/
theorem absorb_cases (sink : Sink φ) (edits : List Edit) (p : Progress) (s : Session σ φ) :
    (∃ e s', (patch edits p.code).applied ≠ 0 ∧ absorb sink edits p s = (.error e, s') ∧
      s'.events = s.events ++ (absorbEvents edits p.code ++ [.lost e])) ∨
    (∃ s', absorb sink edits p s = (.ok (p.absorbed edits), s') ∧
      s'.events = s.events ++ absorbEvents edits p.code) := by
  by_cases happlied : (patch edits p.code).applied = 0
  · have hcode := patch_code_of_applied_eq_zero happlied
    refine .inr ⟨s, ?_, by simp [absorbEvents, happlied]⟩
    simp [absorb, Progress.absorbed, happlied, hcode]
  · have hevents : absorbEvents edits p.code =
        [.stored (String.ofList (patch edits p.code).code)] := by
      simp [absorbEvents, happlied]
    obtain ⟨e, s', hstore, hs'⟩ | ⟨s', hstore, hs'⟩ :=
      store_cases sink (String.ofList (patch edits p.code).code) s
    · refine .inl ⟨e, s', happlied, by simp [absorb, happlied, hstore], ?_⟩
      simpa [hevents] using hs'
    · refine .inr ⟨s', by simp [absorb, Progress.absorbed, happlied, hstore], ?_⟩
      simpa [hevents] using hs'

/-- A request that fails was refused, or its text was lost. -/
theorem exchange_error {service : Service σ} {sink : Sink φ} {label prompt : String}
    {p : Progress} {s s' : Session σ φ} {e : Error}
    (h : exchange service sink label prompt p s = (.error e, s')) :
    s'.events = s.events ++ [.asked prompt, .refused e] ∨
    ∃ a, (patch (batchOf a) p.code).applied ≠ 0 ∧
      s'.events = s.events ++ (answeredEvents prompt p.code a ++ [.lost e]) := by
  unfold exchange at h
  obtain ⟨e', s₁, hask, hs₁⟩ | ⟨a, s₁, hask, hs₁⟩ := ask_cases service sink label prompt s
  · simp only [hask, Prod.mk.injEq, Except.error.injEq] at h
    obtain ⟨rfl, rfl⟩ := h
    exact .inl hs₁
  · rw [hask] at h
    obtain ⟨e', s₂, happlied, habsorb, hs₂⟩ | ⟨s₂, habsorb, hs₂⟩ :=
      absorb_cases sink (batchOf a) { p with requests := p.requests + 1 } s₁
    · rw [batchOf] at habsorb
      simp only [habsorb, Prod.mk.injEq, Except.error.injEq] at h
      obtain ⟨rfl, rfl⟩ := h
      exact .inr ⟨a, happlied, by simp [hs₂, hs₁, answeredEvents]⟩
    · rw [batchOf] at habsorb
      simp [habsorb] at h

/-- A request that succeeds was answered, and its batch absorbed. -/
theorem exchange_ok {service : Service σ} {sink : Sink φ} {label prompt : String}
    {p q : Progress} {edits : List Edit} {s s' : Session σ φ}
    (h : exchange service sink label prompt p s = (.ok (q, edits), s')) :
    ∃ a, q = { p with requests := p.requests + 1 }.absorbed (batchOf a) ∧ edits = batchOf a ∧
      s'.events = s.events ++ answeredEvents prompt p.code a := by
  unfold exchange at h
  obtain ⟨e, s₁, hask, hs₁⟩ | ⟨a, s₁, hask, hs₁⟩ := ask_cases service sink label prompt s
  · simp [hask] at h
  · rw [hask] at h
    obtain ⟨e, s₂, happlied, habsorb, hs₂⟩ | ⟨s₂, habsorb, hs₂⟩ :=
      absorb_cases sink (batchOf a) { p with requests := p.requests + 1 } s₁
    · rw [batchOf] at habsorb
      simp [habsorb] at h
    · rw [batchOf] at habsorb
      simp only [habsorb, Prod.mk.injEq, Except.ok.injEq] at h
      obtain ⟨⟨rfl, rfl⟩, rfl⟩ := h
      exact ⟨a, rfl, rfl, by simp [hs₂, hs₁, answeredEvents]⟩

/-! ## A whole run -/

/-- The prompt of a request by its number, counted from one: documentation and correction take
turns. -/
def Brief.prompt (b : Brief) (number : Nat) (code : List Char) : String :=
  if number % 2 = 1 then Prompt.documentation (String.ofList code) b.docs b.path
  else Prompt.correction (String.ofList code) b.path

/-- The next prompt of a loop that has come so far. -/
def Brief.nextPrompt (b : Brief) (p : Progress) : String :=
  b.prompt (p.requests + 1) p.code

/-- The progress after one more request with its batch. A pass takes two requests. -/
def Progress.next (p : Progress) (edits : List Edit) : Progress :=
  { p.absorbed edits with requests := p.requests + 1, passes := (p.requests + 2) / 2 }

@[simp] theorem Progress.next_code (p : Progress) (edits : List Edit) :
    (p.next edits).code = (patch edits p.code).code := rfl

@[simp] theorem Progress.next_requests (p : Progress) (edits : List Edit) :
    (p.next edits).requests = p.requests + 1 := rfl

@[simp] theorem Progress.next_passes (p : Progress) (edits : List Edit) :
    (p.next edits).passes = (p.requests + 2) / 2 := rfl

@[simp] theorem Progress.next_applied (p : Progress) (edits : List Edit) :
    (p.next edits).applied = p.applied + (patch edits p.code).applied := rfl

@[simp] theorem Progress.next_skipped (p : Progress) (edits : List Edit) :
    (p.next edits).skipped = p.skipped + (patch edits p.code).skipped := rfl

/-- The courses of a loop that may make so many more requests: what is seen of it, and its
result. -/
inductive Course (b : Brief) : Nat → Progress → List Event → Except Error Outcome → Prop where
  | refused (n p e) : Course b (n + 1) p [.asked (b.nextPrompt p), .refused e] (.error e)
  | lost (n p a e) (happlied : (patch (batchOf a) p.code).applied ≠ 0) :
      Course b (n + 1) p (answeredEvents (b.nextPrompt p) p.code a ++ [.lost e]) (.error e)
  | settled (n p a) (hidle : isConverged (batchOf a) = true) :
      Course b (n + 1) p (answeredEvents (b.nextPrompt p) p.code a)
        (.ok { p.next (batchOf a) with ending := .converged })
  | spent (p a) (hbusy : isConverged (batchOf a) = false) :
      Course b 1 p (answeredEvents (b.nextPrompt p) p.code a)
        (.ok { p.next (batchOf a) with ending := .capReached })
  | again {n p a events result} (hbusy : isConverged (batchOf a) = false)
      (rest : Course b (n + 1) (p.next (batchOf a)) events result) :
      Course b (n + 2) p (answeredEvents (b.nextPrompt p) p.code a ++ events) result

/-- The next request of a loop: an exchange over the next prompt. -/
def nextExchange (service : Service σ) (sink : Sink φ) (b : Brief) (label : String) (p : Progress)
    (s : Session σ φ) : Except Error (Progress × List Edit) × Session σ φ :=
  exchange service sink label (b.nextPrompt p) { p with passes := (p.requests + 2) / 2 } s

/-- The first request of a pass, when the requests before it make up whole passes. -/
theorem generate_eq_nextExchange (service : Service σ) (sink : Sink φ) (b : Brief) (p : Progress)
    (s : Session σ φ) (hp : p.requests = 2 * p.passes) :
    generate service sink b { p with passes := p.passes + 1 } s =
      nextExchange service sink b ("pass" ++ toString (p.passes + 1) ++ ".doc") p s := by
  have hodd : (p.requests + 1) % 2 = 1 := by omega
  have hpasses : (p.requests + 2) / 2 = p.passes + 1 := by omega
  simp [generate, nextExchange, Brief.nextPrompt, Brief.prompt, hodd, hpasses]

/-- The second request of a pass. -/
theorem correct_eq_nextExchange (service : Service σ) (sink : Sink φ) (b : Brief) (p : Progress)
    (s : Session σ φ) (hp : p.requests + 1 = 2 * p.passes) :
    correct service sink b p s =
      nextExchange service sink b ("pass" ++ toString p.passes ++ ".correction") p s := by
  have heven : (p.requests + 1) % 2 = 0 := by omega
  have hpasses : (p.requests + 2) / 2 = p.passes := by omega
  simp [correct, nextExchange, Brief.nextPrompt, Brief.prompt, heven, hpasses]

theorem nextExchange_error {service : Service σ} {sink : Sink φ} {b : Brief} {label : String}
    {p : Progress} {s s' : Session σ φ} {e : Error}
    (h : nextExchange service sink b label p s = (.error e, s')) (n : Nat) :
    ∃ events, s'.events = s.events ++ events ∧ Course b (n + 1) p events (.error e) := by
  obtain hs' | ⟨a, happlied, hs'⟩ := exchange_error h
  · exact ⟨_, hs', .refused n p e⟩
  · exact ⟨_, hs', .lost n p a e happlied⟩

theorem nextExchange_ok {service : Service σ} {sink : Sink φ} {b : Brief} {label : String}
    {p q : Progress} {edits : List Edit} {s s' : Session σ φ}
    (h : nextExchange service sink b label p s = (.ok (q, edits), s')) :
    ∃ a, q = p.next (batchOf a) ∧ edits = batchOf a ∧
      s'.events = s.events ++ answeredEvents (b.nextPrompt p) p.code a :=
  exchange_ok h

theorem generate_error {service : Service σ} {sink : Sink φ} {b : Brief} {p : Progress}
    {s s' : Session σ φ} {e : Error} (hp : p.requests = 2 * p.passes)
    (h : generate service sink b { p with passes := p.passes + 1 } s = (.error e, s')) (n : Nat) :
    ∃ events, s'.events = s.events ++ events ∧ Course b (n + 1) p events (.error e) := by
  rw [generate_eq_nextExchange service sink b p s hp] at h
  exact nextExchange_error h n

theorem generate_ok {service : Service σ} {sink : Sink φ} {b : Brief} {p q : Progress}
    {edits : List Edit} {s s' : Session σ φ} (hp : p.requests = 2 * p.passes)
    (h : generate service sink b { p with passes := p.passes + 1 } s = (.ok (q, edits), s')) :
    q.requests + 1 = 2 * q.passes ∧ ∃ a, q = p.next (batchOf a) ∧ edits = batchOf a ∧
      s'.events = s.events ++ answeredEvents (b.nextPrompt p) p.code a := by
  rw [generate_eq_nextExchange service sink b p s hp] at h
  obtain ⟨a, rfl, rfl, hs'⟩ := nextExchange_ok h
  refine ⟨?_, a, rfl, rfl, hs'⟩
  simp only [Progress.next_requests, Progress.next_passes]
  omega

theorem correct_error {service : Service σ} {sink : Sink φ} {b : Brief} {p : Progress}
    {s s' : Session σ φ} {e : Error} (hp : p.requests + 1 = 2 * p.passes)
    (h : correct service sink b p s = (.error e, s')) (n : Nat) :
    ∃ events, s'.events = s.events ++ events ∧ Course b (n + 1) p events (.error e) := by
  rw [correct_eq_nextExchange service sink b p s hp] at h
  exact nextExchange_error h n

theorem correct_ok {service : Service σ} {sink : Sink φ} {b : Brief} {p q : Progress}
    {edits : List Edit} {s s' : Session σ φ} (hp : p.requests + 1 = 2 * p.passes)
    (h : correct service sink b p s = (.ok (q, edits), s')) :
    q.requests = 2 * q.passes ∧ ∃ a, q = p.next (batchOf a) ∧ edits = batchOf a ∧
      s'.events = s.events ++ answeredEvents (b.nextPrompt p) p.code a := by
  rw [correct_eq_nextExchange service sink b p s hp] at h
  obtain ⟨a, rfl, rfl, hs'⟩ := nextExchange_ok h
  refine ⟨?_, a, rfl, rfl, hs'⟩
  simp only [Progress.next_requests, Progress.next_passes]
  omega

/-- The passes of a loop follow a course, two requests to a pass. -/
theorem passes_course (service : Service σ) (sink : Sink φ) (b : Brief) (left : Nat)
    (p : Progress) (s : Session σ φ) (hp : p.requests = 2 * p.passes) :
    ∃ events, (passes service sink b left p s).2.events = s.events ++ events ∧
      Course b (2 * left + 2) p events (passes service sink b left p s).1 := by
  fun_induction passes service sink b left p s with
  | case1 left p s e s₁ hgenerate => exact generate_error hp hgenerate (2 * left + 1)
  | case2 left p s q edits s₁ hgenerate hidle =>
      obtain ⟨-, a, rfl, rfl, hs₁⟩ := generate_ok hp hgenerate
      exact ⟨_, hs₁, .settled _ p a hidle⟩
  | case3 left p s q edits s₁ hgenerate hbusy e s₂ hcorrect =>
      obtain ⟨hq, a, rfl, rfl, hs₁⟩ := generate_ok hp hgenerate
      obtain ⟨events, hs₂, hcourse⟩ := correct_error hq hcorrect (2 * left)
      refine ⟨_, ?_, .again (Bool.eq_false_iff.mpr hbusy) hcourse⟩
      simp [hs₂, hs₁]
  | case4 left p s q edits s₁ hgenerate hbusy r corrections s₂ hcorrect hidle =>
      obtain ⟨hq, a, rfl, rfl, hs₁⟩ := generate_ok hp hgenerate
      obtain ⟨-, c, rfl, rfl, hs₂⟩ := correct_ok hq hcorrect
      refine ⟨_, ?_, .again (Bool.eq_false_iff.mpr hbusy) (.settled _ _ c hidle)⟩
      simp [hs₂, hs₁]
  | case5 p s q edits s₁ hgenerate hbusy r corrections s₂ hcorrect hbusy' =>
      obtain ⟨hq, a, rfl, rfl, hs₁⟩ := generate_ok hp hgenerate
      obtain ⟨-, c, rfl, rfl, hs₂⟩ := correct_ok hq hcorrect
      refine ⟨_, ?_, .again (Bool.eq_false_iff.mpr hbusy)
        (.spent _ c (Bool.eq_false_iff.mpr hbusy'))⟩
      simp [hs₂, hs₁]
  | case6 p s q edits s₁ hgenerate hbusy r corrections s₂ hcorrect hbusy' left ih =>
      obtain ⟨hq, a, rfl, rfl, hs₁⟩ := generate_ok hp hgenerate
      obtain ⟨hr, c, rfl, rfl, hs₂⟩ := correct_ok hq hcorrect
      obtain ⟨events, hevents, hcourse⟩ := ih hr
      refine ⟨_, ?_, .again (Bool.eq_false_iff.mpr hbusy)
        (.again (Bool.eq_false_iff.mpr hbusy') hcourse)⟩
      simp [hevents, hs₂, hs₁]

/-- Every run of the edit loop follows a course: of two requests for each pass allowed, and of one
pass where none is. -/
theorem editLoop_course (service : Service σ) (sink : Sink φ) (maxPasses : Nat) (b : Brief)
    (source : String) (s : Session σ φ) :
    ∃ trace, (editLoop service sink maxPasses b source s).2.events = s.events ++ trace ∧
      Course b (2 * max 1 maxPasses) { code := source.toList } trace
        (editLoop service sink maxPasses b source s).1 := by
  have hallowed : 2 * max 1 maxPasses = 2 * (maxPasses - 1) + 2 := by omega
  rw [hallowed]
  exact passes_course service sink b (maxPasses - 1) { code := source.toList } s rfl

end DocTransfer.Transfer
