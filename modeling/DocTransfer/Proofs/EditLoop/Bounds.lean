import DocTransfer.Proofs.EditLoop.Refinement

/-! # How long an edit loop runs and how it ends

A pass costs at most two requests. The loop ends with the first batch that has nothing left to
change, and such a batch leaves alone the text it was asked about; only when no batch is of that
kind are all passes spent. -/

namespace DocTransfer.Transfer

open Model

/-- A course makes no more requests than it may, whatever its result. -/
theorem Course.length_prompts_le {b : Brief} {n : Nat} {p : Progress} {events : List Event}
    {result : Except Error Outcome} (h : Course b n p events result) :
    (prompts events).length ≤ n := by
  induction h with
  | refused => simp
  | lost => simp
  | settled => simp
  | spent => simp
  | again hbusy _ ih =>
      simp only [prompts_append, prompts_answeredEvents, List.length_append, List.length_singleton]
      omega

/-- Every other request opens a pass. -/
theorem Course.passes_eq {b : Brief} {n : Nat} {p : Progress} {events : List Event}
    {o : Outcome} (h : Course b n p events (.ok o)) : o.passes = (o.requests + 1) / 2 := by
  generalize hresult : Except.ok o = result at h
  induction h with
  | refused => cases hresult
  | lost => cases hresult
  | settled =>
      cases hresult
      rfl
  | spent =>
      cases hresult
      rfl
  | again hbusy _ ih => exact ih hresult

/-- A batch list that ends with its first batch that has nothing left to change. -/
def EndsIdle (received : List (List Edit)) : Prop :=
  ∃ earlier last, received = earlier ++ [last] ∧ isConverged last = true ∧
    ∀ edits ∈ earlier, isConverged edits = false

/-- A batch list in which every batch has something left to change. -/
def AllBusy (received : List (List Edit)) : Prop :=
  ∀ edits ∈ received, isConverged edits = false

theorem EndsIdle.not_allBusy {received : List (List Edit)} (h : EndsIdle received) :
    ¬ AllBusy received := by
  obtain ⟨earlier, last, rfl, hidle, -⟩ := h
  intro hbusy
  have hlast := hbusy last (by simp)
  simp [hidle] at hlast

/-- A course that comes to an end converges on the text in its last prompt, or uses up its requests
on batches with something left to change. -/
theorem Course.ending_cases {b : Brief} {n : Nat} {p : Progress} {events : List Event}
    {o : Outcome} (h : Course b n p events (.ok o)) :
    (o.ending = .converged ∧ EndsIdle (batches events) ∧
      (prompts events).getLast? = some (b.prompt o.requests o.code)) ∨
    (o.ending = .capReached ∧ AllBusy (batches events) ∧ (batches events).length = n) := by
  generalize hresult : Except.ok o = result at h
  induction h with
  | refused => cases hresult
  | lost => cases hresult
  | settled n p a hidle =>
      cases hresult
      refine .inl ⟨rfl, ⟨[], batchOf a, by simp, hidle, by simp⟩, ?_⟩
      simp [Brief.nextPrompt, patch_code_of_isConverged hidle]
  | spent p a hbusy =>
      cases hresult
      exact .inr ⟨rfl, by simpa [AllBusy] using hbusy, by simp⟩
  | @again n p a events result hbusy _ ih =>
      obtain ⟨hend, ⟨earlier, last, hreceived, hidle, hearlier⟩, hprompt⟩ | ⟨hend, hall, hlength⟩ :=
        ih hresult
      · refine .inl ⟨hend, ⟨batchOf a :: earlier, last, by simp [hreceived], hidle, ?_⟩, ?_⟩
        · simpa [hbusy] using hearlier
        · simp [List.getLast?_cons, hprompt]
      · refine .inr ⟨hend, ?_, by simp [hlength]⟩
        simpa [AllBusy, hbusy] using hall

variable {σ φ : Type}

/-- An edit loop makes at most two requests for each pass allowed, also when it fails, and one pass
is always allowed. When it comes to an end, the counts tell where: the cap is reached exactly when
all allowed requests brought batches with something left to change, and the loop has converged
exactly when the last batch is the first without; then the text is the one in the last prompt. -/
theorem editLoop_bound_and_ending (service : Service σ) (sink : Sink φ) (maxPasses : Nat)
    (b : Brief) (source : String) (s : Session σ φ) :
    ∃ trace, (editLoop service sink maxPasses b source s).2.events = s.events ++ trace ∧
      (prompts trace).length ≤ 2 * max 1 maxPasses ∧
      ∀ o, (editLoop service sink maxPasses b source s).1 = .ok o →
        1 ≤ o.passes ∧ o.passes ≤ max 1 maxPasses ∧
        (o.requests = 2 * o.passes ∨ o.requests = 2 * o.passes - 1) ∧
        (prompts trace).length = o.requests ∧ (batches trace).length = o.requests ∧
        (o.ending = .capReached ↔
          o.passes = max 1 maxPasses ∧ o.requests = 2 * max 1 maxPasses ∧
            ∀ edits ∈ batches trace, isConverged edits = false) ∧
        (o.ending = .converged ↔
          ∃ earlier last, batches trace = earlier ++ [last] ∧ isConverged last = true ∧
            ∀ edits ∈ earlier, isConverged edits = false) ∧
        (o.ending = .converged →
          (prompts trace).getLast? = some (b.prompt o.requests o.code)) := by
  obtain ⟨trace, htrace, hcourse⟩ := editLoop_course service sink maxPasses b source s
  refine ⟨trace, htrace, hcourse.length_prompts_le, ?_⟩
  intro o ho
  rw [ho] at hcourse
  obtain ⟨-, -, -, hrequests⟩ := hcourse.outcome_eq_patch
  have hlength := hcourse.length_prompts
  have hbound := hcourse.length_prompts_le
  have hpasses := hcourse.passes_eq
  rw [Nat.zero_add] at hrequests
  obtain ⟨hend, hidle, hprompt⟩ | ⟨hend, hbusy, hspent⟩ := hcourse.ending_cases
  · have hpos : 0 < (batches trace).length := by
      obtain ⟨earlier, last, hreceived, -⟩ := hidle
      simp [hreceived]
    refine ⟨by omega, by omega, by omega, by omega, by omega, ?_, ?_, fun _ => hprompt⟩
    · simp only [hend, reduceCtorEq, false_iff]
      rintro ⟨-, -, hbusy⟩
      exact hidle.not_allBusy hbusy
    · exact iff_of_true hend hidle
  · refine ⟨by omega, by omega, by omega, by omega, by omega, ?_, ?_, by simp [hend]⟩
    · exact iff_of_true hend ⟨by omega, by omega, hbusy⟩
    · simp only [hend, reduceCtorEq, false_iff]
      intro hidle
      exact EndsIdle.not_allBusy hidle hbusy

end DocTransfer.Transfer
