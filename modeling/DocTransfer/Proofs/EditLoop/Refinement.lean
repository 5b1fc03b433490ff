import DocTransfer.Proofs.EditLoop.Semantics
import Mathlib.Control.Monad.Basic

/-! # An edit loop is one patch

The loop changes its text batch by batch and asks about what it has made of it so far. In the end
this is what one patch with all received edits does, and each prompt shows what one patch with the
edits received before it does. -/

namespace DocTransfer.Transfer

open Model

/-- The text after the first batches of a list. -/
def textAfter (source : List Char) (received : List (List Edit)) (count : Nat) : List Char :=
  (patch (received.take count).flatten source).code

@[simp] theorem textAfter_zero (source : List Char) (received : List (List Edit)) :
    textAfter source received 0 = source := rfl

@[simp] theorem textAfter_cons_succ (source : List Char) (edits : List Edit)
    (received : List (List Edit)) (count : Nat) :
    textAfter source (edits :: received) (count + 1) =
      textAfter (patch edits source).code received count := by
  simp [textAfter]

/-- A course that comes to an end leaves the text and the counts of one patch. -/
theorem Course.outcome_eq_patch {b : Brief} {n : Nat} {p : Progress} {events : List Event}
    {o : Outcome} (h : Course b n p events (.ok o)) :
    o.code = (patch (batches events).flatten p.code).code ∧
    o.applied = p.applied + (patch (batches events).flatten p.code).applied ∧
    o.skipped = p.skipped + (patch (batches events).flatten p.code).skipped ∧
    o.requests = p.requests + (batches events).length := by
  generalize hresult : Except.ok o = result at h
  induction h with
  | refused => cases hresult
  | lost => cases hresult
  | settled n p a hidle =>
      cases hresult
      simp
  | spent p a hbusy =>
      cases hresult
      simp
  | again hbusy _ ih =>
      obtain ⟨hcode, happlied, hskipped, hrequests⟩ := ih hresult
      simp only [Progress.next_code, Progress.next_applied, Progress.next_skipped,
        Progress.next_requests] at hcode happlied hskipped hrequests
      simp only [batches_append, batches_answeredEvents, List.singleton_append, List.flatten_cons,
        patch_append_code, patch_append_applied, patch_append_skipped, List.length_cons]
      refine ⟨hcode, ?_, ?_, ?_⟩
      · rw [happlied, Nat.add_assoc]
      · rw [hskipped, Nat.add_assoc]
      · omega

/-- In a course that comes to an end every prompt is answered. -/
theorem Course.length_prompts {b : Brief} {n : Nat} {p : Progress} {events : List Event}
    {o : Outcome} (h : Course b n p events (.ok o)) :
    (prompts events).length = (batches events).length := by
  generalize hresult : Except.ok o = result at h
  induction h with
  | refused => cases hresult
  | lost => cases hresult
  | settled => simp
  | spent => simp
  | again hbusy _ ih => simp [ih hresult]

/-- Each prompt of a course shows the text as the batches received before it leave it. -/
theorem Course.prompts_eq_map {b : Brief} {n : Nat} {p : Progress} {events : List Event}
    {result : Except Error Outcome} (h : Course b n p events result) :
    prompts events = (List.range (prompts events).length).map fun i =>
      b.prompt (p.requests + i + 1) (textAfter p.code (batches events) i) := by
  induction h with
  | refused n p e => simp [Brief.nextPrompt]
  | lost n p a e happlied => simp [Brief.nextPrompt]
  | settled n p a hidle => simp [Brief.nextPrompt]
  | spent p a hbusy => simp [Brief.nextPrompt]
  | @again n p a events result hbusy _ ih =>
      simp only [Progress.next_requests, Progress.next_code] at ih
      simp only [prompts_append, prompts_answeredEvents, batches_append, batches_answeredEvents,
        List.singleton_append, List.length_cons, List.range_succ_eq_map, List.map_cons,
        List.map_map, Function.comp_def, textAfter_zero, textAfter_cons_succ, Nat.succ_eq_add_one]
      have hshift : ∀ i, p.requests + (i + 1) + 1 = p.requests + 1 + i + 1 := by omega
      simp only [hshift, ← ih]
      rfl

variable {σ φ : Type}

/-- A loop that comes to an end has done what one patch with all received edits does: text and
counts are those of the patch, each answer counts as one request, and each prompt shows the text
after the batches received before it, documentation and correction in turns. -/
theorem editLoop_eq_flat_patch (service : Service σ) (sink : Sink φ) (maxPasses : Nat) (b : Brief)
    (source : String) (s : Session σ φ) (o : Outcome)
    (h : (editLoop service sink maxPasses b source s).1 = .ok o) :
    ∃ trace, (editLoop service sink maxPasses b source s).2.events = s.events ++ trace ∧
      { code := o.code, applied := o.applied, skipped := o.skipped } =
        patch (batches trace).flatten source.toList ∧
      o.requests = (batches trace).length ∧
      prompts trace = (List.range o.requests).map fun i =>
        b.prompt (i + 1) (patch ((batches trace).take i).flatten source.toList).code := by
  obtain ⟨trace, htrace, hcourse⟩ := editLoop_course service sink maxPasses b source s
  rw [h] at hcourse
  obtain ⟨hcode, happlied, hskipped, hrequests⟩ := hcourse.outcome_eq_patch
  refine ⟨trace, htrace, ?_, ?_, ?_⟩
  · simp [hcode, happlied, hskipped]
  · simpa using hrequests
  · have hprompts := hcourse.prompts_eq_map
    rw [hcourse.length_prompts] at hprompts
    simpa [textAfter, hrequests] using hprompts

/-- A model that gives the answers of a list one by one, and refuses when none is left. -/
def scripted : Service (List String) where
  provider := "scripted"
  model := "scripted-1"
  complete script _ _ :=
    match script with
    | [] => (.error (.model "scripted" "script exhausted"), [])
    | text :: rest => (.ok { text }, rest)

/-- A sink that takes every text and keeps none. -/
def silent : Sink Unit where
  store _ _ := (.ok (), ())
  dump _ _ _ := ()

/-- A text is documented, the comment corrected, and the second pass finds nothing more to do. -/
def correctedScript : Session (List String) Unit where
  model :=
    ["[\x7b\"oldString\":\"class\",\"newString\":\"/** A. */\\nclass\"\x7d]",
     "[\x7b\"oldString\":\"A.\",\"newString\":\"B.\"\x7d,[\"x\",\"y\"]]", "[]"]
  sink := ()

theorem editLoop_eq_flat_patch_scripted :
    ∃ o : Outcome,
      (editLoop scripted silent 2 ⟨[], "A.cs"⟩ "class A" correctedScript).1 = .ok o ∧
      o.code = "/** B. */\nclass A".toList ∧ o.applied = 2 ∧ o.skipped = 1 ∧
      ∃ trace,
        (editLoop scripted silent 2 ⟨[], "A.cs"⟩ "class A" correctedScript).2.events =
          correctedScript.events ++ trace ∧
        { code := o.code, applied := o.applied, skipped := o.skipped } =
          patch (batches trace).flatten "class A".toList ∧
        o.requests = (batches trace).length ∧
        prompts trace = (List.range o.requests).map fun i =>
          Brief.prompt ⟨[], "A.cs"⟩ (i + 1)
            (patch ((batches trace).take i).flatten "class A".toList).code := by
  have hend : (editLoop scripted silent 2 ⟨[], "A.cs"⟩ "class A" correctedScript).1 =
      .ok { code := "/** B. */\nclass A".toList, passes := 2, requests := 3, applied := 2,
            skipped := 1, ending := .converged } := by decide +kernel
  exact ⟨_, hend, rfl, rfl, rfl, editLoop_eq_flat_patch _ _ _ _ _ _ _ hend⟩

end DocTransfer.Transfer
