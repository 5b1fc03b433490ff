import DocTransfer.Proofs.Edit.Insertion
import DocTransfer.Proofs.EditLoop.CrashSafety

/-! # Insertions never lose code

A loop that receives only insertions hands over texts that grow: each one holds the one before it,
and the source, character by character and in order. -/

namespace DocTransfer.Transfer

open Model

/-- No batch of a list takes anything away. -/
def OnlyInserts (received : List (List Edit)) : Prop :=
  ∀ edits ∈ received, ∀ e ∈ edits, e.Inserts

instance (received : List (List Edit)) : Decidable (OnlyInserts received) :=
  inferInstanceAs (Decidable (∀ edits ∈ received, ∀ e ∈ edits, e.Inserts))

theorem OnlyInserts.sublist_patch {received : List (List Edit)} (h : OnlyInserts received)
    (code : List Char) : code.Sublist (patch received.flatten code).code := by
  apply Transfer.sublist_patch
  intro e he
  obtain ⟨edits, hedits, hmem⟩ := List.mem_flatten.mp he
  exact h edits hedits e hmem

/-- What the first batches have made of the source is left whole by those that follow. -/
theorem textAfter_sublist {received : List (List Edit)} (hinserts : OnlyInserts received)
    (source : List Char) {j k : Nat} (hjk : j ≤ k) :
    (textAfter source received j).Sublist (textAfter source received k) := by
  obtain ⟨more, rfl⟩ := Nat.exists_eq_add_of_le hjk
  have hlater : OnlyInserts ((received.drop j).take more) := by
    intro edits hedits
    exact hinserts edits (List.mem_of_mem_drop (List.mem_of_mem_take hedits))
  rw [textAfter, textAfter, List.take_add, List.flatten_append, patch_append_code]
  exact hlater.sublist_patch _

theorem pairwise_storedTexts {received : List (List Edit)} (hinserts : OnlyInserts received)
    (source : List Char) :
    (storedTexts source received).Pairwise fun earlier later =>
      earlier.toList.Sublist later.toList := by
  have hsorted : (effective source received).Pairwise (· < ·) :=
    List.pairwise_lt_range.sublist List.filter_sublist
  rw [storedTexts, List.pairwise_map]
  refine hsorted.imp ?_
  intro j k hjk
  simpa using textAfter_sublist hinserts source (Nat.succ_le_succ hjk.le)

theorem sublist_of_mem_storedTexts {received : List (List Edit)} (hinserts : OnlyInserts received)
    {source : List Char} {text : String} (h : text ∈ storedTexts source received) :
    source.Sublist text.toList := by
  obtain ⟨k, -, rfl⟩ := List.mem_map.mp h
  simpa using textAfter_sublist hinserts source (Nat.zero_le (k + 1))

variable {σ φ : Type}

/-- When all edits that a loop receives only insert, no text that it hands over or ends with has
lost anything: each holds the source, and each text handed over holds those before it. -/
theorem editLoop_never_loses (service : Service σ) (sink : Sink φ) (maxPasses : Nat) (b : Brief)
    (source : String) (s : Session σ φ) :
    ∃ trace, (editLoop service sink maxPasses b source s).2.events = s.events ++ trace ∧
      (OnlyInserts (batches trace) →
        (∀ text ∈ handed trace, source.toList.Sublist text.toList) ∧
        ((handed trace).Pairwise fun earlier later => earlier.toList.Sublist later.toList) ∧
        ∀ o, (editLoop service sink maxPasses b source s).1 = .ok o →
          source.toList.Sublist o.code) := by
  obtain ⟨trace, htrace, hcourse⟩ := editLoop_course service sink maxPasses b source s
  refine ⟨trace, htrace, ?_⟩
  intro hinserts
  rw [hcourse.handed_eq]
  refine ⟨?_, pairwise_storedTexts hinserts source.toList, ?_⟩
  · intro text htext
    exact sublist_of_mem_storedTexts hinserts htext
  · intro o ho
    rw [ho] at hcourse
    rw [hcourse.outcome_eq_patch.1]
    exact hinserts.sublist_patch source.toList

/-- A comment is put in and then made longer; the edit without a new text is passed over. -/
def growingScript : Session (List String) Unit where
  model :=
    ["[\x7b\"oldString\":\"class\",\"newString\":\"/** A. */\\nclass\"\x7d]",
     "[\x7b\"oldString\":\"A.\",\"newString\":\"A b.\"\x7d,[\"x\"]]", "[]"]
  sink := ()

theorem editLoop_never_loses_growing :
    ∃ trace,
      (editLoop scripted silent 2 ⟨[], "A.cs"⟩ "class A" growingScript).2.events =
        growingScript.events ++ trace ∧
      OnlyInserts (batches trace) ∧
      handed trace = ["/** A. */\nclass A", "/** A b. */\nclass A"] ∧
      (∀ text ∈ handed trace, "class A".toList.Sublist text.toList) ∧
      ((handed trace).Pairwise fun earlier later => earlier.toList.Sublist later.toList) ∧
      ∃ o, (editLoop scripted silent 2 ⟨[], "A.cs"⟩ "class A" growingScript).1 = .ok o ∧
        "class A".toList.Sublist o.code := by
  have hseen :
      OnlyInserts (batches
        (editLoop scripted silent 2 ⟨[], "A.cs"⟩ "class A" growingScript).2.events) ∧
      handed (editLoop scripted silent 2 ⟨[], "A.cs"⟩ "class A" growingScript).2.events =
        ["/** A. */\nclass A", "/** A b. */\nclass A"] := by decide +kernel
  have hend : (editLoop scripted silent 2 ⟨[], "A.cs"⟩ "class A" growingScript).1 =
      .ok { code := "/** A b. */\nclass A".toList, passes := 2, requests := 3, applied := 2,
            skipped := 1, ending := .converged } := by decide +kernel
  obtain ⟨trace, htrace, hkept⟩ :=
    editLoop_never_loses scripted silent 2 ⟨[], "A.cs"⟩ "class A" growingScript
  -- the session starts with an empty record, so the trace is all of what is seen
  have hevents : growingScript.events ++ trace = trace := rfl
  rw [htrace, hevents] at hseen
  obtain ⟨hinserts, hhanded⟩ := hseen
  obtain ⟨hsource, hearlier, hcode⟩ := hkept hinserts
  exact ⟨trace, htrace, hinserts, hhanded, hsource, hearlier, _, hend, hcode _ hend⟩

end DocTransfer.Transfer
