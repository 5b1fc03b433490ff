import DocTransfer.Proofs.Edit.Semantics
import Mathlib.Data.List.Count

/-! # An edit that keeps its old text never comes to rest

A comment put around a piece of code leaves that piece in the text. So the same edit fits again, and
each run of it puts the comment in once more, wherever the first occurrence has moved to. -/

namespace DocTransfer.Transfer

/-- The edit that puts texts before and after a text that stays. -/
def Edit.surround (old before after : String) : Edit where
  old := some old
  new := some (before ++ old ++ after)

/-- The text after so many runs of a batch, each on what the run before it has left. -/
def rerun (edits : List Edit) : Nat → List Char → List Char
  | 0, code => code
  | n + 1, code => (patch edits (rerun edits n code)).code

namespace Edit

variable {old before after : String}

theorem isIdle_surround (hgrows : before ≠ "" ∨ after ≠ "") :
    (surround old before after).isIdle = false := by
  have hne : old ≠ before ++ old ++ after := by
    intro heq
    have hlength := congrArg String.length heq
    simp only [String.length_append] at hlength
    rcases hgrows with hbefore | hafter
    · have hpos := String.length_eq_zero_iff.not.mpr hbefore
      omega
    · have hpos := String.length_eq_zero_iff.not.mpr hafter
      omega
  simpa [surround, isIdle] using hne

theorem fits_surround {code : List Char} (hold : old ≠ "") (hgrows : before ≠ "" ∨ after ≠ "")
    (hoccurs : old.toList <:+: code) : (surround old before after).Fits code := by
  have hbusy : (surround old before after).isIdle = false := isIdle_surround hgrows
  refine ⟨old, before ++ old ++ after, rfl, hold, ?_, hoccurs⟩
  simpa [surround, isIdle] using hbusy

/-- The old text is still there afterwards. -/
theorem Replaces.infix_of_surround {code next : List Char}
    (h : (surround old before after).Replaces code next) : old.toList <:+: next := by
  cases h with
  | @first _ _ _ start rest hold hne hfirst =>
      exact ⟨start ++ before.toList, after.toList ++ rest, by simp⟩

/-- The characters of a text afterwards are those from before and those put around the old text. -/
theorem Replaces.perm_of_surround {code next : List Char}
    (h : (surround old before after).Replaces code next) :
    next.Perm (code ++ (before.toList ++ after.toList)) := by
  cases h with
  | first hold hne hfirst =>
      rw [hfirst.eq_append, List.perm_iff_count]
      intro c
      simp only [String.toList_append, List.count_append]
      omega

end Edit

open Edit

section Rerun

variable {old before after : String} {code : List Char} (hold : old ≠ "")
  (hgrows : before ≠ "" ∨ after ≠ "") (hoccurs : old.toList <:+: code)

include hold hgrows hoccurs

/-- One more run is one more replacement. -/
theorem patch_surround :
    ∃ next, (surround old before after).Replaces code next ∧
      patch [surround old before after] code = { code := next, applied := 1 } := by
  obtain ⟨next, hnext⟩ := fits_iff.mp (fits_surround hold hgrows hoccurs)
  exact ⟨next, hnext, patch_cons_of_replaces hnext []⟩

theorem infix_rerun (n : Nat) : old.toList <:+: rerun [surround old before after] n code := by
  induction n with
  | zero => exact hoccurs
  | succ n ih =>
      obtain ⟨next, hnext, hpatch⟩ := patch_surround hold hgrows ih
      rw [rerun, hpatch]
      exact hnext.infix_of_surround

theorem patch_rerun (n : Nat) :
    patch [surround old before after] (rerun [surround old before after] n code) =
      { code := rerun [surround old before after] (n + 1) code, applied := 1 } := by
  obtain ⟨next, -, hpatch⟩ := patch_surround hold hgrows (infix_rerun hold hgrows hoccurs n)
  rw [rerun, hpatch]

/-- After so many runs the text holds so many copies more of what the edit inserts. -/
theorem perm_rerun (n : Nat) :
    (rerun [surround old before after] n code).Perm
      (code ++ (List.replicate n (before.toList ++ after.toList)).flatten) := by
  induction n with
  | zero => simp [rerun]
  | succ n ih =>
      obtain ⟨next, hnext, hpatch⟩ := patch_surround hold hgrows (infix_rerun hold hgrows hoccurs n)
      rw [rerun, hpatch, List.replicate_succ', List.flatten_append, List.flatten_singleton,
        ← List.append_assoc]
      exact hnext.perm_of_surround.trans (ih.append_right _)

theorem length_rerun (n : Nat) :
    (rerun [surround old before after] n code).length =
      code.length + n * (before.length + after.length) := by
  have hlength := (perm_rerun hold hgrows hoccurs n).length_eq
  simpa [String.length_toList] using hlength

/-- As many copies of the edit in one batch are as many runs. -/
theorem patch_replicate (n : Nat) :
    patch (List.replicate n (surround old before after)) code =
      { code := rerun [surround old before after] n code, applied := n } := by
  induction n with
  | zero => rfl
  | succ n ih =>
      rw [List.replicate_succ', patch_append, ih, patch_rerun hold hgrows hoccurs]
      rfl

end Rerun

end DocTransfer.Transfer
