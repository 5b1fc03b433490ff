import DocTransfer.Proofs.Edit.Patch
import DocTransfer.Proofs.Text.Occurrence

/-! # What a batch of edits does

Two rules describe a batch: an edit that fits puts its new text in the place of the first occurrence
of the old one, and any other edit is passed over. The rules do not call the search, and every batch
follows them in one way only. -/

namespace DocTransfer.Transfer

open Text

/-! ## One edit -/

/-- An edit fits a text if both sides are there and differ, and the old one is not empty and
occurs. -/
def Edit.Fits (e : Edit) (code : List Char) : Prop :=
  ∃ old new, e = { old := some old, new := some new } ∧ old ≠ "" ∧ old ≠ new ∧
    old.toList <:+: code

/-- The first occurrence of the old text gives way to the new one, taken literally. -/
inductive Edit.Replaces : Edit → List Char → List Char → Prop where
  | first {old new : String} {code before after : List Char} (hold : old ≠ "") (hne : old ≠ new)
      (hfirst : FirstOccurrence old.toList code before after) :
      Edit.Replaces { old := some old, new := some new } code (before ++ new.toList ++ after)

namespace Edit

variable {e : Edit} {code next : List Char}

theorem result?_eq_some_iff : e.result? code = some next ↔ e.Replaces code next := by
  constructor
  · intro h
    obtain ⟨_ | old, _ | new⟩ := e
    · cases h
    · cases h
    · cases h
    · simp only [result?, String.toList_eq_nil_iff] at h
      split at h
      · cases h
      · next hproper =>
          obtain ⟨⟨before, after⟩, hsplit, rfl⟩ := Option.map_eq_some_iff.mp h
          obtain ⟨hold, hne⟩ := not_or.mp hproper
          exact .first hold hne (splitFirst?_eq_some_iff.mp hsplit)
  · rintro ⟨hold, hne, hfirst⟩
    simp [result?, hold, hne, splitFirst?_eq_some_iff.mpr hfirst]

/-- The edits that fit are those that have something to replace. -/
theorem fits_iff : e.Fits code ↔ ∃ next, e.Replaces code next := by
  constructor
  · rintro ⟨old, new, rfl, hold, hne, hoccurs⟩
    cases hsplit : splitFirst? old.toList code with
    | none => exact absurd hoccurs (splitFirst?_eq_none_iff.mp hsplit)
    | some parts => exact ⟨_, .first hold hne (splitFirst?_eq_some_iff.mp hsplit)⟩
  · rintro ⟨_, hold, hne, hfirst⟩
    exact ⟨_, _, rfl, hold, hne, hfirst.isInfix⟩

theorem result?_eq_none_iff : e.result? code = none ↔ ¬ e.Fits code := by
  rw [fits_iff, Option.eq_none_iff_forall_ne_some, not_exists]
  simp only [ne_eq, result?_eq_some_iff]

/-- An edit that is applied changes the text. -/
theorem Replaces.ne (h : e.Replaces code next) : next ≠ code := by
  cases h with
  | first hold hne hfirst =>
      intro heq
      rw [hfirst.eq_append, List.append_assoc] at heq
      have hsides := List.append_cancel_right (List.append_cancel_left heq)
      exact hne (String.toList_inj.mp hsides).symm

end Edit

/-! ## A batch -/

theorem patch_cons_of_replaces {e : Edit} {code next : List Char} (h : e.Replaces code next)
    (edits : List Edit) :
    patch (e :: edits) code =
      { patch edits next with applied := (patch edits next).applied + 1 } := by
  have hsingle : patch [e] code = { code := next, applied := 1 } := by
    simp [patch, Patched.step, Edit.result?_eq_some_iff.mpr h]
  rw [← List.singleton_append, patch_append, hsingle]
  simp [Patched.andThen, Nat.add_comm]

theorem patch_cons_of_not_fits {e : Edit} {code : List Char} (h : ¬ e.Fits code)
    (edits : List Edit) :
    patch (e :: edits) code =
      { patch edits code with skipped := (patch edits code).skipped + 1 } := by
  rw [← List.singleton_append, patch_append,
    patch_singleton_of_result?_none (Edit.result?_eq_none_iff.mpr h)]
  simp [Patched.andThen, Nat.add_comm]

/-- How a batch goes through a text, edit by edit, with the count of those applied and of those
passed over. -/
inductive Revision : List Edit → List Char → Patched → Prop where
  | done (code) : Revision [] code { code }
  | applied {e edits code next p} (h : e.Replaces code next) (rest : Revision edits next p) :
      Revision (e :: edits) code { p with applied := p.applied + 1 }
  | skipped {e edits code p} (h : ¬ e.Fits code) (rest : Revision edits code p) :
      Revision (e :: edits) code { p with skipped := p.skipped + 1 }

theorem Revision.execution {edits : List Edit} {code : List Char} {p : Patched}
    (h : Revision edits code p) : patch edits code = p := by
  induction h with
  | done code => rfl
  | applied h _ ih => rw [patch_cons_of_replaces h, ih]
  | skipped h _ ih => rw [patch_cons_of_not_fits h, ih]

theorem patch_revision (edits : List Edit) (code : List Char) :
    Revision edits code (patch edits code) := by
  induction edits generalizing code with
  | nil => exact .done code
  | cons e edits ih =>
      by_cases hfits : e.Fits code
      · obtain ⟨next, hnext⟩ := Edit.fits_iff.mp hfits
        rw [patch_cons_of_replaces hnext]
        exact .applied hnext (ih next)
      · rw [patch_cons_of_not_fits hfits]
        exact .skipped hfits (ih code)

theorem revision_iff {edits : List Edit} {code : List Char} {p : Patched} :
    Revision edits code p ↔ patch edits code = p := by
  refine ⟨Revision.execution, ?_⟩
  rintro rfl
  exact patch_revision edits code

/-- Every edit of a batch is counted once. -/
theorem Revision.applied_add_skipped {edits : List Edit} {code : List Char} {p : Patched}
    (h : Revision edits code p) : p.applied + p.skipped = edits.length := by
  induction h with
  | done code => rfl
  | applied h _ ih =>
      simp only [List.length_cons]
      omega
  | skipped h _ ih =>
      simp only [List.length_cons]
      omega

/-- A single edit leaves the text as it is only when it is passed over. -/
theorem patch_singleton_code_eq_iff (e : Edit) (code : List Char) :
    (patch [e] code).code = code ↔ (patch [e] code).applied = 0 := by
  refine ⟨?_, patch_code_of_applied_eq_zero⟩
  by_cases hfits : e.Fits code
  · obtain ⟨next, hnext⟩ := Edit.fits_iff.mp hfits
    rw [patch_cons_of_replaces hnext]
    intro heq
    exact absurd heq hnext.ne
  · rw [patch_cons_of_not_fits hfits]
    intro _
    rfl

/-- What a batch does, in full. It follows the two rules, and nothing else does; each of its edits
is counted as applied or as skipped; an edit changes the text exactly when it is applied; and a
batch after another does what the two do as one, counts added up. -/
theorem patch_exact (edits : List Edit) (code : List Char) :
    (∀ p, patch edits code = p ↔ Revision edits code p) ∧
    (patch edits code).applied + (patch edits code).skipped = edits.length ∧
    (∀ e, (patch [e] code).code = code ↔ (patch [e] code).applied = 0) ∧
    ∀ more, patch (edits ++ more) code =
      { code := (patch more (patch edits code).code).code
        applied := (patch edits code).applied + (patch more (patch edits code).code).applied
        skipped := (patch edits code).skipped + (patch more (patch edits code).code).skipped } := by
  refine ⟨?_, ?_, ?_, ?_⟩
  · intro p
    exact revision_iff.symm
  · exact (patch_revision edits code).applied_add_skipped
  · intro e
    exact patch_singleton_code_eq_iff e code
  · intro more
    exact patch_append edits more code

/-- Of occurrences that overlap the first one gives way, and the text is not searched again. -/
example : patch [{ old := some "aa", new := some "aba" }] "caaa".toList =
    { code := "cabaa".toList, applied := 1 } := by decide +kernel

end DocTransfer.Transfer
