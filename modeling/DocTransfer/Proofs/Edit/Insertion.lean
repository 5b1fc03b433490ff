import DocTransfer.Proofs.Edit.Semantics

/-! # Edits that only insert

An edit whose old text is left, in order, within the new one takes no character out of a text. So a
batch of such edits leaves the whole text in place, whatever the edits before have put into it and
wherever the next one finds its occurrence. -/

namespace DocTransfer.Transfer

/-- Where both sides are there, the characters of the old one stand in the new one in the same
order. -/
def Edit.Inserts (e : Edit) : Prop :=
  ∀ old ∈ e.old, ∀ new ∈ e.new, old.toList.Sublist new.toList

instance (e : Edit) : Decidable e.Inserts :=
  inferInstanceAs (Decidable (∀ old ∈ e.old, ∀ new ∈ e.new, old.toList.Sublist new.toList))

theorem Edit.Inserts.sublist {e : Edit} {code next : List Char} (hinserts : e.Inserts)
    (h : e.Replaces code next) : code.Sublist next := by
  cases h with
  | first hold hne hfirst =>
      have hsides := hinserts _ rfl _ rfl
      rw [hfirst.eq_append, List.append_assoc]
      exact (hsides.append_right _).append_left _

/-- A text outlives every revision by edits that only insert. -/
theorem Revision.sublist {edits : List Edit} {code : List Char} {p : Patched}
    (h : Revision edits code p) (hinserts : ∀ e ∈ edits, e.Inserts) : code.Sublist p.code := by
  induction h with
  | done code => exact .refl code
  | applied h _ ih =>
      obtain ⟨hfirst, hrest⟩ := List.forall_mem_cons.mp hinserts
      exact (hfirst.sublist h).trans (ih hrest)
  | skipped h _ ih => exact ih (List.forall_mem_cons.mp hinserts).2

theorem sublist_patch {edits : List Edit} (hinserts : ∀ e ∈ edits, e.Inserts) (code : List Char) :
    code.Sublist (patch edits code).code :=
  (patch_revision edits code).sublist hinserts

end DocTransfer.Transfer
