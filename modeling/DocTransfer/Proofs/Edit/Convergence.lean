import DocTransfer.Proofs.Edit.Semantics

/-! # When a batch has nothing left to change

A batch counts as converged if the two sides of each of its edits are the same, and such a batch
leaves every text as it is. A batch is judged edit by edit, though, and not by what it comes to: it
may leave every text as it is because it takes its first change back later on. For that the first
change has to keep its old text, and a later one has to shorten the text. -/

namespace DocTransfer.Transfer

open Text

/-! ## Edits with and without effect -/

/-- Both sides are there and differ, and there is something to look for. -/
def Edit.Proper (e : Edit) : Prop :=
  ∃ old new, e = { old := some old, new := some new } ∧ old ≠ "" ∧ old ≠ new

/-- The old text stands within the new one. -/
def Edit.KeepsOld (e : Edit) : Prop :=
  ∃ old ∈ e.old, ∃ new ∈ e.new, old.toList <:+: new.toList

/-- The new text is shorter than the old one. -/
def Edit.Shortens (e : Edit) : Prop :=
  ∃ old ∈ e.old, ∃ new ∈ e.new, new.length < old.length

theorem Edit.Fits.proper {e : Edit} {code : List Char} (h : e.Fits code) : e.Proper := by
  obtain ⟨old, new, rfl, hold, hne, -⟩ := h
  exact ⟨old, new, rfl, hold, hne⟩

theorem Edit.Proper.not_isIdle {e : Edit} (h : e.Proper) : ¬ e.isIdle := by
  obtain ⟨old, new, rfl, -, hne⟩ := h
  simpa [isIdle] using hne

theorem not_proper_of_isConverged {edits : List Edit} (h : isConverged edits) :
    ∀ e ∈ edits, ¬ e.Proper := by
  intro e he hproper
  exact hproper.not_isIdle (List.all_eq_true.mp h e he)

theorem patch_applied_of_not_proper {edits : List Edit} (h : ∀ e ∈ edits, ¬ e.Proper)
    (code : List Char) : (patch edits code).applied = 0 := by
  induction edits with
  | nil => rfl
  | cons e edits ih =>
      obtain ⟨hfirst, hrest⟩ := List.forall_mem_cons.mp h
      rw [patch_cons_of_not_fits (fun hfits => hfirst hfits.proper)]
      exact ih hrest

theorem exists_first_proper {edits : List Edit} (h : ∃ e ∈ edits, e.Proper) :
    ∃ void e rest, edits = void ++ e :: rest ∧ (∀ e ∈ void, ¬ e.Proper) ∧ e.Proper := by
  induction edits with
  | nil => simp at h
  | cons e edits ih =>
      by_cases hproper : e.Proper
      · exact ⟨[], e, edits, rfl, by simp, hproper⟩
      · obtain ⟨void, first, rest, rfl, hvoid, hfirst⟩ := ih (by simpa [hproper] using h)
        refine ⟨e :: void, first, rest, rfl, ?_, hfirst⟩
        exact List.forall_mem_cons.mpr ⟨hproper, hvoid⟩

/-! ## The first change -/

theorem Edit.replaces_own_old {old new : String} (hold : old ≠ "") (hne : old ≠ new) :
    Edit.Replaces { old := some old, new := some new } old.toList new.toList := by
  have hfirst : FirstOccurrence old.toList old.toList [] [] := by
    simpa using FirstOccurrence.at_head old.toList []
  simpa using Edit.Replaces.first hold hne hfirst

theorem Edit.Replaces.length_le {e : Edit} {code next : List Char} (h : e.Replaces code next)
    (hlong : ¬ e.Shortens) : code.length ≤ next.length := by
  cases h with
  | @first old new _ before after hold hne hfirst =>
      have hsides : old.length ≤ new.length := by
        by_contra hshort
        exact hlong ⟨old, rfl, new, rfl, by omega⟩
      simp only [hfirst.eq_append, List.length_append, String.length_toList]
      omega

/-- Edits that shorten nothing never lead to a shorter text. -/
theorem Revision.length_le {edits : List Edit} {code : List Char} {p : Patched}
    (h : Revision edits code p) (hlong : ∀ e ∈ edits, ¬ e.Shortens) :
    code.length ≤ p.code.length := by
  induction h with
  | done code => exact Nat.le_refl _
  | applied h _ ih =>
      obtain ⟨hfirst, hrest⟩ := List.forall_mem_cons.mp hlong
      exact (h.length_le hfirst).trans (ih hrest)
  | skipped h _ ih => exact ih (List.forall_mem_cons.mp hlong).2

section First

variable {old new : String} {rest : List Edit} (hold : old ≠ "") (hne : old ≠ new)

include hold hne

/-- Where the old text is gone from the new one, two texts become the same. -/
theorem patch_old_eq_patch_new (hgone : ¬ old.toList <:+: new.toList) :
    (patch ({ old := some old, new := some new } :: rest) old.toList).code =
      (patch ({ old := some old, new := some new } :: rest) new.toList).code := by
  have hunfit : ¬ Edit.Fits { old := some old, new := some new } new.toList := by
    rintro ⟨_, _, ⟨⟩, -, -, hoccurs⟩
    exact hgone hoccurs
  rw [patch_cons_of_replaces (Edit.replaces_own_old hold hne), patch_cons_of_not_fits hunfit]

/-- Where the old text is kept it grows, and only an edit that shortens can take that back. -/
theorem length_lt_patch_old (hkept : old.toList <:+: new.toList)
    (hlong : ∀ e ∈ rest, ¬ e.Shortens) :
    old.toList.length <
      (patch ({ old := some old, new := some new } :: rest) old.toList).code.length := by
  have hgrows : old.toList.length < new.toList.length := by
    refine Nat.lt_of_le_of_ne hkept.length_le ?_
    intro hlength
    exact hne (String.toList_inj.mp (hkept.eq_of_length hlength))
  rw [patch_cons_of_replaces (Edit.replaces_own_old hold hne)]
  exact Nat.lt_of_lt_of_le hgrows ((patch_revision rest new.toList).length_le hlong)

/-- A change that is not taken back shows in some text. -/
theorem exists_patch_ne (hkeeps : old.toList <:+: new.toList → ∀ e ∈ rest, ¬ e.Shortens) :
    ∃ code, (patch ({ old := some old, new := some new } :: rest) code).code ≠ code := by
  by_cases hkept : old.toList <:+: new.toList
  · refine ⟨old.toList, ?_⟩
    intro heq
    have hlength := length_lt_patch_old hold hne hkept (hkeeps hkept)
    rw [heq] at hlength
    exact Nat.lt_irrefl _ hlength
  · -- the old and the new text end up the same, so one of them has changed
    by_contra hnone
    simp only [ne_eq, not_exists, not_not] at hnone
    have hsame : (patch ({ old := some old, new := some new } :: rest) old.toList).code =
        (patch ({ old := some old, new := some new } :: rest) new.toList).code :=
      patch_old_eq_patch_new hold hne hkept
    rw [hnone, hnone] at hsame
    exact hne (String.toList_inj.mp hsame)

end First

/-! ## Batches -/

/-- The first change that a batch proposes keeps its old text, and a later one shortens the text. -/
def MayTakeBack (edits : List Edit) : Prop :=
  ∃ void e rest, edits = void ++ e :: rest ∧ (∀ e ∈ void, ¬ e.Proper) ∧ e.Proper ∧
    e.KeepsOld ∧ ∃ later ∈ rest, later.Shortens

/-- No edit of a batch is ever applied exactly where none is proper. -/
theorem applied_eq_zero_iff {edits : List Edit} :
    (∀ code, (patch edits code).applied = 0) ↔ ∀ e ∈ edits, ¬ e.Proper := by
  refine ⟨?_, patch_applied_of_not_proper⟩
  intro hnever e he hproper
  obtain ⟨void, _, rest, rfl, hvoid, old, new, rfl, hold, hne⟩ :=
    exists_first_proper ⟨e, he, hproper⟩
  have happlied := hnever old.toList
  rw [patch_append_applied,
    patch_code_of_applied_eq_zero (patch_applied_of_not_proper hvoid old.toList),
    patch_cons_of_replaces (Edit.replaces_own_old hold hne)] at happlied
  simp at happlied

theorem patch_code_eq_iff {edits : List Edit} (hkept : ¬ MayTakeBack edits) :
    (∀ code, (patch edits code).code = code) ↔ ∀ e ∈ edits, ¬ e.Proper := by
  constructor
  · intro hsame e he hproper
    obtain ⟨void, _, rest, rfl, hvoid, old, new, rfl, hold, hne⟩ :=
      exists_first_proper ⟨e, he, hproper⟩
    have hkeeps : old.toList <:+: new.toList → ∀ e ∈ rest, ¬ e.Shortens := by
      intro hinfix later hlater hshort
      exact hkept ⟨void, _, rest, rfl, hvoid, ⟨old, new, rfl, hold, hne⟩,
        ⟨old, rfl, new, rfl, hinfix⟩, later, hlater, hshort⟩
    obtain ⟨code, hcode⟩ := exists_patch_ne hold hne hkeeps
    apply hcode
    have hwhole := hsame code
    rwa [patch_append_code,
      patch_code_of_applied_eq_zero (patch_applied_of_not_proper hvoid code)] at hwhole
  · intro hvoid code
    exact patch_code_of_applied_eq_zero (patch_applied_of_not_proper hvoid code)

/-- A name is replaced by another one, and blanks are saved after that. One side of the last edit is
missing. -/
def renameAndTidy : List Edit :=
  [{ old := some "Bone", new := some "Joint" }, { old := some "  ", new := some " " },
    { old := some "Bone" }]

theorem not_mayTakeBack_renameAndTidy : ¬ MayTakeBack renameAndTidy := by
  rintro ⟨void, e, rest, heq, hvoid, -, ⟨old, hold, new, hnew, hkept⟩, -⟩
  cases void with
  | nil =>
      obtain ⟨rfl, -⟩ := List.cons.inj heq
      cases hold
      cases hnew
      revert hkept
      decide
  | cons first void =>
      obtain ⟨rfl, -⟩ := List.cons.inj heq
      exact hvoid _ List.mem_cons_self ⟨"Bone", "Joint", rfl, by decide, by decide⟩

/-- A letter is doubled, and the double letter is made a single one again. -/
def thereAndBack : List Edit :=
  [{ old := some "a", new := some "aa" }, { old := some "aa", new := some "a" }]

theorem patch_thereAndBack (code : List Char) : (patch thereAndBack code).code = code := by
  by_cases hmem : 'a' ∈ code
  · obtain ⟨before, after, rfl, hbefore⟩ := List.eq_append_cons_of_mem hmem
    have hthere : Edit.Replaces { old := some "a", new := some "aa" } (before ++ 'a' :: after)
        (before ++ ['a', 'a'] ++ after) :=
      .first (by decide) (by decide) (.of_not_mem hbefore after)
    have hback : Edit.Replaces { old := some "aa", new := some "a" }
        (before ++ ['a', 'a'] ++ after) (before ++ ['a'] ++ after) :=
      .first (by decide) (by decide) (by simpa using .of_not_mem hbefore after)
    rw [thereAndBack, patch_cons_of_replaces hthere, patch_cons_of_replaces hback]
    simp
  · have hunfit (e : Edit) (he : e ∈ thereAndBack) : ¬ e.Fits code := by
      rintro ⟨old, new, rfl, -, -, hoccurs⟩
      apply hmem
      apply hoccurs.subset
      simp only [thereAndBack, List.mem_cons, Edit.mk.injEq, Option.some.injEq, List.not_mem_nil,
        or_false] at he
      obtain ⟨rfl, -⟩ | ⟨rfl, -⟩ := he <;> decide
    rw [thereAndBack, patch_cons_of_not_fits (hunfit _ (by simp [thereAndBack])),
      patch_cons_of_not_fits (hunfit _ (by simp [thereAndBack]))]
    rfl

end DocTransfer.Transfer
