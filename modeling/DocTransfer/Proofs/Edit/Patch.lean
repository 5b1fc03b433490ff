import DocTransfer.Transfer.Edit

/-! # Patches compose

A batch acts on a text through its edits one by one, so that patching with a concatenation of
batches is patching with each of them in turn, counts added up. -/

namespace DocTransfer.Transfer

/-- Two patches in a row: the text of the second, the counts of both. -/
def Patched.andThen (p q : Patched) : Patched :=
  { code := q.code, applied := p.applied + q.applied, skipped := p.skipped + q.skipped }

/-! ## Batches in a row -/

@[simp] theorem patch_nil (code : List Char) : patch [] code = { code } := rfl

theorem Patched.step_eq_andThen (p : Patched) (e : Edit) :
    p.step e = p.andThen (patch [e] p.code) := by
  simp only [patch, List.foldl_cons, List.foldl_nil, Patched.step]
  cases e.result? p.code <;> simp [Patched.andThen]

/-- The counts that a fold starts with are only carried along. -/
theorem foldl_step (edits : List Edit) (p : Patched) :
    edits.foldl Patched.step p = p.andThen (patch edits p.code) := by
  induction edits generalizing p with
  | nil => simp [Patched.andThen]
  | cons e edits ih =>
      have hpatch : patch (e :: edits) p.code =
          (Patched.step { code := p.code } e).andThen
            (patch edits (Patched.step { code := p.code } e).code) := ih _
      rw [List.foldl_cons, ih, hpatch, Patched.step_eq_andThen, Patched.step_eq_andThen]
      simp [Patched.andThen, Nat.add_assoc]

/-- Patching with a concatenation is patching twice. -/
theorem patch_append (xs ys : List Edit) (code : List Char) :
    patch (xs ++ ys) code = (patch xs code).andThen (patch ys (patch xs code).code) := by
  rw [patch, List.foldl_append, foldl_step ys]
  rfl

@[simp] theorem patch_append_code (xs ys : List Edit) (code : List Char) :
    (patch (xs ++ ys) code).code = (patch ys (patch xs code).code).code := by
  rw [patch_append, Patched.andThen]

@[simp] theorem patch_append_applied (xs ys : List Edit) (code : List Char) :
    (patch (xs ++ ys) code).applied =
      (patch xs code).applied + (patch ys (patch xs code).code).applied := by
  rw [patch_append, Patched.andThen]

@[simp] theorem patch_append_skipped (xs ys : List Edit) (code : List Char) :
    (patch (xs ++ ys) code).skipped =
      (patch xs code).skipped + (patch ys (patch xs code).code).skipped := by
  rw [patch_append, Patched.andThen]

/-! ## Batches without effect -/

theorem patch_singleton_of_result?_none {e : Edit} {code : List Char} (h : e.result? code = none) :
    patch [e] code = { code, skipped := 1 } := by
  simp [patch, Patched.step, h]

/-- A batch of which nothing was applied leaves the text as it is. -/
theorem patch_code_of_applied_eq_zero {edits : List Edit} {code : List Char}
    (h : (patch edits code).applied = 0) : (patch edits code).code = code := by
  induction edits generalizing code with
  | nil => rfl
  | cons e edits ih =>
      rw [← List.singleton_append, patch_append_applied, Nat.add_eq_zero_iff] at h
      rw [← List.singleton_append, patch_append_code, ih h.2]
      cases he : e.result? code with
      | none => rw [patch_singleton_of_result?_none he]
      | some next =>
          have hone : (patch [e] code).applied = 1 := by simp [patch, Patched.step, he]
          omega

theorem Edit.result?_of_isIdle {e : Edit} (h : e.isIdle) (code : List Char) :
    e.result? code = none := by
  obtain ⟨old, new⟩ := e
  simp only [Edit.isIdle, beq_iff_eq] at h
  subst h
  cases old <;> simp [Edit.result?]

/-- A batch that has nothing left to change applies nothing, whatever the text. -/
theorem patch_applied_of_isConverged {edits : List Edit} (h : isConverged edits)
    (code : List Char) : (patch edits code).applied = 0 := by
  induction edits generalizing code with
  | nil => rfl
  | cons e edits ih =>
      simp only [isConverged, List.all_cons, Bool.and_eq_true] at h
      rw [← List.singleton_append, patch_append_applied,
        patch_singleton_of_result?_none (Edit.result?_of_isIdle h.1 code), Nat.zero_add]
      exact ih h.2 code

theorem patch_code_of_isConverged {edits : List Edit} (h : isConverged edits)
    (code : List Char) : (patch edits code).code = code :=
  patch_code_of_applied_eq_zero (patch_applied_of_isConverged h code)

end DocTransfer.Transfer
