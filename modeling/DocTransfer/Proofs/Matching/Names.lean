import DocTransfer.Proofs.Matching.Distance

/-! # Names that match

Two names match if they are the same once normalized, or differ there by one change and are long
enough. So they match in either order, and however they are spelled as to low lines and the case of
ASCII letters. -/

namespace DocTransfer.Matching

open Text

/-! ## One change apart -/

theorem distance_le_one_iff {xs ys : List Char} :
    distance xs ys ≤ 1 ↔ xs = ys ∨ OneChange xs ys := by
  constructor
  · intro h
    obtain hzero | hone := Nat.le_one_iff_eq_zero_or_eq_one.mp h
    · exact .inl (distance_eq_zero_iff.mp hzero)
    · have hturns := turns_distance xs ys
      rw [hone, turns_succ_iff] at hturns
      obtain ⟨next, hchange, hrest⟩ := hturns
      exact .inr (turns_zero_iff.mp hrest ▸ hchange)
  · rintro (rfl | hchange)
    · exact (distance_eq_zero_iff.mpr rfl).trans_le (Nat.zero_le 1)
    · exact (Turns.head hchange (.refl ys)).distance_le

theorem namesMatch_iff {a b : List Char} :
    namesMatch a b ↔
      normalize a ≠ [] ∧ normalize b ≠ [] ∧
        (normalize a = normalize b ∨
          6 ≤ (normalize a).length ∧ 6 ≤ (normalize b).length ∧
            OneChange (normalize a) (normalize b)) := by
  simp only [namesMatch, minFuzzyLength]
  by_cases hempty : normalize a = [] ∨ normalize b = []
  · rw [if_pos hempty]
    simp only [Bool.false_eq_true, false_iff]
    tauto
  · rw [if_neg hempty]
    obtain ⟨ha, hb⟩ := not_or.mp hempty
    by_cases hsame : normalize a = normalize b
    · simp [hb, hsame]
    · simp [ha, hb, hsame, distance_le_one_iff, and_assoc]

theorem namesMatch_comm (a b : List Char) : namesMatch a b = namesMatch b a := by
  have hchange : OneChange (normalize a) (normalize b) ↔ OneChange (normalize b) (normalize a) :=
    ⟨.symm, .symm⟩
  rw [Bool.eq_iff_iff, namesMatch_iff, namesMatch_iff, hchange, eq_comm]
  tauto

/-! ## Spellings -/

/-- A name in another spelling: ASCII letters, which are all that `Char.toLower` changes, may be in
another case, and low lines may be put in anywhere. -/
inductive Respelled : List Char → List Char → Prop where
  | done : Respelled [] []
  | letter {c d : Char} {a b : List Char} (hcase : c.toLower = d.toLower) (hrest : Respelled a b) :
      Respelled (c :: a) (d :: b)
  | lowLine {a b : List Char} (hrest : Respelled a b) : Respelled a ('_' :: b)

theorem normalize_cons (c : Char) (a : List Char) :
    normalize (c :: a) = normalize [c] ++ normalize a := by
  by_cases hc : c = '_' <;> simp [normalize, lowerAll, hc]

theorem toLower_eq_self_of_le {c : Char} (h : 0x80 ≤ c.toNat) : c.toLower = c := by
  refine dif_neg ?_
  rintro ⟨-, hupper⟩
  rw [UInt32.le_iff_toNat_le] at hupper
  change c.toNat ≤ 90 at hupper
  omega

theorem normalize_toLower (c : Char) : normalize [c.toLower] = normalize [c] := by
  obtain hascii | hwide := Nat.lt_or_ge c.toNat 0x80
  · have hall : ∀ n < 0x80,
        normalize [(Char.ofNat n).toLower] = normalize [Char.ofNat n] := by decide +kernel
    have hc := hall c.toNat hascii
    rwa [Char.ofNat_toNat] at hc
  · rw [toLower_eq_self_of_le hwide]

theorem Respelled.normalize_eq {a b : List Char} (h : Respelled a b) :
    normalize b = normalize a := by
  induction h with
  | done => rfl
  | @letter c d a b hcase _ ih =>
      have hletter : normalize [d] = normalize [c] := by
        rw [← normalize_toLower d, ← hcase, normalize_toLower c]
      rw [normalize_cons d, normalize_cons c, hletter, ih]
  | @lowLine a b _ ih =>
      have hnone : normalize ['_'] = [] := by decide
      rw [normalize_cons '_', hnone, ih, List.nil_append]

/-- Names match exactly if, normalized, neither is empty and they are the same, or both have six
characters or more and one change makes one of them into the other. The order of the names makes no
difference, nor does their spelling. -/
theorem namesMatch_exactly (a b : List Char) :
    (namesMatch a b ↔
      normalize a ≠ [] ∧ normalize b ≠ [] ∧
        (normalize a = normalize b ∨
          6 ≤ (normalize a).length ∧ 6 ≤ (normalize b).length ∧
            OneChange (normalize a) (normalize b))) ∧
    namesMatch a b = namesMatch b a ∧
    ∀ a' b', Respelled a a' → Respelled b b' → namesMatch a' b' = namesMatch a b := by
  refine ⟨namesMatch_iff, namesMatch_comm a b, ?_⟩
  intro a' b' ha hb
  rw [Bool.eq_iff_iff, namesMatch_iff, namesMatch_iff, ha.normalize_eq, hb.normalize_eq]

theorem namesMatch_exactly_boneData :
    Respelled "bonedata".toList "Bone_Data".toList ∧
    Respelled "BoneDate".toList "BONEDATE_".toList ∧
    namesMatch "Bone_Data".toList "BONEDATE_".toList =
      namesMatch "bonedata".toList "BoneDate".toList := by
  have hdata : Respelled "bonedata".toList "Bone_Data".toList :=
    .letter rfl <| .letter rfl <| .letter rfl <| .letter rfl <| .lowLine <|
      .letter rfl <| .letter rfl <| .letter rfl <| .letter rfl .done
  have hdate : Respelled "BoneDate".toList "BONEDATE_".toList :=
    .letter rfl <| .letter rfl <| .letter rfl <| .letter rfl <|
      .letter rfl <| .letter rfl <| .letter rfl <| .letter rfl <| .lowLine .done
  exact ⟨hdata, hdate, (namesMatch_exactly _ _).2.2 _ _ hdata hdate⟩

end DocTransfer.Matching
