import DocTransfer.Proofs.Text.Find
import Mathlib.Data.List.Infix

/-! # Occurrences of a pattern

The search finds the occurrence with the shortest text before it. Where a pattern begins in one
place only, every way to split the text around it is the one that the search finds. -/

namespace DocTransfer.Text

variable {α : Type}

/-- The parts before and after an occurrence of a pattern that no other begins before. -/
structure FirstOccurrence (pat xs before after : List α) : Prop where
  eq_append : xs = before ++ (pat ++ after)
  shortest : ∀ before' after', xs = before' ++ (pat ++ after') → before.length ≤ before'.length

namespace FirstOccurrence

variable {pat xs before after : List α} {x : α}

theorem at_head (pat after : List α) : FirstOccurrence pat (pat ++ after) [] after :=
  ⟨rfl, fun before' _ _ => Nat.zero_le before'.length⟩

theorem isInfix (h : FirstOccurrence pat xs before after) : pat <:+: xs :=
  ⟨before, after, by rw [h.eq_append, List.append_assoc]⟩

theorem unique {before' after' : List α} (h : FirstOccurrence pat xs before after)
    (h' : FirstOccurrence pat xs before' after') : before = before' ∧ after = after' := by
  have hlength : before.length = before'.length :=
    Nat.le_antisymm (h.shortest _ _ h'.eq_append) (h'.shortest _ _ h.eq_append)
  have heq : before ++ (pat ++ after) = before' ++ (pat ++ after') :=
    h.eq_append.symm.trans h'.eq_append
  obtain ⟨hbefore, hrest⟩ := List.append_inj heq hlength
  exact ⟨hbefore, List.append_cancel_left hrest⟩

/-- A first occurrence stays the first one when an element is put in front with which the pattern
does not begin. -/
theorem cons (hhead : ¬ pat <+: x :: xs) (h : FirstOccurrence pat xs before after) :
    FirstOccurrence pat (x :: xs) (x :: before) after := by
  refine ⟨by rw [h.eq_append, List.cons_append], ?_⟩
  intro before' after' heq
  cases before' with
  | nil => exact absurd ⟨after', heq.symm⟩ hhead
  | cons y before' =>
      have htail := h.shortest before' after' (List.cons.inj heq).2
      simpa using htail

/-- Where the element with which a pattern begins does not stand before, no occurrence does. -/
theorem of_not_mem {pat before : List α} (hx : x ∉ before) (after : List α) :
    FirstOccurrence (x :: pat) (before ++ (x :: pat ++ after)) before after := by
  refine ⟨rfl, ?_⟩
  intro before' after' heq
  obtain ⟨between, rfl, -⟩ := append_eq_append_cons_of_not_mem hx heq
  simp

end FirstOccurrence

variable [DecidableEq α]

theorem firstOccurrence_of_splitFirst? {pat xs before after : List α}
    (h : splitFirst? pat xs = some (before, after)) : FirstOccurrence pat xs before after := by
  induction xs generalizing before with
  | nil =>
      have heq := splitFirst?_eq_append h
      obtain ⟨rfl, hrest⟩ := List.append_eq_nil_iff.mp heq.symm
      exact ⟨heq, fun before' _ _ => Nat.zero_le before'.length⟩
  | cons x xs ih =>
      by_cases hhead : pat <+: x :: xs
      · obtain ⟨rest, hrest⟩ := hhead
        rw [splitFirst?, ← hrest, after?_append] at h
        cases h
        rw [← hrest]
        exact .at_head pat after
      · rw [splitFirst?_cons_of_not_at_head hhead] at h
        obtain ⟨⟨before', after'⟩, hsplit, heq⟩ := Option.map_eq_some_iff.mp h
        cases heq
        exact (ih hsplit).cons hhead

/-- The search finds the first occurrence and nothing else. -/
theorem splitFirst?_eq_some_iff {pat xs before after : List α} :
    splitFirst? pat xs = some (before, after) ↔ FirstOccurrence pat xs before after := by
  refine ⟨firstOccurrence_of_splitFirst?, ?_⟩
  intro h
  cases hsplit : splitFirst? pat xs with
  | none => exact absurd h.isInfix (splitFirst?_eq_none_iff.mp hsplit)
  | some parts =>
      obtain ⟨hbefore, hafter⟩ := (firstOccurrence_of_splitFirst? hsplit).unique h
      rw [← hbefore, ← hafter]

/-! ## How often a pattern occurs -/

/-- In how many places of a list a pattern begins. -/
def occurrences (pat xs : List α) : Nat :=
  xs.tails.countP fun rest => pat.isPrefixOf rest

theorem occurrences_cons (pat xs : List α) (x : α) :
    occurrences pat (x :: xs) = occurrences pat xs + if pat <+: x :: xs then 1 else 0 := by
  simp [occurrences, List.countP_cons]

theorem occurrences_pos_of_eq_append {pat xs before after : List α}
    (h : xs = before ++ (pat ++ after)) : 0 < occurrences pat xs := by
  rw [occurrences, List.countP_pos_iff]
  refine ⟨pat ++ after, (List.mem_tails _ _).mpr ⟨before, h.symm⟩, ?_⟩
  simp

/-- An occurrence of a pattern that occurs once is the first one. -/
theorem firstOccurrence_of_occurrences_eq_one {pat xs before after : List α}
    (hone : occurrences pat xs = 1) (h : xs = before ++ (pat ++ after)) :
    FirstOccurrence pat xs before after := by
  induction before generalizing xs with
  | nil =>
      subst h
      exact .at_head pat after
  | cons x before ih =>
      subst h
      have hpos : 0 < occurrences pat (before ++ (pat ++ after)) :=
        occurrences_pos_of_eq_append rfl
      rw [List.cons_append, occurrences_cons] at hone
      by_cases hhead : pat <+: x :: (before ++ (pat ++ after))
      · rw [if_pos hhead] at hone
        omega
      · rw [if_neg hhead] at hone
        exact (ih hone rfl).cons hhead

end DocTransfer.Text
