import DocTransfer.Text.Find

/-! # What the search for first occurrences finds -/

namespace DocTransfer.Text

variable {α : Type} [DecidableEq α]

theorem after?_eq_some_iff {pat xs rest : List α} :
    after? pat xs = some rest ↔ xs = pat ++ rest := by
  induction pat generalizing xs with
  | nil => simp [after?]
  | cons p pat ih =>
      cases xs with
      | nil => simp [after?]
      | cons x xs =>
          by_cases h : p = x
          · simp [after?, h, ih]
          · simp [after?, h, Ne.symm h]

@[simp] theorem after?_append (pat rest : List α) : after? pat (pat ++ rest) = some rest := by
  rw [after?_eq_some_iff]

theorem after?_eq_none_iff {pat xs : List α} : after? pat xs = none ↔ ¬ pat <+: xs := by
  rw [Option.eq_none_iff_forall_ne_some]
  constructor
  · rintro h ⟨rest, rfl⟩
    exact h rest (after?_append pat rest)
  · intro h rest hrest
    rw [after?_eq_some_iff] at hrest
    exact h ⟨rest, hrest.symm⟩

theorem splitFirst?_nil (pat : List α) : splitFirst? pat [] = (after? pat []).map ([], ·) := rfl

theorem splitFirst?_cons (pat : List α) (x : α) (xs : List α) :
    splitFirst? pat (x :: xs) =
      match after? pat (x :: xs) with
      | some rest => some ([], rest)
      | none => (splitFirst? pat xs).map fun (before, rest) => (x :: before, rest) := rfl

/-- A pattern at the head of a text is found there. -/
theorem splitFirst?_at_head (pat rest : List α) :
    splitFirst? pat (pat ++ rest) = some ([], rest) := by
  cases h : pat ++ rest with
  | nil =>
      obtain ⟨rfl, rfl⟩ := List.append_eq_nil_iff.mp h
      rfl
  | cons x xs => rw [splitFirst?_cons, ← h, after?_append]

theorem splitFirst?_cons_of_not_at_head {pat xs : List α} {x : α} (h : ¬ pat <+: x :: xs) :
    splitFirst? pat (x :: xs) =
      (splitFirst? pat xs).map fun (before, rest) => (x :: before, rest) := by
  rw [← after?_eq_none_iff] at h
  rw [splitFirst?_cons, h]

/-- Nothing is found exactly where the pattern does not occur. -/
theorem splitFirst?_eq_none_iff {pat xs : List α} :
    splitFirst? pat xs = none ↔ ¬ pat <:+: xs := by
  induction xs with
  | nil => simp [splitFirst?_nil, after?_eq_none_iff]
  | cons x xs ih =>
      rw [List.infix_cons_iff]
      by_cases h : pat <+: x :: xs
      · obtain ⟨rest, hrest⟩ := h
        simp [← hrest, splitFirst?_at_head]
      · rw [splitFirst?_cons_of_not_at_head h]
        simp [h, ih]

theorem splitFirst?_eq_append {pat xs before rest : List α}
    (h : splitFirst? pat xs = some (before, rest)) : xs = before ++ (pat ++ rest) := by
  induction xs generalizing before with
  | nil =>
      obtain ⟨rest', hrest, heq⟩ := Option.map_eq_some_iff.mp h
      cases heq
      rw [after?_eq_some_iff] at hrest
      simpa using hrest
  | cons x xs ih =>
      by_cases hhead : pat <+: x :: xs
      · obtain ⟨tail, htail⟩ := hhead
        rw [← htail, splitFirst?_at_head] at h
        cases h
        exact htail.symm
      · rw [splitFirst?_cons_of_not_at_head hhead] at h
        obtain ⟨⟨before', rest'⟩, hsplit, heq⟩ := Option.map_eq_some_iff.mp h
        cases heq
        rw [List.cons_append, ← ih hsplit]

/-- The first occurrence in a text is the first one in every text that goes on after it. -/
theorem splitFirst?_append {pat xs before rest : List α}
    (h : splitFirst? pat xs = some (before, rest)) (more : List α) :
    splitFirst? pat (xs ++ more) = some (before, rest ++ more) := by
  induction xs generalizing before with
  | nil =>
      have hpat : pat = [] ∧ before = [] ∧ rest = [] := by
        have heq := splitFirst?_eq_append h
        simp_all
      obtain ⟨rfl, rfl, rfl⟩ := hpat
      cases more <;> rfl
  | cons x xs ih =>
      by_cases hhead : pat <+: x :: xs
      · obtain ⟨tail, htail⟩ := hhead
        rw [← htail, splitFirst?_at_head] at h
        cases h
        rw [← htail, List.append_assoc, splitFirst?_at_head]
      · rw [splitFirst?_cons_of_not_at_head hhead] at h
        obtain ⟨⟨before', rest'⟩, hsplit, heq⟩ := Option.map_eq_some_iff.mp h
        cases heq
        -- the occurrence in `xs` leaves no room for one that begins before it and ends after `xs`
        have hlength : pat.length ≤ (x :: xs).length := by
          have happend := congrArg List.length (splitFirst?_eq_append hsplit)
          simp only [List.length_append] at happend
          simp only [List.length_cons]
          omega
        have hhead' : ¬ pat <+: x :: (xs ++ more) := fun hin =>
          hhead (List.prefix_of_prefix_length_le hin (List.prefix_append (x :: xs) more) hlength)
        rw [List.cons_append, splitFirst?_cons_of_not_at_head hhead', ih hsplit]
        rfl

/-! ## Where an element stands -/

omit [DecidableEq α]

theorem append_eq_append_cons_of_not_mem {xs rest before after : List α} {x : α}
    (hx : x ∉ xs) (h : xs ++ rest = before ++ x :: after) :
    ∃ before', before = xs ++ before' ∧ rest = before' ++ x :: after := by
  obtain ⟨before', hbefore, hrest⟩ | ⟨middle, hxs, hafter⟩ := List.append_eq_append_iff.mp h
  · exact ⟨before', hbefore, hrest⟩
  · cases middle with
    | nil => exact ⟨[], by simpa using hxs.symm, by simpa using hafter.symm⟩
    | cons y middle =>
        have hy : x = y := by simpa using congrArg List.head? hafter
        exact absurd (by simp [hxs, hy]) hx

/-- A pattern without an element occurs on one side of it. -/
theorem infix_append_cons_iff {pat xs ys : List α} {c : α} (hc : c ∉ pat) :
    pat <:+: xs ++ c :: ys ↔ pat <:+: xs ∨ pat <:+: ys := by
  constructor
  · rintro ⟨before, after, h⟩
    rw [List.append_assoc] at h
    obtain ⟨middle, rfl, hmiddle⟩ | ⟨middle, -, hmiddle⟩ := List.append_eq_append_iff.mp h
    · obtain ⟨rest, rfl, -⟩ := append_eq_append_cons_of_not_mem hc hmiddle
      exact .inl ⟨before, rest, by simp⟩
    · cases middle with
      | nil =>
          cases pat with
          | nil => exact .inl List.nil_infix
          | cons d pat => exact absurd (by simp [(List.cons.inj hmiddle).1]) hc
      | cons d middle => exact .inr ⟨middle, after, by simp [(List.cons.inj hmiddle).2]⟩
  · rintro (⟨before, after, rfl⟩ | ⟨before, after, rfl⟩)
    · exact ⟨before, after ++ c :: ys, by simp⟩
    · exact ⟨xs ++ c :: before, after, by simp⟩

end DocTransfer.Text
