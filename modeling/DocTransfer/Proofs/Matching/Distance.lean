import DocTransfer.Proofs.Matching.Changes

/-! # The distance of two texts is that of a shortest script

The table is filled row by row, from the row above alone. A row belongs to a part from the front of
the first text, an entry in it to one of the second, and holds the length of a shortest script
between the two. Both parts grow at their end, so they are kept in reverse here: their last
characters, which an entry compares, come first. -/

namespace DocTransfer.Matching

/-! ## Rows -/

/-- The entries of a row for `seen` with more and more characters of a text after it, where the
parts of both texts are given in reverse. -/
def entriesAfter (xs seen : List Char) : List Char → List Nat
  | [] => []
  | y :: ys => leastChanges xs (y :: seen) :: entriesAfter xs (y :: seen) ys

/-- A whole row, for a part of the first text in reverse. -/
def tableRow (ys xs : List Char) : List Nat :=
  leastChanges xs [] :: entriesAfter xs [] ys

/-- An entry is found from its three neighbours. -/
theorem rowFrom_entriesAfter (c : Char) (xs seen ys : List Char) :
    rowFrom c (leastChanges (c :: xs) seen) (leastChanges xs seen) ys (entriesAfter xs seen ys) =
      entriesAfter (c :: xs) seen ys := by
  -- the entry just written is the left neighbour of the next one, the entry above it the corner
  induction ys generalizing seen with
  | nil => rfl
  | cons y ys ih =>
      simp only [entriesAfter, rowFrom]
      rw [← leastChanges_cons_cons, ih]

theorem nextRow_tableRow (c : Char) (xs ys : List Char) :
    nextRow ys (tableRow ys xs) c = tableRow ys (c :: xs) := by
  have hfirst : leastChanges xs [] + 1 = leastChanges (c :: xs) [] := by simp
  simp only [tableRow, nextRow]
  rw [hfirst, rowFrom_entriesAfter]

/-- Out of nothing every part is put in character by character. -/
theorem entriesAfter_nil (seen ys : List Char) :
    entriesAfter [] seen ys = List.range' (seen.length + 1) ys.length := by
  induction ys generalizing seen with
  | nil => rfl
  | cons y ys ih => simp [entriesAfter, ih, List.range'_succ]

theorem range_eq_tableRow (ys : List Char) : List.range (ys.length + 1) = tableRow ys [] := by
  rw [List.range_eq_range', List.range'_succ, tableRow, entriesAfter_nil]
  simp

/-- The rows of the table, one for each character more. -/
theorem foldl_nextRow (ys xs done : List Char) :
    xs.foldl (nextRow ys) (tableRow ys done) = tableRow ys (xs.reverse ++ done) := by
  induction xs generalizing done with
  | nil => rfl
  | cons c xs ih =>
      rw [List.foldl_cons, nextRow_tableRow, ih, List.reverse_cons, List.append_assoc]
      rfl

theorem getLast?_entriesAfter (xs seen ys : List Char) :
    (leastChanges xs seen :: entriesAfter xs seen ys).getLast? =
      some (leastChanges xs (ys.reverse ++ seen)) := by
  induction ys generalizing seen with
  | nil => rfl
  | cons y ys ih =>
      rw [entriesAfter, List.getLast?_cons_cons, ih, List.reverse_cons, List.append_assoc]
      rfl

theorem distance_eq_leastChanges_reverse (xs ys : List Char) :
    distance xs ys = leastChanges xs.reverse ys.reverse := by
  rw [distance, range_eq_tableRow, foldl_nextRow, tableRow, getLast?_entriesAfter]
  simp

/-! ## Shortest scripts -/

theorem turns_distance (xs ys : List Char) : Turns (distance xs ys) xs ys := by
  rw [distance_eq_leastChanges_reverse]
  simpa using (turns_leastChanges xs.reverse ys.reverse).reverse

theorem Turns.distance_le {n : Nat} {xs ys : List Char} (h : Turns n xs ys) :
    distance xs ys ≤ n := by
  rw [distance_eq_leastChanges_reverse]
  exact h.reverse.leastChanges_le

theorem distance_eq_zero_iff {xs ys : List Char} : distance xs ys = 0 ↔ xs = ys := by
  constructor
  · intro h
    have hturns := turns_distance xs ys
    rwa [h, turns_zero_iff] at hturns
  · rintro rfl
    exact Nat.le_zero.mp (Turns.refl xs).distance_le

theorem distance_comm (xs ys : List Char) : distance xs ys = distance ys xs :=
  Nat.le_antisymm (turns_distance ys xs).symm.distance_le (turns_distance xs ys).symm.distance_le

theorem distance_triangle (xs ys zs : List Char) :
    distance xs zs ≤ distance xs ys + distance ys zs :=
  ((turns_distance xs ys).trans (turns_distance ys zs)).distance_le

/-- The distance of two texts is the length of a shortest script of single changes from one to the
other, and so a metric. -/
theorem distance_shortest (xs ys : List Char) :
    IsLeast {n | ∃ script : List Change, script.length = n ∧ scriptResult? script xs = some ys}
      (distance xs ys) ∧
    distance xs ys = distance ys xs ∧
    (distance xs ys = 0 ↔ xs = ys) ∧
    ∀ zs, distance xs zs ≤ distance xs ys + distance ys zs :=
  ⟨⟨turns_distance xs ys, fun _ h => Turns.distance_le h⟩, distance_comm xs ys,
    distance_eq_zero_iff, distance_triangle xs ys⟩

example : distance "kitten".toList "sitting".toList = 3 ∧
    scriptResult? [.substitute 0 's', .substitute 4 'i', .insert 6 'g'] "kitten".toList =
      some "sitting".toList := by decide

end DocTransfer.Matching
