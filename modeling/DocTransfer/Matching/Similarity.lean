import DocTransfer.Text.Find
import DocTransfer.Text.Lower

/-! # Similarity of names -/

namespace DocTransfer.Matching

/-- The rest of a row of the distance table: `left` is the entry just written, `corner` the one
above it. -/
def rowFrom (c : Char) : Nat → Nat → List Char → List Nat → List Nat
  | left, corner, y :: ys, up :: ups =>
    let cost := if c = y then 0 else 1
    let entry := min (min (up + 1) (left + 1)) (corner + cost)
    entry :: rowFrom c entry up ys ups
  | _, _, _, _ => []

/-- The row of the distance table below `above`, for one more character of the first text. -/
def nextRow (ys : List Char) (above : List Nat) (c : Char) : List Nat :=
  match above with
  | [] => []
  | corner :: ups => (corner + 1) :: rowFrom c (corner + 1) corner ys ups

/-- The least number of insertions, deletions and substitutions of single characters that turn one
text into the other. -/
def distance (xs ys : List Char) : Nat :=
  ((xs.foldl (nextRow ys) (List.range (ys.length + 1))).getLast?).getD 0

/-- A name without low lines, in lower case. -/
def normalize (name : List Char) : List Char :=
  Text.lowerAll (name.filter (· != '_'))

/-- The last segment of a dotted name. -/
def simpleName (fullName : List Char) : List Char :=
  (fullName.reverse.takeWhile (· != '.')).reverse

/-- Below this length one edit turns too many unrelated names into each other. -/
def minFuzzyLength : Nat := 6

/-- Whether two names plausibly denote the same type: equal once normalized, or one edit apart and
long enough. -/
def namesMatch (a b : List Char) : Bool :=
  let a := normalize a
  let b := normalize b
  if a = [] ∨ b = [] then false
  else if a = b then true
  else decide (minFuzzyLength ≤ min a.length b.length) && decide (distance a b ≤ 1)

end DocTransfer.Matching
