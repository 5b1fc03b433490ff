/-! # First occurrences -/

namespace DocTransfer.Text

variable {α : Type} [DecidableEq α]

/-- What follows `pat` in a list that begins with it. -/
def after? : List α → List α → Option (List α)
  | [], xs => some xs
  | _ :: _, [] => none
  | p :: pat, x :: xs => if p = x then after? pat xs else none

/-- The parts before and after the first occurrence of `pat`. -/
def splitFirst? (pat : List α) : List α → Option (List α × List α)
  | [] => (after? pat []).map ([], ·)
  | x :: xs =>
    match after? pat (x :: xs) with
    | some rest => some ([], rest)
    | none => (splitFirst? pat xs).map fun (before, rest) => (x :: before, rest)

/-- Whether `pat` occurs in the list. -/
def occursIn (pat xs : List α) : Bool :=
  (splitFirst? pat xs).isSome

/-- The pieces between the places where `p` holds; never empty. -/
def splitWhere (p : α → Bool) : List α → List (List α)
  | [] => [[]]
  | x :: xs =>
    if p x then [] :: splitWhere p xs
    else match splitWhere p xs with
      | [] => [[x]]
      | piece :: pieces => (x :: piece) :: pieces

/-- Consecutive pieces with a separator between them. -/
def joinWith (sep : List α) : List (List α) → List α
  | [] => []
  | [piece] => piece
  | piece :: pieces => piece ++ sep ++ joinWith sep pieces

end DocTransfer.Text
