/-! # Shortest edit scripts

Two texts are compared by looking from both ends for the middle of a shortest script and then
comparing what lies on either side of it. -/

namespace DocTransfer.Diff

/-- A run of a script: lines kept, taken out or put in. -/
inductive Run (α : Type) where
  | keep (xs : List α)
  | delete (xs : List α)
  | insert (xs : List α)
  deriving DecidableEq, Repr

/-- The lines of a run. -/
def Run.lines {α : Type} : Run α → List α
  | .keep xs | .delete xs | .insert xs => xs

/-- The lines of the first text that a script goes through. -/
def Run.before {α : Type} : Run α → List α
  | .keep xs | .delete xs => xs
  | .insert _ => []

/-- The lines of the second text that a script goes through. -/
def Run.after {α : Type} : Run α → List α
  | .keep xs | .insert xs => xs
  | .delete _ => []

variable {α : Type} [DecidableEq α]

/-- The number of equal elements at the fronts of two lists. -/
def commonFront : List α → List α → Nat
  | x :: xs, y :: ys => if x = y then commonFront xs ys + 1 else 0
  | _, _ => 0

/-- The number of equal elements at the ends of two lists. -/
def commonBack (xs ys : List α) : Nat :=
  commonFront xs.reverse ys.reverse

/-- How far paths have come on each diagonal. A path on diagonal `k` that has come to `x` in the
first list has come to `x - k` in the second. -/
structure Reach where
  offset : Nat
  far : Array Nat

/-- The place reached on a diagonal. -/
def Reach.get (r : Reach) (k : Int) : Nat :=
  r.far.getD (k + r.offset).toNat 0

/-- The record with another place on a diagonal. -/
def Reach.set (r : Reach) (k : Int) (x : Nat) : Reach :=
  { r with far := r.far.setIfInBounds (k + r.offset).toNat x }

/-- The record before the first step, for lists whose scripts have at most so many steps. -/
def Reach.start (bound : Nat) : Reach :=
  ⟨bound, Array.replicate (2 * bound + 2) 0⟩

/-- The place where the next stretch of equal elements starts on a diagonal: one step down from the
diagonal above, or one step right from the diagonal below. -/
def Reach.next (r : Reach) (d : Nat) (k : Int) : Nat :=
  if k = -d ∨ (k ≠ d ∧ r.get (k - 1) < r.get (k + 1)) then r.get (k + 1) else r.get (k - 1) + 1

/-- The diagonals that paths of `d` steps may end on, highest first. -/
def diagonals (d : Nat) : List Int :=
  (List.range (d + 1)).map fun (i : Nat) => (d : Int) - 2 * (i : Int)

/-- Extends the paths of one side by a step on every diagonal, until one of them meets the other
side: then the start and the end of its last stretch are given. -/
def advance (xs ys : List α) (other : Reach) (meets : Int → Bool) (delta : Int) (d : Nat) :
    List Int → Reach → Reach × Option ((Nat × Nat) × (Nat × Nat))
  | [], r => (r, none)
  | k :: ks, r =>
    let x := r.next d k
    let y := ((x : Int) - k).toNat
    let n := if x < xs.length ∧ y < ys.length then commonFront (xs.drop x) (ys.drop y) else 0
    let r := r.set k (x + n)
    if meets k && xs.length ≤ x + n + other.get (delta - k) then
      (r, some ((x, y), (x + n, y + n)))
    else advance xs ys other meets delta d ks r

/-- Looks for the middle of a shortest script with `d` steps from each side taken so far. -/
def searchMiddle (xs ys : List α) : Nat → Nat → Reach → Reach → Option (Nat × Nat)
  | 0, _, _, _ => none
  | fuel + 1, d, forward, backward =>
    let delta : Int := (xs.length : Int) - ys.length
    let isOdd : Bool := delta % 2 != 0
    let meets (bound : Int) (k : Int) : Bool := (k - delta).natAbs ≤ bound
    match advance xs ys backward (fun k => isOdd && meets (d - 1) k) delta d (diagonals d)
      forward with
    | (_, some (start, _)) => some start
    | (forward, none) =>
      match advance xs.reverse ys.reverse forward (fun k => !isOdd && meets d k) delta d
        (diagonals d) backward with
      | (_, some (_, (x, y))) => some (xs.length - x, ys.length - y)
      | (backward, none) => searchMiddle xs ys fuel (d + 1) forward backward

/-- A place that a shortest script goes through, away from both ends if it can be. -/
def middle (xs ys : List α) : Option (Nat × Nat) :=
  let bound := (xs.length + ys.length + 1) / 2 + 1
  searchMiddle xs ys bound 0 (.start bound) (.start bound)

/-- A run unless it is empty. -/
def runUnlessEmpty (make : List α → Run α) (xs : List α) : List (Run α) :=
  if xs.isEmpty then [] else [make xs]

/-- A shortest script, by halves. -/
def compare : Nat → List α → List α → List (Run α)
  | 0, xs, ys => runUnlessEmpty .delete xs ++ runUnlessEmpty .insert ys
  | fuel + 1, xs, ys =>
    let front := commonFront xs ys
    let xs' := xs.drop front
    let ys' := ys.drop front
    let back := commonBack xs' ys'
    let kept := xs'.drop (xs'.length - back)
    let xs' := xs'.take (xs'.length - back)
    let ys' := ys'.take (ys'.length - back)
    let inner :=
      if xs'.isEmpty || ys'.isEmpty then runUnlessEmpty .delete xs' ++ runUnlessEmpty .insert ys'
      else
        match middle xs' ys' with
        | some (x, y) =>
          compare fuel (xs'.take x) (ys'.take y) ++ compare fuel (xs'.drop x) (ys'.drop y)
        | none => [.delete xs', .insert ys']
    runUnlessEmpty .keep (xs.take front) ++ inner ++ runUnlessEmpty .keep kept

/-- A shortest script from one list to another. -/
def script (xs ys : List α) : List (Run α) :=
  compare (2 * (xs.length + ys.length) + 2) xs ys

end DocTransfer.Diff
