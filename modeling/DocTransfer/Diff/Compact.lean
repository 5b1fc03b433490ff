import DocTransfer.Diff.Script

/-! # Tidy edit scripts

A run that is put in or taken out between equal lines can often stand in several places. Runs are
moved up as far as they go, taking up others on the way, and then down as far as they go. -/

namespace DocTransfer.Diff

variable {α : Type} [DecidableEq α]

/-- A place in a script: the runs before it, nearest first, the run there, and those after it. -/
structure Place (α : Type) where
  before : List (Run α)
  here : Run α
  after : List (Run α)

/-- A run of the same sort with other lines. -/
def Run.withLines (r : Run α) (xs : List α) : Run α :=
  match r with
  | .keep _ => .keep xs
  | .delete _ => .delete xs
  | .insert _ => .insert xs

/-- A row of runs with kept lines at its front. -/
def keepFirst (xs : List α) : List (Run α) → List (Run α)
  | .keep ys :: rest => .keep (xs ++ ys) :: rest
  | rest => .keep xs :: rest

/-- A row of runs, nearest first, with kept lines at its near end. -/
def keepNearest (xs : List α) : List (Run α) → List (Run α)
  | .keep ys :: rest => .keep (ys ++ xs) :: rest
  | rest => .keep xs :: rest

/-- Whether two runs are of the same sort. -/
def Run.sameSort : Run α → Run α → Bool
  | .keep _, .keep _ | .delete _, .delete _ | .insert _, .insert _ => true
  | _, _ => false

/-- Moves a run up. -/
def moveUp : Nat → Place α → Place α
  | 0, p => p
  | fuel + 1, p =>
    match p.before with
    | [] => p
    | .keep ys :: rest =>
      let xs := p.here.lines
      let n := commonBack ys xs
      if ys.isEmpty then moveUp fuel { p with before := rest }
      else if n = 0 then p
      else
        let left := ys.take (ys.length - n)
        moveUp fuel
          { before := if left.isEmpty then rest else .keep left :: rest,
            here := p.here.withLines (ys.drop (ys.length - n) ++ xs.take (xs.length - n)),
            after := keepFirst (xs.drop (xs.length - n)) p.after }
    | other :: rest =>
      if other.sameSort p.here then
        moveUp fuel { p with before := rest, here := other.withLines (other.lines ++ p.here.lines) }
      else moveUp fuel { p with before := rest, after := other :: p.after }

/-- Moves a run down. -/
def moveDown : Nat → Place α → Place α
  | 0, p => p
  | fuel + 1, p =>
    match p.after with
    | [] => p
    | .keep ys :: rest =>
      let xs := p.here.lines
      let n := commonFront ys xs
      if ys.isEmpty then moveDown fuel { p with after := rest }
      else if n = 0 then p
      else
        let left := ys.drop n
        moveDown fuel
          { before := keepNearest (xs.take n) p.before,
            here := p.here.withLines (xs.drop n ++ ys.take n),
            after := if left.isEmpty then rest else .keep left :: rest }
    | other :: rest =>
      if other.sameSort p.here then
        let joined := p.here.withLines (p.here.lines ++ other.lines)
        moveDown fuel { p with here := joined, after := rest }
      else moveDown fuel { p with before := other :: p.before, after := rest }

/-- Moves every run that `isMoved` picks, first to last. -/
def moveAll (isMoved : Run α → Bool) (bound : Nat) :
    Nat → List (Run α) → List (Run α) → List (Run α)
  | 0, before, after => before.reverse ++ after
  | _ + 1, before, [] => before.reverse
  | fuel + 1, before, r :: after =>
    if isMoved r then
      let p := moveDown bound (moveUp bound ⟨before, r, after⟩)
      moveAll isMoved bound fuel (p.here :: p.before) p.after
    else moveAll isMoved bound fuel (r :: before) after

/-- Whether a run takes lines out. -/
def Run.isDelete : Run α → Bool
  | .delete _ => true
  | _ => false

/-- Whether a run puts lines in. -/
def Run.isInsert : Run α → Bool
  | .insert _ => true
  | _ => false

/-- A stretch of a comparison: lines in common, or lines taken out and lines put in for them. -/
inductive Stretch (α : Type) where
  | same (xs : List α)
  | change (deleted inserted : List α)
  deriving DecidableEq, Repr

/-- Gathers runs into stretches. -/
def stretches : List (Run α) → List (Stretch α)
  | [] => []
  | .keep xs :: rest =>
    match stretches rest with
    | .same ys :: more => .same (xs ++ ys) :: more
    | more => .same xs :: more
  | .delete xs :: rest =>
    match stretches rest with
    | .change ds is :: more => .change (xs ++ ds) is :: more
    | more => .change xs [] :: more
  | .insert xs :: rest =>
    match stretches rest with
    | .change ds is :: more => .change ds (xs ++ is) :: more
    | more => .change [] xs :: more

/-- The comparison of two lists. -/
def stretchesOf (xs ys : List α) : List (Stretch α) :=
  let bound := 4 * (xs.length + ys.length) + 8
  let runs := script xs ys
  let runs := moveAll Run.isDelete bound bound [] runs
  stretches (moveAll Run.isInsert bound bound [] runs)

end DocTransfer.Diff
