import DocTransfer.Diff.Compact

/-! # Unified diffs

Changes are shown with up to three lines around them. Changes whose surroundings touch share a
hunk. -/

namespace DocTransfer.Diff

/-- The lines shown on either side of a change. -/
def context : Nat := 3

/-- The lines of a text with the marks that end them. A carriage return ends a line too. -/
def linesOf : List Char → List (List Char)
  | [] => []
  | '\r' :: '\n' :: cs => ['\r', '\n'] :: linesOf cs
  | c :: cs =>
    if c = '\n' ∨ c = '\r' then [c] :: linesOf cs
    else match linesOf cs with
      | [] => [[c]]
      | line :: rest => (c :: line) :: rest

/-- A hunk: the lines before it in either text, and its stretches. -/
structure Hunk where
  oldStart : Nat
  newStart : Nat
  stretches : List (Stretch (List Char))

/-- The number of lines of the first text in a stretch. -/
def Stretch.oldSize : Stretch (List Char) → Nat
  | .same xs => xs.length
  | .change ds _ => ds.length

/-- The number of lines of the second text in a stretch. -/
def Stretch.newSize : Stretch (List Char) → Nat
  | .same xs => xs.length
  | .change _ is => is.length

/-- Whether a stretch changes something. -/
def Stretch.isChange : Stretch (List Char) → Bool
  | .same _ => false
  | .change .. => true

/-- Splits stretches into hunks. The numbers count the lines before the first stretch; `isFirst`
tells that no change came yet, and `current` holds the hunk so far. -/
def hunksFrom (old new : Nat) (isFirst : Bool) (current : Hunk) :
    List (Stretch (List Char)) → List Hunk
  | [] => if current.stretches.any Stretch.isChange then [current] else []
  | .change ds is :: rest =>
    hunksFrom (old + ds.length) (new + is.length) false
      { current with stretches := current.stretches ++ [.change ds is] } rest
  | .same xs :: rest =>
    let n := xs.length
    if isFirst then
      let skipped := n - context
      hunksFrom (old + n) (new + n) false ⟨old + skipped, new + skipped, [.same (xs.drop skipped)]⟩
        rest
    else if rest.isEmpty then
      hunksFrom (old + n) (new + n) false
        { current with stretches := current.stretches ++ [.same (xs.take context)] } rest
    else if 2 * context < n then
      let done := { current with stretches := current.stretches ++ [.same (xs.take context)] }
      let skipped := n - context
      done :: hunksFrom (old + n) (new + n) false
        ⟨old + skipped, new + skipped, [.same (xs.drop skipped)]⟩ rest
    else
      hunksFrom (old + n) (new + n) false
        { current with stretches := current.stretches ++ [.same xs] } rest

/-- The hunks of a comparison. -/
def hunks (stretches : List (Stretch (List Char))) : List Hunk :=
  hunksFrom 0 0 true ⟨0, 0, []⟩ stretches

/-- A range of lines in the head of a hunk. An empty range names the line before it. -/
def rangeText (start size : Nat) : String :=
  if size = 1 then toString (start + 1)
  else if size = 0 then toString start ++ ",0"
  else toString (start + 1) ++ "," ++ toString size

/-- Whether a line has a mark that ends it. -/
def isEnded (line : List Char) : Bool :=
  line.getLast? == some '\n' || line.getLast? == some '\r'

/-- A line of a hunk with its sign. A last line without an end is followed by a note. -/
def lineText (sign : Char) (line : List Char) : String :=
  String.ofList (sign :: line) ++ (if isEnded line then "" else "\n\\ No newline at end of file\n")

/-- The lines of a stretch with their signs. -/
def Stretch.text : Stretch (List Char) → String
  | .same xs => String.join (xs.map (lineText ' '))
  | .change ds is =>
    String.join (ds.map (lineText '-')) ++ String.join (is.map (lineText '+'))

/-- A hunk with its head. -/
def Hunk.text (h : Hunk) : String :=
  let old := h.stretches.foldl (fun n s => n + s.oldSize) 0
  let new := h.stretches.foldl (fun n s => n + s.newSize) 0
  "@@ -" ++ rangeText h.oldStart old ++ " +" ++ rangeText h.newStart new ++ " @@\n" ++
    String.join (h.stretches.map Stretch.text)

/-- The unified diff of two texts under names for both of them; empty if they are equal. -/
def unified (oldName newName : String) (old new : List Char) : String :=
  match hunks (stretchesOf (linesOf old) (linesOf new)) with
  | [] => ""
  | hs => "--- " ++ oldName ++ "\n+++ " ++ newName ++ "\n" ++ String.join (hs.map Hunk.text)

end DocTransfer.Diff
