import DocTransfer.Source.Token

/-! # Bracketed pieces

Tokens gathered by matching brackets. An opening bracket that is never closed stands alone, and so
does a closing one that closes nothing: what was between them goes to the enclosing level. -/

namespace DocTransfer.Source

/-- A token, or a pair of matching brackets with what stands between them. -/
inductive Piece where
  | leaf (token : Token)
  | group (opening : Token) (inner : List Piece) (closing : Token)

namespace Piece

/-- The place of the first character. -/
def start : Piece → Nat
  | .leaf t => t.start
  | .group o _ _ => o.start

/-- The place after the last character. -/
def stop : Piece → Nat
  | .leaf t => t.stop
  | .group _ _ c => c.stop

/-- Whether a piece is a given word or mark. -/
def is (p : Piece) (s : String) : Bool :=
  match p with
  | .leaf t => t.is s
  | .group .. => false

/-- Whether a piece is one of some words or marks. -/
def isOneOf (p : Piece) (names : List String) : Bool :=
  match p with
  | .leaf t => t.isOneOf names
  | .group .. => false

/-- Whether a piece is a word. -/
def isWord : Piece → Bool
  | .leaf t => t.isWord
  | .group .. => false

/-- Whether a piece is a comment. -/
def isComment : Piece → Bool
  | .leaf t => t.isComment
  | .group .. => false

/-- Whether a piece is a group that a given bracket opens. -/
def opensWith (p : Piece) (s : String) : Bool :=
  match p with
  | .leaf _ => false
  | .group o _ _ => o.is s

/-- Whether a piece is the first of its line. -/
def fresh : Piece → Bool
  | .leaf t => t.fresh
  | .group o _ _ => o.fresh

mutual

/-- The number of tokens in a piece. -/
def size : Piece → Nat
  | .leaf _ => 1
  | .group _ inner _ => 2 + sizeAll inner

/-- The number of tokens in a row of pieces. -/
def sizeAll : List Piece → Nat
  | [] => 0
  | p :: ps => size p + sizeAll ps

end

mutual

/-- The tokens of a piece in order. -/
def tokens : Piece → List Token
  | .leaf t => [t]
  | .group o inner c => o :: (tokensAll inner ++ [c])

/-- The tokens of a row of pieces in order. -/
def tokensAll : List Piece → List Token
  | [] => []
  | p :: ps => tokens p ++ tokensAll ps

end

end Piece

/-- The mark that closes an opening bracket. -/
def closer? (t : Token) : Option String :=
  if t.is "(" then some ")" else if t.is "[" then some "]" else if t.is "\x7b" then some "\x7d"
  else none

/-- An open bracket and, last first, what stands before it at its level. -/
abbrev Frame := Token × List Piece

/-- Closes the innermost bracket that `t` matches; brackets inside it stay alone. Only a brace
closes past an open brace. -/
def closeWith? (t : Token) : List Piece → List Frame → Option (List Piece × List Frame)
  | _, [] => none
  | level, (o, outer) :: frames =>
    if (closer? o).any t.is then some (.group o level.reverse t :: outer, frames)
    else if o.is "\x7b" then none
    else closeWith? t (level ++ .leaf o :: outer) frames

/-- All pieces, first to last, when no more token comes. -/
def unwind : List Piece → List Frame → List Piece
  | level, [] => level.reverse
  | level, (o, outer) :: frames => unwind (level ++ .leaf o :: outer) frames

/-- Gathers tokens with some brackets open. -/
def gatherFrom : List Piece → List Frame → List Token → List Piece
  | level, frames, [] => unwind level frames
  | level, frames, t :: ts =>
    if (closer? t).isSome then gatherFrom [] ((t, level) :: frames) ts
    else if t.isOneOf [")", "]", "\x7d"] then
      match closeWith? t level frames with
      | some (level, frames) => gatherFrom level frames ts
      | none => gatherFrom (.leaf t :: level) frames ts
    else gatherFrom (.leaf t :: level) frames ts

/-- Tokens gathered by their brackets. -/
def gather (ts : List Token) : List Piece :=
  gatherFrom [] [] ts

end DocTransfer.Source
