import DocTransfer.Text.Find

/-! # Edits

An edit replaces the first occurrence of one text by another, both taken literally. Edits of a
batch are applied one after the other; those that do not fit are skipped. -/

namespace DocTransfer.Transfer

/-- A proposed replacement. Either side may be missing. -/
structure Edit where
  old : Option String := none
  new : Option String := none
  deriving DecidableEq, Repr

/-- Whether applying the edit could not change anything. -/
def Edit.isIdle (e : Edit) : Bool :=
  e.old == e.new

/-- Whether a batch has nothing left to change. -/
def isConverged (edits : List Edit) : Bool :=
  edits.all Edit.isIdle

/-- The text after an edit, if the edit fits: both sides are there and differ, the old one is not
empty and occurs. -/
def Edit.result? (e : Edit) (code : List Char) : Option (List Char) :=
  match e.old, e.new with
  | some old, some new =>
    if old.toList = [] ∨ old = new then none
    else (Text.splitFirst? old.toList code).map fun (before, rest) => before ++ new.toList ++ rest
  | _, _ => none

/-- A text with the number of edits applied to it and skipped. -/
structure Patched where
  code : List Char
  applied : Nat := 0
  skipped : Nat := 0
  deriving DecidableEq

/-- One more edit. -/
def Patched.step (p : Patched) (e : Edit) : Patched :=
  match e.result? p.code with
  | some code => { p with code, applied := p.applied + 1 }
  | none => { p with skipped := p.skipped + 1 }

/-- A batch of edits on a text. -/
def patch (edits : List Edit) (code : List Char) : Patched :=
  edits.foldl Patched.step { code }

end DocTransfer.Transfer
