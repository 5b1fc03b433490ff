import DocTransfer.Json.Basic
import DocTransfer.Number.Digits

/-! # Numerals of JSON text

The digits as written, and the number that they denote. Digits count as long as the significand
fits in eight bytes; those that follow only move the point. A scale of ten is then applied in
floating arithmetic, one rounding a step. -/

namespace DocTransfer.Json

open Number

/-- A numeral as it stands in the text. -/
structure Numeral where
  negative : Bool
  whole : List Char
  fraction : Option (List Char)
  exponent : Option (Bool × List Char)

/-- The longest run of digits at the head of a text, and the rest. -/
def digitRun (cs : List Char) : List Char × List Char :=
  (cs.takeWhile Char.isDigit, cs.dropWhile Char.isDigit)

/-- A run of at least one digit. -/
def digitRun? (cs : List Char) : Option (List Char × List Char) :=
  match digitRun cs with
  | ([], _) => none
  | run => some run

/-- The fraction at the head of a text, if it has one; a point needs a digit after it. -/
def fraction? : List Char → Option (Option (List Char) × List Char)
  | '.' :: cs => (digitRun? cs).map fun (ds, rest) => (some ds, rest)
  | cs => some (none, cs)

/-- The digits of an exponent, after its sign. -/
def exponentDigits? (negative : Bool) (cs : List Char) :
    Option (Option (Bool × List Char) × List Char) :=
  (digitRun? cs).map fun (ds, rest) => (some (negative, ds), rest)

/-- The exponent at the head of a text, if it has one; the mark needs a digit after it. -/
def exponent? : List Char → Option (Option (Bool × List Char) × List Char)
  | c :: cs =>
    if c = 'e' ∨ c = 'E' then
      match cs with
      | '+' :: cs => exponentDigits? false cs
      | '-' :: cs => exponentDigits? true cs
      | cs => exponentDigits? false cs
    else some (none, c :: cs)
  | [] => some (none, [])

/-- The numeral at the head of a text. A leading zero stands alone. -/
def numeral? (cs : List Char) : Option (Numeral × List Char) := do
  let (negative, cs) := match cs with
    | '-' :: cs => (true, cs)
    | cs => (false, cs)
  let (whole, cs) ← digitRun? cs
  if whole.head? = some '0' ∧ whole.length ≠ 1 then none
  let (fraction, cs) ← fraction? cs
  let (exponent, cs) ← exponent? cs
  return (⟨negative, whole, fraction, exponent⟩, cs)

/-- A significand with digits appended as long as it stays within `maxCount`, and how many digits
did not fit. -/
def accumulate (start : Nat) : List Char → Nat × Nat
  | [] => (start, 0)
  | d :: ds =>
    let next := start * 10 + (d.toNat - '0'.toNat)
    if maxCount < next then (start, ds.length + 1) else accumulate next ds

/-- The greatest power of ten in range of the format. -/
def topPower : Nat := 308

/-- A power of ten in the format, as a ratio of naturals. -/
def powerOfTen (k : Nat) : Nat × Nat :=
  match Format.double.round false (Nat.pow 10 k) 1 with
  | .finite _ m e => ratio m e
  | _ => (1, 1)

/-- A number divided by a power of ten, in steps of at most `topPower`. -/
def divTen : Nat → Binary → Nat → Binary
  | 0, b, _ => b
  | fuel + 1, b, k =>
    if topPower < k then
      match b with
      | .finite _ 0 _ => b
      | b => divTen fuel (b.mul .double (powerOfTen topPower).2 (powerOfTen topPower).1)
          (k - topPower)
    else b.mul .double (powerOfTen k).2 (powerOfTen k).1

/-- A significand times a power of ten; none when that is out of range. -/
def scaled? (negative : Bool) (significand : Nat) (exponent : Int) : Option Binary :=
  let start := Format.double.round negative significand 1
  if significand = 0 then some start
  else if exponent < 0 then
    -- below the least positive number every further step gives zero
    some (divTen 5 start (min (-exponent).toNat (4 * topPower)))
  else if (topPower : Int) < exponent then none
  else match start.mul .double (powerOfTen exponent.toNat).1 (powerOfTen exponent.toNat).2 with
    | .infinite _ => none
    | b => some b

/-- The number that a numeral denotes; none when it is out of range. -/
def Numeral.value? (n : Numeral) : Option JsonNumber :=
  let (significand, dropped) := accumulate 0 n.whole
  match n.fraction, n.exponent, dropped with
  | none, none, 0 =>
    if n.negative then
      if significand = 0 ∨ Nat.pow 2 63 < significand then
        (scaled? true significand 0).map .float
      else some (.int (-significand))
    else some (.int significand)
  | fraction, exponent, dropped =>
    let (significand, lost) := accumulate significand (fraction.getD [])
    let shift : Int := (dropped : Int) - (((fraction.getD []).length - lost : Nat) : Int)
    let power : Int := match exponent with
      | none => 0
      | some (negative, ds) => if negative then -(digitsValue ds : Int) else digitsValue ds
    (scaled? n.negative significand (shift + power)).map .float

end DocTransfer.Json
