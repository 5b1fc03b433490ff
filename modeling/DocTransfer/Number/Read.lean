import DocTransfer.Number.Digits
import DocTransfer.Number.Shortest
import DocTransfer.Text.Lower

/-! # Reading numbers that a user types -/

namespace DocTransfer.Number

/-- The value of an exponent, which may have a sign and has at least one digit. -/
def exponent? (cs : List Char) : Option Int :=
  let (negative, ds) : Bool × List Char := match cs with
    | '-' :: ds => (true, ds)
    | '+' :: ds => (false, ds)
    | ds => (false, ds)
  if ds.isEmpty || !ds.all Char.isDigit then none
  else some (if negative then -(digitsValue ds : Int) else digitsValue ds)

/-- A decimal without a sign. There is a digit before or after the point. -/
def decimal? (cs : List Char) : Option Decimal :=
  let whole := cs.takeWhile Char.isDigit
  let rest := cs.dropWhile Char.isDigit
  let (fraction, rest) : List Char × List Char := match rest with
    | '.' :: more => (more.takeWhile Char.isDigit, more.dropWhile Char.isDigit)
    | rest => ([], rest)
  if whole.isEmpty && fraction.isEmpty then none
  else
    let digits := digitsValue (whole ++ fraction)
    let shift : Int := -(fraction.length : Int)
    match rest with
    | [] => some ⟨digits, shift⟩
    | c :: more =>
      if c = 'e' ∨ c = 'E' then (exponent? more).map fun e => ⟨digits, shift + e⟩ else none

/-- The number of a format nearest to a decimal. An exponent far out of range counts as one that is
just out of range. -/
def Decimal.to (d : Decimal) (f : Format) (negative : Bool) : Binary :=
  let size : Int := (toString d.digits).length
  if d.digits = 0 then .zero f negative
  else if 400 < d.exponent + size then .infinite negative
  else if d.exponent + size < -400 then .zero f negative
  else f.round negative d.ratio.1 d.ratio.2

/-- A number of a format as users write it: a decimal, or a word for an infinity or for no number,
with or without a sign. -/
def read? (f : Format) (cs : List Char) : Option Binary :=
  let (negative, body) : Bool × List Char := match cs with
    | '-' :: body => (true, body)
    | '+' :: body => (false, body)
    | body => (false, body)
  match String.ofList (Text.lowerAll body) with
  | "inf" | "infinity" => some (.infinite negative)
  | "nan" => some .undefined
  | _ => (decimal? body).map fun d => d.to f negative

/-- A count as users write it. -/
def count? (cs : List Char) : Option Nat :=
  let ds := match cs with
    | '+' :: ds => ds
    | ds => ds
  if ds.isEmpty || !ds.all Char.isDigit then none
  else if maxCount < digitsValue ds then none
  else some (digitsValue ds)

end DocTransfer.Number
