import DocTransfer.Number.Shortest

/-! # Decimal text

How a shortest decimal is laid out: with a point where that stays readable, with an exponent
elsewhere. -/

namespace DocTransfer.Number

/-- Where positional writing ends and what whole numbers carry. `pointFrom` and `pointTo` bound the
number of digits before the point (negative: zeros after it); outside them an exponent is
written. -/
structure Layout where
  pointFrom : Option Int
  pointTo : Option Int
  pointZero : Bool

/-- Eight-byte numbers in JSON text. -/
def Layout.jsonDouble : Layout := ⟨some (-4), some 16, true⟩

/-- Four-byte numbers in JSON text. -/
def Layout.jsonSingle : Layout := ⟨some (-5), some 13, true⟩

/-- Numbers in messages: never an exponent, whole numbers without a point. -/
def Layout.plain : Layout := ⟨none, none, false⟩

/-- The decimal digits of a natural number. -/
def digitsOf (n : Nat) : String :=
  String.ofList (Nat.toDigits 10 n)

/-- As many zeros. -/
def zeros (n : Nat) : String :=
  String.ofList (List.replicate n '0')

/-- Digits with the point after the first `before` of them. -/
def Layout.positional (l : Layout) (digits : List Char) (before : Int) : String :=
  let count : Int := digits.length
  if count ≤ before then
    String.ofList digits ++ zeros (before - count).toNat ++ (if l.pointZero then ".0" else "")
  else if 0 < before then
    String.ofList (digits.take before.toNat) ++ "." ++ String.ofList (digits.drop before.toNat)
  else "0." ++ zeros (-before).toNat ++ String.ofList digits

/-- Digits with a point after the first and an exponent. -/
def scientific (digits : List Char) (before : Int) : String :=
  let e := before - 1
  let mark := if e < 0 then "e-" else "e+"
  let body := match digits with
    | [] => ""
    | [d] => String.ofList [d]
    | d :: ds => String.ofList (d :: '.' :: ds)
  body ++ mark ++ digitsOf e.natAbs

/-- A positive decimal as text. -/
def Layout.write (l : Layout) (d : Decimal) : String :=
  let digits := Nat.toDigits 10 d.digits
  let before : Int := digits.length + d.exponent
  let fits := (l.pointFrom.all (· ≤ before)) && (l.pointTo.all (before ≤ ·))
  if fits then l.positional digits before else scientific digits before

/-- A number of a format as text. -/
def Binary.write (f : Format) (l : Layout) : Binary → String
  | .undefined => "NaN"
  | .infinite negative => if negative then "-inf" else "inf"
  | .finite negative m e =>
    (if negative then "-" else "") ++
      (if m = 0 then (if l.pointZero then "0.0" else "0") else l.write (f.shortest m e))

end DocTransfer.Number
