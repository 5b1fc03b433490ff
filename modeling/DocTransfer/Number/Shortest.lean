import DocTransfer.Number.Binary

/-! # The shortest decimal that reads back

Of the decimals that round to a given binary number, the one with the fewest digits; among those
the nearest to the number. Every test is exact arithmetic on naturals. -/

namespace DocTransfer.Number

/-- A positive decimal: digits and the power of ten of the last one. -/
structure Decimal where
  digits : Nat
  exponent : Int
  deriving DecidableEq, Repr

/-- The reals that round to a number: bounds over a common denominator, and whether the bounds
themselves do. -/
structure Neighbourhood where
  low : Nat
  value : Nat
  high : Nat
  den : Nat
  closed : Bool

/-- The neighbourhood of `mantissa * 2 ^ exponent`. Below a power of two the gap is half as wide. -/
def Format.neighbourhood (f : Format) (mantissa : Nat) (exponent : Int) : Neighbourhood :=
  let below := if mantissa = Nat.pow 2 (f.precision - 1) ∧ f.minExponent < exponent then 1 else 2
  let (unit, den) := ratio 1 (exponent - 2)
  { low := (4 * mantissa - below) * unit, value := 4 * mantissa * unit,
    high := (4 * mantissa + 2) * unit, den := den, closed := mantissa % 2 == 0 }

/-- Whether `num / den` rounds to the number. -/
def Neighbourhood.holds (n : Neighbourhood) (num den : Nat) : Bool :=
  if n.closed then decide (n.low * den ≤ num * n.den ∧ num * n.den ≤ n.high * den)
  else decide (n.low * den < num * n.den ∧ num * n.den < n.high * den)

/-- The ratio of naturals that a decimal stands for. -/
def Decimal.ratio (d : Decimal) : Nat × Nat :=
  if d.exponent < 0 then (d.digits, Nat.pow 10 (-d.exponent).toNat)
  else (d.digits * Nat.pow 10 d.exponent.toNat, 1)

/-- The value's lower neighbour on the grid of multiples of `10 ^ e`. -/
def Neighbourhood.gridBelow (n : Neighbourhood) (e : Int) : Nat :=
  if e < 0 then n.value * Nat.pow 10 (-e).toNat / n.den
  else n.value / (n.den * Nat.pow 10 e.toNat)

/-- The best decimal of a grid, if one rounds to the number. -/
def Neighbourhood.onGrid? (n : Neighbourhood) (e : Int) : Option Decimal :=
  let lower : Decimal := ⟨n.gridBelow e, e⟩
  let upper : Decimal := ⟨n.gridBelow e + 1, e⟩
  match n.holds lower.ratio.1 lower.ratio.2, n.holds upper.ratio.1 upper.ratio.2 with
  | true, false => some lower
  | false, true => some upper
  | false, false => none
  | true, true =>
    let (a, d) := lower.ratio
    let (b, _) := upper.ratio
    let twice := 2 * n.value * d
    let sum := (a + b) * n.den
    if twice < sum ∨ (twice = sum ∧ lower.digits % 2 = 0) then some lower else some upper

/-- The power of ten of a positive ratio's first digit. -/
def magnitude (num den : Nat) : Int :=
  if den ≤ num then ((Nat.toDigits 10 (num / den)).length : Int) - 1
  else
    let up := (Nat.toDigits 10 (den / num)).length
    if den ≤ num * Nat.pow 10 (up - 1) then -((up : Int) - 1) else -(up : Int)

/-- A decimal without its trailing zeros. -/
def Decimal.strip (d : Decimal) : Decimal :=
  go d.digits d
where
  /-- Divides by ten as long as that is exact. -/
  go : Nat → Decimal → Decimal
    | 0, d => d
    | fuel + 1, d =>
      if d.digits ≠ 0 ∧ d.digits % 10 = 0 then go fuel ⟨d.digits / 10, d.exponent + 1⟩ else d

/-- The shortest decimal that rounds to a positive number of the format. -/
def Format.shortest (f : Format) (mantissa : Nat) (exponent : Int) : Decimal :=
  let n := f.neighbourhood mantissa exponent
  let top := magnitude n.value n.den
  let widths := (List.range 17).map fun (k : Nat) => top - k
  ((widths.findSome? n.onGrid?).getD ⟨mantissa, 0⟩).strip

end DocTransfer.Number
