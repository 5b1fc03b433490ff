/-! # Binary floating-point numbers

Values are exact: a sign, a mantissa and a power of two. Rounding takes a ratio of natural numbers
to the nearest value of a format, ties going to the even mantissa. -/

namespace DocTransfer.Number

/-- A binary format: digits of the mantissa and the range of the exponent of its last digit. -/
structure Format where
  precision : Nat
  minExponent : Int
  maxExponent : Int

/-- Four-byte numbers. -/
def Format.single : Format := ⟨24, -149, 104⟩

/-- Eight-byte numbers. -/
def Format.double : Format := ⟨53, -1074, 971⟩

/-- A floating-point number: `mantissa * 2 ^ exponent` with a sign, an infinity, or no number. -/
inductive Binary where
  | finite (negative : Bool) (mantissa : Nat) (exponent : Int)
  | infinite (negative : Bool)
  | undefined
  deriving DecidableEq, Repr

/-- Zero of a sign. -/
def Binary.zero (f : Format) (negative : Bool) : Binary :=
  .finite negative 0 f.minExponent

/-- The natural part of the quotient rounded to nearest, ties to even. -/
def roundDiv (num den : Nat) : Nat :=
  let q := num / den
  let r := num % den
  if den < 2 * r || (den == 2 * r && q % 2 == 1) then q + 1 else q

/-- Numerator and denominator of `num / den / 2 ^ e`. -/
def scaleDown (num den : Nat) (e : Int) : Nat × Nat :=
  if e < 0 then (num * Nat.pow 2 (-e).toNat, den) else (num, den * Nat.pow 2 e.toNat)

/-- The exponent at which the quotient has as many binary digits as the format holds. -/
def Format.exponentFor (f : Format) (num den : Nat) : Int :=
  let guess : Int := (Nat.log2 num : Int) - Nat.log2 den - f.precision
  let scaled := scaleDown num den guess
  let e := if scaled.1 / scaled.2 < Nat.pow 2 f.precision then guess else guess + 1
  max f.minExponent e

/-- The number of the format nearest to `num / den`; `den` is not zero. -/
def Format.round (f : Format) (negative : Bool) (num den : Nat) : Binary :=
  if num = 0 then .zero f negative
  else
    let e := f.exponentFor num den
    let scaled := scaleDown num den e
    let m := roundDiv scaled.1 scaled.2
    let (m, e) :=
      if m = Nat.pow 2 f.precision then (Nat.pow 2 (f.precision - 1), e + 1) else (m, e)
    if f.maxExponent < e then .infinite negative else .finite negative m e

/-- The ratio of naturals that a finite magnitude stands for. -/
def ratio (mantissa : Nat) (exponent : Int) : Nat × Nat :=
  if exponent < 0 then (mantissa, Nat.pow 2 (-exponent).toNat)
  else (mantissa * Nat.pow 2 exponent.toNat, 1)

/-- The number of a format nearest to a given one. -/
def Binary.to (f : Format) : Binary → Binary
  | .finite negative m e => f.round negative (ratio m e).1 (ratio m e).2
  | b => b

/-- Product of a finite number and a natural, rounded. -/
def Binary.mul (f : Format) (b : Binary) (num den : Nat) : Binary :=
  match b with
  | .finite negative m e => f.round negative ((ratio m e).1 * num) ((ratio m e).2 * den)
  | b => b

/-- Whether a number lies between two naturals, ends included. Both zeros count as zero. -/
def Binary.between (lo hi : Nat) : Binary → Bool
  | .finite negative m e =>
    let (num, den) := ratio m e
    if negative then lo == 0 && num == 0 else decide (lo * den ≤ num ∧ num ≤ hi * den)
  | _ => false

end DocTransfer.Number
