/-! # Decimal digits and counts -/

namespace DocTransfer.Number

/-- The greatest count that fits in eight bytes. -/
def maxCount : Nat := Nat.pow 2 64 - 1

/-- The greatest count that fits in four bytes. -/
def maxSmallCount : Nat := Nat.pow 2 32 - 1

/-- The number that digits denote. -/
def digitsValue (ds : List Char) : Nat :=
  ds.foldl (fun n d => n * 10 + (d.toNat - '0'.toNat)) 0

end DocTransfer.Number
