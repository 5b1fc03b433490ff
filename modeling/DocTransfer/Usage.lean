/-! # Token counts -/

namespace DocTransfer

/-- Tokens that completions have cost. -/
structure Usage where
  input : Nat := 0
  output : Nat := 0
  total : Nat := 0
  deriving DecidableEq, Repr

namespace Usage

/-- Counts are added field by field. -/
instance : Add Usage := ⟨fun a b => ⟨a.input + b.input, a.output + b.output, a.total + b.total⟩⟩

/-- The sum of several counts. -/
def sum (us : List Usage) : Usage :=
  us.foldl (· + ·) {}

/-- Counts as shown to the user. -/
def describe (u : Usage) : String :=
  toString u.total ++ " (" ++ toString u.input ++ " input, " ++ toString u.output ++ " output)"

end Usage

end DocTransfer
