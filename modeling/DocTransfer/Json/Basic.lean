import DocTransfer.Number.Binary

/-! # JSON values -/

namespace DocTransfer

/-- A JSON number: whole numbers that fit in eight bytes stay exact, all others are floating. A
number of four bytes is written with the digits that its own format needs. -/
inductive JsonNumber where
  | int (value : Int)
  | float (value : Number.Binary)
  | single (value : Number.Binary)
  deriving DecidableEq

/-- A JSON value. The fields of an object keep the order in which they were written. -/
inductive Json where
  | null
  | bool (value : Bool)
  | number (value : JsonNumber)
  | string (value : String)
  | array (items : List Json)
  | object (fields : List (String × Json))

namespace Json

/-- A natural number as a value. -/
def nat (n : Nat) : Json := .number (.int n)

/-- A list of texts as a value. -/
def strings (xs : List String) : Json := .array (xs.map .string)

/-- Fields with one added at the end, or replaced where the name is taken. -/
def putField (name : String) (value : Json) : List (String × Json) → List (String × Json)
  | [] => [(name, value)]
  | (n, v) :: rest => if n = name then (n, value) :: rest else (n, v) :: putField name value rest

/-- The value of a field of an object. -/
def field? (name : String) : Json → Option Json
  | .object fields => (fields.find? (·.1 == name)).map (·.2)
  | _ => none

mutual

/-- How deep arrays and objects nest. -/
def depth : Json → Nat
  | .array items => depthItems items + 1
  | .object fields => depthFields fields + 1
  | _ => 0

/-- The greatest depth among items. -/
def depthItems : List Json → Nat
  | [] => 0
  | x :: xs => max (depth x) (depthItems xs)

/-- The greatest depth among field values. -/
def depthFields : List (String × Json) → Nat
  | [] => 0
  | (_, x) :: xs => max (depth x) (depthFields xs)

end

end Json

end DocTransfer
