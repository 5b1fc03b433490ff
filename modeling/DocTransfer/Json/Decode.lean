import DocTransfer.Json.Outline

/-! # Reading records out of JSON

A record is written as an object, or as an array of its fields in order. Unknown fields are
skipped unread, a known field given twice is an error, and an array may stop early where the
missing fields have defaults. -/

namespace DocTransfer.Json

open Number

/-- A reader of one kind of value; the number bounds how deep the value may nest. -/
abbrev Decoder (α : Type) := Nat → Outline → Option α

namespace Decode

/-- A text. -/
def text : Decoder String
  | _, .string s => s
  | _, _ => none

/-- A whole number from zero to `top`. -/
def natural (top : Nat) : Decoder Nat
  | _, .number n =>
    match n.value? with
    | some (.int i) => if 0 ≤ i ∧ i.toNat ≤ top then some i.toNat else none
    | _ => none
  | _, _ => none

/-- A number, rounded to four bytes. -/
def single : Decoder Binary
  | _, .number n =>
    match n.value? with
    | some (.int i) => some (Format.single.round (decide (i < 0)) i.natAbs 1)
    | some (.float b) | some (.single b) => some (b.to .single)
    | none => none
  | _, _ => none

/-- A list of values of one kind. -/
def list {α : Type} (item : Decoder α) : Decoder (List α)
  | limit + 1, .array items => items.mapM (item limit)
  | _, _ => none

/-- A value or null. -/
def nullable {α : Type} (value : Decoder α) : Decoder (Option α)
  | _, .null => some none
  | limit, o => (value limit o).map some

/-- One of several names: the name itself, or an object with the name as its only field and null
as its value. -/
def choice {α : Type} (names : List (String × α)) : Decoder α
  | _, .string (some s) => names.lookup s
  | _ + 1, .object [(some s, .null)] => names.lookup s
  | _, _ => none

/-- The fields of a record as found: whether they came in order, and the value of each. -/
structure Slots where
  positional : Bool
  values : List (Option Outline)

/-- The values that fields give to a name with its aliases. -/
def valuesNamed (names : List String) (fields : List (Option String × Outline)) : List Outline :=
  fields.filterMap fun (name, value) =>
    if names.any (name == some ·) then some value else none

/-- The fields of a record. Each is given by its name, followed by its aliases. -/
def slots (known : List (List String)) : Decoder Slots
  | _ + 1, .object fields =>
    if fields.any (·.1.isNone) then none
    else do
      let values ← known.mapM fun names =>
        match valuesNamed names fields with
        | [] => some none
        | [value] => some (some value)
        | _ => none
      return ⟨false, values⟩
  | _ + 1, .array items =>
    if known.length < items.length then none
    else some ⟨true, (items.map some) ++ List.replicate (known.length - items.length) none⟩
  | _, _ => none

/-- The value of the field at a position, if it is there. -/
def Slots.value? (s : Slots) (i : Nat) : Option Outline :=
  s.values[i]?.join

/-- A field that has to be there. -/
def Slots.required {α : Type} (s : Slots) (i : Nat) (read : Outline → Option α) : Option α :=
  (s.value? i).bind read

/-- A field with a default. -/
def Slots.withDefault {α : Type} (s : Slots) (i : Nat) (default : α) (read : Outline → Option α) :
    Option α :=
  match s.value? i with
  | none => some default
  | some o => read o

/-- A field that an object may leave out; an array may not. -/
def Slots.optional {α : Type} (s : Slots) (i : Nat) (read : Outline → Option (Option α)) :
    Option (Option α) :=
  match s.value? i with
  | none => if s.positional then none else some none
  | some o => read o

end Decode

end DocTransfer.Json
