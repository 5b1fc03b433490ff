import DocTransfer.Json.Numeral

/-! # The outline of a JSON text

An outline is the text's structure with its numerals and strings still unjudged: a numeral may be
out of range, a string may hold half a surrogate pair. A reader that skips a part of the text does
not mind either, one that wants its value does. -/

namespace DocTransfer.Json

/-- The structure of a JSON text. A string without a value is `none`. -/
inductive Outline where
  | null
  | bool (value : Bool)
  | number (value : Numeral)
  | string (value : Option String)
  | array (items : List Outline)
  | object (fields : List (Option String × Outline))

/-- Blanks of JSON text. -/
def isSpace (c : Char) : Bool :=
  c == ' ' || c == '\n' || c == '\t' || c == '\r'

/-- A text without leading blanks. -/
def skipSpace (cs : List Char) : List Char :=
  cs.dropWhile isSpace

/-! ## Strings -/

/-- A piece of a string: a character, or a sixteen-bit unit written by its number. -/
inductive Piece where
  | char (c : Char)
  | unit (n : Nat)

/-- The value of a hexadecimal digit. -/
def hexDigit? (c : Char) : Option Nat :=
  if '0' ≤ c ∧ c ≤ '9' then some (c.toNat - '0'.toNat)
  else if 'a' ≤ c ∧ c ≤ 'f' then some (c.toNat - 'a'.toNat + 10)
  else if 'A' ≤ c ∧ c ≤ 'F' then some (c.toNat - 'A'.toNat + 10)
  else none

/-- The value of four hexadecimal digits. -/
def hexUnit? (a b c d : Char) : Option Nat := do
  let a ← hexDigit? a
  let b ← hexDigit? b
  let c ← hexDigit? c
  let d ← hexDigit? d
  return ((a * 16 + b) * 16 + c) * 16 + d

/-- The character that a one-letter escape stands for. -/
def shortEscape? : Char → Option Char
  | '"' => some '"'
  | '\\' => some '\\'
  | '/' => some '/'
  | 'b' => some (Char.ofNat 8)
  | 'f' => some (Char.ofNat 12)
  | 'n' => some '\n'
  | 'r' => some '\r'
  | 't' => some '\t'
  | _ => none

/-- The pieces of a string up to its closing quote, and the rest. Control characters have to be
escaped. -/
def pieces? : List Char → Option (List Piece × List Char)
  | [] => none
  | '"' :: rest => some ([], rest)
  | '\\' :: 'u' :: a :: b :: c :: d :: rest => do
    let n ← hexUnit? a b c d
    let (ps, rest) ← pieces? rest
    return (.unit n :: ps, rest)
  | '\\' :: e :: rest => do
    let c ← shortEscape? e
    let (ps, rest) ← pieces? rest
    return (.char c :: ps, rest)
  | c :: rest =>
    if c.toNat < 0x20 ∨ c = '\\' then none
    else do
      let (ps, rest) ← pieces? rest
      return (.char c :: ps, rest)

/-- The first half of a surrogate pair. -/
def isHighUnit (n : Nat) : Bool := 0xD800 ≤ n && n ≤ 0xDBFF

/-- The second half of a surrogate pair. -/
def isLowUnit (n : Nat) : Bool := 0xDC00 ≤ n && n ≤ 0xDFFF

/-- The text that pieces spell; none when half of a pair stands alone. -/
def spell? : List Piece → Option (List Char)
  | [] => some []
  | .char c :: ps => (spell? ps).map (c :: ·)
  | .unit n :: .unit m :: ps =>
    if isHighUnit n then
      if isLowUnit m then
        (spell? ps).map (Char.ofNat (0x10000 + (n - 0xD800) * 0x400 + (m - 0xDC00)) :: ·)
      else none
    else if isLowUnit n then none
    else (spell? (.unit m :: ps)).map (Char.ofNat n :: ·)
  | .unit n :: ps =>
    if isHighUnit n || isLowUnit n then none else (spell? ps).map (Char.ofNat n :: ·)

/-- The string whose opening quote has been read. -/
def string? (cs : List Char) : Option (Option String × List Char) :=
  (pieces? cs).map fun (ps, rest) => ((spell? ps).map String.ofList, rest)

/-! ## Values -/

mutual

/-- The value at the head of a text. -/
def value? : Nat → List Char → Option (Outline × List Char)
  | 0, _ => none
  | fuel + 1, cs =>
    match skipSpace cs with
    | 'n' :: 'u' :: 'l' :: 'l' :: rest => some (.null, rest)
    | 't' :: 'r' :: 'u' :: 'e' :: rest => some (.bool true, rest)
    | 'f' :: 'a' :: 'l' :: 's' :: 'e' :: rest => some (.bool false, rest)
    | '"' :: rest => (string? rest).map fun (s, rest) => (.string s, rest)
    | '[' :: rest =>
      match skipSpace rest with
      | ']' :: rest => some (.array [], rest)
      | rest => (items? fuel rest).map fun (items, rest) => (.array items, rest)
    | '\x7b' :: rest =>
      match skipSpace rest with
      | '\x7d' :: rest => some (.object [], rest)
      | rest => (fields? fuel rest).map fun (fields, rest) => (.object fields, rest)
    | cs => (numeral? cs).map fun (n, rest) => (.number n, rest)

/-- One or more items up to the closing bracket. -/
def items? : Nat → List Char → Option (List Outline × List Char)
  | 0, _ => none
  | fuel + 1, cs => do
    let (item, rest) ← value? fuel cs
    match skipSpace rest with
    | ']' :: rest => return ([item], rest)
    | ',' :: rest =>
      let (items, rest) ← items? fuel rest
      return (item :: items, rest)
    | _ => none

/-- One or more fields up to the closing brace. -/
def fields? : Nat → List Char → Option (List (Option String × Outline) × List Char)
  | 0, _ => none
  | fuel + 1, cs =>
    match skipSpace cs with
    | '"' :: rest => do
      let (name, rest) ← string? rest
      match skipSpace rest with
      | ':' :: rest =>
        let (value, rest) ← value? fuel rest
        match skipSpace rest with
        | '\x7d' :: rest => return ([(name, value)], rest)
        | ',' :: rest =>
          let (fields, rest) ← fields? fuel rest
          return ((name, value) :: fields, rest)
        | _ => none
      | _ => none
    | _ => none

end

/-- The outline of a whole text. -/
def Outline.read? (cs : List Char) : Option Outline :=
  match value? (2 * cs.length + 2) cs with
  | some (value, rest) => if skipSpace rest = [] then some value else none
  | none => none

/-- How deep a text may nest and still have a value. -/
def maxDepth : Nat := 127

mutual

/-- The value of an outline that nests no deeper than the limit. Of fields with one name the last
one counts. -/
def Outline.value? : Nat → Outline → Option Json
  | _, .null => some .null
  | _, .bool b => some (.bool b)
  | _, .number n => n.value?.map .number
  | _, .string s => s.map .string
  | limit, .array items =>
    if limit = 0 then none else (Outline.items? (limit - 1) items).map .array
  | limit, .object fields =>
    if limit = 0 then none else (Outline.fields? (limit - 1) fields []).map .object

/-- The values of items. -/
def Outline.items? : Nat → List Outline → Option (List Json)
  | _, [] => some []
  | limit, x :: xs => do
    let x ← Outline.value? limit x
    let xs ← Outline.items? limit xs
    return x :: xs

/-- The values of fields, put into those read before. -/
def Outline.fields? : Nat → List (Option String × Outline) → List (String × Json) →
    Option (List (String × Json))
  | _, [], done => some done
  | limit, (name, x) :: xs, done => do
    let name ← name
    let x ← Outline.value? limit x
    Outline.fields? limit xs (putField name x done)

end

/-- The value of a JSON text. -/
def read? (cs : List Char) : Option Json :=
  (Outline.read? cs).bind (Outline.value? maxDepth)

end DocTransfer.Json
