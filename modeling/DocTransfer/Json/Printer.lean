import DocTransfer.Json.Basic
import DocTransfer.Number.Written

/-! # Writing JSON

Two forms: compact, and indented by two blanks a level. Only quotes, backslashes and control
characters are escaped. -/

namespace DocTransfer.Json

open Number

/-- A hexadecimal digit in lower case. -/
def hexChar (n : Nat) : Char :=
  if n < 10 then Char.ofNat ('0'.toNat + n) else Char.ofNat ('a'.toNat + (n - 10))

/-- A character of a string as it is written. -/
def escapeChar (c : Char) : List Char :=
  if c = '"' then ['\\', '"']
  else if c = '\\' then ['\\', '\\']
  else if c = '\n' then ['\\', 'n']
  else if c = '\r' then ['\\', 'r']
  else if c = '\t' then ['\\', 't']
  else if c.toNat = 8 then ['\\', 'b']
  else if c.toNat = 12 then ['\\', 'f']
  else if c.toNat < 0x20 then ['\\', 'u', '0', '0', hexChar (c.toNat / 16), hexChar (c.toNat % 16)]
  else [c]

/-- A string with its quotes. -/
def quoted (s : String) : List Char :=
  '"' :: s.toList.flatMap escapeChar ++ ['"']

/-- A number as it is written; what is no finite number is written as null. -/
def numberText : JsonNumber → List Char
  | .int i => (toString i).toList
  | .float (.finite negative m e) =>
    ((Binary.finite negative m e).write .double .jsonDouble).toList
  | .single (.finite negative m e) =>
    ((Binary.finite negative m e).write .single .jsonSingle).toList
  | .float _ | .single _ => "null".toList

mutual

/-- A value without blanks. -/
def compact : Json → List Char
  | .null => "null".toList
  | .bool b => (if b then "true" else "false").toList
  | .number n => numberText n
  | .string s => quoted s
  | .array items => '[' :: compactItems items ++ [']']
  | .object fields => '\x7b' :: compactFields fields ++ ['\x7d']

/-- Items with commas between them. -/
def compactItems : List Json → List Char
  | [] => []
  | [x] => compact x
  | x :: xs => compact x ++ ',' :: compactItems xs

/-- Fields with commas between them. -/
def compactFields : List (String × Json) → List Char
  | [] => []
  | [(name, x)] => quoted name ++ ':' :: compact x
  | (name, x) :: xs => quoted name ++ ':' :: compact x ++ ',' :: compactFields xs

end

/-- A new line and the indentation of a level. -/
def lineBreak (level : Nat) : List Char :=
  '\n' :: List.replicate (2 * level) ' '

mutual

/-- A value with its parts on lines of their own, at a level of indentation. -/
def prettyAt : Nat → Json → List Char
  | _, .null => "null".toList
  | _, .bool b => (if b then "true" else "false").toList
  | _, .number n => numberText n
  | _, .string s => quoted s
  | _, .array [] => ['[', ']']
  | level, .array (x :: xs) =>
    '[' :: lineBreak (level + 1) ++ prettyItems (level + 1) (x :: xs) ++ lineBreak level ++ [']']
  | _, .object [] => ['\x7b', '\x7d']
  | level, .object (f :: fs) =>
    '\x7b' :: lineBreak (level + 1) ++ prettyFields (level + 1) (f :: fs) ++ lineBreak level ++
      ['\x7d']

/-- Items, one a line. -/
def prettyItems : Nat → List Json → List Char
  | _, [] => []
  | level, [x] => prettyAt level x
  | level, x :: xs => prettyAt level x ++ ',' :: lineBreak level ++ prettyItems level xs

/-- Fields, one a line. -/
def prettyFields : Nat → List (String × Json) → List Char
  | _, [] => []
  | level, [(name, x)] => quoted name ++ ':' :: ' ' :: prettyAt level x
  | level, (name, x) :: xs =>
    quoted name ++ ':' :: ' ' :: prettyAt level x ++ ',' :: lineBreak level ++
      prettyFields level xs

end

/-- A value as indented text. -/
def pretty (j : Json) : String :=
  String.ofList (prettyAt 0 j)

/-- A value as one line of text. -/
def write (j : Json) : String :=
  String.ofList (compact j)

end DocTransfer.Json
