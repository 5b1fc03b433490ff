import DocTransfer.Json.Outline
import DocTransfer.Text.Blank
import DocTransfer.Transfer.Edit

/-! # Reading model answers

A prompt asks for one JSON array. Models wrap it in a fence and put raw line breaks and tabs into
strings; both are mended. Whatever is still no array counts as an empty one. -/

namespace DocTransfer.Transfer

open Text

/-- The mark that opens and closes a fenced block. -/
def fenceMark : List Char := ['`', '`', '`']

/-- The body of the first fenced block. -/
def fencedBody? (text : List Char) : Option (List Char) := do
  let (_, rest) ← splitFirst? fenceMark text
  let rest := (after? "json".toList rest).getD rest
  let (body, _) ← splitFirst? fenceMark (trimStart rest)
  return body

/-- The body of the first fenced block if it has one that is not empty, else the whole text. -/
def stripFence (text : List Char) : List Char :=
  match fencedBody? text with
  | some (c :: cs) => c :: cs
  | _ => text

/-- The rest of a string literal after its opening quote: all up to and with the closing quote, and
what follows. A backslash takes the next character along, which may not be a line feed. -/
def literal? : List Char → Option (List Char × List Char)
  | [] => none
  | '"' :: rest => some (['"'], rest)
  | '\\' :: c :: rest =>
    if c = '\n' then none else (literal? rest).map fun (body, rest) => ('\\' :: c :: body, rest)
  | c :: rest =>
    if c = '\\' then none else (literal? rest).map fun (body, rest) => (c :: body, rest)

theorem length_of_literal? {cs body rest : List Char} (h : literal? cs = some (body, rest)) :
    rest.length < cs.length := by
  fun_induction literal? cs generalizing body rest with
  | case1 => simp at h
  | case2 => simp_all
  | case3 => simp at h
  | case4 c cs hc ih =>
    obtain ⟨⟨b, r⟩, hr, he⟩ := Option.map_eq_some_iff.1 h
    have := ih hr
    simp only [Prod.mk.injEq] at he
    simp only [List.length_cons, ← he.2]
    omega
  | case5 => simp at h
  | case6 c cs _ _ hc ih =>
    obtain ⟨⟨b, r⟩, hr, he⟩ := Option.map_eq_some_iff.1 h
    have := ih hr
    simp only [Prod.mk.injEq] at he
    simp only [List.length_cons, ← he.2]
    omega

/-- A raw tab, line feed or carriage return as an escape. -/
def escapeControl (c : Char) : List Char :=
  if c = '\t' then ['\\', 't']
  else if c = '\n' then ['\\', 'n']
  else if c = '\r' then ['\\', 'r']
  else [c]

/-- A text with the raw control characters inside its string literals escaped. -/
def escapeLiterals : List Char → List Char
  | [] => []
  | c :: cs =>
    if c = '"' then
      match h : literal? cs with
      | some (body, rest) =>
        have := length_of_literal? h
        '"' :: body.flatMap escapeControl ++ escapeLiterals rest
      | none => '"' :: escapeLiterals cs
    else c :: escapeLiterals cs
termination_by cs => cs.length

/-- The items of the JSON array in an answer. -/
def answerItems (text : List Char) : List Json :=
  match Json.read? (escapeLiterals (stripFence text)) with
  | some (.array items) => items
  | _ => []

/-- A text or null. -/
def optionalText? : Json → Option (Option String)
  | .null => some none
  | .string s => some (some s)
  | _ => none

/-- The edit that a value describes: an object, or an array of at most two texts. -/
def Edit.ofJson? : Json → Option Edit
  | .object fields => do
    let old ← optionalText? ((fields.lookup "oldString").getD .null)
    let new ← optionalText? ((fields.lookup "newString").getD .null)
    return { old, new }
  | .array [] => some {}
  | .array [old] => do return { old := ← optionalText? old }
  | .array [old, new] => do return { old := ← optionalText? old, new := ← optionalText? new }
  | _ => none

/-- The edits in an answer. An item that is no edit stands for an empty one. -/
def answerEdits (text : List Char) : List Edit :=
  (answerItems text).map fun item => (Edit.ofJson? item).getD {}

/-- The type names in an answer. Items that are no text are dropped. -/
def answerNames (text : List Char) : List String :=
  (answerItems text).filterMap fun
    | .string s => some s
    | _ => none

end DocTransfer.Transfer
