import DocTransfer.Json.Numeral
import DocTransfer.Json.Outline

/-! # What is wrong with a JSON text

The first place where a text stops being JSON, and what was expected there. -/

namespace DocTransfer.Json

/-- What keeps a text from being JSON. -/
inductive Flaw where
  | endOfList
  | endOfObject
  | endOfString
  | endOfValue
  | colon
  | listEnd
  | objectEnd
  | ident
  | value
  | escape
  | number
  | control
  | key
  | trailingComma
  | trailing
  deriving DecidableEq, Repr

/-- The wording of a flaw. -/
def Flaw.message : Flaw → String
  | .endOfList => "EOF while parsing a list"
  | .endOfObject => "EOF while parsing an object"
  | .endOfString => "EOF while parsing a string"
  | .endOfValue => "EOF while parsing a value"
  | .colon => "expected `:`"
  | .listEnd => "expected `,` or `]`"
  | .objectEnd => "expected `,` or `\x7d`"
  | .ident => "expected ident"
  | .value => "expected value"
  | .escape => "invalid escape"
  | .number => "invalid number"
  | .control => "control character (\\u0000-\\u001F) found while parsing a string"
  | .key => "key must be a string"
  | .trailingComma => "trailing comma"
  | .trailing => "trailing characters"

/-- What follows a part that is in order, or a flaw and the text from it on. -/
abbrev Sound := Except (Flaw × List Char) (List Char)

/-- Goes through the rest of a word. -/
def goWord : List Char → List Char → Sound
  | [], cs => .ok cs
  | _ :: _, [] => .error (.endOfValue, [])
  | w :: ws, c :: cs => if w = c then goWord ws cs else .error (.ident, c :: cs)

/-- Goes through a string after its opening quote. -/
def goString : List Char → Sound
  | [] => .error (.endOfString, [])
  | '\\' :: [] => .error (.endOfString, [])
  | '\\' :: c :: cs =>
    if c = 'u' ∨ (shortEscape? c).isSome then goString cs else .error (.escape, c :: cs)
  | c :: cs =>
    if c = '"' then .ok cs
    else if c.toNat < 0x20 then .error (.control, c :: cs)
    else goString cs

/-- Goes through digits, of which there has to be one. -/
def goDigits (cs : List Char) : Sound :=
  match digitRun cs with
  | ([], []) => .error (.endOfValue, [])
  | ([], rest) => .error (.number, rest)
  | (_, rest) => .ok rest

/-- Goes through a number without its sign. -/
def goNumber (cs : List Char) : Sound := do
  let rest ← goDigits cs
  if cs.head? = some '0' ∧ (cs.drop 1).head?.any Char.isDigit then .error (.number, cs.drop 1)
  else
    let rest ← match rest with
      | '.' :: more => goDigits more
      | _ => .ok rest
    match rest with
    | c :: more =>
      if c = 'e' ∨ c = 'E' then
        match more with
        | '+' :: ds | '-' :: ds => goDigits ds
        | ds => goDigits ds
      else .ok rest
    | [] => .ok []

mutual

/-- Goes through a value. -/
def goValue : Nat → List Char → Sound
  | 0, cs => .error (.value, cs)
  | fuel + 1, cs =>
    match skipSpace cs with
    | [] => .error (.endOfValue, [])
    | 'n' :: rest => goWord "ull".toList rest
    | 't' :: rest => goWord "rue".toList rest
    | 'f' :: rest => goWord "alse".toList rest
    | '-' :: rest => goNumber rest
    | '"' :: rest => goString rest
    | '[' :: rest => goItems fuel true rest
    | c :: rest =>
      if c = '\x7b' then goFields fuel true rest
      else if c.isDigit then goNumber (c :: rest)
      else .error (.value, c :: rest)

/-- Goes through the items of a list; the flag tells that none has come yet. -/
def goItems : Nat → Bool → List Char → Sound
  | 0, _, cs => .error (.value, cs)
  | fuel + 1, isFirst, cs =>
    match skipSpace cs with
    | [] => .error (.endOfList, [])
    | c :: rest =>
      if c = ']' then .ok rest
      else if isFirst then do goItems fuel false (← goValue fuel (c :: rest))
      else if c = ',' then
        match skipSpace rest with
        | [] => .error (.endOfValue, [])
        | d :: more =>
          if d = ']' then .error (.trailingComma, d :: more)
          else do goItems fuel false (← goValue fuel (d :: more))
      else .error (.listEnd, c :: rest)

/-- Goes through the fields of an object; the flag tells that none has come yet. -/
def goFields : Nat → Bool → List Char → Sound
  | 0, _, cs => .error (.value, cs)
  | fuel + 1, isFirst, cs =>
    match skipSpace cs with
    | [] => .error (.endOfObject, [])
    | c :: rest =>
      if c = '\x7d' then .ok rest
      else if isFirst then
        if c = '"' then goField fuel rest else .error (.key, c :: rest)
      else if c = ',' then
        match skipSpace rest with
        | [] => .error (.endOfValue, [])
        | d :: more =>
          if d = '"' then goField fuel more
          else if d = '\x7d' then .error (.trailingComma, d :: more)
          else .error (.key, d :: more)
      else .error (.objectEnd, c :: rest)

/-- Goes through a field after the opening quote of its name, and through those that follow. -/
def goField : Nat → List Char → Sound
  | 0, cs => .error (.value, cs)
  | fuel + 1, cs => do
    match skipSpace (← goString cs) with
    | [] => .error (.endOfObject, [])
    | ':' :: rest => goFields fuel false (← goValue fuel rest)
    | rest => .error (.colon, rest)

end

/-- The first flaw of a text and what follows from there on. -/
def flaw? (cs : List Char) : Option (Flaw × List Char) :=
  match goValue (2 * cs.length + 2) cs with
  | .error found => some found
  | .ok rest =>
    match skipSpace rest with
    | [] => none
    | rest => some (.trailing, rest)

/-- The line and, in bytes, the column of a flaw, whose own character counts. -/
def position (cs rest : List Char) : Nat × Nat :=
  let seen := cs.take (cs.length - rest.length + 1)
  let line := seen.reverse.takeWhile (· != '\n')
  (1 + seen.count '\n', (String.ofList line).utf8ByteSize)

/-- What is wrong with a text that was expected to have a certain shape. -/
def faultMessage (cs : List Char) : String :=
  match flaw? cs with
  | some (flaw, rest) =>
    let (line, column) := position cs rest
    flaw.message ++ " at line " ++ toString line ++ " column " ++ toString column
  | none => "unexpected data"

end DocTransfer.Json
