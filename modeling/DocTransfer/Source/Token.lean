import DocTransfer.Text.Letter

/-! # Tokens

A lexer is a step that tells how long the token at the front of a text is. Blanks between tokens
are dropped, and everything else is in some token, so that no character is lost. -/

namespace DocTransfer.Source

/-- What a token is. Words hold identifiers and keywords alike; a mark is one character of
punctuation; a directive is a whole line for the preprocessor; verbatim text stands around code that
is embedded in it. -/
inductive TokenKind where
  | word
  | literal
  | lineComment
  | blockComment
  | directive
  | verbatim
  | mark
  deriving DecidableEq, Repr

/-- A token and its place. It is `fresh` if a line break stands between it and the last token that
is no comment. -/
structure Token where
  kind : TokenKind
  start : Nat
  text : List Char
  fresh : Bool
  deriving Repr

namespace Token

/-- The place after the last character. -/
def stop (t : Token) : Nat :=
  t.start + t.text.length

/-- Whether a token is a given word or mark. -/
def is (t : Token) (s : String) : Bool :=
  (t.kind == .word || t.kind == .mark) && t.text == s.toList

/-- Whether a token is one of some words or marks. -/
def isOneOf (t : Token) (names : List String) : Bool :=
  names.any t.is

/-- Whether a token is a word. -/
def isWord (t : Token) : Bool :=
  t.kind == .word

/-- Whether a token is a comment. -/
def isComment (t : Token) : Bool :=
  t.kind == .lineComment || t.kind == .blockComment

end Token

/-- One step of a lexer with a state: what stands at the front, how many characters it has and
the next state. A length of zero counts as one. -/
abbrev Step (σ : Type) := σ → List Char → TokenKind × Nat × σ

/-- The tokens of a text. The first number counts the characters before the text, the second those
that the last token still covers. -/
def tokensFrom {σ : Type} (isGap : Char → Bool) (step : Step σ) :
    σ → Bool → Nat → Nat → List Char → List Token
  | _, _, _, _, [] => []
  | s, fresh, pos, k + 1, _ :: cs =>
    tokensFrom isGap step s fresh (pos + 1) k cs
  | s, fresh, pos, 0, c :: cs =>
    if isGap c then tokensFrom isGap step s (fresh || c == '\n') (pos + 1) 0 cs
    else
      let (kind, n, s) := step s (c :: cs)
      let text := (c :: cs).take (max n 1)
      ⟨kind, pos, text, fresh⟩ ::
        tokensFrom isGap step s
          ((kind == .lineComment || kind == .blockComment) && (fresh || text.contains '\n'))
          (pos + 1) (n - 1) cs

/-- The tokens of a text under a lexer without a state. -/
def tokens (isGap : Char → Bool) (step : List Char → TokenKind × Nat) (source : List Char) :
    List Token :=
  tokensFrom isGap (fun _ cs => let (kind, n) := step cs; (kind, n, ())) () true 0 0 source

/-! ## Lengths of common tokens -/

/-- Blanks of the ASCII range, and the mark that may open a file. -/
def isAsciiGap (c : Char) : Bool :=
  c == ' ' || (9 ≤ c.toNat && c.toNat ≤ 13) || c.toNat == 0xFEFF

/-- The length of the longest front whose characters satisfy `p`. -/
def spanLength (p : Char → Bool) (cs : List Char) : Nat :=
  (cs.takeWhile p).length

/-- The length of the longest front made of characters that satisfy `p` and of escapes, whose
lengths `escape?` tells. `skip` counts the characters of an escape that are still to come. -/
def spanWithEscapes (p : Char → Bool) (escape? : List Char → Option Nat) :
    Nat → List Char → Nat
  | _, [] => 0
  | skip + 1, _ :: cs => 1 + spanWithEscapes p escape? skip cs
  | 0, c :: cs =>
    if p c then 1 + spanWithEscapes p escape? 0 cs
    else match escape? (c :: cs) with
      | some n => 1 + spanWithEscapes p escape? (n - 1) cs
      | none => 0

/-- A hexadecimal digit. -/
def isHexDigit (c : Char) : Bool :=
  c.isDigit || ('a' ≤ c && c ≤ 'f') || ('A' ≤ c && c ≤ 'F')

/-- A letter, the low line or the dollar sign. -/
def opensName (c : Char) : Bool :=
  Text.isLetter c || c == '_' || c == '$'

/-- The number of characters before the end of the line. -/
def lineLength (cs : List Char) : Nat :=
  spanLength (fun c => c != '\n') cs

/-- The length up to and including the first occurrence of `pat`. -/
def lengthThrough? (pat : List Char) : List Char → Option Nat
  | [] => if pat.isEmpty then some 0 else none
  | c :: cs =>
    if pat.isPrefixOf (c :: cs) then some pat.length
    else (lengthThrough? pat cs).map (· + 1)

/-- The length of a quoted text after its opening quote, closing quote included. A backslash
keeps the next character from closing it, and a line break leaves it unclosed. -/
def quotedLength? (quote : Char) : List Char → Option Nat
  | [] => none
  | '\\' :: _ :: cs => (quotedLength? quote cs).map (· + 2)
  | c :: cs =>
    if c == quote then some 1
    else if c == '\n' then none
    else (quotedLength? quote cs).map (· + 1)

/-- The length of a number: digits with separators and a radix letter, a fraction, an exponent
and a suffix from `suffixes`. -/
def numberLength (separator : Char) (suffixes : List Char) (cs : List Char) : Nat :=
  let isHex (c : Char) : Bool := isHexDigit c || c == separator
  let isDec (c : Char) : Bool := c.isDigit || c == separator
  let body : Nat :=
    match cs with
    | '0' :: x :: d :: rest =>
      if (x == 'x' || x == 'X') && isHex d then 2 + spanLength isHex (d :: rest)
      else if (x == 'b' || x == 'B') && isDec d then 2 + spanLength isDec (d :: rest)
      else spanLength isDec cs
    | _ => spanLength isDec cs
  let fraction : Nat :=
    match cs.drop body with
    | '.' :: d :: rest => if d.isDigit then 1 + spanLength isDec (d :: rest) else 0
    | _ => 0
  let exponent : Nat :=
    match cs.drop (body + fraction) with
    | e :: sign :: d :: rest =>
      if (e == 'e' || e == 'E') && (sign == '+' || sign == '-') && d.isDigit then
        2 + spanLength isDec (d :: rest)
      else if (e == 'e' || e == 'E') && sign.isDigit then 1 + spanLength isDec (sign :: d :: rest)
      else 0
    | [e, d] => if (e == 'e' || e == 'E') && d.isDigit then 2 else 0
    | _ => 0
  let suffix := spanLength suffixes.contains (cs.drop (body + fraction + exponent))
  body + fraction + exponent + suffix

/-- A comment in the style that braces languages share: to the end of the line, or up to the
closing mark. A comment that is never closed is none. -/
def commentLength? (cs : List Char) : Option (TokenKind × Nat) :=
  match cs with
  | '/' :: '/' :: rest => some (.lineComment, 2 + lineLength rest)
  | '/' :: '*' :: rest => (lengthThrough? ['*', '/'] rest).map fun n => (.blockComment, 2 + n)
  | _ => none

end DocTransfer.Source
