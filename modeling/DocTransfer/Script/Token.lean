import DocTransfer.Source.Bracket
import DocTransfer.Text.Find

/-! # Tokens of scripts

What a slash or an angle bracket means depends on what stands before it, and quoted templates and
markup hold code of their own, so the lexer keeps a state. -/

namespace DocTransfer.Script

open Source

/-- Where the lexer is. Code counts its open braces; a hole is about to open in a template; a tag
knows whether it is a closing one and how many angles are open inside it. -/
inductive Context where
  | code (braces : Nat)
  | template
  | hole
  | tag (isClosing : Bool) (angles : Nat)
  | children
  deriving DecidableEq, Repr

/-- The contexts, innermost first, and whether the last token ends an operand. -/
structure State where
  contexts : List Context := [.code 0]
  operand : Bool := false

/-- Words after which an operand is still to come. -/
def operatorWords : List String :=
  ["return", "typeof", "instanceof", "in", "of", "new", "delete", "void", "throw", "case", "do",
   "else", "yield", "await", "extends", "as", "satisfies", "is", "keyof", "infer", "default",
   "implements", "function", "export", "import"]

/-- Blanks between tokens. -/
def isGap (c : Char) : Bool :=
  let n := c.toNat
  isAsciiGap c || n == 0xA0 || n == 0x1680 || (0x2000 ≤ n && n ≤ 0x200B) || n == 0x2028 ||
  n == 0x2029 || n == 0x202F || n == 0x205F || n == 0x2060 || n == 0x3000

/-- A character that may open a name: any that is no blank, no digit and no punctuation. -/
def isNameStart (c : Char) : Bool :=
  !(isGap c || c.toNat < 0x20 || c.isDigit || ":;`\"'@#.,|^&<=>+-*/\\%?!~()[]\x7b\x7d".contains c)

/-- The length of an escape that stands for a character of a name. -/
def escapeLength? : List Char → Option Nat
  | '\\' :: 'u' :: '\x7b' :: cs =>
    match spanLength isHexDigit cs with
    | 0 => none
    | n => if (cs.drop n).head? == some '\x7d' then some (n + 4) else none
  | '\\' :: 'u' :: cs => if 4 ≤ spanLength isHexDigit (cs.take 4) then some 6 else none
  | _ => none

/-- The length of a name, if one stands at the front. A sign may open the name of a private
member. -/
def nameLength? (cs : List Char) : Option Nat :=
  let bare (cs : List Char) : Option Nat :=
    match cs with
    | c :: _ =>
      if isNameStart c || (escapeLength? cs).isSome then
        some (spanWithEscapes (fun c => isNameStart c || c.isDigit) escapeLength? 0 cs)
      else none
    | [] => none
  match cs with
  | '#' :: rest => (bare rest).map (· + 1)
  | _ => bare cs

/-- The length of the text of a template up to the mark that ends it or opens a hole, and whether
it is a hole. The mark that ends it counts, and so does the sign before a hole. -/
def templateLength : List Char → Nat × Bool
  | [] => (0, false)
  | '\\' :: _ :: cs => let (n, h) := templateLength cs; (n + 2, h)
  | '$' :: '\x7b' :: _ => (1, true)
  | c :: cs => if c == '\x60' then (1, false) else let (n, h) := templateLength cs; (n + 1, h)

/-- The length of a regular expression after its opening slash, without flags. -/
def patternLength? : Bool → List Char → Option Nat
  | _, [] => none
  | inClass, '\\' :: _ :: cs => (patternLength? inClass cs).map (· + 2)
  | inClass, c :: cs =>
    if c == '\n' then none
    else if c == '/' && !inClass then some 1
    else if c == '[' then (patternLength? true cs).map (· + 1)
    else if c == ']' then (patternLength? false cs).map (· + 1)
    else (patternLength? inClass cs).map (· + 1)

/-- A character of the name of an element. -/
def isTagChar (c : Char) : Bool :=
  isNameStart c || c.isDigit || c == '.' || c == ':' || c == '-'

/-- Whether an element of markup, whose end comes later, stands after an angle bracket. The name
of a type parameter is no element. -/
def opensElement (cs : List Char) : Bool :=
  let name := cs.takeWhile isTagChar
  let rest := cs.dropWhile isTagChar
  let later := (rest.dropWhile isGap)
  let isEnded := Text.occursIn ("</".toList ++ name) rest
  if name.isEmpty then rest.head? == some '>' && Text.occursIn "</>".toList rest
  else if later.head? == some ',' || "extends ".toList.isPrefixOf later then false
  else if rest.head? == some '>' then isEnded
  else match later.head? with
    | some c => (isNameStart c || c == '/' || c == '\x7b' || c == '<' || c == '>') &&
        (isEnded || Text.occursIn "/>".toList later)
    | none => false

/-- Leaves the innermost context; the code around it has just seen an operand. -/
def State.leave (s : State) : State :=
  ⟨s.contexts.drop 1, true⟩

/-- Leaves a closing tag and the children before it. -/
def State.leaveElement (s : State) : State :=
  ⟨s.contexts.drop 2, true⟩

/-- The state with another innermost context. -/
def State.replace (s : State) (c : Context) (operand : Bool) : State :=
  ⟨c :: s.contexts.drop 1, operand⟩

/-- The state with one more context inside. -/
def State.enter (s : State) (c : Context) : State :=
  ⟨c :: s.contexts, false⟩

/-- A step inside a template. -/
def templateStep (s : State) (cs : List Char) (opening : Nat) : TokenKind × Nat × State :=
  match templateLength (cs.drop opening) with
  | (n, true) => (.verbatim, opening + n, s.replace .hole false)
  | (n, false) => (.literal, opening + n, s.leave)

/-- The kind of a token that ends an element: an operand if code follows it. -/
def State.endKind (s : State) : TokenKind :=
  match s.contexts with
  | .code _ :: _ | [] => .literal
  | _ => .verbatim

/-- A step inside a tag. -/
def tagStep (s : State) (isClosing : Bool) (angles : Nat) (cs : List Char) :
    TokenKind × Nat × State :=
  match cs with
  | '/' :: '>' :: _ => if angles = 0 then (s.leave.endKind, 2, s.leave) else (.verbatim, 1, s)
  | c :: rest =>
    if c == '\x7b' then (.mark, 1, s.enter (.code 0))
    else if c == '"' || c == '\x27' then
      (.verbatim, 1 + (lengthThrough? [c] rest).getD 0, s)
    else if c == '<' then (.verbatim, 1, s.replace (.tag isClosing (angles + 1)) false)
    else if c == '>' then
      match angles, isClosing with
      | n + 1, _ => (.verbatim, 1, s.replace (.tag isClosing n) false)
      | 0, true => (s.leaveElement.endKind, 1, s.leaveElement)
      | 0, false => (.verbatim, 1, s.replace .children false)
    else (.verbatim, max 1 (spanLength isTagChar cs), s)
  | [] => (.verbatim, 1, s)

/-- A step between the tags of an element. -/
def childrenStep (s : State) (cs : List Char) : TokenKind × Nat × State :=
  match cs with
  | '<' :: '/' :: _ => (.verbatim, 2, s.enter (.tag true 0))
  | c :: _ =>
    if c == '<' then (.verbatim, 1, s.enter (.tag false 0))
    else if c == '\x7b' then (.mark, 1, s.enter (.code 0))
    else (.verbatim, spanLength (fun c => c != '<' && c != '\x7b') cs, s)
  | [] => (.verbatim, 1, s)

/-- Marks of more than one character that a reader tells from their parts. -/
def longMarks : List String :=
  ["...", "=>", "++", "--"]

/-- The state after a mark in code. -/
def afterMark (s : State) (braces : Nat) (mark : List Char) : State :=
  match String.ofList mark with
  | "\x7b" => s.replace (.code (braces + 1)) false
  | "\x7d" =>
    match braces, s.contexts.drop 1 with
    | n + 1, _ => s.replace (.code n) false
    | 0, [] => s.replace (.code 0) false
    | 0, outer => ⟨outer, false⟩
  | ")" | "]" | "++" | "--" => { s with operand := true }
  | _ => { s with operand := false }

/-- A comment, also one of the sort that markup has. -/
def comment? (cs : List Char) : Option (TokenKind × Nat) :=
  if "<!--".toList.isPrefixOf cs || "#!".toList.isPrefixOf cs then
    some (.lineComment, lineLength cs)
  else commentLength? cs

/-- A mark or a number in code. -/
def markStep (s : State) (braces : Nat) (cs : List Char) : TokenKind × Nat × State :=
  match cs with
  | c :: rest =>
    if c.isDigit then
      (.literal, numberLength '_' "n".toList cs, { s with operand := true })
    else
      match longMarks.find? fun m => m.toList.isPrefixOf cs with
      | some m => (.mark, m.length, afterMark s braces m.toList)
      | none =>
        if c == '/' && !s.operand then
          match patternLength? false rest with
          | some n =>
            let flags := spanLength Char.isAlpha (rest.drop n)
            (.literal, 1 + n + flags, { s with operand := true })
          | none => (.mark, 1, afterMark s braces [c])
        else (.mark, 1, afterMark s braces [c])
  | [] => (.mark, 1, s)

/-- A step in code. -/
def codeStep (withMarkup : Bool) (s : State) (braces : Nat) (cs : List Char) :
    TokenKind × Nat × State :=
  match comment? cs, nameLength? cs with
  | some (kind, n), _ => (kind, n, s)
  | none, some n =>
    let operand := !(operatorWords.any fun w => w.toList == cs.take n)
    (.word, n, { s with operand })
  | none, none =>
    match cs with
    | c :: rest =>
      if c == '"' || c == '\x27' then
        match quotedLength? c rest with
        | some n => (.literal, 1 + n, { s with operand := true })
        | none => (.mark, 1, s)
      else if c == '\x60' then templateStep (s.enter .template) cs 1
      else if c == '<' && withMarkup && !s.operand && opensElement rest then
        (.verbatim, 1, s.enter (.tag false 0))
      else markStep s braces cs
    | [] => (.mark, 1, s)

/-- A step of the lexer. -/
def step (withMarkup : Bool) : Step State := fun s cs =>
  match s.contexts with
  | .template :: _ => templateStep s cs 0
  | .hole :: _ => (.mark, 1, (s.replace .template false).enter (.code 0))
  | .tag isClosing angles :: _ => tagStep s isClosing angles cs
  | .children :: _ => childrenStep s cs
  | .code braces :: _ => codeStep withMarkup s braces cs
  | [] => codeStep withMarkup { s with contexts := [.code 0] } 0 cs

/-- The bracketed pieces of a script, without comments. -/
def pieces (withMarkup : Bool) (source : List Char) : List Piece :=
  gather ((tokensFrom isGap (step withMarkup) {} true 0 0 source).filter fun t => !t.isComment)

end DocTransfer.Script
