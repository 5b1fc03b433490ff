import DocTransfer.Sharp.Types
import DocTransfer.Source.Bracket

/-! # Reading C# sources

Types are declared in a file, in a namespace and in other types. Members of any other sort are
passed over. -/

namespace DocTransfer.Sharp

open Source

/-! ## Tokens -/

/-- The length of an escape that stands for a character of a name. -/
def escapeLength? : List Char → Option Nat
  | '\\' :: 'u' :: cs => if 4 ≤ spanLength isHexDigit (cs.take 4) then some 6 else none
  | '\\' :: 'U' :: cs => if 8 ≤ spanLength isHexDigit (cs.take 8) then some 10 else none
  | _ => none

/-- The length of a name without a sign before it, if there is one. -/
def bareNameLength? (cs : List Char) : Option Nat :=
  match cs with
  | c :: _ =>
    if Text.isLetter c || c == '_' || (escapeLength? cs).isSome then
      some (spanWithEscapes Text.isLetterOrExtender escapeLength? 0 cs)
    else none
  | [] => none

/-- The length of a name, which a sign may open to set it apart from a keyword. -/
def nameLength? (cs : List Char) : Option Nat :=
  match cs with
  | '@' :: rest => (bareNameLength? rest).map (· + 1)
  | _ => bareNameLength? cs

/-- The length of a verbatim text after its opening quote. Two quotes stand for one. -/
def verbatimLength? : List Char → Option Nat
  | [] => none
  | '"' :: '"' :: cs => (verbatimLength? cs).map (· + 2)
  | '"' :: _ => some 1
  | _ :: cs => (verbatimLength? cs).map (· + 1)

/-- The length of a raw text after the quotes that open it, which as many quotes close. -/
def rawLength? (quotes : Nat) (cs : List Char) : Option Nat :=
  lengthThrough? (List.replicate quotes '"') cs

mutual

/-- The length of a text with holes after its opening quote. -/
def holedLength? : Nat → Bool → List Char → Option Nat
  | 0, _, _ => none
  | _ + 1, _, [] => none
  | fuel + 1, verbatim, c :: cs =>
    if c == '"' then
      match verbatim, cs with
      | true, '"' :: rest => (holedLength? fuel verbatim rest).map (· + 2)
      | _, _ => some 1
    else if c == '\x7b' then
      match cs with
      | '\x7b' :: rest => (holedLength? fuel verbatim rest).map (· + 2)
      | _ => do
        let n ← holeLength? fuel 0 cs
        (holedLength? fuel verbatim (cs.drop n)).map (· + (1 + n))
    else if c == '\\' && !verbatim then
      match cs with
      | _ :: rest => (holedLength? fuel verbatim rest).map (· + 2)
      | [] => none
    else if c == '\n' && !verbatim then none
    else (holedLength? fuel verbatim cs).map (· + 1)

/-- The length of a hole after its opening brace, with `depth` braces open inside it. -/
def holeLength? : Nat → Nat → List Char → Option Nat
  | 0, _, _ => none
  | _ + 1, _, [] => none
  | fuel + 1, depth, c :: cs =>
    match textLength? fuel (c :: cs) with
    | some n => (holeLength? fuel depth ((c :: cs).drop n)).map (· + n)
    | none =>
      if c == '\x7b' then (holeLength? fuel (depth + 1) cs).map (· + 1)
      else if c == '\x7d' then
        match depth with
        | 0 => some 1
        | depth + 1 => (holeLength? fuel depth cs).map (· + 1)
      else (holeLength? fuel depth cs).map (· + 1)

/-- The length of a quoted text of any sort, if one stands at the front. -/
def textLength? : Nat → List Char → Option Nat
  | 0, _ => none
  | fuel + 1, cs =>
    let signs := spanLength (fun c => c == '$' || c == '@') cs
    let quotes := spanLength (· == '"') (cs.drop signs)
    let rest := cs.drop (signs + 1)
    let holed := (cs.take signs).contains '$'
    let verbatim := (cs.take signs).contains '@'
    if quotes == 0 then none
    else if 3 ≤ quotes && !verbatim then
      (rawLength? quotes (cs.drop (signs + quotes))).map (· + (signs + quotes))
    else if holed then (holedLength? fuel verbatim rest).map (· + (signs + 1))
    else if verbatim then (verbatimLength? rest).map (· + (signs + 1))
    else (quotedLength? '"' rest).map (· + (signs + 1))

end

/-- What stands at the front of a text, and its length. -/
def step (cs : List Char) : TokenKind × Nat :=
  match commentLength? cs, textLength? (2 * cs.length) cs, nameLength? cs with
  | some found, _, _ => found
  | none, some n, _ => (.literal, n)
  | none, none, some n => (.word, n)
  | none, none, none =>
    match cs with
    | '\x27' :: rest =>
      match quotedLength? '\x27' rest with
      | some n => (.literal, 1 + n)
      | none => (.mark, 1)
    | '#' :: rest => (.directive, 1 + lineLength rest)
    | c :: _ =>
      if c.isDigit then (.literal, numberLength '_' "lLuUfFdDmM".toList cs) else (.mark, 1)
    | [] => (.mark, 1)

/-- Characters between tokens. -/
def isGap (c : Char) : Bool :=
  isAsciiGap c || c.toNat == 0xA0 || c.toNat == 0x3000

/-- The bracketed pieces of a source, without comments and directives. -/
def pieces (source : List Char) : List Piece :=
  gather ((tokens isGap step source).filter fun t => !t.isComment && t.kind != .directive)

/-! ## Declarations -/

/-- Words that may stand before a declaration. -/
def modifierWords : List String :=
  ["public", "protected", "private", "internal", "abstract", "static", "sealed", "partial",
   "unsafe", "readonly", "ref", "new", "file", "extern", "virtual", "override", "async", "const",
   "volatile", "required", "fixed", "global"]

/-- The keyword of a declaration that names a type. -/
def keyword? (p : Piece) : Option Keyword :=
  [Keyword.cls, .interface, .enum, .struct].find? fun k => p.is k.word

/-- What follows attributes and modifiers. -/
def skipModifiers (ps : List Piece) : List Piece :=
  ps.dropWhile fun p => p.isOneOf modifierWords || p.opensWith "["

/-- The end of the head of a type: the body and what follows it. The body is empty if a semicolon,
or the end, takes its place; an opening brace that stands alone takes everything up to the end. -/
def body : List Piece → List Piece × List Piece
  | [] => ([], [])
  | .group o inner _ :: rest =>
    if o.is "\x7b" then (inner, rest) else body rest
  | .leaf t :: rest =>
    if t.is "\x7b" then (rest, []) else if t.is ";" then ([], rest) else body rest

/-- What follows the marks of an operator that is being declared. -/
def skipOperator (ps : List Piece) : List Piece :=
  ps.dropWhile fun p => !(p.opensWith "(")

/-- What follows everything up to a semicolon. -/
def skipStatement (ps : List Piece) : List Piece :=
  (ps.dropWhile fun p => !p.is ";").drop 1

/-- What follows a member that declares no type. It ends with a semicolon or with a body, and a
value may come after a body. -/
def skipMember : Nat → List Piece → List Piece
  | 0, _ => []
  | _ + 1, [] => []
  | fuel + 1, p :: rest =>
    if p.is ";" then rest
    else if p.is "=" then skipStatement rest
    else if p.is "operator" then skipMember fuel (skipOperator rest)
    else if p.opensWith "\x7b" then
      match rest with
      | q :: more => if q.is "=" then skipStatement more else rest
      | [] => []
    else skipMember fuel rest

/-- The node of a row of pieces from `start` on. -/
def scope (start : Nat) (ps : List Piece) (inner : List SharpTree) : SharpTree :=
  .node .other (some .body) start ((ps.getLast?.map Piece.stop).getD start) inner

/-- The declarations in a file, a namespace or a type. -/
def declarations : Nat → List Piece → List SharpTree
  | 0, _ => []
  | _ + 1, [] => []
  | fuel + 1, p :: rest =>
    match skipModifiers (p :: rest) with
    | [] => []
    | q :: more =>
      match keyword? q, more with
      | some k, n :: after =>
        if n.isWord then
          let (inner, after) := body after
          let start := (inner.head?.map Piece.start).getD n.stop
          let inside := if k = .enum then [] else declarations fuel inner
          .node (.declaration k) none p.start n.stop
            [.node (.keyword k) none q.start q.stop [],
             .node .identifier (some .name) n.start n.stop [],
             scope start inner inside] :: declarations fuel after
        else declarations fuel more
      | some _, [] => []
      | none, _ =>
        if q.is "namespace" || q.is "record" then
          let (inner, after) := body more
          scope q.stop inner (declarations fuel inner) :: declarations fuel after
        else declarations fuel (skipMember fuel (q :: more))

/-- The tree of a C# source. -/
def read (source : List Char) : SharpTree :=
  let ps := pieces source
  .node .other none 0 source.length (declarations (2 * Piece.sizeAll ps + 2) ps)

end DocTransfer.Sharp
