import DocTransfer.Header.Types
import DocTransfer.Source.Bracket

/-! # Reading headers

A header is a row of items: declarations, definitions and, inside functions, statements. An item
runs to a semicolon or through the first body that belongs to no specifier. Specifiers count
wherever they stand, so the rest of an item need not be understood. Directives are passed over,
and both branches of a condition are read. -/

namespace DocTransfer.Header

open Source

/-! ## Tokens -/

/-- A character that may go on with a name. -/
def isNamePart (c : Char) : Bool :=
  Text.isLetterOrExtender c || c == '$'

/-- The length of a line that a backslash at its end goes on with. A directive also ends where a
comment opens. -/
def longLine (isDirective : Bool) : List Char → Nat
  | [] => 0
  | '\\' :: '\r' :: '\n' :: cs => 3 + longLine isDirective cs
  | '\\' :: '\n' :: cs => 2 + longLine isDirective cs
  | '/' :: '*' :: cs => if isDirective then 0 else 2 + longLine isDirective cs
  | '/' :: '/' :: cs => 2 + longLine isDirective cs
  | c :: cs => if c == '\n' then 0 else 1 + longLine isDirective cs

/-- The length of a raw text after the letter that opens it. -/
def rawLength? : List Char → Option Nat
  | '"' :: cs =>
    let fence := cs.takeWhile fun c => c != '('
    (lengthThrough? (')' :: fence ++ ['"']) cs).map (· + 1)
  | _ => none

/-- Letters that may stand before a quoted text. -/
def encodings : List String :=
  ["u8R", "uR", "UR", "LR", "R", "u8", "u", "U", "L", ""]

/-- The length of a quoted text or character, if one stands at the front. -/
def textLength? (cs : List Char) : Option Nat :=
  encodings.findSome? fun e =>
    if e.toList.isPrefixOf cs then
      let n := e.length
      match cs.drop n with
      | q :: rest =>
        if q == '"' && e.endsWith "R" then (rawLength? (q :: rest)).map (· + n)
        else if q == '"' || q == '\x27' then (quotedLength? q rest).map (· + (n + 1))
        else none
      | [] => none
    else none

/-- Marks of two characters. -/
def longMarks : List String :=
  ["::", "->"]

/-- What stands at the front of a text, and its length. -/
def step (cs : List Char) : TokenKind × Nat :=
  match cs with
  | '/' :: '/' :: _ => (.lineComment, longLine false cs)
  | '\\' :: '\n' :: _ => (.lineComment, 2)
  | '\\' :: '\r' :: '\n' :: _ => (.lineComment, 3)
  | '#' :: rest => (.directive, 1 + longLine true rest)
  | _ =>
    match commentLength? cs, textLength? cs with
    | some found, _ => found
    | none, some n => (.literal, n)
    | none, none =>
      match cs, longMarks.find? fun m => m.toList.isPrefixOf cs with
      | _, some m => (.mark, m.length)
      | c :: _, none =>
        if opensName c then (.word, spanLength isNamePart cs)
        else if c.isDigit then (.literal, numberLength '\x27' "uUlLfFzZ".toList cs)
        else (.mark, 1)
      | [], none => (.mark, 1)

/-- The bracketed pieces of a header, without comments and directives. -/
def pieces (source : List Char) : List Piece :=
  gather ((tokens isAsciiGap step source).filter fun t => !t.isComment && t.kind != .directive)

/-! ## Words -/

/-- Types that are words of the language. -/
def primitiveWords : List String :=
  ["bool", "char", "int", "float", "double", "void", "size_t", "ssize_t", "ptrdiff_t", "intptr_t",
   "uintptr_t", "charptr_t", "nullptr_t", "max_align_t", "int8_t", "int16_t", "int32_t", "int64_t",
   "uint8_t", "uint16_t", "uint32_t", "uint64_t", "char8_t", "char16_t", "char32_t", "char64_t"]

/-- Words that tell the size of a number. -/
def sizeWords : List String :=
  ["unsigned", "signed", "long", "short"]

/-- Words that may stand beside a type. -/
def qualifierWords : List String :=
  ["const", "volatile", "restrict", "__restrict__", "constexpr", "constinit", "consteval",
   "mutable", "static", "extern", "inline", "register", "thread_local", "virtual", "explicit",
   "typename", "noexcept", "override", "final", "auto", "__extension__", "__cdecl", "__stdcall",
   "__fastcall", "__thiscall", "__clrcall", "__vectorcall"]

/-- Words that are no names. -/
def otherWords : List String :=
  ["return", "if", "else", "for", "while", "do", "switch", "case", "default", "break", "continue",
   "goto", "sizeof", "new", "delete", "throw", "try", "catch", "this", "true", "false", "nullptr",
   "operator", "template", "using", "namespace", "public", "private", "protected", "decltype",
   "alignas", "requires", "co_return", "co_await", "co_yield"]

/-- Whether a piece is a word that can be a name. -/
def isName (p : Piece) : Bool :=
  p.isWord && !p.isOneOf primitiveWords && !p.isOneOf sizeWords && !p.isOneOf qualifierWords &&
    !p.isOneOf otherWords

/-- The node of a piece. -/
def nodeOf (kind : Kind) (p : Piece) : HeaderTree :=
  .node kind none p.start p.stop []

/-- The node around others; empty at `place` if there are none. -/
def around (kind : Kind) (label : Option Label) (place : Nat) (ts : List HeaderTree) :
    HeaderTree :=
  let start := (ts.head?.map SourceTree.start).getD place
  let stop := (ts.getLast?.map SourceTree.stop).getD place
  .node kind label start stop ts

/-- The keyword of a specifier. -/
def keyword? (p : Piece) : Option Keyword :=
  [Keyword.cls, .struct, .enum, .union].find? fun k => p.is k.word

/-- Splits off what stands in angle brackets, from the opening one on. -/
def splitAngles : Nat → List Piece → List Piece × List Piece
  | _, [] => ([], [])
  | depth, p :: rest =>
    if p.is ";" then ([], p :: rest)
    else
      let depth := if p.is "<" then depth + 1 else if p.is ">" then depth - 1 else depth
      if depth = 0 then ([p], rest)
      else
        let (front, back) := splitAngles depth rest
        (p :: front, back)

/-- Splits off a name: parts with template arguments, joined by double colons. -/
def splitName : Nat → List Piece → List Piece × List Piece
  | 0, ps => ([], ps)
  | fuel + 1, ps =>
    match ps with
    | a :: rest =>
      if a.is "::" || a.is "template" then
        let (front, back) := splitName fuel rest
        (a :: front, back)
      else if a.isWord then
        let (args, rest) := match rest with
          | b :: more => if b.is "<" then splitAngles 0 (b :: more) else ([], b :: more)
          | [] => ([], [])
        match rest with
        | b :: more =>
          if b.is "::" && (more.head?.any fun q => q.isWord) then
            let (front, back) := splitName fuel more
            (a :: args ++ b :: front, back)
          else (a :: args, rest)
        | [] => (a :: args, [])
      else ([], ps)
    | [] => ([], [])

/-- The nodes of a name that stands for a type: its last part is a type name, the ones before are
scopes, and template arguments name types. -/
def typeNodes : Nat → List Piece → List HeaderTree
  | 0, _ => []
  | _ + 1, [] => []
  | fuel + 1, p :: rest =>
    let isScope := match rest with
      | q :: _ => q.is "::"
      | [] => false
    let node := if isName p && !isScope then nodeOf .typeIdentifier p else nodeOf .other p
    node :: typeNodes fuel rest

/-- The node of a name that stands for a type. -/
def typeNode (label : Option Label) (ps : List Piece) : HeaderTree :=
  match ps with
  | [p] => .node (if isName p then .typeIdentifier else .other) label p.start p.stop []
  | _ => around .other label 0 (typeNodes ps.length ps)

/-- Identifiers among the tokens of an expression. -/
def identifiers (ps : List Piece) : List HeaderTree :=
  ((Piece.tokensAll ps).map Piece.leaf).map fun p =>
    nodeOf (if isName p then .identifier else .mark) p

/-- Splits off the attributes that may stand between a keyword and a name. -/
def splitAttributes : List Piece → List Piece × List Piece
  | [] => ([], [])
  | p :: rest =>
    if p.opensWith "[" then
      let (front, back) := splitAttributes rest
      (p :: front, back)
    else if p.isOneOf ["__attribute__", "__attribute", "__declspec", "alignas"] then
      match rest with
      | q :: more =>
        if q.opensWith "(" then
          let (front, back) := splitAttributes more
          (q :: front, back)
        else ([], p :: rest)
      | [] => ([], [p])
    else ([], p :: rest)

/-- The pieces before the body of a specifier, after its name, and the body, if there is one. -/
def splitBases : List Piece → Option (List Piece × Piece × List Piece)
  | [] => none
  | p :: rest =>
    if p.opensWith "\x7b" then some ([], p, rest)
    else if p.is ";" || p.is "=" || p.opensWith "(" then none
    else (splitBases rest).map fun (front, body, back) => (p :: front, body, back)

/-- Whether what follows the name of a specifier leads to its body. -/
def leadsToBody : List Piece → Bool
  | p :: rest =>
    p.opensWith "\x7b" || p.is ":" || (p.isOneOf ["final", "override"] && leadsToBody rest)
  | [] => false

/-- Whether a name opens with a word that only marks a class. -/
def isUnnamed (ps : List Piece) : Bool :=
  match ps with
  | p :: rest => p.isOneOf ["final", "override"] && leadsToBody rest
  | [] => true

/-! ## Items -/

/-- Splits a row of parameters at commas outside angle brackets. -/
def splitCommas : Nat → List Piece → List (List Piece)
  | _, [] => [[]]
  | depth, p :: rest =>
    let depth := if p.is "<" then depth + 1 else if p.is ">" then depth - 1 else depth
    if depth = 0 && p.is "," then [] :: splitCommas 0 rest
    else match splitCommas depth rest with
      | [] => [[p]]
      | front :: back => (p :: front) :: back

/-- Whether the parameters of a template stand at the front. -/
def isTemplateHead (ps : List Piece) : Bool :=
  match ps with
  | p :: q :: _ => p.is "template" && q.is "<"
  | _ => false

mutual

/-- The nodes of a row of items. -/
def items : Nat → List Piece → List HeaderTree
  | 0, _ => []
  | _ + 1, [] => []
  | fuel + 1, p :: rest =>
    let (found, rest) := item fuel p rest
    found ++ items fuel rest

/-- The nodes of an item, and what follows it. -/
def item : Nat → Piece → List Piece → List HeaderTree × List Piece
  | 0, _, _ => ([], [])
  | fuel + 1, p, rest =>
    if p.is ";" then ([], rest)
    else if isTemplateHead (p :: rest) then ([], (splitAngles 0 rest).2)
    else if p.isWord && (rest.head?.any (·.is ":")) then ([], rest.drop 1)
    else if p.is "typedef" then
      let (inner, after) := typedefParts fuel rest
      ([.node .typedef none p.start ((inner.getLast?.map SourceTree.stop).getD p.stop) inner], after)
    else if p.is "friend" then
      let (inner, _, after) := parts fuel rest
      ([around .friend none p.stop inner], after)
    else if p.opensWith "(" then ([], (rest.dropWhile fun q => !q.is ";").drop 1)
    else
      let (inner, isFunction, after) := parts fuel (p :: rest)
      ([around (if isFunction then .function else .other) none p.start inner], after)

/-- The nodes of the pieces of an item, whether it ends with a body of its own, and what
follows it. -/
def parts : Nat → List Piece → List HeaderTree × Bool × List Piece
  | 0, _ => ([], false, [])
  | _ + 1, [] => ([], false, [])
  | fuel + 1, p :: rest =>
    match keyword? p with
    | some k =>
      let (node, rest) := specifier fuel k p rest
      let (nodes, isFunction, after) := parts fuel rest
      (node :: nodes, isFunction, after)
    | none =>
      if p.is ";" then ([], false, rest)
      else if p.is "=" then
        let (nodes, _, after) := parts fuel rest
        (nodes, false, after)
      else
        match p with
        | .group o inner _ =>
          if o.is "\x7b" then
            ([.node .other (some .body) p.start p.stop (items fuel inner)], true, rest)
          else
            let inside :=
              if o.is "[" then identifiers inner else parameters fuel (splitCommas 0 inner)
            let node := .node .other none p.start p.stop inside
            let (nodes, isFunction, after) := parts fuel rest
            (node :: nodes, isFunction, after)
        | .leaf _ =>
          let isScope := rest.head?.any (·.is "::")
          let node := nodeOf (if isName p && !isScope then .identifier else .mark) p
          let (nodes, isFunction, after) := parts fuel rest
          (node :: nodes, isFunction, after)

/-- A specifier after its keyword, and what follows it. -/
def specifier : Nat → Keyword → Piece → List Piece → HeaderTree × List Piece
  | 0, k, p, rest => (nodeOf (.specifier k) p, rest)
  | fuel + 1, k, p, rest =>
    let word := nodeOf (.keyword k) p
    let (second, rest) := match k, rest with
      | .enum, q :: more =>
        if q.isOneOf ["class", "struct"] then ([nodeOf .mark q], more) else ([], rest)
      | _, _ => ([], rest)
    let (attributes, rest) := splitAttributes rest
    let (name, rest) := if isUnnamed rest then ([], rest) else splitName fuel rest
    let names := if name.isEmpty then [] else [typeNode (some .name) name]
    let front := word :: second ++ identifiers attributes ++ names
    let stop := (front.getLast?.map SourceTree.stop).getD p.stop
    match (if leadsToBody rest then splitBases rest else none) with
    | some (bases, .group o inner c, after) =>
      let baseNodes := bases.map fun b =>
        nodeOf (if b.is ":" then .colon else if isName b then .typeIdentifier else .other) b
      let inside := if k = .enum then parameters fuel (splitCommas 0 inner) else items fuel inner
      let body := .node .other (some .body) o.start c.stop inside
      (.node (.specifier k) none p.start c.stop (front ++ baseNodes ++ [body]), after)
    | _ => (.node (.specifier k) none p.start stop front, rest)

/-- The nodes of parameters: in each a type and then names. -/
def parameters : Nat → List (List Piece) → List HeaderTree
  | 0, _ => []
  | _ + 1, [] => []
  | fuel + 1, ps :: rest =>
    let (type, after) := typeParts fuel ps
    let (names, _, _) := parts fuel after
    type ++ names ++ parameters fuel rest

/-- The nodes of a type at the front, and what follows it. A lone name may also be a value; as a
type it counts all the same. -/
def typeParts : Nat → List Piece → List HeaderTree × List Piece
  | 0, ps => ([], ps)
  | _ + 1, [] => ([], [])
  | fuel + 1, p :: rest =>
    if p.isOneOf qualifierWords then
      let (nodes, after) := typeParts fuel rest
      (nodeOf .mark p :: nodes, after)
    else
      match keyword? p with
      | some k =>
        let (node, after) := specifier fuel k p rest
        ([node], after)
      | none =>
        if p.isOneOf sizeWords then
          let isNumeric (q : Piece) : Bool := q.isOneOf sizeWords || q.isOneOf primitiveWords
          ([nodeOf .other p], rest.dropWhile isNumeric)
        else if p.isOneOf primitiveWords then ([nodeOf .other p], rest)
        else if p.is "decltype" then
          match rest with
          | q :: after => (identifiers [q], after)
          | [] => ([], [])
        else if isName p || p.is "::" then
          let (name, after) := splitName fuel (p :: rest)
          ([typeNode none name], after)
        else ([], p :: rest)

/-- The nodes of a typedef after its keyword, and what follows it. A typedef that names nothing
still has an empty name at its end. -/
def typedefParts : Nat → List Piece → List HeaderTree × List Piece
  | 0, _ => ([], [])
  | fuel + 1, ps =>
    let (type, rest) := typeParts fuel ps
    let front := rest.takeWhile fun p => !p.is ";"
    let names := typedefNames fuel false front
    let place := (type.getLast?.map SourceTree.stop).getD ((ps.head?.map Piece.start).getD 0)
    let missing := if front.isEmpty then [SourceTree.node .typeIdentifier none place place []] else []
    (type ++ names ++ missing, rest.drop (front.length + 1))

/-- The nodes of the names that a typedef brings in. The flag tells whether a name, or a group
that holds one, stands right before. -/
def typedefNames : Nat → Bool → List Piece → List HeaderTree
  | 0, _, _ => []
  | _ + 1, _, [] => []
  | fuel + 1, named, p :: rest =>
    match p with
    | .group o inner _ =>
      if o.is "(" && named then
        parameters fuel (splitCommas 0 inner) ++ typedefNames fuel true rest
      else if o.is "(" then typedefNames fuel false inner ++ typedefNames fuel true rest
      else identifiers [p] ++ typedefNames fuel named rest
    | .leaf _ =>
      if p.isOneOf ["__attribute__", "__attribute", "__declspec", "alignas"] then
        identifiers (rest.take 1) ++ typedefNames fuel named (rest.drop 1)
      else if isName p then
        if rest.head?.any (·.is "::") then nodeOf .other p :: typedefNames fuel false rest
        else nodeOf .typeIdentifier p :: typedefNames fuel true rest
      else nodeOf .other p :: typedefNames fuel false rest

end

/-- The tree of a header. -/
def read (source : List Char) : HeaderTree :=
  let ps := pieces source
  .node .other none 0 source.length (items (4 * Piece.sizeAll ps + 8) ps)

end DocTransfer.Header
