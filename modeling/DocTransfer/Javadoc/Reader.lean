import DocTransfer.Javadoc.Tree
import DocTransfer.Source.Bracket

/-! # Reading Java sources

Declarations are read down to their signatures. What stands in bodies of methods and after `=` is
passed over. A piece that opens no declaration is passed over alone, so that reading goes on right
after it. -/

namespace DocTransfer.Javadoc

open Source

/-! ## Tokens -/

/-- A character that may go on with a name. -/
def isNamePart (c : Char) : Bool :=
  Text.isLetterOrExtender c || c == '$' || c.toNat == 0xA2

/-- What stands at the front of a text, and its length. -/
def step (cs : List Char) : TokenKind × Nat :=
  match commentLength? cs with
  | some found => found
  | none =>
    match cs with
    | '"' :: '"' :: '"' :: rest =>
      match lengthThrough? ['"', '"', '"'] rest with
      | some n => (.literal, 3 + n)
      | none => (.literal, 2)
    | '"' :: rest =>
      match quotedLength? '"' rest with
      | some n => (.literal, 1 + n)
      | none => (.mark, 1)
    | '\x27' :: rest =>
      match quotedLength? '\x27' rest with
      | some n => (.literal, 1 + n)
      | none => (.mark, 1)
    | c :: _ =>
      if opensName c then (.word, spanLength isNamePart cs)
      else if c.isDigit then (.literal, numberLength '_' "lLfFdD".toList cs)
      else (.mark, 1)
    | [] => (.mark, 1)

/-- The bracketed pieces of a source. -/
def pieces (source : List Char) : List Piece :=
  gather (tokens isAsciiGap step source)

/-! ## Parts of declarations -/

/-- Words that are no type. -/
def reserved : List String :=
  ["abstract", "assert", "break", "case", "catch", "class", "continue", "default", "do", "else",
   "enum", "extends", "final", "finally", "for", "if", "implements", "import", "instanceof",
   "interface", "native", "new", "package", "permits", "private", "protected", "public", "return",
   "static", "strictfp", "super", "switch", "synchronized", "this", "throw", "throws",
   "transient", "try", "volatile", "while"]

/-- Words that may stand before a declaration. -/
def modifierWords : List String :=
  ["public", "protected", "private", "abstract", "static", "final", "strictfp", "default",
   "synchronized", "native", "transient", "volatile", "sealed"]

/-- Pieces without the comments at their front. -/
def code (ps : List Piece) : List Piece :=
  ps.dropWhile Piece.isComment

/-- What follows a dotted name. -/
def skipDotted : List Piece → List Piece
  | dot :: name :: rest =>
    if dot.is "." && name.isWord then skipDotted rest else dot :: name :: rest
  | ps => ps

/-- What follows the arguments of an annotation, if there are any. -/
def skipArguments : List Piece → List Piece
  | p :: rest => if p.opensWith "(" then rest else p :: rest
  | [] => []

/-- What follows modifiers and annotations. -/
def skipModifiers : Nat → List Piece → List Piece
  | 0, ps => ps
  | fuel + 1, ps =>
    match code ps with
    | a :: b :: rest =>
      if a.is "@" && b.isWord && !b.is "interface" then
        skipModifiers fuel (skipArguments (skipDotted rest))
      else if a.is "non" && b.is "-" then skipModifiers fuel (rest.drop 1)
      else if a.isOneOf modifierWords then skipModifiers fuel (b :: rest)
      else a :: b :: rest
    | ps => ps

/-- Marks that may stand between angle brackets. -/
def angleMarks : List String :=
  [".", ",", "?", "&", "@"]

/-- What follows a row of type arguments or parameters with `depth` angles open, and the place
where the last angle closes. -/
def angles? : Nat → List Piece → Option (Nat × List Piece)
  | _, [] => none
  | depth, p :: rest =>
    if p.is "<" then angles? (depth + 1) rest
    else if p.is ">" then
      match depth with
      | 0 => none
      | 1 => some (p.stop, rest)
      | depth + 2 => angles? (depth + 1) rest
    else if p.isWord || p.isComment || p.isOneOf angleMarks || p.opensWith "[" ||
        p.opensWith "(" then angles? depth rest
    else none

/-- The dimensions, type arguments and qualified parts that a type goes on with. `stop` is the end
of what has been read. -/
def typeRest : Nat → Nat → List Piece → Nat × List Piece
  | 0, stop, ps => (stop, ps)
  | fuel + 1, stop, ps =>
    match code ps with
    | a :: rest =>
      if a.is "<" then
        match angles? 0 (a :: rest) with
        | some (stop, rest) => typeRest fuel stop rest
        | none => (stop, ps)
      else if a.opensWith "[" then typeRest fuel a.stop rest
      else if a.is "." then
        match skipModifiers fuel rest with
        | b :: rest => if b.isWord then typeRest fuel b.stop rest else (stop, ps)
        | [] => (stop, ps)
      else if a.is "@" then
        match skipModifiers fuel (a :: rest) with
        | b :: rest => if b.opensWith "[" then typeRest fuel b.stop rest else (stop, ps)
        | [] => (stop, ps)
      else (stop, ps)
    | [] => (stop, ps)

/-- A type at the front, and what follows it. -/
def type? (fuel : Nat) (ps : List Piece) : Option (JavaTree × List Piece) :=
  match code ps with
  | a :: rest =>
    if a.isWord && !a.isOneOf reserved then
      let (stop, rest) := typeRest fuel a.stop rest
      some (.node .other (some .type) a.start stop [], rest)
    else none
  | [] => none

/-- A name at the front, and what follows it. -/
def name? (ps : List Piece) : Option (JavaTree × List Piece) :=
  match code ps with
  | a :: rest =>
    if a.isWord then some (.node .identifier (some .name) a.start a.stop [], rest) else none
  | [] => none

/-- Parameters at the front, and what follows them. An opening bracket that stands alone counts as
parameters without their end. -/
def parameters? (ps : List Piece) : Option (JavaTree × List Piece) :=
  match code ps with
  | a :: rest =>
    if a.opensWith "(" || a.is "(" then
      some (.node .other (some .parameters) a.start a.stop [], rest)
    else none
  | [] => none

/-- A comment as a node. -/
def commentNode (t : Token) : JavaTree :=
  .node (if t.kind == .blockComment then .blockComment else .lineComment) none t.start t.stop []

/-- A body of statements as a node that keeps its comments. -/
def blockNode (p : Piece) : JavaTree :=
  .node .other (some .body) p.start p.stop ((p.tokens.filter Token.isComment).map commentNode)

/-- The end of a method after its parameters: the body, if there is one, the place where the
method ends, and what follows. A method that the enclosing body cuts off ends there. -/
def methodEnd? (stop : Nat) : List Piece → Option (List JavaTree × Nat × List Piece)
  | [] => some ([], stop, [])
  | p :: rest =>
    if p.is ";" then some ([], p.stop, rest)
    else if p.opensWith "\x7b" then some ([blockNode p], p.stop, rest)
    else if p.isWord || p.isComment || p.isOneOf (["<", ">"] ++ angleMarks) || p.opensWith "[" ||
        p.opensWith "(" then
      methodEnd? stop rest
    else none

/-- The end of a field after the name of its first variable. -/
def fieldEnd (stop : Nat) : List Piece → Nat × List Piece
  | [] => (stop, [])
  | p :: rest => if p.is ";" then (p.stop, rest) else fieldEnd stop rest

/-- A field after its type. -/
def field? (start : Nat) (kind : Kind) (type : JavaTree) (ps : List Piece) :
    Option (JavaTree × List Piece) := do
  let (name, rest) ← name? ps
  let goesOn := match code rest with
    | [] => true
    | p :: _ => p.isOneOf [";", "=", ","] || p.opensWith "["
  if goesOn then
    let (stop, rest) := fieldEnd name.stop rest
    let declarator := .node .other (some .declarator) name.start name.stop [name]
    some (.node kind none start stop [type, declarator], rest)
  else none

/-- A method after its type. -/
def method? (start : Nat) (type : JavaTree) (ps : List Piece) :
    Option (JavaTree × List Piece) := do
  let (name, rest) ← name? ps
  let (parameters, rest) ← parameters? rest
  let (body, stop, rest) ← methodEnd? parameters.stop rest
  some (.node .method none start stop ([type, name, parameters] ++ body), rest)

/-- A constructor, which has a body. -/
def constructor? (start : Nat) (ps : List Piece) : Option (JavaTree × List Piece) := do
  let (name, rest) ← name? ps
  let (parameters, rest) ← parameters? rest
  let (body, stop, rest) ← methodEnd? parameters.stop rest
  if body.isEmpty then none
  else some (.node .constructor none start stop ([name, parameters] ++ body), rest)

/-- What follows the type parameters of a method, if there are any. -/
def skipTypeParameters (fuel : Nat) (ps : List Piece) : List Piece :=
  match code ps with
  | p :: rest =>
    if p.is "<" then
      match angles? 0 (p :: rest) with
      | some (_, rest) => skipModifiers fuel rest
      | none => ps
    else ps
  | [] => []

/-- The keyword of a type declaration. -/
def typeKind? (p : Piece) : Option TypeKind :=
  if p.is "class" then some .cls
  else if p.is "interface" then some .interface
  else if p.is "enum" then some .enum
  else none

/-- The body that ends the head of a type: what stands in it, its place, and what follows. An
opening brace that stands alone takes everything up to the end. -/
def typeBody? : List Piece → Option (Nat × Nat × List Piece × List Piece)
  | [] => none
  | .group o inner c :: rest =>
    if o.is "\x7b" then some (o.start, c.stop, inner, rest) else typeBody? rest
  | .leaf t :: rest =>
    if t.is "\x7b" then
      some (t.start, (rest.getLast?.map Piece.stop).getD t.stop, rest, [])
    else if t.isWord || t.isComment || t.isOneOf (["<", ">"] ++ angleMarks) then typeBody? rest
    else none

/-- A name after the keyword of a type. A literal before it is passed over. -/
def typeName? (ps : List Piece) : Option (JavaTree × List Piece) :=
  match code ps with
  | .leaf t :: rest => name? (if t.kind == .literal then rest else .leaf t :: rest)
  | _ => none

/-- A block, a record or an annotation type, none of which is documented. -/
def undocumented? (start : Nat) (ps : List Piece) : Option (JavaTree × List Piece) :=
  match ps with
  | a :: rest =>
    if a.opensWith "\x7b" then
      some (.node .other none start a.stop [(blockNode a)], rest)
    else
      let isRecord := a.is "record" && match code rest with
        | n :: more => n.isWord && match code more with
          | p :: _ => p.opensWith "(" || p.is "<"
          | [] => false
        | [] => false
      let isAnnotation := a.is "@" && rest.any (·.is "interface")
      if isRecord || isAnnotation then
        (typeBody? (rest.filter fun p => !p.opensWith "(")).map fun (_, stop, _, _) =>
          (.node .other none start stop [], rest.dropWhile fun p => p.start < stop)
      else none
  | [] => none

/-- A field, method or constructor whose modifiers have been read. -/
def member? (fuel start : Nat) (inInterface : Bool) (ps : List Piece) :
    Option (JavaTree × List Piece) :=
  let rest := skipTypeParameters fuel ps
  match constructor? start rest with
  | some found => some found
  | none => do
    let (type, rest) ← type? fuel rest
    match method? start type rest with
    | some found => some found
    | none => field? start (if inInterface then .constant else .field) type rest

/-! ## Bodies -/

/-- A leaf that opens no declaration. -/
def strayNode (p : Piece) : JavaTree :=
  match p with
  | .leaf t =>
    if t.isComment then commentNode t
    else .node (if t.is ";" || t.is "," then .mark else .other) none t.start t.stop []
  | .group o _ c => .node .other none o.start c.stop []

/-- An enum constant: annotations, a name, arguments and a body. -/
def enumConstant? (fuel : Nat) (ps : List Piece) : Option (JavaTree × List Piece) :=
  match ps with
  | [] => none
  | first :: _ => do
    let (name, rest) ← name? (skipModifiers fuel ps)
    let parts := rest.takeWhile fun p => p.opensWith "(" || p.opensWith "\x7b" || p.isComment
    let parts := parts.take ((parts.reverse.dropWhile Piece.isComment).length)
    let stop := (parts.getLast?.map Piece.stop).getD name.stop
    some (.node .enumConstant none first.start stop [name], rest.drop parts.length)

mutual

/-- The declarations in a body or in a whole source. -/
def declarations : Nat → Bool → List Piece → List JavaTree
  | 0, _, _ => []
  | _ + 1, _, [] => []
  | fuel + 1, inInterface, p :: rest =>
    if p.isComment then strayNode p :: declarations fuel inInterface rest
    else
      match declaration? fuel inInterface (p :: rest) with
      | some (node, rest) => node :: declarations fuel inInterface rest
      | none => strayNode p :: declarations fuel inInterface rest

/-- A declaration at the front, and what follows it. -/
def declaration? : Nat → Bool → List Piece → Option (JavaTree × List Piece)
  | 0, _, _ => none
  | _ + 1, _, [] => none
  | fuel + 1, inInterface, first :: more =>
    match skipModifiers fuel (first :: more) with
    | [] => none
    | p :: rest =>
      match typeKind? p with
      | some kind => type fuel first.start kind rest
      | none =>
        match undocumented? first.start (p :: rest) with
        | some found => some found
        | none => member? fuel first.start inInterface (p :: rest)

/-- A type after its keyword. -/
def type : Nat → Nat → TypeKind → List Piece → Option (JavaTree × List Piece)
  | 0, _, _, _ => none
  | fuel + 1, start, kind, ps => do
    let (name, rest) ← typeName? ps
    let (from_, stop, inner, rest) ← typeBody? rest
    let children := if kind == .enum then constants fuel inner
      else declarations fuel (kind == .interface) inner
    let body := .node .typeBody (some .body) from_ stop children
    some (.node (.typeDeclaration kind) none start stop [name, body], rest)

/-- The constants of an enum and, after a semicolon, its declarations. -/
def constants : Nat → List Piece → List JavaTree
  | 0, _ => []
  | _ + 1, [] => []
  | fuel + 1, p :: rest =>
    if p.is ";" then
      let inner := strayNode p :: declarations fuel false rest
      [.node .enumDeclarations none p.start ((rest.getLast?.map Piece.stop).getD p.stop) inner]
    else if p.isComment then strayNode p :: constants fuel rest
    else
      match enumConstant? fuel (p :: rest) with
      | some (node, rest) => node :: constants fuel rest
      | none => strayNode p :: constants fuel rest

end

/-- The end of a dotted name whose first part ends at `stop`. -/
def dottedStop (stop : Nat) : List Piece → Nat
  | dot :: name :: rest => if dot.is "." && name.isWord then dottedStop name.stop rest else stop
  | _ => stop

/-- A name with dots, or a plain one. -/
def packageName? (ps : List Piece) : Option JavaTree :=
  match ps.filter fun p => !p.isComment with
  | a :: rest =>
    if a.isWord then
      let stop := dottedStop a.stop rest
      let kind := if stop = a.stop then Kind.identifier else .scopedIdentifier
      some (.node kind none a.start stop [])
    else none
  | [] => none

/-- The end of a heading, and what follows it. A heading whose semicolon is missing ends before the
word that opens the next declaration. -/
def headingEnd (stop : Nat) : List Piece → Nat × List Piece
  | [] => (stop, [])
  | p :: rest =>
    if p.is ";" then (p.stop, rest)
    else if p.isOneOf (["class", "interface", "enum", "import", "package"] ++ modifierWords) then
      (stop, p :: rest)
    else headingEnd p.stop rest

/-- A package or import declaration, from its keyword on. -/
def heading? (start : Nat) (ps : List Piece) : Option (JavaTree × List Piece) :=
  match ps with
  | p :: rest =>
    if p.isOneOf ["package", "import"] then
      let rest := if (rest.head?.any (·.is "static")) then rest.drop 1 else rest
      let (stop, after) := headingEnd p.stop rest
      let kind := if p.is "package" then Kind.package else .other
      some (.node kind none start stop (packageName? rest).toList, after)
    else none
  | [] => none

/-- Everything at the top of a source. -/
def unit : Nat → List Piece → List JavaTree
  | 0, _ => []
  | _ + 1, [] => []
  | fuel + 1, p :: rest =>
    if p.isComment then strayNode p :: unit fuel rest
    else
      match heading? p.start (skipModifiers fuel (p :: rest)) with
      | some (node, rest) => node :: unit fuel rest
      | none =>
        match declaration? fuel false (p :: rest) with
        | some (node, rest) => node :: unit fuel rest
        | none => strayNode p :: unit fuel rest

/-- The tree of a Java source. -/
def read (source : List Char) : JavaTree :=
  let ps := pieces source
  .node .other none 0 source.length (unit (2 * Piece.sizeAll ps + 2) ps)

end DocTransfer.Javadoc
