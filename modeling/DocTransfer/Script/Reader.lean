import DocTransfer.Script.Token
import DocTransfer.Script.Types

/-! # Reading scripts

Types are declared by statements. A class in an expression declares none, but functions in
expressions, in class bodies and in object literals have bodies of statements, so everything is
gone through. -/

namespace DocTransfer.Script

open Source

/-- Whether a piece may end an operand or a type. -/
def endsOperand (p : Piece) : Bool :=
  match p with
  | .group .. => true
  | .leaf t =>
    t.kind == .literal || (t.isWord && !t.isOneOf operatorWords) || t.isOneOf ["++", "--", "void"]

/-- Stands for any operand that comes before a piece. -/
def someOperand : Piece :=
  .leaf ⟨.literal, 0, [], false⟩

/-- Whether an optional piece may end an operand. -/
def endsOperand? (p : Option Piece) : Bool :=
  p.any endsOperand

/-- Whether an optional piece is a word or mark. -/
def isThe (s : String) (p : Option Piece) : Bool :=
  p.any (·.is s)

/-- Words that open a declaration. -/
def openingWords : List String :=
  ["class", "interface", "enum", "abstract", "declare", "export", "import", "type", "namespace",
   "function", "const", "let", "var"]

/-- Marks and words that go on with an expression on a new line. -/
def continuations : List String :=
  [".", ",", "?", ":", "=", "=>", "+", "-", "*", "/", "%", "&", "|", "^", "<", ">", "in",
   "instanceof", "as", "satisfies", "extends"]

/-- Whether a statement ends between two pieces although no semicolon stands there. -/
def breaksBetween (previous : Option Piece) (p : Piece) : Bool :=
  if p.fresh then
    if endsOperand? previous then !(p.isOneOf continuations || p.opensWith "(" || p.opensWith "[")
    else isThe ">" previous && p.isOneOf openingWords
  else endsOperand? previous && p.is "class"

/-- Splits off the pieces of a statement that runs to a semicolon or to a line break that ends
it. -/
def splitStatement : Option Piece → List Piece → List Piece × List Piece
  | _, [] => ([], [])
  | previous, p :: rest =>
    if p.is ";" then ([], rest)
    else if breaksBetween previous p then ([], p :: rest)
    else
      let (front, back) := splitStatement (some p) rest
      (p :: front, back)

/-- Whether a piece is a body in braces when it comes after `previous`. -/
def isBodyAfter (previous : Option Piece) (p : Piece) : Bool :=
  (p.opensWith "\x7b" || p.is "\x7b") &&
    (endsOperand? previous || isThe ">" previous || isThe "=>" previous)

/-- Splits at the body that ends a head: the head, what stands in the body, and what follows. An
opening brace that stands alone takes everything up to the end. -/
def splitBody? : Option Piece → List Piece → Option (List Piece × List Piece × List Piece)
  | _, [] => none
  | previous, p :: rest =>
    if isBodyAfter previous p then
      match p with
      | .group _ inner _ => some ([], inner, rest)
      | .leaf _ => some ([], rest, [])
    else if p.is ";" then none
    else (splitBody? (some p) rest).map fun (head, inner, after) => (p :: head, inner, after)

/-- What follows a decorator after its sign. -/
def skipDecorator : List Piece → List Piece
  | p :: rest =>
    if p.isWord then skipPath rest else if p.opensWith "(" then rest else p :: rest
  | [] => []
where
  /-- What follows names with dots and arguments. -/
  skipPath : List Piece → List Piece
    | p :: q :: rest =>
      if p.is "." && q.isWord then skipPath rest
      else if p.opensWith "(" then q :: rest
      else p :: q :: rest
    | [p] => if p.opensWith "(" then [] else [p]
    | [] => []

/-- What follows the label of a case, or everything if it has no end. -/
def skipCase : List Piece → List Piece
  | [] => []
  | p :: rest => if p.is ":" then rest else skipCase rest

/-- The node of a declared type. -/
def declared (d : Declaration) (keyword name : Piece) (inner : List ScriptTree) : ScriptTree :=
  .node (.declaration d) none keyword.start name.stop
    (.node (.keyword d.keyword) none keyword.start keyword.stop [] ::
     .node .typeIdentifier (some .name) name.start name.stop [] :: inner)

/-- The node of a statement that declares no type. -/
def plain (inner : List ScriptTree) : List ScriptTree :=
  match inner with
  | [] => []
  | t :: _ => [.node .other none t.start ((inner.getLast?.map SourceTree.stop).getD t.stop) inner]

/-- The node of an export. -/
def exported (inner : List ScriptTree) : List ScriptTree :=
  match inner with
  | [] => []
  | t :: _ =>
    [.node .export none t.start ((inner.getLast?.map SourceTree.stop).getD t.stop)
      [match inner with
        | [t] => t.relabel .declaration
        | _ => .node .other (some .declaration) t.start t.stop inner]]

/-- The words that come after `declare`. -/
def ambientWords : List String :=
  ["class", "abstract", "enum", "const", "let", "var", "function", "interface", "type",
   "namespace", "module", "global", "async"]

/-- The declaration that a keyword opens in a typed script. -/
def declaration? (typed isAbstract : Bool) (p : Piece) : Option Declaration :=
  if p.is "class" then some (if isAbstract then .abstractClass else .cls)
  else if typed && p.is "interface" then some .interface
  else if typed && p.is "enum" then some .enum
  else none

/-- Whether a piece can be the name of a class. -/
def isTypeName (p : Piece) : Bool :=
  p.isWord && !p.isOneOf ["extends", "implements"]

/-- Whether an alias follows its keyword. -/
def opensAlias (rest : List Piece) : Bool :=
  match rest with
  | n :: eq :: _ => n.isWord && !n.fresh && (eq.is "=" || eq.is "<")
  | _ => false

/-- Whether a namespace or a module in quotes follows its keyword. -/
def opensNamespace (rest : List Piece) : Bool :=
  match rest with
  | .leaf t :: _ => (t.isWord || t.kind == .literal) && !t.fresh && (splitBody? none rest).isSome
  | _ => false

mutual

/-- The declarations in a row of statements. -/
def statements (typed : Bool) : Nat → List Piece → List ScriptTree
  | 0, _ => []
  | _ + 1, [] => []
  | fuel + 1, p :: rest =>
    let (found, rest) := statement typed fuel p rest
    found ++ statements typed fuel rest

/-- The declarations in one statement, and what follows it. -/
def statement (typed : Bool) : Nat → Piece → List Piece → List ScriptTree × List Piece
  | 0, _, _ => ([], [])
  | fuel + 1, p, rest =>
    let go (ps : List Piece) : List ScriptTree × List Piece :=
      match ps with
      | q :: more => statement typed fuel q more
      | [] => ([], [])
    match p with
    | .group _ inner _ =>
      if p.opensWith "\x7b" then (plain (statements typed fuel inner), rest)
      else expression typed fuel (p :: rest)
    | .leaf _ =>
      if p.is ";" then ([], rest)
      else if p.is "@" then go (skipDecorator rest)
      else if p.isOneOf ["if", "for", "while", "with", "switch", "catch"] then
        headed typed fuel (if isThe "await" rest.head? then rest.drop 1 else rest)
      else if p.isOneOf ["else", "do", "try", "finally"] then go rest
      else if p.is "case" then
        let body := skipCase rest
        (plain (inside typed fuel none (rest.take (rest.length - body.length))), body)
      else if p.is "default" then ([], skipCase rest)
      else if p.is "export" then
        match rest with
        | q :: more =>
          if q.is "default" then
            match more with
            | .leaf t :: after =>
              let (found, after) := statement typed fuel (.leaf t) after
              (exported found, after)
            | _ =>
              let (found, after) := expression typed fuel more
              (exported found, after)
          else if q.isOneOf ["=", "*", "as"] || q.opensWith "\x7b" then
            expression typed fuel rest
          else
            let (found, after) := statement typed fuel q more
            (exported found, after)
        | [] => ([], [])
      else if typed && p.is "declare" && (rest.head?.any (·.isOneOf ambientWords)) then go rest
      else if typed && p.is "global" && (rest.head?.any (·.opensWith "\x7b")) then go rest
      else if typed && p.is "abstract" && isThe "class" rest.head? then
        match rest with
        | q :: more => declaration typed fuel true q more
        | [] => ([], [])
      else if typed && p.is "const" && isThe "enum" rest.head? then go rest
      else if typed && p.is "type" && opensAlias rest then
        let (front, after) := splitStatement (some p) rest
        match front with
        | name :: _ => ([declared .alias p name []], after)
        | [] => ([], after)
      else if typed && p.isOneOf ["namespace", "module"] && opensNamespace rest then
        match splitBody? none rest with
        | some (_, inner, after) => (plain (statements typed fuel inner), after)
        | none => ([], rest)
      else if p.is "function" || (p.is "async" && isThe "function" rest.head?) then
        let (front, after) := splitStatement (some p) rest
        match splitBody? (some p) (front ++ after) with
        | some (head, inner, afterBody) =>
          if head.length ≤ front.length then
            (plain (inside typed fuel (some p) head ++ statements typed fuel inner), afterBody)
          else (plain (inside typed fuel (some p) front), after)
        | none => (plain (inside typed fuel (some p) front), after)
      else if (declaration? typed false p).isSome then declaration typed fuel false p rest
      else if p.isWord && isThe ":" rest.head? then ([], rest.drop 1)
      else expression typed fuel (p :: rest)

/-- A statement after the condition in brackets that it may have. -/
def headed (typed : Bool) : Nat → List Piece → List ScriptTree × List Piece
  | 0, _ => ([], [])
  | _ + 1, [] => ([], [])
  | fuel + 1, q :: more =>
    if q.opensWith "(" then
      match more with
      | r :: after =>
        let (found, after) := statement typed fuel r after
        (plain (inside typed fuel none [q]) ++ found, after)
      | [] => (plain (inside typed fuel none [q]), [])
    else statement typed fuel q more

/-- A class, an interface or an enum from its keyword on. -/
def declaration (typed : Bool) : Nat → Bool → Piece → List Piece → List ScriptTree × List Piece
  | 0, _, _, _ => ([], [])
  | fuel + 1, isAbstract, p, rest =>
    match declaration? typed isAbstract p, rest with
    | some d, name :: more =>
      if isTypeName name then
        match splitBody? (some someOperand) more with
        | some (head, inner, after) =>
          let within := match d with
            | .cls | .abstractClass =>
              inside typed fuel (some name) head ++ inside typed fuel none inner
            | _ => []
          ([declared d p name within], after)
        | none => expression typed fuel rest
      else expression typed fuel (p :: rest)
    | _, _ => ([], rest)

/-- A statement that is an expression, or reads like one. -/
def expression (typed : Bool) : Nat → List Piece → List ScriptTree × List Piece
  | 0, _ => ([], [])
  | fuel + 1, ps =>
    match ps with
    | [] => ([], [])
    | p :: rest =>
      let (front, after) := splitStatement (some p) rest
      (plain (inside typed fuel none (p :: front)), after)

/-- The declarations in the bodies of functions inside an expression, a class body or an object
literal. -/
def inside (typed : Bool) : Nat → Option Piece → List Piece → List ScriptTree
  | 0, _, _ => []
  | _ + 1, _, [] => []
  | fuel + 1, previous, p :: rest =>
    match p with
    | .group _ inner _ =>
      let found := if isBodyAfter previous p then statements typed fuel inner
        else inside typed fuel none inner
      found ++ inside typed fuel (some p) rest
    | .leaf _ =>
      if p.is "class" && !isThe "." previous &&
          (rest.head?.any fun q => q.isWord || q.opensWith "\x7b") then
        match splitBody? (some someOperand) rest with
        | some (head, inner, after) =>
          inside typed fuel (some p) head ++ inside typed fuel none inner ++
            inside typed fuel (some someOperand) after
        | none => inside typed fuel (some p) rest
      else inside typed fuel (some p) rest

end

/-- The tree of a script, typed or not, with or without markup in it. -/
def read (typed withMarkup : Bool) (source : List Char) : ScriptTree :=
  let ps := pieces withMarkup source
  .node .other none 0 source.length (statements typed (4 * Piece.sizeAll ps + 8) ps)

end DocTransfer.Script
