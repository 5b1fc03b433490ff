import DocTransfer.Declared.Names
import DocTransfer.Source.Tree

/-! # Types that a header declares

A class, struct, enum or union counts when it has a body, and a typedef by the name it brings in.
An export word that nobody knows of makes a class look like a function, whose name is then that of
the class. -/

namespace DocTransfer.Header

open Source

/-- The keywords that open the specifier of a type. -/
inductive Keyword where
  | cls
  | struct
  | enum
  | union
  deriving DecidableEq, Repr

/-- The word of a keyword. -/
def Keyword.word : Keyword → String
  | .cls => "class"
  | .struct => "struct"
  | .enum => "enum"
  | .union => "union"

/-- The kinds of nodes that matter to names of types. -/
inductive Kind where
  | specifier (keyword : Keyword)
  | keyword (keyword : Keyword)
  | function
  | typedef
  | friend
  | identifier
  | typeIdentifier
  | colon
  | other
  | mark
  deriving DecidableEq, Repr

/-- Whether nodes of a kind are keywords of specifiers. -/
def Kind.isKeyword : Kind → Bool
  | .keyword _ => true
  | _ => false

/-- Whether nodes of a kind are names. -/
def Kind.isName : Kind → Bool
  | .identifier | .typeIdentifier => true
  | _ => false

/-- The node of a header. -/
abbrev HeaderTree := SourceTree Kind

/-- The first name between the keyword of a specifier and its body or the colon before its
bases, whichever comes first. -/
def firstName? (source : List Char) (t : HeaderTree) : Option (List Char) := do
  let keyword ← t.childWhere? Kind.isKeyword
  let body := ((t.part? .body).map SourceTree.start).getD t.stop
  let colon := t.descendants.find? fun d => d.kind == .colon && keyword.stop ≤ d.start
  let limit := match colon with
    | some c => min body c.start
    | none => body
  let name ← (t.descendantsWhere Kind.isName).find? fun d =>
    keyword.stop ≤ d.start && d.stop ≤ limit
  return name.text source

/-- The name of a specifier that has a body. -/
def specifierName? (source : List Char) (t : HeaderTree) : Option (List Char) :=
  match t.part? .body, t.part? .name with
  | none, _ => none
  | some _, some name =>
    if (name.text source).isEmpty then firstName? source t else some (name.text source)
  | some _, none => firstName? source t

/-- The name of a class that reads like a function: its type is a class or a struct without a
body, and the name is the first identifier after that. -/
def functionName? (source : List Char) (t : HeaderTree) : Option (List Char) :=
  match t.children with
  | first :: rest =>
    if (first.kind == .specifier .cls || first.kind == .specifier .struct) &&
        (first.part? .body).isNone then
      ((SourceTree.preorderAll rest).find? fun d => d.kind == .identifier).map fun d => d.text source
    else none
  | [] => none

/-- The name that a typedef brings in: the last type name in it, or else the last identifier. -/
def typedefName? (source : List Char) (t : HeaderTree) : Option (List Char) :=
  let lastOf (k : Kind) : Option HeaderTree := (t.descendantsWhere (· == k)).getLast?
  ((lastOf .typeIdentifier).or (lastOf .identifier)).map (·.text source)

/-- The name of the type that a node declares. -/
def name? (source : List Char) (t : HeaderTree) : Option (List Char) :=
  match t.kind with
  | .specifier _ => specifierName? source t
  | .function => functionName? source t
  | .typedef => typedefName? source t
  | _ => none

mutual

/-- Adds the names of the types declared in a node. A friend is declared elsewhere. -/
def visit (source : List Char) (found : List String) : HeaderTree → List String
  | .node kind label start stop cs =>
    if kind = .friend then found
    else
      visitAll source (Declared.addSome found (name? source (.node kind label start stop cs))) cs

/-- Adds the names of the types declared in a row of nodes. -/
def visitAll (source : List Char) (found : List String) : List HeaderTree → List String
  | [] => found
  | c :: cs => visitAll source (visit source found c) cs

end

/-- The names of the types declared in a tree, each once, in the order of the text. -/
def types (source : List Char) (root : HeaderTree) : List String :=
  visit source [] root

end DocTransfer.Header
