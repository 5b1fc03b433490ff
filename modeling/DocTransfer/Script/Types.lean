import DocTransfer.Declared.Names
import DocTransfer.Source.Tree

/-! # Types that a script declares

Scripts are files in TypeScript, with or without markup, in JavaScript, and in what reads much like
them. -/

namespace DocTransfer.Script

open Source

/-- The keywords that come before the name of a type. -/
inductive Keyword where
  | cls
  | interface
  | enum
  | type
  deriving DecidableEq, Repr

/-- The word of a keyword. -/
def Keyword.word : Keyword → String
  | .cls => "class"
  | .interface => "interface"
  | .enum => "enum"
  | .type => "type"

/-- The declarations that name a type. -/
inductive Declaration where
  | cls
  | abstractClass
  | interface
  | enum
  | alias
  deriving DecidableEq, Repr

/-- The keyword of a declaration. -/
def Declaration.keyword : Declaration → Keyword
  | .cls | .abstractClass => .cls
  | .interface => .interface
  | .enum => .enum
  | .alias => .type

/-- The kinds of nodes that matter to names of types. A keyword and a mark have no name in the
grammar, all else has. -/
inductive Kind where
  | declaration (declaration : Declaration)
  | export
  | keyword (keyword : Keyword)
  | typeIdentifier
  | identifier
  | other
  | mark
  deriving DecidableEq, Repr

/-- Whether nodes of a kind have a name in the grammar. -/
def Kind.isNamed : Kind → Bool
  | .keyword _ | .mark => false
  | _ => true

/-- The node of a script. -/
abbrev ScriptTree := SourceTree Kind

/-- The first node with a name in the grammar that comes after a keyword. -/
def afterKeyword? (k : Keyword) (t : ScriptTree) : Option ScriptTree :=
  (t.afterSign? (· == .keyword k) Kind.isNamed).join

/-- The node that holds the name of a declared type. For an alias it is the type name right after
the keyword, if there is one there. -/
def nameNode? (t : ScriptTree) : Option ScriptTree :=
  match t.kind with
  | .declaration .alias =>
    ((afterKeyword? .type t).filter fun n => n.kind == .typeIdentifier).or (t.part? .name)
  | .declaration d => (t.part? .name).or (afterKeyword? d.keyword t)
  | _ => none

/-- The name of the type that a node declares. -/
def name? (source : List Char) (t : ScriptTree) : Option (List Char) :=
  (nameNode? t).map (·.text source)

/-- Whether a node exports a declaration, for which it then stands. -/
def exportsDeclaration (t : ScriptTree) : Bool :=
  t.kind == .export && (t.part? .declaration).isSome

mutual

/-- Adds the names of the types declared in a node. -/
def visit (source : List Char) (found : List String) : ScriptTree → List String
  | .node kind label start stop cs =>
    let t : ScriptTree := .node kind label start stop cs
    if exportsDeclaration t then visitExported source found cs
    else visitAll source (Declared.addSome found (name? source t)) cs

/-- Adds the names of the types declared in the first node that is an exported declaration. -/
def visitExported (source : List Char) (found : List String) : List ScriptTree → List String
  | [] => found
  | .node kind label start stop cs :: rest =>
    if label = some .declaration then
      visitAll source (Declared.addSome found (name? source (.node kind label start stop cs))) cs
    else visitExported source found rest

/-- Adds the names of the types declared in a row of nodes. -/
def visitAll (source : List Char) (found : List String) : List ScriptTree → List String
  | [] => found
  | c :: cs => visitAll source (visit source found c) cs

end

/-- The names of the types declared in a tree, each once, in the order of the text. -/
def types (source : List Char) (root : ScriptTree) : List String :=
  visit source [] root

end DocTransfer.Script
