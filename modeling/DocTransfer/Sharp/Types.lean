import DocTransfer.Declared.Names
import DocTransfer.Source.Tree

/-! # Types that a C# file declares -/

namespace DocTransfer.Sharp

open Source

/-- The keywords of the declarations that name a type. -/
inductive Keyword where
  | cls
  | interface
  | enum
  | struct
  deriving DecidableEq, Repr

/-- The word of a keyword. -/
def Keyword.word : Keyword → String
  | .cls => "class"
  | .interface => "interface"
  | .enum => "enum"
  | .struct => "struct"

/-- The kinds of nodes that matter to names of types. A keyword and a mark have no name in the
grammar, all else has. -/
inductive Kind where
  | declaration (keyword : Keyword)
  | keyword (keyword : Keyword)
  | identifier
  | other
  | mark
  deriving DecidableEq, Repr

/-- Whether nodes of a kind have a name in the grammar. -/
def Kind.isNamed : Kind → Bool
  | .keyword _ | .mark => false
  | _ => true

/-- The node of a C# source. -/
abbrev SharpTree := SourceTree Kind

/-- The first node with a name in the grammar that comes after a keyword. -/
def afterKeyword? (k : Keyword) (t : SharpTree) : Option SharpTree :=
  (t.afterSign? (· == .keyword k) Kind.isNamed).join

/-- The name of the type that a node declares. -/
def name? (source : List Char) (t : SharpTree) : Option (List Char) :=
  match t.kind with
  | .declaration k =>
    let node := ((t.part? .name).or (afterKeyword? k t)).or
      (t.descendantsWhere (· == .identifier)).head?
    node.map (·.text source)
  | _ => none

mutual

/-- Adds the names of the types declared in a node. -/
def visit (source : List Char) (found : List String) : SharpTree → List String
  | .node kind label start stop cs =>
    visitAll source (Declared.addSome found (name? source (.node kind label start stop cs))) cs

/-- Adds the names of the types declared in a row of nodes. -/
def visitAll (source : List Char) (found : List String) : List SharpTree → List String
  | [] => found
  | c :: cs => visitAll source (visit source found c) cs

end

/-- The names of the types declared in a tree, each once, in the order of the text. -/
def types (source : List Char) (root : SharpTree) : List String :=
  visit source [] root

end DocTransfer.Sharp
