import DocTransfer.Javadoc.Basic
import DocTransfer.Source.Tree

/-! # Trees of Java sources -/

namespace DocTransfer.Javadoc

/-- The kinds of nodes that matter to documentation. Everything else is `other`, or a `mark` if it
has no name in the grammar. -/
inductive Kind where
  | package
  | identifier
  | scopedIdentifier
  | typeDeclaration (kind : TypeKind)
  | typeBody
  | enumDeclarations
  | enumConstant
  | field
  | constant
  | method
  | constructor
  | blockComment
  | lineComment
  | other
  | mark
  deriving DecidableEq, Repr

/-- Whether nodes of a kind have a name in the grammar. -/
def Kind.isNamed : Kind → Bool
  | .mark => false
  | _ => true

/-- The node of a Java source. -/
abbrev JavaTree := Source.SourceTree Kind

end DocTransfer.Javadoc
