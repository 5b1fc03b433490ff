/-! # Documented Java types -/

namespace DocTransfer

/-- What a Java type is declared as. -/
inductive TypeKind where
  | cls
  | interface
  | enum
  deriving DecidableEq, Repr

/-- The keyword of a kind. -/
def TypeKind.word : TypeKind → String
  | .cls => "class"
  | .interface => "interface"
  | .enum => "enum"

/-- A documented field, method or constructor. -/
structure JavaMember where
  signature : String
  javadoc : String
  deriving DecidableEq, Repr

/-- A documented enum constant. -/
structure JavaConstant where
  name : String
  javadoc : String
  deriving DecidableEq, Repr

/-- A Java type and everything documented inside it. The javadoc is the verbatim comment, or
empty; only an enum has a list of constants. -/
inductive JavaType where
  | mk (simpleName fullName packageName : String) (kind : TypeKind) (javadoc : String)
      (members : List JavaMember) (constants : Option (List JavaConstant))
      (nested : List JavaType) (sourcePath : String)

namespace JavaType

/-- The name without package and enclosing types. -/
def simpleName : JavaType → String
  | .mk n _ _ _ _ _ _ _ _ => n

/-- The name with package and enclosing types. -/
def fullName : JavaType → String
  | .mk _ n _ _ _ _ _ _ _ => n

/-- The package, or empty. -/
def packageName : JavaType → String
  | .mk _ _ p _ _ _ _ _ _ => p

/-- What the type is declared as. -/
def kind : JavaType → TypeKind
  | .mk _ _ _ k _ _ _ _ _ => k

/-- The comment before the declaration, or empty. -/
def javadoc : JavaType → String
  | .mk _ _ _ _ d _ _ _ _ => d

/-- Documented members. -/
def members : JavaType → List JavaMember
  | .mk _ _ _ _ _ m _ _ _ => m

/-- Documented enum constants. -/
def constants : JavaType → Option (List JavaConstant)
  | .mk _ _ _ _ _ _ c _ _ => c

/-- Types declared inside. -/
def nested : JavaType → List JavaType
  | .mk _ _ _ _ _ _ _ n _ => n

/-- The file that declares the type. -/
def sourcePath : JavaType → String
  | .mk _ _ _ _ _ _ _ _ p => p

mutual

/-- The type and all types inside it, depth first. -/
def walk : JavaType → List JavaType
  | .mk n f p k d m c nested s => .mk n f p k d m c nested s :: walkAll nested

/-- All types of a forest, depth first. -/
def walkAll : List JavaType → List JavaType
  | [] => []
  | t :: ts => walk t ++ walkAll ts

end

/-- The number of types in a forest. -/
def count (forest : List JavaType) : Nat :=
  (walkAll forest).length

/-- The number of files that the trees of a forest come from. -/
def countFiles (forest : List JavaType) : Nat :=
  (forest.map sourcePath).eraseDups.length

end JavaType

end DocTransfer
