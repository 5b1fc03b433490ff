import DocTransfer.Text.Find

/-! # Paths

A path is its text. Its components are the pieces between slashes; empty pieces and single dots
count for nothing, except a dot that opens a relative path. Cutting a path keeps the text of what
remains as it was. -/

namespace DocTransfer.Path

open Text

/-- A component of a path. -/
inductive Component where
  | root
  | here
  | up
  | name (text : List Char)
  deriving DecidableEq

/-- A piece between slashes. The flags say whether it opens the path and whether it is all of it. -/
def component? (first : Bool) (piece : List Char) : Option Component :=
  if piece = [] then none
  else if piece = ['.'] then (if first then some .here else none)
  else if piece = ['.', '.'] then some .up
  else some (.name piece)

/-- The pieces of a path with the component that each stands for. -/
def pieces (path : List Char) : List (List Char × Option Component) :=
  match path with
  | '/' :: rest =>
    ([], some .root) :: (splitWhere (· == '/') rest).map fun p => (p, component? false p)
  | path =>
    match splitWhere (· == '/') path with
    | [] => []
    | p :: ps => (p, component? true p) :: ps.map fun p => (p, component? false p)

/-- The components of a path. -/
def components (path : List Char) : List Component :=
  (pieces path).filterMap (·.2)

/-- Pieces as text again. -/
def unpieces (ps : List (List Char × Option Component)) : List Char :=
  match ps with
  | [([], some .root)] => ['/']
  | ps => joinWith ['/'] (ps.map (·.1))

/-- Pieces without those at the end that stand for nothing. -/
def dropIdleEnd (ps : List (List Char × Option Component)) : List (List Char × Option Component) :=
  (ps.reverse.dropWhile (·.2.isNone)).reverse

/-- The last component, if it is a name. -/
def fileName? (path : List Char) : Option (List Char) :=
  match (components path).getLast? with
  | some (.name n) => some n
  | _ => none

/-- The path without its last component; a root has none. -/
def parent? (path : List Char) : Option (List Char) :=
  match (dropIdleEnd (pieces path)).reverse with
  | [] => none
  | (_, some .root) :: _ => none
  | _ :: rest => some (unpieces (dropIdleEnd rest.reverse))

/-- Where the extension of a file name begins: after its last dot, unless that opens the name. -/
def nameExtension? (name : List Char) : Option (List Char) :=
  let ext := (name.reverse.takeWhile (· != '.')).reverse
  if ext.length + 1 < name.length then some ext else none

/-- The extension of the path's file name. -/
def extension? (path : List Char) : Option (List Char) :=
  (fileName? path).bind nameExtension?

/-- A path below another. An absolute path stands for itself. -/
def join (base path : List Char) : List Char :=
  if path.head? = some '/' then path
  else if base = [] ∨ base.getLast? = some '/' then base ++ path
  else base ++ '/' :: path

/-- Pieces after those that stand for the given components. -/
def dropComponents : List Component → List (List Char × Option Component) →
    Option (List (List Char × Option Component))
  | [], ps => some ps
  | _ :: _, [] => none
  | c :: cs, (_, none) :: ps => dropComponents (c :: cs) ps
  | c :: cs, (_, some d) :: ps => if c = d then dropComponents cs ps else none

/-- The part of a path below another one. -/
def below? (base path : List Char) : Option (List Char) :=
  (dropComponents (components base) (pieces path)).map fun ps =>
    unpieces (dropIdleEnd (ps.dropWhile (·.2.isNone)))

end DocTransfer.Path
