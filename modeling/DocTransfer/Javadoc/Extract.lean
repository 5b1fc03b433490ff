import DocTransfer.Javadoc.Reader
import DocTransfer.Text.Blank

/-! # Documentation in Java sources

A comment documents the declaration that comes right after it. Only the nearest node before a
declaration counts, and only if it is a comment that opens with two stars. -/

namespace DocTransfer.Javadoc

open Source

/-- The comment that documents what follows `previous`, or nothing. -/
def docOf (source : List Char) (previous : Option JavaTree) : List Char :=
  match previous with
  | some t =>
    if t.kind == .blockComment && "/**".toList.isPrefixOf (t.text source) then t.text source
    else []
  | none => []

/-- The nearest named node, when `t` comes after `previous`. -/
def nearest (previous : Option JavaTree) (t : JavaTree) : Option JavaTree :=
  if t.kind.isNamed then some t else previous

/-- Nodes, each with the nearest named node before it. -/
def withPrevious : Option JavaTree → List JavaTree → List (Option JavaTree × JavaTree)
  | _, [] => []
  | previous, t :: ts => (previous, t) :: withPrevious (nearest previous t) ts

/-- The text of a declaration before its body, without the mark that would follow. -/
def headText (source : List Char) (t : JavaTree) : List Char :=
  let stop := ((t.part? .body).map SourceTree.start).getD t.stop
  let head := (source.drop t.start).take (stop - t.start)
  Text.trim (Text.dropEndWhile (fun c => c == '\x7b' || c == ';') (Text.trim head))

/-- The signature of a field, a method or a constructor, made from its parts. -/
def signatureParts? (source : List Char) (t : JavaTree) : Option (List Char) :=
  let part (l : Label) : Option (List Char) := (t.part? l).map (·.text source)
  match t.kind with
  | .field | .constant => do
    let name ← (t.part? .declarator).bind (·.part? .name)
    return (← part .type) ++ [' '] ++ name.text source
  | .method => return (← part .type) ++ [' '] ++ (← part .name) ++ (← part .parameters)
  | .constructor => return (← part .name) ++ (← part .parameters)
  | _ => none

/-- The signature of a member; its whole head if a part is missing. -/
def signature (source : List Char) (t : JavaTree) : List Char :=
  (signatureParts? source t).getD (headText source t)

/-- Whether nodes of a kind are members. -/
def Kind.isMember : Kind → Bool
  | .field | .constant | .method | .constructor => true
  | _ => false

/-- A member, if it is one and is documented. -/
def member (source : List Char) (previous : Option JavaTree) (t : JavaTree) :
    Option JavaMember :=
  let doc := docOf source previous
  let head := signature source t
  if t.kind.isMember && !doc.isEmpty && !head.isEmpty then
    some ⟨String.ofList head, String.ofList doc⟩
  else none

/-- An enum constant, if it is one and is documented. -/
def enumConstant (source : List Char) (previous : Option JavaTree) (t : JavaTree) :
    Option JavaConstant :=
  let doc := docOf source previous
  let name := match t.part? .name with
    | some n => n.text source
    | none => Text.trim (Text.dropEndWhile (· == ',') (t.text source))
  if t.kind == .enumConstant && !doc.isEmpty then some ⟨String.ofList name, String.ofList doc⟩
  else none

/-- The node that holds the name of a type. -/
def nameNode? (t : JavaTree) : Option JavaTree :=
  (t.part? .name).or (t.descendantsWhere (· == .identifier)).head?

/-- The place of the body among the children of a type. -/
def bodyPlace? (children : List JavaTree) : Option Nat :=
  (children.findIdx? (·.label == some .body)).or (children.findIdx? (·.kind == .typeBody))

/-- The place of the declarations among the children of an enum's body. -/
def declarationsPlace? (children : List JavaTree) : Option Nat :=
  children.findIdx? (·.kind == .enumDeclarations)

/-- The children of the node at a place. -/
def childrenAt (place : Option Nat) (ts : List JavaTree) : List JavaTree :=
  ((place.bind (ts[·]?)).map SourceTree.children).getD []

/-- What the types of one file have in common. -/
structure Origin where
  source : List Char
  path : String
  package : String

/-- The full name of a type: after the enclosing type, or after the package. -/
def fullName (o : Origin) (outer : Option String) (name : String) : String :=
  match outer with
  | some outer => outer ++ "." ++ name
  | none => if o.package.isEmpty then name else o.package ++ "." ++ name

/-- The documented members in a row of nodes. -/
def membersIn (o : Origin) (ts : List JavaTree) : List JavaMember :=
  (withPrevious none ts).filterMap fun (previous, t) => member o.source previous t

/-- The documented constants in a row of nodes. -/
def constantsIn (o : Origin) (ts : List JavaTree) : List JavaConstant :=
  (withPrevious none ts).filterMap fun (previous, t) => enumConstant o.source previous t

mutual

/-- The type that a node declares, with everything documented inside it. -/
def typeOf? (o : Origin) (outer : Option String) (previous : Option JavaTree) :
    JavaTree → Option JavaType
  | .node kind label start stop children =>
    let t : JavaTree := .node kind label start stop children
    match kind, nameNode? t with
    | .typeDeclaration kind, some nameNode =>
      let name := String.ofList (nameNode.text o.source)
      let full := fullName o outer name
      let body := childrenAt (bodyPlace? children) children
      let later := childrenAt (declarationsPlace? body) body
      let members := membersIn o body ++ membersIn o later
      let constants := if kind = .enum then some (constantsIn o body) else none
      some (.mk name full o.package kind (String.ofList (docOf o.source previous)) members
        constants (nestedIn o full (bodyPlace? children) children) o.path)
    | _, _ => none

/-- The types inside the body at a place: those directly in it, then those among the
declarations of an enum. -/
def nestedIn (o : Origin) (outer : String) : Option Nat → List JavaTree → List JavaType
  | some 0, .node _ _ _ _ body :: _ =>
    typesIn o (some outer) none body ++ laterIn o outer (declarationsPlace? body) body
  | some (n + 1), _ :: ts => nestedIn o outer (some n) ts
  | _, _ => []

/-- The types among the declarations of an enum, which stand at a place of its body. -/
def laterIn (o : Origin) (outer : String) : Option Nat → List JavaTree → List JavaType
  | some 0, .node _ _ _ _ later :: _ => typesIn o (some outer) none later
  | some (n + 1), _ :: ts => laterIn o outer (some n) ts
  | _, _ => []

/-- The types that a row of nodes declares. -/
def typesIn (o : Origin) (outer : Option String) :
    Option JavaTree → List JavaTree → List JavaType
  | _, [] => []
  | previous, t :: ts =>
    (typeOf? o outer previous t).toList ++ typesIn o outer (nearest previous t) ts

end

/-- The package that a source names, or empty. -/
def packageOf (source : List Char) (root : JavaTree) : String :=
  match root.childWhere? (· == .package) with
  | none => ""
  | some p =>
    match p.childWhere? fun k => k == .scopedIdentifier || k == .identifier with
    | some name => String.ofList (name.text source)
    | none =>
      let text := dropKeyword (p.stop - p.start) (p.text source)
      String.ofList (Text.trim (Text.dropEndWhile (· == ';') text))
where
  /-- A text without the keyword at its front, however often that stands there. -/
  dropKeyword : Nat → List Char → List Char
    | 0, cs => cs
    | fuel + 1, cs =>
      if "package".toList.isPrefixOf cs then dropKeyword fuel (cs.drop 7) else cs

/-- The documented types of a tree over its source. -/
def typesOf (source : List Char) (path : String) (root : JavaTree) : List JavaType :=
  typesIn ⟨source, path, packageOf source root⟩ none none root.children

/-- The documentation tree of a Java source. -/
def extract (source path : String) : List JavaType :=
  typesOf source.toList path (read source.toList)

end DocTransfer.Javadoc
