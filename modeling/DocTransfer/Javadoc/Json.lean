import DocTransfer.Error
import DocTransfer.Javadoc.Basic
import DocTransfer.Json.Decode
import DocTransfer.Json.Printer

/-! # Documentation trees as JSON -/

namespace DocTransfer

open Json

/-- A member as JSON. -/
def JavaMember.toJson (m : JavaMember) : Json :=
  .object [("signature", .string m.signature), ("javadoc", .string m.javadoc)]

/-- A constant as JSON. -/
def JavaConstant.toJson (c : JavaConstant) : Json :=
  .object [("name", .string c.name), ("javadoc", .string c.javadoc)]

namespace JavaType

mutual

/-- A documentation tree as JSON. The list of constants is left out where there is none. -/
def toJson : JavaType → Json
  | .mk simpleName fullName packageName kind javadoc members constants nested sourcePath =>
    .object (
      [("simpleName", .string simpleName), ("fullName", .string fullName),
       ("packageName", .string packageName), ("kind", .string kind.word),
       ("javadoc", .string javadoc), ("members", .array (members.map JavaMember.toJson))] ++
      (match constants with
       | some cs => [("enumConstants", .array (cs.map JavaConstant.toJson))]
       | none => []) ++
      [("nestedTypes", .array (toJsonAll nested)), ("sourcePath", .string sourcePath)])

/-- The trees of a forest as JSON. -/
def toJsonAll : List JavaType → List Json
  | [] => []
  | t :: ts => toJson t :: toJsonAll ts

end

/-- A forest as the text of a file. -/
def save (forest : List JavaType) : String :=
  Json.pretty (.array (toJsonAll forest))

end JavaType

/-- The kinds by name. -/
def TypeKind.decoder : Decoder TypeKind :=
  Decode.choice [("class", .cls), ("interface", .interface), ("enum", .enum)]

/-- A member out of JSON. -/
def JavaMember.decoder : Decoder JavaMember := fun limit o => do
  let s ← Decode.slots [["signature"], ["javadoc"]] limit o
  return { signature := ← s.required 0 (Decode.text (limit - 1)),
           javadoc := ← s.required 1 (Decode.text (limit - 1)) }

/-- A constant out of JSON. -/
def JavaConstant.decoder : Decoder JavaConstant := fun limit o => do
  let s ← Decode.slots [["name"], ["javadoc"]] limit o
  return { name := ← s.required 0 (Decode.text (limit - 1)),
           javadoc := ← s.required 1 (Decode.text (limit - 1)) }

namespace JavaType

/-- The fields of a tree in order; the kind may also be called type. -/
def fieldNames : List (List String) :=
  [["simpleName"], ["fullName"], ["packageName"], ["kind", "type"], ["javadoc"], ["members"],
   ["enumConstants"], ["nestedTypes"], ["sourcePath"]]

/-- A documentation tree out of JSON. A tree takes two levels of nesting: its own and that of the
list of nested types. -/
def decoder : Decoder JavaType
  | limit + 2, o =>
    decodeWith
      (fun o => match o with
        | .array items => items.mapM (decoder limit)
        | _ => none)
      (limit + 1) o
  | _, _ => none
where
  /-- A tree whose list of nested types is read by `nested`, its other parts within a limit. -/
  decodeWith (nested : Outline → Option (List JavaType)) (limit : Nat) (o : Outline) :
      Option JavaType := do
    let s ← Decode.slots fieldNames (limit + 1) o
    let simpleName ← s.required 0 (Decode.text limit)
    let fullName ← s.required 1 (Decode.text limit)
    let packageName ← s.required 2 (Decode.text limit)
    let kind ← s.required 3 (TypeKind.decoder limit)
    let javadoc ← s.required 4 (Decode.text limit)
    let members ← s.required 5 (Decode.list JavaMember.decoder limit)
    let constants ← s.withDefault 6 none
      (Decode.nullable (Decode.list JavaConstant.decoder) limit)
    let nested ← s.required 7 nested
    let sourcePath ← s.required 8 (Decode.text limit)
    return .mk simpleName fullName packageName kind javadoc members constants nested sourcePath

/-- A forest out of the text of a file. -/
def load (text : String) : Except Error (List JavaType) :=
  match (Outline.read? text.toList).bind (Decode.list decoder maxDepth) with
  | some forest => .ok forest
  | none => .error .json

end JavaType

end DocTransfer
