import DocTransfer.Javadoc.Json
import DocTransfer.Matching.Similarity

/-! # Matching target types with Java types

Target type names are mapped to full Java names; the documentation of the types so named is then
taken out of the forest, flat and in depth-first order. -/

namespace DocTransfer.Matching

open Json

/-- How target types are mapped to Java types. -/
inductive Strategy where
  | llm
  | heuristic
  deriving DecidableEq, Repr

/-- The name of a strategy. -/
def Strategy.word : Strategy → String
  | .llm => "llm"
  | .heuristic => "heuristic"

/-- The strategies by name. -/
def Strategy.decoder : Decoder Strategy :=
  Decode.choice [("llm", .llm), ("heuristic", .heuristic)]

/-- The strategy of a name in any case; otherwise what is said about the name. -/
def Strategy.parse (name : String) : Except String Strategy :=
  match String.ofList (Text.lowerAll name.toList) with
  | "llm" => .ok .llm
  | "heuristic" => .ok .heuristic
  | _ => .error ("Unknown matcher: " ++ name)

/-- The documentation of one type without its nesting. -/
structure TypeDocs where
  fullName : String
  javadoc : String
  members : List JavaMember
  constants : List JavaConstant
  deriving DecidableEq, Repr

/-- The flat documentation of a type; no list of constants is an empty one. -/
def TypeDocs.ofType (t : JavaType) : TypeDocs :=
  ⟨t.fullName, t.javadoc, t.members, t.constants.getD []⟩

/-- Flat documentation as JSON. -/
def TypeDocs.toJson (d : TypeDocs) : Json :=
  .object [("fullName", .string d.fullName), ("javadoc", .string d.javadoc),
    ("members", .array (d.members.map JavaMember.toJson)),
    ("enumConstants", .array (d.constants.map JavaConstant.toJson))]

/-- Flat documentation out of JSON. -/
def TypeDocs.decoder : Decoder TypeDocs := fun limit o => do
  let s ← Decode.slots [["fullName"], ["javadoc"], ["members"], ["enumConstants"]] limit o
  return { fullName := ← s.required 0 (Decode.text (limit - 1)),
           javadoc := ← s.required 1 (Decode.text (limit - 1)),
           members := ← s.required 2 (Decode.list JavaMember.decoder (limit - 1)),
           constants := ← s.required 3 (Decode.list JavaConstant.decoder (limit - 1)) }

/-- A type by name and kind. -/
structure Summary where
  name : String
  kind : TypeKind
  deriving DecidableEq, Repr

/-- An entry of a summary as JSON. -/
def Summary.toJson (s : Summary) : Json :=
  .object [("name", .string s.name), ("kind", .string s.kind.word)]

/-- Every type of a forest that has a name, depth first. -/
def summarize (forest : List JavaType) : List Summary :=
  ((JavaType.walkAll forest).filter fun t => t.fullName != "").map fun t => ⟨t.fullName, t.kind⟩

/-- The documentation of every type whose full name is relevant, at any depth. -/
def filterTypes (forest : List JavaType) (relevant : List String) : List TypeDocs :=
  ((JavaType.walkAll forest).filter fun t => relevant.contains t.fullName).map TypeDocs.ofType

/-- The full names whose last segment matches one of the target names: by target name, then by
place in the summary, each once. -/
def heuristicMatches (targets : List String) (summary : List Summary) : List String :=
  (targets.flatMap fun target =>
    (summary.filter fun s => namesMatch target.toList (simpleName s.name.toList)).map
      (·.name)).eraseDups

end DocTransfer.Matching
