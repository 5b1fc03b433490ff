import DocTransfer.Glob
import DocTransfer.Matching.Basic
import DocTransfer.Model.Table
import DocTransfer.Number.Written

/-! # Configuration

Every setting has a default, so any part of a configuration file may be left out. -/

namespace DocTransfer

open Json Number Matching

/-- Which model answers, and how. -/
structure ModelConfig where
  model : String := Model.defaultId
  temperature : Binary := Format.single.round false 7 10
  maxOutputTokens : Option Nat := none
  timeoutSecs : Nat := 600
  deriving DecidableEq

/-- Generate requests allowed a file. -/
def defaultMaxPasses : Nat := 5

/-- Extensions of the files that are documented. -/
def defaultExtensions : List String :=
  [".cs", ".cpp", ".c", ".cc", ".h", ".hpp", ".hxx", ".js", ".ts", ".tsx", ".as", ".hx"]

/-- Patterns of the files that are left alone. -/
def defaultExclude : List String :=
  ["**/node_modules/**", "**/build/**", "**/dist/**", "**/*.d.ts", "**/.git/**"]

/-- Words that headers put before a type's name. -/
def defaultExportWords : List String :=
  ["SP_API", "SPINE_API", "EXPORT"]

/-- Which files are documented, and how hard to try. -/
structure TransferConfig where
  maxPasses : Nat := defaultMaxPasses
  matcher : Strategy := .llm
  extensions : List String := defaultExtensions
  exclude : List String := defaultExclude
  debugDir : String := ".docport/debug"
  deriving DecidableEq

/-- All settings. -/
structure Config where
  llm : ModelConfig := {}
  transfer : TransferConfig := {}
  exportWords : List String := defaultExportWords
  javadocs : String := "javadocs.json"
  deriving DecidableEq

namespace Config

/-- The settings of a model out of JSON. -/
def modelDecoder : Decoder ModelConfig := fun limit o => do
  let s ← Decode.slots [["model"], ["temperature"], ["maxOutputTokens"], ["timeoutSecs"]] limit o
  let d : ModelConfig := {}
  return { model := ← s.withDefault 0 d.model (Decode.text limit),
           temperature := ← s.withDefault 1 d.temperature (Decode.single limit),
           maxOutputTokens := ← s.withDefault 2 none
             (Decode.nullable (Decode.natural Number.maxSmallCount) limit),
           timeoutSecs := ← s.withDefault 3 d.timeoutSecs (Decode.natural Number.maxCount limit) }

/-- The settings of a transfer out of JSON. -/
def transferDecoder : Decoder TransferConfig := fun limit o => do
  let s ← Decode.slots [["maxPasses"], ["matcher"], ["extensions"], ["exclude"], ["debugDir"]]
    limit o
  let d : TransferConfig := {}
  let texts := Decode.list Decode.text (limit - 1)
  return { maxPasses := ← s.withDefault 0 d.maxPasses (Decode.natural Number.maxCount limit),
           matcher := ← s.withDefault 1 d.matcher (Strategy.decoder (limit - 1)),
           extensions := ← s.withDefault 2 d.extensions texts,
           exclude := ← s.withDefault 3 d.exclude texts,
           debugDir := ← s.withDefault 4 d.debugDir (Decode.text limit) }

/-- A record with one field that has a default. -/
def soleDecoder {α : Type} (name : String) (default : α) (value : Decoder α) : Decoder α :=
  fun limit o => do
    let s ← Decode.slots [[name]] limit o
    s.withDefault 0 default (value (limit - 1))

/-- All settings out of JSON. -/
def decoder : Decoder Config := fun limit o => do
  let s ← Decode.slots [["llm"], ["transfer"], ["cpp"], ["output"]] limit o
  let d : Config := {}
  let inner := limit - 1
  return { llm := ← s.withDefault 0 d.llm (modelDecoder inner),
           transfer := ← s.withDefault 1 d.transfer (transferDecoder inner),
           exportWords := ← s.withDefault 2 d.exportWords
             (soleDecoder "exportMacros" d.exportWords (Decode.list Decode.text) inner),
           javadocs := ← s.withDefault 3 d.javadocs
             (soleDecoder "javadocs" d.javadocs Decode.text inner) }

/-- The first exclude pattern that is none. -/
def badExclude? (c : Config) : Option ConfigError :=
  c.transfer.exclude.findSome? fun pattern =>
    match Glob.parse pattern with
    | .error e => some (.exclude pattern e.message)
    | .ok _ => none

/-- What is wrong with the settings, if anything. -/
def fault? (c : Config) : Option ConfigError :=
  if !c.llm.temperature.between 0 2 then
    some (.temperature (c.llm.temperature.write .single .plain))
  else if c.transfer.maxPasses = 0 then some .noPasses
  else c.badExclude?

/-- The settings in the text of a configuration file. -/
def parse (text : String) : Except Error Config :=
  match (Outline.read? text.toList).bind (decoder maxDepth) with
  | none => .error .json
  | some c =>
    match c.fault? with
    | some fault => .error (.config fault)
    | none => .ok c

/-- The settings in a configuration file. -/
def load (t : FileTree) (path : String) : Except Error Config :=
  match t.read path.toList with
  | .error e => .error (.io e)
  | .ok text => parse text

/-- The settings in a configuration file, or the defaults when there is none. -/
def loadIfThere (t : FileTree) (path : String) : Except Error Config :=
  if t.holds path.toList then load t path else .ok {}

/-- All settings as JSON. An output limit that is not set is left out. -/
def toJson (c : Config) : Json :=
  .object [
    ("llm", .object (
      [("model", .string c.llm.model), ("temperature", .number (.single c.llm.temperature))] ++
      (match c.llm.maxOutputTokens with
       | some n => [("maxOutputTokens", .nat n)]
       | none => []) ++
      [("timeoutSecs", .nat c.llm.timeoutSecs)])),
    ("transfer", .object [
      ("maxPasses", .nat c.transfer.maxPasses), ("matcher", .string c.transfer.matcher.word),
      ("extensions", .strings c.transfer.extensions), ("exclude", .strings c.transfer.exclude),
      ("debugDir", .string c.transfer.debugDir)]),
    ("cpp", .object [("exportMacros", .strings c.exportWords)]),
    ("output", .object [("javadocs", .string c.javadocs)])]

/-- All settings as the text of a configuration file. -/
def save (c : Config) : String :=
  Json.pretty c.toJson

end Config

end DocTransfer
