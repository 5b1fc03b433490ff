import DocTransfer.Config
import DocTransfer.Declared
import DocTransfer.Transfer.Dump
import DocTransfer.Transfer.EditLoop

/-! # Documenting one file

The types that a file declares are mapped to Java types, the documentation of those is looked up,
and the edit loop puts it into the file. Each stage may find nothing to do. -/

namespace DocTransfer.Transfer

open Matching

/-- What became of a file. -/
inductive FileStatus where
  | noTypes
  | noMappings
  | noMatches
  | documented (outcome : Outcome)
  | failed (message : String)
  deriving DecidableEq

/-- The work on a file. Tokens are counted also when it failed. -/
structure Report where
  path : String
  types : List String
  usage : Usage
  status : FileStatus
  deriving DecidableEq

/-- Whether the work failed. -/
def Report.isFailed (r : Report) : Bool :=
  match r.status with
  | .failed _ => true
  | _ => false

/-- The final text, if the edit loop came to its end. -/
def Report.code? (r : Report) : Option String :=
  match r.status with
  | .documented outcome => some (String.ofList outcome.code)
  | _ => none

/-- Settings of a transfer. -/
structure Options where
  maxPasses : Nat := defaultMaxPasses
  matcher : Strategy := .llm
  exportWords : List String := defaultExportWords

/-- The settings of a configuration. -/
def Options.ofConfig (c : Config) : Options :=
  { maxPasses := c.transfer.maxPasses, matcher := c.transfer.matcher, exportWords := c.exportWords }

variable {σ φ : Type}

/-- The full names of the Java types that target types correspond to. -/
def mapTypes (service : Model.Service σ) (sink : Sink φ) (strategy : Strategy)
    (types : List String) (forest : List JavaType) (path : String) (s : Session σ φ) :
    Except Error (List String) × Session σ φ :=
  let summary := summarize forest
  match strategy with
  | .heuristic => (.ok (heuristicMatches types summary), s)
  | .llm =>
    match ask service sink "type-mapping" (Prompt.mapping types summary path) s with
    | (.error e, s) => (.error e, s)
    | (.ok text, s) => (.ok (answerNames text.toList), s)

/-- The stages after the declared types are known. -/
def document (service : Model.Service σ) (sink : Sink φ) (options : Options) (source path : String)
    (types : List String) (forest : List JavaType) (s : Session σ φ) :
    Except Error FileStatus × Session σ φ :=
  match mapTypes service sink options.matcher types forest path s with
  | (.error e, s) => (.error e, s)
  | (.ok relevant, s) =>
    if relevant.isEmpty then (.ok .noMappings, s)
    else
      let docs := filterTypes forest relevant
      if docs.isEmpty then (.ok .noMatches, s)
      else
        match editLoop service sink options.maxPasses ⟨docs, path⟩ source s with
        | (.error e, s) => (.error e, s)
        | (.ok outcome, s) => (.ok (.documented outcome), s)

/-- Documents a source text. Failures end up in the report, together with the tokens spent before
them; the session's own count starts at zero. -/
def transferSource (service : Model.Service σ) (sink : Sink φ) (options : Options)
    (forest : List JavaType) (source path : String) (s : Session σ φ) :
    Report × Session σ φ :=
  let types := declaredTypes options.exportWords source path
  let s := { s with usage := {} }
  if types.isEmpty then (⟨path, types, {}, .noTypes⟩, s)
  else
    match document service sink options source path types forest s with
    | (.ok status, s) => (⟨path, types, s.usage, status⟩, s)
    | (.error e, s) => (⟨path, types, s.usage, .failed e.message⟩, s)

/-- What the files of a run have in common. -/
structure Job (σ φ : Type) where
  service : Model.Service σ
  storage : Storage φ
  options : Options
  forest : List JavaType
  dryRun : Bool := false
  dump : Option Dump := none

/-- The sink of a file: texts are written to it, unless the run is dry, and dumps go where it is
kept. -/
def Job.sink (job : Job σ φ) (path : String) : Sink φ where
  store files text :=
    if job.dryRun then (.ok (), files)
    else
      match job.storage.write files path text with
      | (.ok (), files) => (.ok (), files)
      | (.error e, files) => (.error (.io e), files)
  dump files label text :=
    match job.dump with
    | some d => d.write job.storage files path label text
    | none => files

/-- Documents a file. -/
def transferFile (job : Job σ φ) (path : String) (s : Session σ φ) : Report × Session σ φ :=
  match job.storage.read s.sink path with
  | .error e => (⟨path, [], {}, .failed e.message⟩, s)
  | .ok source =>
    transferSource job.service (job.sink path) job.options job.forest source path s

end DocTransfer.Transfer
