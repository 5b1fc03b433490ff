import DocTransfer.Transfer.File

/-! # Documenting many files

Files are worked on one after the other; one that fails is counted and the rest go on. -/

namespace DocTransfer.Transfer

open Json

/-- Totals of a batch. -/
structure BatchSummary where
  model : String
  processed : Nat := 0
  failed : Nat := 0
  usage : Usage := {}
  files : List Report := []

/-- Totals with one more report. -/
def BatchSummary.add (b : BatchSummary) (r : Report) : BatchSummary :=
  { b with
    processed := if r.isFailed then b.processed else b.processed + 1
    failed := if r.isFailed then b.failed + 1 else b.failed
    usage := b.usage + r.usage
    files := b.files ++ [r] }

/-- Who follows a batch gets each report as it comes, with the file's index and the number of files,
and may look at the files as they are then. `π` is what it makes of that. -/
abbrev Observer (φ π : Type) := Nat → Nat → Report → φ → π → π

/-- A batch under way. -/
structure Batch (σ φ π : Type) where
  summary : BatchSummary
  observed : π
  session : Session σ φ

variable {σ φ π : Type}

/-- One more file, given with its index. -/
def Batch.step (job : Job σ φ) (observer : Observer φ π) (total : Nat) (b : Batch σ φ π)
    (file : String × Nat) : Batch σ φ π :=
  let (report, session) := transferFile job file.1 b.session
  { summary := b.summary.add report
    observed := observer file.2 total report session.sink b.observed
    session }

/-- Documents files in order. -/
def transferFiles (job : Job σ φ) (observer : Observer φ π) (paths : List String) (start : π)
    (s : Session σ φ) : Batch σ φ π :=
  paths.zipIdx.foldl (Batch.step job observer paths.length)
    { summary := { model := job.service.model }, observed := start, session := s }

/-! ## Reports as JSON -/

/-- Token counts as JSON. -/
def usageJson (u : Usage) : Json :=
  .object [("inputTokens", .nat u.input), ("outputTokens", .nat u.output),
    ("totalTokens", .nat u.total)]

/-- What a loop left behind, without the text. -/
def Outcome.toJson (o : Outcome) : Json :=
  .object [("passes", .nat o.passes), ("requests", .nat o.requests), ("applied", .nat o.applied),
    ("skipped", .nat o.skipped), ("end", .string o.ending.word)]

/-- The fields that tell a status. -/
def FileStatus.fields : FileStatus → List (String × Json)
  | .noTypes => [("status", .string "noTypes")]
  | .noMappings => [("status", .string "noMappings")]
  | .noMatches => [("status", .string "noMatches")]
  | .documented outcome => [("status", .string "documented"), ("detail", outcome.toJson)]
  | .failed message => [("status", .string "failed"), ("detail", .string message)]

/-- A report as JSON. -/
def Report.toJson (r : Report) : Json :=
  .object ([("path", .string r.path), ("types", .strings r.types), ("usage", usageJson r.usage)] ++
    r.status.fields)

/-- The totals of a batch as JSON. `clock` holds the fields that tell when the batch ran. -/
def BatchSummary.toJson (b : BatchSummary) (clock : List (String × Json)) : Json :=
  .object ([("model", .string b.model)] ++ clock ++
    [("processed", .nat b.processed), ("failed", .nat b.failed), ("usage", usageJson b.usage),
     ("files", .array (b.files.map Report.toJson))])

end DocTransfer.Transfer
