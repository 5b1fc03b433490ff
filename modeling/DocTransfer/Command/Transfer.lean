import DocTransfer.Command.Arguments
import DocTransfer.Command.Console
import DocTransfer.Diff.Unified
import DocTransfer.Javadoc.Folder
import DocTransfer.Javadoc.Json
import DocTransfer.Transfer.Batch
import DocTransfer.Transfer.Collect

/-! # Commands that document files -/

namespace DocTransfer.Command

open Json

variable {σ : Type}

/-- The provider and account that settings select. -/
def account (env : Model.Environment) (settings : RunSettings) (config : Config) :
    Except Error (Model.Provider × Model.Account) :=
  Model.connect env (settings.model.getD config.llm.model) settings.key
    (settings.temperature.getD config.llm.temperature) config.llm.maxOutputTokens
    config.llm.timeoutSecs

/-- The model that settings select. -/
def service (around : Surroundings σ) (settings : RunSettings) (config : Config) :
    Action σ (Model.Service σ) := do
  let (provider, account) ← orFail (account around.env settings config)
  return account.service provider around.network

/-- The options of a transfer: those of the configuration, unless settings say otherwise. -/
def RunSettings.options (settings : RunSettings) (config : Config) : Transfer.Options :=
  let base := Transfer.Options.ofConfig config
  { base with
    matcher := settings.matcher.getD base.matcher,
    maxPasses := settings.maxPasses.getD base.maxPasses }

/-- The options of a transfer, which has to make a pass at least. -/
def options (settings : RunSettings) (config : Config) : Action σ Transfer.Options := do
  require (settings.maxPasses != some 0) "--max-passes must be at least 1"
  return settings.options config

/-- Where dumps go, if they were asked for. Below a root they are laid out as the files are. -/
def dump (settings : RunSettings) (config : Config) (root : Option String) :
    Action σ (Option Transfer.Dump) := do
  if settings.debug then
    say ("→ Writing prompts to " ++ config.transfer.debugDir)
    return some { dir := config.transfer.debugDir, root }
  else return none

/-- The name under which a file is shown. -/
def shownName (path : String) : String :=
  ((Path.fileName? path.toList).map String.ofList).getD path

/-- What is said of a file. -/
def reportLine (r : Transfer.Report) : String :=
  let name := shownName r.path
  match r.status with
  | .noTypes => "  - " ++ name ++ " (no types)"
  | .noMappings => "  - " ++ name ++ " (no mapped Java types)"
  | .noMatches => "  - " ++ name ++ " (no matching Javadocs)"
  | .documented outcome =>
    "  ✓ " ++ name ++ " (" ++ toString outcome.applied ++ " edits, " ++ toString outcome.passes ++
      " passes, " ++ toString r.usage.total ++ " tokens)" ++
      (match outcome.ending with
       | .converged => ""
       | .capReached => " (pass limit reached)")
  | .failed message => "  ✗ " ++ name ++ ": " ++ message

/-- The diff that a dry run shows for a file. -/
def dryRunDiff (t : FileTree) (r : Transfer.Report) : String :=
  match r.code?, t.read r.path.toList with
  | some code, .ok old =>
    if old == code then ""
    else Diff.unified r.path (r.path ++ " (documented)") old.toList code.toList
  | _, _ => ""

/-- What is printed about a file: what became of it and, for a dry run, the diff. -/
def reportText (dryRun : Bool) (t : FileTree) (r : Transfer.Report) : String :=
  reportLine r ++ "\n" ++ if dryRun then dryRunDiff t r else ""

/-- Runs something on the files and the network. -/
def onSession {α : Type}
    (work : Transfer.Session σ FileTree → α × Transfer.Session σ FileTree) : Action σ α := do
  let w ← get
  let (result, s) := work { model := w.wire, sink := w.files }
  set { w with wire := s.model, files := s.sink }
  return result

/-- A time in seconds with one decimal. -/
def secondsText (millis : Nat) : String :=
  let tenths := (millis + 50) / 100
  toString (tenths / 10) ++ "." ++ toString (tenths % 10) ++ "s"

/-- The readings of the clock as they stand in a report. -/
def clockFields (around : Surroundings σ) : List (String × Json) :=
  [("startedAt", .string around.startedAt), ("finishedAt", .string around.finishedAt),
   ("elapsedSecs", .number (.float (Number.Format.double.round false around.elapsedMillis 1000)))]

/-- Says what came of a batch. -/
def saySummary (around : Surroundings σ) (b : Transfer.BatchSummary) : Action σ Unit := do
  say ""
  say "✓ Transfer complete"
  say ("  Files:           " ++ toString b.files.length)
  say ("  Files processed: " ++ toString b.processed)
  if 0 < b.failed then say ("  Files failed:    " ++ toString b.failed) else pure ()
  say ("  Tokens used:     " ++ b.usage.describe)
  say ("  Elapsed:         " ++ secondsText around.elapsedMillis)

/-- Writes the report of a batch. -/
def writeReport (around : Surroundings σ) (b : Transfer.BatchSummary) (path : String) :
    Action σ Unit := do
  match ← change (around.storage.write · path (Json.pretty (b.toJson (clockFields around)))) with
  | .ok () => pure ()
  | .error e => throw ("writing report to " ++ path ++ ": " ++ chain (.io e))
  say ("  Report:          " ++ path)

/-- What is to be done to a folder, given a folder of Java sources: the job and its files, unless
there are none. -/
def plan (around : Surroundings σ) (javadocs runtime : String) (settings : RunSettings)
    (config : Config) : Action σ (Option (Transfer.Job σ FileTree × List String)) := do
  require ((← files).isFolder javadocs.toList) ("Java source directory not found: " ++ javadocs)
  require ((← files).isFolder runtime.toList) ("Runtime directory not found: " ++ runtime)
  let model ← service around settings config
  say ("→ Using " ++ model.provider ++ " model " ++ model.model)
  say ("→ Extracting Javadocs from " ++ javadocs ++ "...")
  let forest := Javadoc.extractFolder (← files) javadocs
  say ("  Found " ++ toString (JavaType.count forest) ++ " types in " ++
    toString (JavaType.countFiles forest) ++ " files")
  let paths := Transfer.collect (← files) runtime config.transfer.extensions config.transfer.exclude
  if paths.isEmpty then
    say ("⚠ No runtime files found in " ++ runtime)
    return none
  else
    say ("  Found " ++ toString paths.length ++ " runtime files")
    let chosen ← options settings config
    let dump ← dump settings config (some runtime)
    return some
      ({ service := model, storage := around.storage, options := chosen, forest,
         dryRun := settings.dryRun, dump }, paths)

/-- Documents files and says of each what became of it. -/
def documentFiles (job : Transfer.Job σ FileTree) (paths : List String) :
    Action σ Transfer.BatchSummary := do
  let (summary, reports) ← onSession fun s =>
    let batch := Transfer.transferFiles job
      (fun _ _ r t printed => printed ++ reportText job.dryRun t r) paths "" s
    ((batch.summary, batch.observed), batch.session)
  printText reports
  return summary

/-- Documents every file of a folder from a folder of Java sources; none when there is no file. -/
def documentFolder (around : Surroundings σ) (javadocs runtime : String) (settings : RunSettings)
    (config : Config) : Action σ (Option Transfer.BatchSummary) := do
  match ← plan around javadocs runtime settings config with
  | none => return none
  | some (job, paths) => return some (← documentFiles job paths)

/-- Documents every file of a folder, says what came of it and writes the report if there is to be
one. -/
def transfer (around : Surroundings σ) (javadocs runtime : String) (settings : RunSettings)
    (report : Option String) (config : Config) : Action σ Unit := do
  match ← documentFolder around javadocs runtime settings config with
  | none => pure ()
  | some summary =>
    saySummary around summary
    match report with
    | some path => writeReport around summary path
    | none => pure ()

/-- The documentation that was saved before. -/
def savedJavadocs (path : String) : Action σ (List JavaType) := do
  let found : Except Error (List JavaType) := match (← files).read path.toList with
    | .ok text => JavaType.load text
    | .error e => .error (.io e)
  match found with
  | .ok forest => return forest
  | .error e => throw ("reading " ++ path ++ " (run `docport extract` first): " ++ chain e)

/-- What is to be done to a file, given documentation that was saved before. -/
def planFile (around : Surroundings σ) (path : String) (javadocsJson : Option String)
    (settings : RunSettings) (config : Config) : Action σ (Transfer.Job σ FileTree) := do
  require ((← files).isFile path.toList) ("File not found: " ++ path)
  let saved := javadocsJson.getD config.javadocs
  let forest ← savedJavadocs saved
  say ("→ Loaded " ++ toString (JavaType.count forest) ++ " types from " ++ saved)
  let model ← service around settings config
  let chosen ← options settings config
  let dump ← dump settings config none
  return { service := model, storage := around.storage, options := chosen, forest,
           dryRun := settings.dryRun, dump }

/-- Documents one file from documentation that was saved before, and says what became of it. -/
def documentFile (around : Surroundings σ) (path : String) (javadocsJson : Option String)
    (settings : RunSettings) (config : Config) : Action σ Transfer.Report := do
  let job ← planFile around path javadocsJson settings config
  let report ← onSession (Transfer.transferFile job path)
  printText (reportText settings.dryRun (← files) report)
  say ("  Tokens used: " ++ report.usage.describe)
  return report

/-- Documents one file. When that fails, so does the command. -/
def file (around : Surroundings σ) (path : String) (javadocsJson : Option String)
    (settings : RunSettings) (config : Config) : Action σ Unit := do
  let report ← documentFile around path javadocsJson settings config
  match report.status with
  | .failed message => throw (path ++ ": " ++ message)
  | _ => pure ()

end DocTransfer.Command
