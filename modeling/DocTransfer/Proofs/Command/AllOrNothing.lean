import DocTransfer.Proofs.Command.Plan
import DocTransfer.Proofs.FileTree.Overwrite

/-! # A transfer fails before the first file or after the last

What can go wrong with a transfer as a whole is found out before a request is made. After that only
the report may fail; what goes wrong with a file is the file's own matter. -/

namespace DocTransfer

/-- A network that keeps a record of the requests it was sent. -/
def Model.Network.recorded {σ : Type} (network : Network σ) : Network (σ × List Request) :=
  fun (state, sent) request =>
    let (reply, state) := network state request
    (reply, state, sent ++ [request])

namespace Command

open Transfer

variable {σ : Type}

/-- The same surroundings with a record of requests. -/
def Surroundings.recorded (around : Surroundings σ) : Surroundings (σ × List Model.Request) where
  env := around.env
  network := around.network.recorded
  storage := around.storage
  startedAt := around.startedAt
  finishedAt := around.finishedAt
  elapsedMillis := around.elapsedMillis

theorem writeReport_fails {around : Surroundings σ} {b : BatchSummary} {path message : String}
    {w after : World σ} (h : outcome (writeReport around b path) w = (.error message, after)) :
    ∃ e, around.storage.write w.files path (Json.pretty (b.toJson (clockFields around))) =
        (.error e, after.files) ∧
      message = "writing report to " ++ path ++ ": " ++ chain (.io e) ∧ after.wire = w.wire := by
  unfold writeReport at h
  rw [outcome_bind, outcome_change] at h
  cases hwrite : around.storage.write w.files path
      (Json.pretty (b.toJson (clockFields around))) with
  | mk result written =>
      simp only [hwrite] at h
      cases result with
      | ok => cases h
      | error e =>
          cases h
          exact ⟨e, rfl, rfl, rfl⟩

/-- What comes after a batch fails only when its report cannot be written. -/
theorem reporting_fails {around : Surroundings σ} {b : BatchSummary} {report : Option String}
    {message : String} {w after : World σ}
    (h : outcome (do
      saySummary around b
      match report with
      | some path => writeReport around b path
      | none => pure ()) w = (.error message, after)) :
    ∃ path e, report = some path ∧
      around.storage.write w.files path (Json.pretty (b.toJson (clockFields around))) =
        (.error e, after.files) ∧
      message = "writing report to " ++ path ++ ": " ++ chain (.io e) ∧ after.wire = w.wire := by
  obtain ⟨result, printed, hsaid, rfl⟩ := saySummary_onlyPrints around b w
  rw [outcome_bind, hsaid] at h
  cases report with
  | none => cases h
  | some path =>
      obtain ⟨e, hwrite, hmessage, hwire⟩ := writeReport_fails h
      exact ⟨path, e, rfl, hwrite, hmessage, hwire⟩

/-- A transfer that fails was kept from starting, or has documented all files and could not write
its report. -/
theorem transfer_fails {around : Surroundings σ} {javadocs runtime : String}
    {settings : RunSettings} {report : Option String} {config : Config} {w after : World σ}
    {message : String}
    (h : outcome (transfer around javadocs runtime settings report config) w =
      (.error message, after)) :
    (Hindrance around.env w.files javadocs runtime settings config message ∧
      after.files = w.files ∧ after.wire = w.wire) ∨
    ∃ path access e, report = some path ∧ account around.env settings config = .ok access ∧
      let batch := w.batch
        (around.job settings config access (Javadoc.extractFolder w.files javadocs) (some runtime))
        (collect w.files runtime config.transfer.extensions config.transfer.exclude)
      around.storage.write batch.session.sink path
          (Json.pretty (batch.summary.toJson (clockFields around))) = (.error e, after.files) ∧
        message = "writing report to " ++ path ++ ": " ++ chain (.io e) ∧
        after.wire = batch.session.model := by
  unfold transfer at h
  rw [outcome_bind] at h
  obtain ⟨printed, ⟨cause, hcause, hfolder⟩ | ⟨-, hfolder⟩ | ⟨access, -, haccess, hfolder⟩⟩ :=
    documentFolder_cases around javadocs runtime settings config w
  · rw [hfolder] at h
    cases h
    exact .inl ⟨hcause, rfl, rfl⟩
  · rw [hfolder] at h
    cases h
  · rw [hfolder] at h
    obtain ⟨path, e, hreport, hwrite, hmessage, hwire⟩ := reporting_fails h
    exact .inr ⟨path, access, e, hreport, haccess, hwrite, hmessage, hwire⟩

/-! ## Command lines -/

/-- A command line asks for a transfer, and this is the configuration for it. -/
def AsksTransfer (env : Model.Environment) (args : List String) (tree : FileTree)
    (javadocs runtime : String) (settings : RunSettings) (report : Option String)
    (config : Config) : Prop :=
  ∃ i, parse env args = .ok i ∧ i.request = .transfer javadocs runtime settings report ∧
    Config.loadIfThere tree i.config = .ok config

/-- A command line asks for nothing but a transfer, if it can be read at all. -/
def OnlyTransfer (env : Model.Environment) (args : List String) : Prop :=
  ∀ i, parse env args = .ok i →
    ∃ javadocs runtime settings report, i.request = .transfer javadocs runtime settings report

/-- Why a command line starts no transfer, with what is said of it. -/
inductive Refused (env : Model.Environment) (args : List String) (tree : FileTree) :
    String → Prop where
  | unreadable (h : parse env args = .error .usage) : Refused env args tree helpText
  | unconfigured {i : Invocation} {e : Error} (hparse : parse env args = .ok i)
      (hconfig : Config.loadIfThere tree i.config = .error e) :
      Refused env args tree ("✗ " ++ chain e ++ "\n")
  | hindered {javadocs runtime : String} {settings : RunSettings} {report : Option String}
      {config : Config} {message : String}
      (hasks : AsksTransfer env args tree javadocs runtime settings report config)
      (hcause : Hindrance env tree javadocs runtime settings config message) :
      Refused env args tree ("✗ " ++ message ++ "\n")

/-- A command line that fails could not be read, or the command failed. -/
theorem run_fails {around : Surroundings σ} {args : List String} {tree after : FileTree}
    {wire line : σ} {result : Result} (h : run around args tree wire = (result, after, line))
    (hfails : result.status ≠ 0) :
    (parse around.env args = .error .usage ∧ result.failure = helpText ∧ after = tree ∧
      line = wire) ∨
    ∃ i message printed, parse around.env args = .ok i ∧
      outcome (perform around i) { files := tree, wire } =
        (.error message, ⟨after, line, printed⟩) ∧
      result.failure = "✗ " ++ message ++ "\n" := by
  unfold run at h
  split at h
  · next hparse =>
      cases h
      exact .inl ⟨hparse, rfl, rfl, rfl⟩
  · cases h
    exact absurd rfl hfails
  · cases h
    exact absurd rfl hfails
  · next i hparse =>
      split at h
      · cases h
        exact absurd rfl hfails
      · next message w houtcome =>
          cases h
          exact .inr ⟨i, message, w.printed, hparse, houtcome, rfl⟩

theorem perform_transfer_fails {around : Surroundings σ} {i : Invocation} {w after : World σ}
    {javadocs runtime : String} {settings : RunSettings} {report : Option String} {message : String}
    (hrequest : i.request = .transfer javadocs runtime settings report)
    (h : outcome (perform around i) w = (.error message, after)) :
    (∃ e, Config.loadIfThere w.files i.config = .error e ∧ message = chain e ∧ after = w) ∨
    ∃ config, Config.loadIfThere w.files i.config = .ok config ∧
      outcome (transfer around javadocs runtime settings report config) w =
        (.error message, after) := by
  unfold perform at h
  rw [outcome_files_bind] at h
  cases hconfig : Config.loadIfThere w.files i.config with
  | error e =>
      rw [hconfig] at h
      cases h
      exact .inl ⟨e, rfl, rfl, rfl⟩
  | ok config =>
      rw [hconfig, hrequest] at h
      exact .inr ⟨config, rfl, h⟩

/-- A transfer that ends in an error was refused before any request was sent and before any file was
touched, or it has worked through all the files it collected and then could not write its report. -/
theorem run_transfer_all_or_nothing (around : Surroundings σ) (args : List String)
    (tree after : FileTree) (wire : σ) (line : σ × List Model.Request) (result : Result)
    (honly : OnlyTransfer around.env args)
    (hrun : run around.recorded args tree (wire, []) = (result, after, line))
    (hfails : result.status ≠ 0) :
    (Refused around.env args tree result.failure ∧ after = tree ∧ line = (wire, [])) ∨
    ∃ javadocs runtime settings path config access e,
      AsksTransfer around.env args tree javadocs runtime settings (some path) config ∧
      account around.env settings config = .ok access ∧
      let paths := collect tree runtime config.transfer.extensions config.transfer.exclude
      let batch := World.batch { files := tree, wire := (wire, []) }
        (around.recorded.job settings config access (Javadoc.extractFolder tree javadocs)
          (some runtime)) paths
      batch.summary.files.map (·.path) = paths ∧ line = batch.session.model ∧
      around.storage.write batch.session.sink path
        (Json.pretty (batch.summary.toJson (clockFields around))) = (.error e, after) ∧
      result.failure = "✗ " ++ ("writing report to " ++ path ++ ": " ++ chain (.io e)) ++ "\n" := by
  obtain ⟨hparse, hfailure, rfl, rfl⟩ | ⟨i, message, printed, hparse, houtcome, hfailure⟩ :=
    run_fails hrun hfails
  · rw [hfailure]
    exact .inl ⟨.unreadable hparse, rfl, rfl⟩
  obtain ⟨javadocs, runtime, settings, report, hrequest⟩ := honly i hparse
  rw [hfailure]
  obtain ⟨e, hconfig, rfl, hafter⟩ | ⟨config, hconfig, htransfer⟩ :=
    perform_transfer_fails hrequest houtcome
  · cases hafter
    exact .inl ⟨.unconfigured hparse hconfig, rfl, rfl⟩
  -- From here on the configuration is known: what fails now is a check or the report.
  obtain ⟨hcause, hfiles, hwire⟩ | ⟨path, access, e, rfl, haccess, hwrite, rfl, hwire⟩ :=
    transfer_fails htransfer
  · exact .inl ⟨.hindered ⟨i, hparse, hrequest, hconfig⟩ hcause, hfiles, hwire⟩
  · exact .inr ⟨javadocs, runtime, settings, path, config, access, e,
      ⟨i, hparse, hrequest, hconfig⟩, haccess, batch_paths _ _ _, hwire, hwrite, rfl⟩

/-- A model that has an answer, and a file that cannot be written. -/
def lockedOut : Surroundings Unit where
  env := [(keyVariable, "k")]
  network := oneEdit
  storage := FileTree.guarded fun path =>
    if path = "cs/A.cs" then some (.other "Permission denied (os error 13)") else none

/-- A source beside one that is no text. -/
def unreadableTwin : FileTree :=
  .folder
    [("java", .folder [("A.java", .file (.text "package p; /** A. */ class A \x7b\x7d"))]),
     ("cs", .folder [("A.cs", .file (.text "class A \x7b\x7d")), ("B.cs", .file (.bytes [255]))])]

/-- A report is to go into a folder that is not there. -/
def reportNowhere : List String :=
  ["transfer", "--javadocs", "java", "--runtime=cs", "--matcher", "heuristic",
   "--report", "gone/report.json"]

theorem onlyTransfer_reportNowhere : OnlyTransfer lockedOut.env reportNowhere := by
  intro i hparse
  have hasks : parse lockedOut.env reportNowhere = .ok
      ⟨.transfer "java" "cs" { key := some "k", matcher := some .heuristic }
        (some "gone/report.json"), defaultConfig⟩ := rfl
  cases hasks.symm.trans hparse
  exact ⟨_, _, _, _, rfl⟩

/-- Both files fail, one of them after a request was sent, and the command fails for its report. -/
theorem run_transfer_all_or_nothing_reportNowhere :
    OnlyTransfer lockedOut.env reportNowhere ∧
    ∃ result after line,
      run lockedOut.recorded reportNowhere unreadableTwin ((), []) = (result, after, line) ∧
      result.status ≠ 0 ∧ line.2.length = 1 ∧
      ∃ javadocs runtime settings path config access e,
        AsksTransfer lockedOut.env reportNowhere unreadableTwin javadocs runtime settings
          (some path) config ∧
        account lockedOut.env settings config = .ok access ∧
        let paths :=
          collect unreadableTwin runtime config.transfer.extensions config.transfer.exclude
        let batch := World.batch { files := unreadableTwin, wire := ((), []) }
          (lockedOut.recorded.job settings config access
            (Javadoc.extractFolder unreadableTwin javadocs) (some runtime)) paths
        batch.summary.files.map (·.path) = paths ∧ line = batch.session.model ∧
        lockedOut.storage.write batch.session.sink path
          (Json.pretty (batch.summary.toJson (clockFields lockedOut))) = (.error e, after) ∧
        result.failure =
          "✗ " ++ ("writing report to " ++ path ++ ": " ++ chain (.io e)) ++ "\n" := by
  have hran : (fun r => r.1.status = 1 ∧ r.2.2.2.length = 1)
      (run lockedOut.recorded reportNowhere unreadableTwin ((), [])) := by
    decide +kernel
  refine ⟨onlyTransfer_reportNowhere, ?_⟩
  cases hrun : run lockedOut.recorded reportNowhere unreadableTwin ((), []) with
  | mk result rest =>
      obtain ⟨after, line⟩ := rest
      rw [hrun] at hran
      obtain ⟨hstatus, hlength⟩ := hran
      have hfails : result.status ≠ 0 := by
        rw [hstatus]
        decide
      refine ⟨result, after, line, rfl, hfails, hlength, ?_⟩
      obtain ⟨-, -, hline⟩ | hreport := run_transfer_all_or_nothing lockedOut reportNowhere
        unreadableTwin after () line result onlyTransfer_reportNowhere hrun hfails
      · rw [hline] at hlength
        cases hlength
      · exact hreport

end Command

end DocTransfer
