import DocTransfer.Proofs.Batch.Independence
import DocTransfer.Proofs.Command.Saving

/-! # Two ways to document a file

A file can be documented with all others of its folder, straight from the Java sources, or alone,
from documentation that was saved before. Both come to the same. -/

namespace DocTransfer.Command

open Transfer FileTree

variable {σ : Type}

/-- Two runs that go by the same account and the same options, and dump nothing. -/
structure SameRun (env : Model.Environment) (settings settings' : RunSettings)
    (config config' : Config) (access : Access) : Prop where
  connects : account env settings config = .ok access
  connects' : account env settings' config' = .ok access
  options : settings'.options config' = settings.options config
  passes : (settings.options config).maxPasses ≠ 0
  dryRun : settings'.dryRun = settings.dryRun
  noDumps : settings.debug = false
  noDumps' : settings'.debug = false

theorem RunSettings.maxPasses_ne {settings : RunSettings} {config : Config}
    (h : (settings.options config).maxPasses ≠ 0) : settings.maxPasses ≠ some 0 := by
  intro hzero
  exact h (by simp [RunSettings.options, hzero])

/-- A run on a tree, without dumps. -/
def Surroundings.plainJob (around : Surroundings σ) (settings : RunSettings) (config : Config)
    (access : Access) (forest : List JavaType) : Job σ FileTree :=
  (fileSystem fun _ => none).job (access.2.service access.1 around.network)
    (settings.options config) forest settings.dryRun

theorem job_eq_plainJob {around : Surroundings σ} (hstorage : around.storage = FileTree.storage)
    {settings : RunSettings} (hdebug : settings.debug = false) (config : Config) (access : Access)
    (forest : List JavaType) (root : Option String) :
    around.job settings config access forest root =
      around.plainJob settings config access forest := by
  simp only [Surroundings.job, Surroundings.plainJob, FileSystem.job, RunSettings.dumps, hstorage,
    hdebug, fileSystem_toStorage, Bool.false_eq_true, if_false]

theorem SameRun.plainJob_eq {env : Model.Environment} {settings settings' : RunSettings}
    {config config' : Config} {access : Access}
    (h : SameRun env settings settings' config config' access) (around : Surroundings σ)
    (forest : List JavaType) :
    around.plainJob settings' config' access forest =
      around.plainJob settings config access forest := by
  rw [Surroundings.plainJob, h.options, h.dryRun, Surroundings.plainJob]

/-! ## The whole folder -/

/-- In a folder every file gets the report and the content that it would get alone. -/
theorem documentFolder_alone {around : Surroundings σ} {javadocs runtime : String}
    {settings : RunSettings} {config : Config} {access : Access} {w : World σ}
    (hstorage : around.storage = FileTree.storage) (hnames : w.files.WellNamed)
    (haccess : account around.env settings config = .ok access)
    (hpasses : settings.maxPasses ≠ some 0) (hdebug : settings.debug = false)
    (hstateless : Stateless (access.2.service access.1 around.network))
    (hjava : w.files.isFolder javadocs.toList = true)
    (hruntime : w.files.isFolder runtime.toList = true)
    (hne : collect w.files runtime config.transfer.extensions config.transfer.exclude ≠ []) :
    ∃ summary midway,
      outcome (documentFolder around javadocs runtime settings config) w =
        (.ok (some summary), midway) ∧
      let paths := collect w.files runtime config.transfer.extensions config.transfer.exclude
      let alone path := transferFile
        (around.plainJob settings config access (Javadoc.extractFolder w.files javadocs)) path
        w.session
      summary.files = paths.map (fun path => (alone path).1) ∧
      (∀ path : String, midway.files.fileAt? path.toList = w.files.fileAt? path.toList) ∧
      ∀ path ∈ paths, ∀ names, w.files.fileAt? path.toList = some names →
        midway.files.contentAt? names = (alone path).2.sink.contentAt? names := by
  obtain ⟨printed, hfolder⟩ := outcome_documentFolder hjava hruntime haccess hpasses hne
  obtain ⟨hdistinct, -⟩ := collect_files hnames hruntime config.transfer.extensions
    config.transfer.exclude
  rw [job_eq_plainJob hstorage hdebug] at hfolder
  refine ⟨_, _, hfolder, ?_⟩
  have hself (path : String) :
      (fileSystem fun _ => none).SameAt path w.session.sink w.session.sink :=
    ⟨rfl, rfl, fun _ _ => rfl⟩
  obtain ⟨hreports, hcontents⟩ := afterFiles_alone (fileSystem fun _ => none)
    (settings.options config) (Javadoc.extractFolder w.files javadocs) settings.dryRun hstateless
    (fun path _ => writesByPath_fileSystem _ path) hdistinct fun path _ => hself path
  have hframe := afterFiles_frame (fileSystem fun _ => none)
    (access.2.service access.1 around.network) (settings.options config)
    (Javadoc.extractFolder w.files javadocs) settings.dryRun
    (collect w.files runtime config.transfer.extensions config.transfer.exclude) w.session
  simp only [World.batch, transferFiles_eq]
  exact ⟨hreports, hframe.fileAt, hcontents⟩

/-! ## The file alone -/

/-- From documentation that was saved a file gets what it would get where that is not saved. -/
theorem documentFile_alone {around : Surroundings σ} {path : String} {javadocsJson : Option String}
    {settings : RunSettings} {config : Config} {access : Access} {forest : List JavaType}
    {w saved : World σ} {names place : List String}
    (hstorage : around.storage = FileTree.storage)
    (haccess : account around.env settings config = .ok access)
    (hpasses : settings.maxPasses ≠ some 0) (hdebug : settings.debug = false)
    (hstateless : Stateless (access.2.service access.1 around.network))
    (hgrows : Grows place w.files saved.files) (hne : names ≠ place)
    (hfile : w.files.fileAt? path.toList = some names)
    (hread : saved.files.read (javadocsJson.getD config.javadocs).toList =
      .ok (JavaType.save forest))
    (hdepth : (Json.array (JavaType.toJsonAll forest)).depth ≤ Json.maxDepth) :
    ∃ midway,
      let alone := transferFile (around.plainJob settings config access forest) path w.session
      outcome (documentFile around path javadocsJson settings config) saved =
        (.ok alone.1, midway) ∧
      midway.files.fileAt? path.toList = some names ∧
      midway.files.contentAt? names = alone.2.sink.contentAt? names := by
  have hload : JavaType.load (JavaType.save forest) = .ok forest := by
    rw [JavaType.load_saved, if_pos hdepth]
  have hfile' : saved.files.fileAt? path.toList = some names := hgrows.fileAt? hfile
  obtain ⟨-, ⟨c, hnode⟩, -⟩ := fileAt?_eq_some_iff.mp hfile'
  have hisFile : saved.files.isFile path.toList = true := by
    have hcontent : saved.files.contentAt? names = some c := by simp [contentAt?, hnode]
    simp [isFile, at?_of_fileAt? hfile' hcontent]
  obtain ⟨printed, hdone⟩ := outcome_documentFile hisFile hread hload haccess hpasses
  rw [job_eq_plainJob hstorage hdebug] at hdone
  have hsame : (fileSystem fun _ => none).SameAt path saved.session.sink w.session.sink :=
    hgrows.sameAt hfile hne _
  obtain ⟨hreport, hcontent⟩ := transferFile_of_sameAt (fileSystem fun _ => none)
    (settings.options config) forest settings.dryRun hstateless (writesByPath_fileSystem _ path)
    hsame
  have hframe := transferFile_frame (fileSystem fun _ => none)
    (access.2.service access.1 around.network) (settings.options config) forest settings.dryRun
    path saved.session
  refine ⟨_, hdone.trans (congrArg (fun r => (Except.ok r, _)) hreport), ?_, ?_⟩
  · exact (hframe.fileAt path).trans hfile'
  · exact hcontent names hfile

/-! ## Both -/

/-- What a transfer leaves in a file that its report does not go to. -/
theorem transfer_at? {around : Surroundings σ} (hstorage : around.storage = FileTree.storage)
    {javadocs runtime : String} {settings : RunSettings} {report : Option String} {config : Config}
    {w midway : World σ} {summary : BatchSummary}
    (h : outcome (documentFolder around javadocs runtime settings config) w =
      (.ok (some summary), midway))
    {path : List Char} {names : List String} {c : Content}
    (hfile : midway.files.fileAt? path = some names)
    (hcontent : midway.files.contentAt? names = some c)
    (hreport : ∀ other ∈ report, midway.files.fileAt? other.toList ≠ some names) :
    (outcome (transfer around javadocs runtime settings report config) w).2.files.at? path =
      .ok (.file c) := by
  have hmidway : midway.files.at? path = .ok (.file c) := at?_of_fileAt? hfile hcontent
  obtain ⟨result, printed, hsaid, rfl⟩ := saySummary_onlyPrints around summary midway
  unfold transfer
  rw [outcome_bind, h]
  dsimp only
  rw [outcome_bind, hsaid]
  cases report with
  | none => exact hmidway
  | some other =>
      dsimp only
      rw [writeReport, outcome_bind, outcome_change_write hstorage]
      dsimp only
      cases hwrite : midway.files.write other.toList
          (Json.pretty (summary.toJson (clockFields around))) with
      | error e => exact hmidway
      | ok written =>
          obtain ⟨place, hgrows, -, -, hover⟩ := grows_of_write hwrite
          have hnode : midway.files.node? names = some (some c) :=
            Option.join_eq_some_iff.mp hcontent
          have hne : names ≠ place := by
            rintro rfl
            exact hreport other rfl (hover c hnode)
          apply at?_of_fileAt? (hgrows.fileAt? hfile)
          rw [contentAt?, hgrows.kept hne hnode]
          rfl

/-- Extracting documentation and documenting one file from it gives the report that the file gets
when its whole folder is documented, and leaves the same in the file: for runs that go by the same
account and options, a model whose answers depend on the prompt alone, and documentation that can be
saved and is saved elsewhere than in the file. -/
theorem workflows_agree (around : Surroundings σ) (javadocs runtime path : String)
    (output javadocsJson report : Option String) (settings settings' : RunSettings)
    (config config' : Config) (access : Access) (w saved : World σ)
    (hstorage : around.storage = FileTree.storage) (hnames : w.files.WellNamed)
    (hsame : SameRun around.env settings settings' config config' access)
    (hstateless : Stateless (access.2.service access.1 around.network))
    (hruntime : w.files.isFolder runtime.toList = true)
    (hpath : path ∈ collect w.files runtime config.transfer.extensions config.transfer.exclude)
    (hdepth : (Json.array (JavaType.toJsonAll (Javadoc.extractFolder w.files javadocs))).depth ≤
      Json.maxDepth)
    (hextract : outcome (extract around javadocs output config') w = (.ok (), saved))
    (hjson : javadocsJson.getD config'.javadocs = output.getD config'.javadocs)
    (helsewhere : saved.files.fileAt? (output.getD config'.javadocs).toList ≠
      saved.files.fileAt? path.toList)
    (hreport : ∀ other ∈ report, w.files.fileAt? other.toList ≠ w.files.fileAt? path.toList) :
    ∃ summary found midway midway' content,
      outcome (documentFolder around javadocs runtime settings config) w =
        (.ok (some summary), midway) ∧
      outcome (documentFile around path javadocsJson settings' config') saved =
        (.ok found, midway') ∧
      found ∈ summary.files ∧ (∀ r ∈ summary.files, r.path = path ↔ r = found) ∧
      (outcome (transfer around javadocs runtime settings report config) w).2.files.at?
        path.toList = .ok (.file content) ∧
      (outcome (file around path javadocsJson settings' config') saved).2.files.at?
        path.toList = .ok (.file content) := by
  obtain ⟨hjava, place, hgrows, hplace, hread⟩ := extract_saved hstorage hextract
  obtain ⟨names, hfile⟩ := (collect_files hnames hruntime config.transfer.extensions
    config.transfer.exclude).2 path hpath
  -- Saving has not touched the file, so it sees what it saw before.
  have hne : names ≠ place := by
    rintro rfl
    exact helsewhere (hplace.trans (hgrows.fileAt? hfile).symm)
  have hpasses : settings.maxPasses ≠ some 0 := RunSettings.maxPasses_ne hsame.passes
  have hpasses' : settings'.maxPasses ≠ some 0 :=
    RunSettings.maxPasses_ne (by rw [hsame.options]; exact hsame.passes)
  obtain ⟨summary, midway, hfolder, hreports, hfiles, hcontents⟩ :=
    documentFolder_alone hstorage hnames hsame.connects hpasses hsame.noDumps hstateless hjava
      hruntime (List.ne_nil_of_mem hpath)
  obtain ⟨midway', hone, hfile', hcontent'⟩ :=
    documentFile_alone hstorage hsame.connects' hpasses' hsame.noDumps' hstateless hgrows hne hfile
      (by rw [hjson]; exact hread) hdepth
  rw [hsame.plainJob_eq] at hone hcontent'
  -- Both runs leave in the file what its own transfer leaves there.
  obtain ⟨-, ⟨content, hnode⟩, -⟩ := fileAt?_eq_some_iff.mp hfile'
  have hafter' : midway'.files.contentAt? names = some content := by simp [contentAt?, hnode]
  have hafter : midway.files.contentAt? names = some content := by
    rw [hcontents path hpath names hfile, ← hcontent', hafter']
  refine ⟨summary, _, midway, midway', content, hfolder, hone, ?_, ?_, ?_, ?_⟩
  · rw [hreports]
    exact List.mem_map_of_mem hpath
  · intro r hr
    rw [hreports] at hr
    obtain ⟨other, -, rfl⟩ := List.mem_map.mp hr
    constructor
    · intro hother
      rw [transferFile_path] at hother
      rw [hother]
    · intro hsameReport
      rw [hsameReport, transferFile_path]
  · apply transfer_at? hstorage hfolder ((hfiles path).trans hfile) hafter
    intro other hother
    rw [hfiles, ← hfile]
    exact hreport other hother
  · rw [outcome_file_world, hone]
    exact at?_of_fileAt? hfile' hafter'

/-! ## Twins -/

/-- A key for the default model, and a network with one answer. -/
def keyed : Surroundings Unit where
  env := [("ANTHROPIC_API_KEY", "k")]
  network := oneEdit

/-- Two sources that declare the same class. -/
def twins : World Unit where
  files := .folder
    [("java", .folder [("A.java", .file (.text "package p; /** A. */ class A \x7b\x7d"))]),
     ("cs", .folder
       [("A.cs", .file (.text "class A \x7b\x7d")), ("B.cs", .file (.text "class A \x7b\x7d"))])]
  wire := ()

/-- One pass with types matched by name, as settings say. -/
def inSettings : RunSettings :=
  { matcher := some .heuristic, maxPasses := some 1 }

/-- The same, as a configuration says. -/
def inConfig : Config :=
  { transfer := { matcher := .heuristic, maxPasses := 1 } }

/-- The account that both come to. -/
def keyedAccess : Access :=
  (.anthropic,
    { key := "k", model := "claude-3-7-sonnet-latest"
      temperature := Number.Format.single.round false 7 10
      maxOutputTokens := 64000, timeoutSecs := 600 })

theorem twins_wellNamed : twins.files.WellNamed := by
  refine .folder (by decide) (by decide) ?_
  rw [List.forall_mem_cons, List.forall_mem_singleton]
  constructor
  · refine .folder (by decide) (by decide) ?_
    rw [List.forall_mem_singleton]
    exact .file _
  · refine .folder (by decide) (by decide) ?_
    rw [List.forall_mem_cons, List.forall_mem_singleton]
    exact ⟨.file _, .file _⟩

theorem sameRun_twins : SameRun keyed.env inSettings {} {} inConfig keyedAccess where
  connects := by rfl
  connects' := by rfl
  options := rfl
  passes := by decide
  dryRun := rfl
  noDumps := rfl
  noDumps' := rfl

/-- One twin is documented alone after the other has been documented before it. -/
theorem workflows_agree_twins :
    twins.files.WellNamed ∧ SameRun keyed.env inSettings {} {} inConfig keyedAccess ∧
    Stateless (keyedAccess.2.service keyedAccess.1 keyed.network) ∧
    twins.files.isFolder "cs".toList = true ∧
    "cs/B.cs" ∈ collect twins.files "cs" defaultExtensions defaultExclude ∧
    (Json.array (JavaType.toJsonAll (Javadoc.extractFolder twins.files "java"))).depth ≤
      Json.maxDepth ∧
    (∀ other ∈ some "report.json",
      twins.files.fileAt? other.toList ≠ twins.files.fileAt? "cs/B.cs".toList) ∧
    ∃ saved,
      outcome (extract keyed "java" (some "out/docs.json") inConfig) twins = (.ok (), saved) ∧
      saved.files.fileAt? "out/docs.json".toList ≠ saved.files.fileAt? "cs/B.cs".toList ∧
      ∃ summary found midway midway' content,
        outcome (documentFolder keyed "java" "cs" inSettings {}) twins =
          (.ok (some summary), midway) ∧
        outcome (documentFile keyed "cs/B.cs" (some "out/docs.json") {} inConfig) saved =
          (.ok found, midway') ∧
        found ∈ summary.files ∧ (∀ r ∈ summary.files, r.path = "cs/B.cs" ↔ r = found) ∧
        (outcome (transfer keyed "java" "cs" inSettings (some "report.json") {}) twins).2.files.at?
          "cs/B.cs".toList = .ok (.file content) ∧
        (outcome (file keyed "cs/B.cs" (some "out/docs.json") {} inConfig) saved).2.files.at?
          "cs/B.cs".toList = .ok (.file content) := by
  have hstateless : Stateless (keyedAccess.2.service keyedAccess.1 keyed.network) :=
    fun _ _ _ _ => rfl
  have hruntime : twins.files.isFolder "cs".toList = true := by decide +kernel
  have hpath : "cs/B.cs" ∈ collect twins.files "cs" defaultExtensions defaultExclude := by
    decide +kernel
  have hdepth : (Json.array (JavaType.toJsonAll
      (Javadoc.extractFolder twins.files "java"))).depth ≤ Json.maxDepth := by
    decide +kernel
  have hreport : ∀ other ∈ some "report.json",
      twins.files.fileAt? other.toList ≠ twins.files.fileAt? "cs/B.cs".toList := by
    decide +kernel
  have hran : (fun r => r.1.isOk = true ∧
      r.2.files.fileAt? "out/docs.json".toList ≠ r.2.files.fileAt? "cs/B.cs".toList)
      (outcome (extract keyed "java" (some "out/docs.json") inConfig) twins) := by
    decide +kernel
  refine ⟨twins_wellNamed, sameRun_twins, hstateless, hruntime, hpath, hdepth, hreport, ?_⟩
  cases hextract : outcome (extract keyed "java" (some "out/docs.json") inConfig) twins with
  | mk result saved =>
      rw [hextract] at hran
      obtain ⟨hok, helsewhere⟩ := hran
      cases result with
      | error message => cases hok
      | ok =>
          refine ⟨saved, rfl, helsewhere, ?_⟩
          exact workflows_agree keyed "java" "cs" "cs/B.cs" (some "out/docs.json")
            (some "out/docs.json") (some "report.json") inSettings {} {} inConfig keyedAccess twins
            saved rfl twins_wellNamed sameRun_twins hstateless hruntime hpath hdepth hextract rfl
            helsewhere hreport

end DocTransfer.Command
