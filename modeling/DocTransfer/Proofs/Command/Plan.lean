import DocTransfer.Proofs.Batch.Run
import DocTransfer.Proofs.Command.Action

/-! # What a transfer sets out to do

Before the first file is touched, a transfer looks at its folders, its account and its settings. All
of that only reads and prints: it ends in a plan, or with one of a few messages. -/

namespace DocTransfer.Command

open Transfer

variable {σ : Type}

/-- The provider and account of a run. -/
abbrev Access := Model.Provider × Model.Account

/-- Where the dumps of a run go, if there are to be any. -/
def RunSettings.dumps (settings : RunSettings) (config : Config) (root : Option String) :
    Option Dump :=
  if settings.debug then some { dir := config.transfer.debugDir, root } else none

/-- What a run of these settings does to a file. Below a root dumps are laid out as the files are. -/
def Surroundings.job (around : Surroundings σ) (settings : RunSettings) (config : Config)
    (access : Access) (forest : List JavaType) (root : Option String) : Job σ FileTree :=
  { service := access.2.service access.1 around.network
    storage := around.storage
    options := settings.options config
    forest
    dryRun := settings.dryRun
    dump := settings.dumps config root }

/-- What keeps a transfer from starting, with what is said then. -/
inductive Hindrance (env : Model.Environment) (tree : FileTree) (javadocs runtime : String)
    (settings : RunSettings) (config : Config) : String → Prop where
  | noSources (h : tree.isFolder javadocs.toList = false) :
      Hindrance env tree javadocs runtime settings config
        ("Java source directory not found: " ++ javadocs)
  | noRuntime (h : tree.isFolder runtime.toList = false) :
      Hindrance env tree javadocs runtime settings config
        ("Runtime directory not found: " ++ runtime)
  | noAccess {e : Error} (h : account env settings config = .error e) :
      Hindrance env tree javadocs runtime settings config (chain e)
  | noPasses (h : settings.maxPasses = some 0) :
      Hindrance env tree javadocs runtime settings config "--max-passes must be at least 1"

section

variable {α : Type} {around : Surroundings σ} {settings : RunSettings} {config : Config}
  {w : World σ} {post : Except String α → Prop}

theorem onlyPrints_service {f : Model.Service σ → Action σ α}
    (hok : ∀ access, account around.env settings config = .ok access →
      OnlyPrints (f (access.2.service access.1 around.network)) w post)
    (herror : ∀ e, account around.env settings config = .error e → post (.error (chain e))) :
    OnlyPrints (service around settings config >>= f) w post := by
  unfold service
  rw [bind_assoc]
  apply onlyPrints_orFail _ herror
  intro access haccess
  exact hok access haccess

theorem onlyPrints_options {f : Options → Action σ α}
    (hok : settings.maxPasses ≠ some 0 → OnlyPrints (f (settings.options config)) w post)
    (herror : settings.maxPasses = some 0 → post (.error "--max-passes must be at least 1")) :
    OnlyPrints (options settings config >>= f) w post := by
  unfold options
  rw [bind_assoc]
  apply onlyPrints_require
  · intro hpasses
    exact hok (by simpa using hpasses)
  · intro hpasses
    exact herror (by simpa using hpasses)

theorem onlyPrints_dump {root : Option String} {f : Option Dump → Action σ α}
    (h : ∀ printed, OnlyPrints (f (settings.dumps config root)) { w with printed } post) :
    OnlyPrints (dump settings config root >>= f) w post := by
  unfold dump RunSettings.dumps at *
  cases hdebug : settings.debug with
  | false =>
      simp only [hdebug, Bool.false_eq_true, if_false, pure_bind] at h ⊢
      exact h w.printed
  | true =>
      simp only [hdebug, if_true, bind_assoc, pure_bind] at h ⊢
      exact onlyPrints_say h

end

/-- A transfer is kept from starting, or finds no files, or has a plan for those it finds. -/
theorem plan_onlyPrints (around : Surroundings σ) (javadocs runtime : String)
    (settings : RunSettings) (config : Config) (w : World σ) :
    OnlyPrints (plan around javadocs runtime settings config) w fun
      | .error message => Hindrance around.env w.files javadocs runtime settings config message
      | .ok none =>
        collect w.files runtime config.transfer.extensions config.transfer.exclude = []
      | .ok (some planned) =>
        settings.maxPasses ≠ some 0 ∧
        ∃ access, account around.env settings config = .ok access ∧
          planned = (around.job settings config access (Javadoc.extractFolder w.files javadocs)
            (some runtime),
            collect w.files runtime config.transfer.extensions config.transfer.exclude) := by
  -- The checks in their order; whichever fails first is the hindrance.
  apply onlyPrints_files
  apply onlyPrints_require _ Hindrance.noSources
  intro hjava
  apply onlyPrints_files
  apply onlyPrints_require _ Hindrance.noRuntime
  intro hruntime
  apply onlyPrints_service _ fun e => Hindrance.noAccess
  intro access haccess
  apply onlyPrints_say
  intro printed
  apply onlyPrints_say
  intro printed
  apply onlyPrints_files
  apply onlyPrints_say
  intro printed
  apply onlyPrints_files
  dsimp only
  split
  · next hempty =>
      apply onlyPrints_say
      intro printed
      exact onlyPrints_pure (List.isEmpty_iff.mp hempty)
  · apply onlyPrints_say
    intro printed
    apply onlyPrints_options _ Hindrance.noPasses
    intro hpasses
    apply onlyPrints_dump
    intro printed
    exact onlyPrints_pure ⟨hpasses, access, haccess, rfl⟩

/-! ## Carrying it out -/

/-- The work on files as it begins in a world. -/
def World.session (w : World σ) : Session σ FileTree :=
  { model := w.wire, sink := w.files }

/-- Files documented in a world, with what is printed about them. -/
def World.batch (w : World σ) (job : Job σ FileTree) (paths : List String) :
    Batch σ FileTree String :=
  transferFiles job (fun _ _ r t printed => printed ++ reportText job.dryRun t r) paths ""
    w.session

theorem batch_paths (w : World σ) (job : Job σ FileTree) (paths : List String) :
    (w.batch job paths).summary.files.map (·.path) = paths := by
  rw [World.batch, transferFiles_eq]
  exact reports_path job paths _

/-- What becomes of a folder: what the plan says, and all of it. -/
theorem documentFolder_cases (around : Surroundings σ) (javadocs runtime : String)
    (settings : RunSettings) (config : Config) (w : World σ) :
    ∃ printed,
    (∃ message, Hindrance around.env w.files javadocs runtime settings config message ∧
      outcome (documentFolder around javadocs runtime settings config) w =
        (.error message, { w with printed })) ∨
    (collect w.files runtime config.transfer.extensions config.transfer.exclude = [] ∧
      outcome (documentFolder around javadocs runtime settings config) w =
        (.ok none, { w with printed })) ∨
    ∃ access, settings.maxPasses ≠ some 0 ∧ account around.env settings config = .ok access ∧
      let batch := w.batch
        (around.job settings config access (Javadoc.extractFolder w.files javadocs) (some runtime))
        (collect w.files runtime config.transfer.extensions config.transfer.exclude)
      outcome (documentFolder around javadocs runtime settings config) w =
        (.ok (some batch.summary), ⟨batch.session.sink, batch.session.model, printed⟩) := by
  obtain ⟨result, printed, houtcome, hpost⟩ :=
    plan_onlyPrints around javadocs runtime settings config w
  unfold documentFolder
  rw [outcome_bind, houtcome]
  cases result with
  | error message => exact ⟨printed, .inl ⟨message, hpost, rfl⟩⟩
  | ok planned =>
      cases planned with
      | none => exact ⟨printed, .inr (.inl ⟨hpost, rfl⟩)⟩
      | some planned =>
          obtain ⟨hpasses, access, haccess, rfl⟩ := hpost
          exact ⟨_, .inr (.inr ⟨access, hpasses, haccess, rfl⟩)⟩

/-- Where nothing is in the way, every file found is worked on. -/
theorem outcome_documentFolder {around : Surroundings σ} {javadocs runtime : String}
    {settings : RunSettings} {config : Config} {access : Access} {w : World σ}
    (hjava : w.files.isFolder javadocs.toList = true)
    (hruntime : w.files.isFolder runtime.toList = true)
    (haccess : account around.env settings config = .ok access)
    (hpasses : settings.maxPasses ≠ some 0)
    (hne : collect w.files runtime config.transfer.extensions config.transfer.exclude ≠ []) :
    ∃ printed,
      let batch := w.batch
        (around.job settings config access (Javadoc.extractFolder w.files javadocs) (some runtime))
        (collect w.files runtime config.transfer.extensions config.transfer.exclude)
      outcome (documentFolder around javadocs runtime settings config) w =
        (.ok (some batch.summary), ⟨batch.session.sink, batch.session.model, printed⟩) := by
  obtain ⟨printed, ⟨message, hcause, -⟩ | ⟨hnone, -⟩ | ⟨access', -, haccess', hfolder⟩⟩ :=
    documentFolder_cases around javadocs runtime settings config w
  · cases hcause with
    | noSources h => exact absurd (hjava.symm.trans h) (by simp)
    | noRuntime h => exact absurd (hruntime.symm.trans h) (by simp)
    | noAccess h => exact absurd (haccess.symm.trans h) (by simp)
    | noPasses h => exact absurd h hpasses
  · exact absurd hnone hne
  · obtain rfl : access = access' := Except.ok.inj (haccess.symm.trans haccess')
    exact ⟨printed, hfolder⟩

theorem saySummary_onlyPrints (around : Surroundings σ) (b : BatchSummary) (w : World σ) :
    OnlyPrints (saySummary around b) w (· = .ok ()) := by
  unfold saySummary
  iterate 4
    apply onlyPrints_say
    intro printed
  dsimp only
  split
  · iterate 2
      apply onlyPrints_say
      intro printed
    exact ⟨.ok (), _, rfl, rfl⟩
  · apply onlyPrints_say
    intro printed
    exact ⟨.ok (), _, rfl, rfl⟩

/-- A network where the same edit comes back whatever is asked. -/
def oneEdit : Model.Network Unit := fun s _ =>
  (.status 200 ("\x7b\"content\":[\x7b\"type\":\"text\",\"text\":\"" ++
    "[\x7b\\\"oldString\\\":\\\"class A\\\",\\\"newString\\\":\\\"/// A.\\\\nclass A\\\"\x7d]" ++
    "\"\x7d]\x7d"), s)

end DocTransfer.Command
