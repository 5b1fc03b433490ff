import DocTransfer.Proofs.Command.Plan
import DocTransfer.Proofs.FileTree.Create
import DocTransfer.Proofs.FileTree.Walk
import DocTransfer.Proofs.Javadoc.RoundTrip

/-! # Documentation that is saved and used later

What is extracted from a folder of sources can be loaded again where it was saved, and nothing else
in the tree has changed. So one file can be documented from it. -/

namespace DocTransfer.Command

open Transfer FileTree

variable {σ : Type}

/-! ## Saving -/

section

variable {around : Surroundings σ} (hstorage : around.storage = FileTree.storage)

include hstorage

theorem outcome_change_write (path text : String) (w : World σ) :
    outcome (change (around.storage.write · path text) : Action σ (Except IoError Unit)) w =
      match w.files.write path.toList text with
      | .ok files => (.ok (.ok ()), { w with files })
      | .error e => (.ok (.error e), w) := by
  rw [outcome_change, hstorage]
  simp only [FileTree.storage]
  cases w.files.write path.toList text <;> rfl

theorem makeParent_grows {path : String} {w after : World σ}
    (h : outcome (makeParent around path) w = (.ok (), after))
    (htop : w.files.node? [] = some none) (place : List String) :
    Grows place w.files after.files := by
  unfold makeParent at h
  split at h
  · next parent hparent =>
      rw [outcome_files_bind] at h
      split at h
      · cases h
        exact .refl place _
      · rw [outcome_bind, outcome_change, hstorage] at h
        simp only [FileTree.storage, String.toList_ofList] at h
        cases hmade : w.files.makeFolders parent with
        | error e =>
            rw [hmade] at h
            cases h
        | ok made =>
            rw [hmade] at h
            cases h
            exact makeFolders_grows htop hmade place
  · cases h
    exact .refl place _

/-- The documentation of a folder has been saved: it can be read where it was to go, and everything
else is as it was. -/
theorem extract_saved {javaDir : String} {output : Option String} {config : Config}
    {w after : World σ}
    (h : outcome (extract around javaDir output config) w = (.ok (), after)) :
    w.files.isFolder javaDir.toList = true ∧
    ∃ place, Grows place w.files after.files ∧
      after.files.fileAt? (output.getD config.javadocs).toList = some place ∧
      after.files.read (output.getD config.javadocs).toList =
        .ok (JavaType.save (Javadoc.extractFolder w.files javaDir)) := by
  unfold extract at h
  rw [outcome_files_bind, outcome_require_bind] at h
  cases hjava : w.files.isFolder javaDir.toList with
  | false =>
      rw [hjava] at h
      cases h
  | true =>
  rw [hjava, if_pos rfl, outcome_say_bind, outcome_files_bind] at h
  obtain ⟨_, made, hparent, h'⟩ := outcome_bind_eq_ok h
  obtain ⟨names, entries, hresolve, -, -⟩ := resolve_of_isFolder hjava
  have hmade (place : List String) : Grows place w.files made.files :=
    makeParent_grows hstorage hparent (node?_nil_of_resolve hresolve) place
  rw [outcome_bind, outcome_change_write hstorage] at h'
  refine ⟨rfl, ?_⟩
  cases hwrite : made.files.write (output.getD config.javadocs).toList
      (JavaType.save (Javadoc.extractFolder w.files javaDir)) with
  | error e =>
      rw [hwrite] at h'
      cases h'
  | ok files =>
      rw [hwrite] at h'
      cases h'
      obtain ⟨place, hgrows, hfile, hread, -⟩ := grows_of_write hwrite
      exact ⟨place, (hmade place).trans hgrows, hfile, hread⟩

end

/-! ## Using what was saved -/

section

variable {α : Type} {around : Surroundings σ} {settings : RunSettings} {config : Config}
  {access : Access} {w : World σ} {path : String} {javadocsJson : Option String} {text : String}
  {forest : List JavaType}

theorem onlyPrints_savedJavadocs {saved : String} {f : List JavaType → Action σ α}
    {post : Except String α → Prop} (hread : w.files.read saved.toList = .ok text)
    (hload : JavaType.load text = .ok forest) (h : OnlyPrints (f forest) w post) :
    OnlyPrints (savedJavadocs saved >>= f) w post := by
  have hsaved : outcome (savedJavadocs saved : Action σ (List JavaType)) w = (.ok forest, w) := by
    rw [savedJavadocs, outcome_files_bind]
    simp only [hread, hload]
    rfl
  obtain ⟨result, printed, houtcome, hpost⟩ := h
  refine ⟨result, printed, ?_, hpost⟩
  rw [outcome_bind, hsaved]
  exact houtcome

variable (hfile : w.files.isFile path.toList = true)
  (hread : w.files.read (javadocsJson.getD config.javadocs).toList = .ok text)
  (hload : JavaType.load text = .ok forest)
  (haccess : account around.env settings config = .ok access)
  (hpasses : settings.maxPasses ≠ some 0)

include hfile hread hload haccess hpasses

theorem planFile_onlyPrints :
    OnlyPrints (planFile around path javadocsJson settings config) w
      (· = .ok (around.job settings config access forest none)) := by
  apply onlyPrints_files
  apply onlyPrints_require _ fun h => absurd (hfile.symm.trans h) (by simp)
  intro _
  apply onlyPrints_savedJavadocs hread hload
  apply onlyPrints_say
  intro printed
  apply onlyPrints_service _ fun e h => absurd (haccess.symm.trans h) (by simp)
  intro access' haccess'
  obtain rfl : access = access' := Except.ok.inj (haccess.symm.trans haccess')
  apply onlyPrints_options _ fun h => absurd h hpasses
  intro _
  apply onlyPrints_dump
  intro printed
  exact onlyPrints_pure rfl

theorem outcome_documentFile :
    ∃ printed,
      let visit := transferFile (around.job settings config access forest none) path w.session
      outcome (documentFile around path javadocsJson settings config) w =
        (.ok visit.1, ⟨visit.2.sink, visit.2.model, printed⟩) := by
  obtain ⟨result, printed, hplan, rfl⟩ :=
    planFile_onlyPrints hfile hread hload haccess hpasses
  unfold documentFile
  simp only [outcome_bind, hplan]
  exact ⟨_, rfl⟩

end

/-- A file that fails makes the command fail, and no other difference. -/
theorem outcome_file_world (around : Surroundings σ) (path : String)
    (javadocsJson : Option String) (settings : RunSettings) (config : Config) (w : World σ) :
    (outcome (file around path javadocsJson settings config) w).2 =
      (outcome (documentFile around path javadocsJson settings config) w).2 := by
  unfold file
  rw [outcome_bind]
  cases outcome (documentFile around path javadocsJson settings config) w with
  | mk result after =>
      cases result with
      | error message => rfl
      | ok report =>
          dsimp only
          split <;> rfl

end DocTransfer.Command
