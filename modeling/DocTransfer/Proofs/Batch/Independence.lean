import DocTransfer.Proofs.Batch.Frame
import DocTransfer.Proofs.FileTree.Overwrite

/-! # The files of a batch do not touch each other

When answers depend on the prompt alone and writing on the path alone, each file of a batch comes
out as if it were the only one, and so the order of the files does not matter. -/

namespace DocTransfer.Transfer

open Model

variable {σ φ ι π : Type}

/-- The answer to a prompt does not depend on what was asked before. -/
def Stateless (service : Service σ) : Prop :=
  ∀ state state' prompt json,
    (service.complete state prompt json).1 = (service.complete state' prompt json).1

theorem ask_of_stateless {service : Service σ} (h : Stateless service) (sink : Sink φ)
    (label prompt : String) {s s' : Session σ φ} (husage : s.usage = s'.usage) :
    (ask service sink label prompt s).1 = (ask service sink label prompt s').1 ∧
      (ask service sink label prompt s).2.usage = (ask service sink label prompt s').2.usage := by
  have hreply := h s.model s'.model prompt false
  unfold ask
  generalize service.complete s.model prompt false = x at hreply ⊢
  generalize service.complete s'.model prompt false = y at hreply ⊢
  obtain ⟨reply, model⟩ := x
  obtain ⟨reply', model'⟩ := y
  obtain rfl : reply = reply' := hreply
  cases reply with
  | error e => exact ⟨rfl, husage⟩
  | ok a => exact ⟨rfl, by simp [husage]⟩

section

variable (fs : FileSystem φ ι) {service : Service σ} (options : Options) (forest : List JavaType)
  (dryRun : Bool)

/-! ## One file -/

/-- Sessions that have spent the same on a file with the same content. -/
structure Alike (path : String) (i : ι) (s s' : Session σ φ) : Prop where
  usage : s.usage = s'.usage
  file : fs.fileAt? s.sink path = some i
  file' : fs.fileAt? s'.sink path = some i
  content : fs.content? s.sink i = fs.content? s'.sink i

theorem Alike.store {path : String} (hwrites : fs.WritesByPath path) {i : ι} {s s' : Session σ φ}
    (h : Alike fs path i s s') (text : String) :
    Agree (Alike fs path i)
      (store ((fs.job service options forest dryRun).sink path) text s)
      (Transfer.store ((fs.job service options forest dryRun).sink path) text s') := by
  rw [store_eq, store_eq]
  cases dryRun with
  | true => exact ⟨rfl, h.usage, h.file, h.file', h.content⟩
  | false =>
      rw [sink_store_real, sink_store_real, hwrites.verdict text text h.file h.file']
      refine ⟨rfl, h.usage, ?_, ?_, hwrites.content text h.file h.file' h.content⟩
      · exact (fs.fileAt_write text path h.file).trans h.file
      · exact (fs.fileAt_write text path h.file').trans h.file'

theorem lockstep_alike (hstateless : Stateless service) {path : String}
    (hwrites : fs.WritesByPath path) (i : ι) :
    Lockstep service ((fs.job service options forest dryRun).sink path)
      service ((fs.job service options forest dryRun).sink path) (Alike fs path i) where
  ask {s s'} label prompt h := by
    obtain ⟨hresult, husage⟩ := ask_of_stateless hstateless
      ((fs.job service options forest dryRun).sink path) label prompt h.usage
    refine ⟨hresult, husage, ?_, ?_, ?_⟩
    · rw [ask_sink fun _ _ _ => rfl, h.file]
    · rw [ask_sink fun _ _ _ => rfl, h.file']
    · rw [ask_sink fun _ _ _ => rfl, ask_sink fun _ _ _ => rfl, h.content]
  store text h := h.store fs options forest dryRun hwrites text

/-- A file comes out the same wherever its path sees the same. -/
theorem transferFile_of_sameAt (hstateless : Stateless service) {path : String}
    (hwrites : fs.WritesByPath path) {s s' : Session σ φ}
    (hsame : fs.SameAt path s.sink s'.sink) :
    (transferFile (fs.job service options forest dryRun) path s).1 =
        (transferFile (fs.job service options forest dryRun) path s').1 ∧
      ∀ i, fs.fileAt? s'.sink path = some i →
        fs.content? (transferFile (fs.job service options forest dryRun) path s).2.sink i =
          fs.content? (transferFile (fs.job service options forest dryRun) path s').2.sink i := by
  rw [transferFile_job, transferFile_job, hsame.read]
  cases hread : fs.read s'.sink path with
  | error e => exact ⟨rfl, hsame.content⟩
  | ok source =>
      obtain ⟨i, hfile, -⟩ := fs.file_of_read hread
      have halike : Alike fs path i { s with usage := {} } { s' with usage := {} } :=
        ⟨rfl, hsame.fileAt.trans hfile, hfile, hsame.content i hfile⟩
      obtain ⟨hreport, hafter⟩ :=
        (lockstep_alike fs options forest dryRun hstateless hwrites i).transferSource
          Alike.usage options forest source path halike
      refine ⟨hreport, ?_⟩
      intro j hj
      obtain rfl : i = j := Option.some.inj (hfile.symm.trans hj)
      exact hafter.content

/-! ## Many files -/

/-- In a batch each file comes out as it would alone. -/
theorem afterFiles_alone (hstateless : Stateless service) {paths : List String}
    (hwrites : ∀ path ∈ paths, fs.WritesByPath path) {s alone : Session σ φ}
    (hdistinct : fs.Distinct s.sink paths)
    (hsame : ∀ path ∈ paths, fs.SameAt path s.sink alone.sink) :
    reports (fs.job service options forest dryRun) paths s =
        paths.map (fun path => (transferFile (fs.job service options forest dryRun) path alone).1) ∧
      ∀ path ∈ paths, ∀ i, fs.fileAt? alone.sink path = some i →
        fs.content? (afterFiles (fs.job service options forest dryRun) paths s).sink i =
          fs.content? (transferFile (fs.job service options forest dryRun) path alone).2.sink i := by
  induction paths generalizing s with
  | nil => exact ⟨rfl, fun path hpath => by cases hpath⟩
  | cons path paths ih =>
      obtain ⟨hfirst, hmore⟩ := List.forall_mem_cons.mp hwrites
      obtain ⟨hsame₁, hsames⟩ := List.forall_mem_cons.mp hsame
      obtain ⟨hreport, hcontent⟩ :=
        transferFile_of_sameAt fs options forest dryRun hstateless hfirst hsame₁
      -- The session moves on while `alone` stays: the paths to come still see the same in both.
      obtain ⟨hreports, hcontents⟩ := ih hmore
        (distinct_tail service options forest hdistinct dryRun) fun other hother =>
          (sameAt_of_distinct service options forest hdistinct hother dryRun).trans
            (hsames other hother)
      refine ⟨by rw [reports_cons, List.map_cons, hreport, hreports], ?_⟩
      intro other hother i hfile
      obtain rfl | hother := List.mem_cons.mp hother
      · rw [content_of_distinct service options forest hdistinct (hsame₁.fileAt.trans hfile),
          hcontent i hfile]
      · exact hcontents other hother i hfile

end

/-- When answers depend on the prompt alone, writing on the path alone, and no two paths lead to the
same file, each file of a batch gets the report that it would get alone, in whatever order the files
come and whichever of them fail, and what the files hold in the end does not depend on the order. -/
theorem transferFiles_independent (fs : FileSystem φ ι) (service : Service σ) (options : Options)
    (forest : List JavaType) (dryRun : Bool) (observer observer' : Observer φ π)
    (paths paths' : List String) (start start' : π) (s : Session σ φ)
    (hstateless : Stateless service) (hwrites : ∀ path ∈ paths, fs.WritesByPath path)
    (hdistinct : fs.Distinct s.sink paths) (hperm : paths.Perm paths') :
    let job := fs.job service options forest dryRun
    let batch := transferFiles job observer paths start s
    let batch' := transferFiles job observer' paths' start' s
    batch.summary.files = paths.map (fun path => (transferFile job path s).1) ∧
    batch'.summary.files = paths'.map (fun path => (transferFile job path s).1) ∧
    ∀ i, fs.content? batch.session.sink i = fs.content? batch'.session.sink i := by
  have hwrites' : ∀ path ∈ paths', fs.WritesByPath path := fun path hpath =>
    hwrites path (hperm.mem_iff.mpr hpath)
  have hsame (path : String) : fs.SameAt path s.sink s.sink := ⟨rfl, rfl, fun _ _ => rfl⟩
  obtain ⟨hreports, hcontents⟩ := afterFiles_alone fs options forest dryRun hstateless hwrites
    hdistinct fun path _ => hsame path
  obtain ⟨hreports', hcontents'⟩ := afterFiles_alone fs options forest dryRun hstateless hwrites'
    (hdistinct.perm hperm) fun path _ => hsame path
  simp only [transferFiles_eq]
  refine ⟨hreports, hreports', ?_⟩
  intro i
  -- A listed file is as its own transfer leaves it, any other as it was.
  by_cases hlisted : ∃ path ∈ paths, fs.fileAt? s.sink path = some i
  · obtain ⟨path, hpath, hfile⟩ := hlisted
    rw [hcontents path hpath i hfile, hcontents' path (hperm.mem_iff.mp hpath) i hfile]
  · rw [(afterFiles_frame fs service options forest dryRun paths s).content i hlisted,
      (afterFiles_frame fs service options forest dryRun paths' s).content i]
    rintro ⟨path, hpath, hfile⟩
    exact hlisted ⟨path, hperm.mem_iff.mpr hpath, hfile⟩

/-- A model that proposes the same edit whatever it is asked. -/
def stubborn : Service Unit where
  provider := "stubborn"
  model := "stubborn-1"
  complete _ _ _ :=
    (.ok { text := "[\x7b\"oldString\":\"class A\",\"newString\":\"/// A.\\nclass A\"\x7d]" }, ())

/-- A source that can be written to, and one that cannot. -/
def lockedTwin : Session Unit FileTree where
  model := ()
  sink :=
    .folder [("A.cs", .file (.text "class A \x7b\x7d")), ("locked.cs", .file (.text "class A \x7b\x7d"))]

/-- A tree that refuses to write the second of them. -/
def lockedTree : FileSystem FileTree (List String) :=
  FileTree.fileSystem fun path =>
    if path = "locked.cs" then some (.other "Permission denied (os error 13)") else none

/-- One pass, with types matched by name. -/
def onePass : Options :=
  { maxPasses := 1, matcher := .heuristic }

/-- The class that both sources declare. -/
def twinForest : List JavaType :=
  [.mk "A" "p.A" "p" .cls "/** A. */" [] none [] "p/A.java"]

theorem transferFiles_independent_lockedTwin :
    Stateless stubborn ∧ (∀ path ∈ ["locked.cs", "A.cs"], lockedTree.WritesByPath path) ∧
    lockedTree.Distinct lockedTwin.sink ["locked.cs", "A.cs"] ∧
    (reports (lockedTree.job stubborn onePass twinForest false) ["locked.cs", "A.cs"]
      lockedTwin).map Report.isFailed = [true, false] ∧
    let job := lockedTree.job stubborn onePass twinForest false
    let batch := transferFiles job (fun _ _ _ _ n => n + 1) ["locked.cs", "A.cs"] 0 lockedTwin
    let batch' := transferFiles job (fun _ _ _ _ n => n + 1) ["A.cs", "locked.cs"] 0 lockedTwin
    batch.summary.files =
      ["locked.cs", "A.cs"].map (fun path => (transferFile job path lockedTwin).1) ∧
    batch'.summary.files =
      ["A.cs", "locked.cs"].map (fun path => (transferFile job path lockedTwin).1) ∧
    ∀ i, lockedTree.content? batch.session.sink i = lockedTree.content? batch'.session.sink i := by
  have hstateless : Stateless stubborn := fun _ _ _ _ => rfl
  have hwrites : ∀ path ∈ ["locked.cs", "A.cs"], lockedTree.WritesByPath path := fun path _ =>
    FileTree.writesByPath_fileSystem _ path
  have hdistinct : lockedTree.Distinct lockedTwin.sink ["locked.cs", "A.cs"] := by decide +kernel
  refine ⟨hstateless, hwrites, hdistinct, by decide +kernel, ?_⟩
  exact transferFiles_independent lockedTree stubborn onePass twinForest false _ _ _ _ 0 0 lockedTwin
    hstateless hwrites hdistinct (.swap "A.cs" "locked.cs" [])

end DocTransfer.Transfer
