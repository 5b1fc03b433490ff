import DocTransfer.Proofs.Batch.Frame
import DocTransfer.Proofs.FileTree.Overwrite
import DocTransfer.Proofs.Session.Handed

/-! # A dry run shows what a real one does

When writing succeeds, a run that writes and one that does not put the same questions and give the
same reports, as long as no two paths lead to the same file: then no file is read after it has been
written. -/

namespace DocTransfer.Transfer

open Model

variable {σ φ φ' ι π : Type}

/-! ## Sessions that differ in their files -/

/-- Sessions that agree in all but their files. -/
structure Mirrored (s : Session σ φ) (s' : Session σ φ') : Prop where
  model : s.model = s'.model
  usage : s.usage = s'.usage
  events : s.events = s'.events

theorem Mirrored.ask {s : Session σ φ} {s' : Session σ φ'} (h : Mirrored s s')
    (service : Service σ) (sink : Sink φ) (sink' : Sink φ') (label prompt : String) :
    Agree Mirrored (ask service sink label prompt s) (Transfer.ask service sink' label prompt s') := by
  unfold Transfer.ask
  rw [h.model]
  cases service.complete s'.model prompt false with
  | mk reply model =>
      cases reply with
      | error e => exact ⟨rfl, rfl, h.usage, by simp [h.events]⟩
      | ok a => exact ⟨rfl, rfl, by simp [h.usage], by simp [h.events]⟩

theorem store_of_ok {sink : Sink φ} {s : Session σ φ} {text : String} {after : φ}
    (h : sink.store s.sink text = (.ok (), after)) :
    store sink text s =
      (.ok (), { s with sink := after, events := s.events ++ [.stored text] }) := by
  rw [store_eq, h]
  rfl

section

variable (fs : FileSystem φ ι) (service : Service σ) (options : Options) (forest : List JavaType)

/-! ## One file, written and not written -/

theorem sink_store_of_writable {path : String} (hwritable : fs.Writable path) {files : φ} {i : ι}
    (hfile : fs.fileAt? files path = some i) (text : String) :
    ((fs.job service options forest false).sink path).store files text =
      (.ok (), (fs.write files path text).2) := by
  rw [sink_store_real, hwritable files i text hfile]
  rfl

theorem lockstep_preview {path : String} (hwritable : fs.Writable path) (i : ι) :
    Lockstep service ((fs.job service options forest false).sink path)
      service ((fs.job service options forest true).sink path)
      fun s s' => Mirrored s s' ∧ fs.fileAt? s.sink path = some i where
  ask {s s'} label prompt := by
    rintro ⟨hmirror, hfile⟩
    obtain ⟨hresult, hafter⟩ := hmirror.ask service ((fs.job service options forest false).sink path)
      ((fs.job service options forest true).sink path) label prompt
    refine ⟨hresult, hafter, ?_⟩
    rwa [ask_sink fun _ _ _ => rfl]
  store {s s'} text := by
    rintro ⟨hmirror, hfile⟩
    rw [store_of_ok (sink_store_of_writable fs service options forest hwritable hfile text),
      store_of_ok (sink_store_dry fs service options forest path s'.sink text)]
    refine ⟨rfl, ⟨hmirror.model, hmirror.usage, by simp [hmirror.events]⟩, ?_⟩
    rw [fs.fileAt_write text path hfile, hfile]

theorem transferFile_preview {path : String} (hwritable : fs.Writable path) {s s' : Session σ φ}
    (hmirror : Mirrored s s') (hread : fs.read s.sink path = fs.read s'.sink path) :
    Agree Mirrored (transferFile (fs.job service options forest false) path s)
      (transferFile (fs.job service options forest true) path s') := by
  rw [transferFile_job, transferFile_job, ← hread]
  cases hsource : fs.read s.sink path with
  | error e => exact ⟨rfl, hmirror⟩
  | ok source =>
      obtain ⟨i, hfile, -⟩ := fs.file_of_read hsource
      obtain ⟨hreport, hafter, -⟩ :=
        (lockstep_preview fs service options forest hwritable i).transferSource
          (fun h => h.1.usage) options forest source path
          ⟨⟨hmirror.model, rfl, hmirror.events⟩, hfile⟩
      exact ⟨hreport, hafter⟩

theorem transferFile_dry (path : String) (s : Session σ φ) :
    (transferFile (fs.job service options forest true) path s).2.sink = s.sink := by
  rw [transferFile_job]
  cases fs.read s.sink path with
  | error e => rfl
  | ok source =>
      have hkept : Kept service ((fs.job service options forest true).sink path)
          fun after => after.sink = s.sink := by
        constructor
        · intro after label prompt hafter
          rwa [ask_sink fun _ _ _ => rfl]
        · intro after text hafter
          rwa [store_of_ok (sink_store_dry fs service options forest path after.sink text)]
      exact hkept.transferSource _ _ _ _ rfl

/-! ## What a written file holds -/

/-- The file of a path holds the text handed over last since some session. -/
def HoldsHanded (path : String) (i : ι) (source : String) (s after : Session σ φ) : Prop :=
  fs.fileAt? after.sink path = some i ∧ ∃ trace, after.events = s.events ++ trace ∧
    fs.content? after.sink i = some (.text ((handed trace).getLastD source))

theorem kept_holdsHanded {path : String} (hwritable : fs.Writable path) (i : ι) (source : String)
    (s : Session σ φ) :
    Kept service ((fs.job service options forest false).sink path)
      (HoldsHanded fs path i source s) where
  ask {after} label prompt := by
    rintro ⟨hfile, trace, htrace, hcontent⟩
    obtain ⟨more, hmore, hnone, -⟩ := ask_handed service
      ((fs.job service options forest false).sink path) label prompt after
    rw [HoldsHanded, ask_sink fun _ _ _ => rfl]
    refine ⟨hfile, trace ++ more, by rw [hmore, htrace, List.append_assoc], ?_⟩
    rwa [handed_append, hnone, List.append_nil]
  store {after} text := by
    rintro ⟨hfile, trace, htrace, hcontent⟩
    rw [store_of_ok (sink_store_of_writable fs service options forest hwritable hfile text)]
    refine ⟨by rw [fs.fileAt_write text path hfile, hfile], trace ++ [Event.stored text],
      by simp [htrace], ?_⟩
    rw [fs.content_of_write hfile (hwritable _ i text hfile)]
    simp [handed]

theorem transferFile_content {path : String} (hwritable : fs.Writable path) (s : Session σ φ)
    (hdone : (transferFile (fs.job service options forest false) path s).1.isFailed = false) :
    ∃ i source, fs.fileAt? s.sink path = some i ∧ fs.content? s.sink i = some (.text source) ∧
      fs.content? (transferFile (fs.job service options forest false) path s).2.sink i =
        some (.text
          ((transferFile (fs.job service options forest false) path s).1.code?.getD source)) := by
  rw [transferFile_job] at hdone ⊢
  cases hread : fs.read s.sink path with
  | error e =>
      rw [hread] at hdone
      cases hdone
  | ok source =>
      rw [hread] at hdone
      obtain ⟨i, hfile, hcontent⟩ := fs.file_of_read hread
      refine ⟨i, source, hfile, hcontent, ?_⟩
      obtain ⟨-, trace, htrace, hafter⟩ :=
        (kept_holdsHanded fs service options forest hwritable i source s).transferSource
          options forest source path
          (show HoldsHanded fs path i source s { s with usage := {} } from
            ⟨hfile, [], by simp, by simpa [handed] using hcontent⟩)
      obtain ⟨trace', htrace', hhanded⟩ := transferSource_handed service
        ((fs.job service options forest false).sink path) options forest source path s
      -- The invariant and the report are about the same record.
      obtain rfl : trace = trace' := List.append_cancel_left (htrace.symm.trans htrace')
      rw [hafter, hhanded hdone]

/-! ## Many files -/

variable {fs}

theorem reports_preview {paths : List String} (hwritable : ∀ path ∈ paths, fs.Writable path)
    {s s' : Session σ φ} (hdistinct : fs.Distinct s.sink paths) (hmirror : Mirrored s s')
    (hread : ∀ path ∈ paths, fs.read s.sink path = fs.read s'.sink path) :
    reports (fs.job service options forest false) paths s =
        reports (fs.job service options forest true) paths s' ∧
      Mirrored (afterFiles (fs.job service options forest false) paths s)
        (afterFiles (fs.job service options forest true) paths s') := by
  induction paths generalizing s s' with
  | nil => exact ⟨rfl, hmirror⟩
  | cons path paths ih =>
      obtain ⟨hfirst, hmore⟩ := List.forall_mem_cons.mp hwritable
      obtain ⟨hreport, hafter⟩ := transferFile_preview fs service options forest hfirst hmirror
        (hread path List.mem_cons_self)
      -- No later path leads to the file just written, so the two runs go on reading the same.
      obtain ⟨hreports, hend⟩ := ih hmore (distinct_tail service options forest hdistinct false)
        hafter fun other hother => by
          rw [(sameAt_of_distinct service options forest hdistinct hother false).read,
            transferFile_dry]
          exact hread other (List.mem_cons_of_mem path hother)
      refine ⟨?_, hend⟩
      rw [reports_cons, reports_cons, hreport, hreports]

theorem afterFiles_dry (paths : List String) (s : Session σ φ) :
    (afterFiles (fs.job service options forest true) paths s).sink = s.sink := by
  induction paths generalizing s with
  | nil => rfl
  | cons path paths ih => rw [afterFiles_cons, ih, transferFile_dry]

theorem reports_content {paths : List String} (hwritable : ∀ path ∈ paths, fs.Writable path)
    {s : Session σ φ} (hdistinct : fs.Distinct s.sink paths) {r : Report}
    (hr : r ∈ reports (fs.job service options forest false) paths s) (hdone : r.isFailed = false) :
    ∃ i source, fs.fileAt? s.sink r.path = some i ∧ fs.content? s.sink i = some (.text source) ∧
      fs.content? (afterFiles (fs.job service options forest false) paths s).sink i =
        some (.text (r.code?.getD source)) := by
  induction paths generalizing s with
  | nil => cases hr
  | cons path paths ih =>
      obtain ⟨hfirst, hmore⟩ := List.forall_mem_cons.mp hwritable
      rw [reports_cons, List.mem_cons] at hr
      obtain rfl | hr := hr
      · obtain ⟨i, source, hfile, hbefore, hafter⟩ :=
          transferFile_content fs service options forest hfirst s hdone
        refine ⟨i, source, by rwa [transferFile_path], hbefore, ?_⟩
        rw [content_of_distinct service options forest hdistinct hfile, hafter]
      · obtain ⟨i, source, hfile, hbefore, hafter⟩ :=
          ih hmore (distinct_tail service options forest hdistinct false) hr
        have hmem : r.path ∈ paths := by
          rw [← reports_path (fs.job service options forest false) paths]
          exact List.mem_map_of_mem hr
        have hsame := sameAt_of_distinct service options forest hdistinct hmem false
        rw [hsame.fileAt] at hfile
        rw [hsame.content i hfile] at hbefore
        exact ⟨i, source, hfile, hbefore, hafter⟩

end

/-- When writing succeeds and no two paths lead to the same file, a dry run and a real one have the
same totals and reports, put the same questions in the same order and leave the model in the same
state. The dry run changes no file. The real run changes only files of the list, and the file of a
report without failure holds the report's text then, or what it held before where the report tells
no text. -/
theorem transferFiles_preview (fs : FileSystem φ ι) (service : Service σ) (options : Options)
    (forest : List JavaType) (observer observer' : Observer φ π) (paths : List String)
    (start start' : π) (s : Session σ φ) (hdistinct : fs.Distinct s.sink paths)
    (hwritable : ∀ path ∈ paths, fs.Writable path) :
    let dry := transferFiles (fs.job service options forest true) observer paths start s
    let real := transferFiles (fs.job service options forest false) observer' paths start' s
    real.summary = dry.summary ∧ real.session.events = dry.session.events ∧
    real.session.model = dry.session.model ∧ dry.session.sink = s.sink ∧
    (∀ i, (∀ path ∈ paths, fs.fileAt? s.sink path ≠ some i) →
      fs.content? real.session.sink i = fs.content? s.sink i) ∧
    ∀ r ∈ real.summary.files, r.isFailed = false →
      ∃ i source, fs.fileAt? s.sink r.path = some i ∧
        fs.content? s.sink i = some (.text source) ∧
        fs.content? real.session.sink i = some (.text (r.code?.getD source)) := by
  obtain ⟨hreports, hmirror⟩ := reports_preview service options forest hwritable hdistinct
    (show Mirrored s s from ⟨rfl, rfl, rfl⟩) fun _ _ => rfl
  simp only [transferFiles_eq]
  refine ⟨by rw [hreports]; rfl, hmirror.events, hmirror.model,
    afterFiles_dry service options forest paths s, ?_, ?_⟩
  · intro i hi
    apply (afterFiles_frame fs service options forest false paths s).content
    rintro ⟨path, hpath, hfile⟩
    exact hi path hpath hfile
  · intro r hr hdone
    exact reports_content service options forest hwritable hdistinct hr hdone

/-- A source and some notes, and a model that maps the one type, documents it and is content. -/
def sourceAndNotes : Session (List String) FileTree where
  model :=
    ["[\"p.A\"]", "[\x7b\"oldString\":\"class A\",\"newString\":\"/// A.\\nclass A\"\x7d]", "[]"]
  sink :=
    .folder [("A.cs", .file (.text "class A \x7b\x7d")), ("notes.txt", .file (.text "class A"))]

/-- The class that the source declares. -/
def forestOfSource : List JavaType :=
  [.mk "A" "p.A" "p" .cls "/** A. */" [] none [] "p/A.java"]

/-- Trees that can be written to everywhere. -/
def openTree : FileSystem FileTree (List String) :=
  FileTree.fileSystem fun _ => none

/-- A source, notes that declare no type, and a file that is not there. -/
def threePaths : List String :=
  ["A.cs", "./notes.txt", "gone.cs"]

theorem transferFiles_preview_sourceAndNotes :
    openTree.Distinct sourceAndNotes.sink threePaths ∧
    (∀ path ∈ threePaths, openTree.Writable path) ∧
    (reports (openTree.job scripted {} forestOfSource true) threePaths sourceAndNotes).map
        (fun r => (r.isFailed, r.code?)) =
      [(false, some "/// A.\nclass A \x7b\x7d"), (false, none), (true, none)] ∧
    let dry := transferFiles (openTree.job scripted {} forestOfSource true)
      (fun _ _ _ _ n => n + 1) threePaths 0 sourceAndNotes
    let real := transferFiles (openTree.job scripted {} forestOfSource false)
      (fun _ _ _ _ n => n + 1) threePaths 0 sourceAndNotes
    real.summary = dry.summary ∧ real.session.events = dry.session.events ∧
    real.session.model = dry.session.model ∧ dry.session.sink = sourceAndNotes.sink ∧
    (∀ i, (∀ path ∈ threePaths, openTree.fileAt? sourceAndNotes.sink path ≠ some i) →
      openTree.content? real.session.sink i = openTree.content? sourceAndNotes.sink i) ∧
    ∀ r ∈ real.summary.files, r.isFailed = false →
      ∃ i source, openTree.fileAt? sourceAndNotes.sink r.path = some i ∧
        openTree.content? sourceAndNotes.sink i = some (.text source) ∧
        openTree.content? real.session.sink i = some (.text (r.code?.getD source)) := by
  have hdistinct : openTree.Distinct sourceAndNotes.sink threePaths := by decide +kernel
  have hwritable : ∀ path ∈ threePaths, openTree.Writable path := fun path _ =>
    FileTree.writable_fileSystem path
  refine ⟨hdistinct, hwritable, by decide +kernel, ?_⟩
  exact transferFiles_preview openTree scripted {} forestOfSource _ _ threePaths 0 0 sourceAndNotes
    hdistinct hwritable

end DocTransfer.Transfer
