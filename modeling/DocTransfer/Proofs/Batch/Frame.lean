import DocTransfer.Proofs.Batch.Run
import DocTransfer.Proofs.Storage.FileSystem

/-! # What a run leaves alone

A run that dumps nothing changes no file but those it was given. -/

namespace DocTransfer

open Transfer Model

variable {σ φ ι : Type}

/-- A run on a file system, without dumps. -/
def FileSystem.job (fs : FileSystem φ ι) (service : Service σ) (options : Options)
    (forest : List JavaType) (dryRun : Bool) : Job σ φ :=
  { service, storage := fs.toStorage, options, forest, dryRun }

namespace Transfer

/-! ## Sinks -/

theorem ask_sink {sink : Sink φ} (hdump : ∀ files label text, sink.dump files label text = files)
    (service : Service σ) (label prompt : String) (s : Session σ φ) :
    (ask service sink label prompt s).2.sink = s.sink := by
  unfold ask
  cases service.complete s.model prompt false with
  | mk reply model => cases reply <;> simp [hdump]

variable (fs : FileSystem φ ι) (service : Service σ) (options : Options) (forest : List JavaType)

theorem sink_store_dry (path : String) (files : φ) (text : String) :
    ((fs.job service options forest true).sink path).store files text = (.ok (), files) := rfl

theorem sink_store_real (path : String) (files : φ) (text : String) :
    ((fs.job service options forest false).sink path).store files text =
      ((fs.write files path text).1.mapError .io, (fs.write files path text).2) := by
  simp only [Job.sink, FileSystem.job]
  cases fs.write files path text with
  | mk result after => cases result <;> rfl

/-! ## One file -/

theorem transferFile_job (dryRun : Bool) (path : String) (s : Session σ φ) :
    transferFile (fs.job service options forest dryRun) path s =
      match fs.read s.sink path with
      | .error e => (⟨path, [], {}, .failed e.message⟩, s)
      | .ok source =>
        transferSource service ((fs.job service options forest dryRun).sink path) options forest
          source path s :=
  rfl

theorem sink_store_frame {touched : ι → Prop} {files : φ} {path : String} {i : ι}
    (h : fs.fileAt? files path = some i) (hi : touched i) (dryRun : Bool) (text : String) :
    fs.Frame touched files (((fs.job service options forest dryRun).sink path).store files text).2 := by
  cases dryRun with
  | true =>
      rw [sink_store_dry]
      exact .refl
  | false =>
      rw [sink_store_real]
      exact FileSystem.frame_write h hi text

theorem transferFile_frame (dryRun : Bool) (path : String) (s : Session σ φ) :
    fs.Frame (fun i => fs.fileAt? s.sink path = some i) s.sink
      (transferFile (fs.job service options forest dryRun) path s).2.sink := by
  rw [transferFile_job]
  cases hread : fs.read s.sink path with
  | error e => exact .refl
  | ok source =>
      obtain ⟨i, hfile, -⟩ := fs.file_of_read hread
      have hkept : Kept service ((fs.job service options forest dryRun).sink path)
          fun after => fs.Frame (fun i => fs.fileAt? s.sink path = some i) s.sink after.sink := by
        constructor
        · intro after label prompt hafter
          rwa [ask_sink fun _ _ _ => rfl]
        · intro after text hafter
          rw [store_eq]
          refine hafter.trans (sink_store_frame fs service options forest ?_ hfile dryRun text)
          rw [hafter.fileAt, hfile]
      exact hkept.transferSource _ _ _ _ .refl

/-! ## Many files -/

theorem afterFiles_frame (dryRun : Bool) (paths : List String) (s : Session σ φ) :
    fs.Frame (fun i => ∃ path ∈ paths, fs.fileAt? s.sink path = some i) s.sink
      (afterFiles (fs.job service options forest dryRun) paths s).sink := by
  induction paths generalizing s with
  | nil => exact .refl
  | cons path paths ih =>
      have hfirst := transferFile_frame fs service options forest dryRun path s
      refine (hfirst.mono ?_).trans ((ih _).mono ?_)
      · intro i hi
        exact ⟨path, List.mem_cons_self, hi⟩
      · rintro i ⟨other, hother, hi⟩
        exact ⟨other, List.mem_cons_of_mem path hother, by rwa [← hfirst.fileAt]⟩

variable {fs}

/-- After the first file, the paths of the others see what they saw before. -/
theorem sameAt_of_distinct {path : String} {paths : List String} {s : Session σ φ}
    (hdistinct : fs.Distinct s.sink (path :: paths)) {other : String} (hother : other ∈ paths)
    (dryRun : Bool) :
    fs.SameAt other (transferFile (fs.job service options forest dryRun) path s).2.sink s.sink := by
  apply (transferFile_frame fs service options forest dryRun path s).sameAt
  intro i hi hpath
  exact (FileSystem.distinct_cons.mp hdistinct).1 i hpath other hother hi

theorem distinct_tail {path : String} {paths : List String} {s : Session σ φ}
    (hdistinct : fs.Distinct s.sink (path :: paths)) (dryRun : Bool) :
    fs.Distinct (transferFile (fs.job service options forest dryRun) path s).2.sink paths :=
  (transferFile_frame fs service options forest dryRun path s).distinct
    (FileSystem.distinct_cons.mp hdistinct).2

/-- What the first file holds when it is done stays. -/
theorem content_of_distinct {path : String} {paths : List String} {s : Session σ φ}
    (hdistinct : fs.Distinct s.sink (path :: paths)) {i : ι}
    (hfile : fs.fileAt? s.sink path = some i) (dryRun : Bool) :
    fs.content? (afterFiles (fs.job service options forest dryRun) (path :: paths) s).sink i =
      fs.content? (transferFile (fs.job service options forest dryRun) path s).2.sink i := by
  apply (afterFiles_frame fs service options forest dryRun paths _).content
  rintro ⟨other, hother, hsame⟩
  rw [(sameAt_of_distinct service options forest hdistinct hother dryRun).fileAt] at hsame
  exact (FileSystem.distinct_cons.mp hdistinct).1 i hfile other hother hsame

end Transfer

end DocTransfer
