import DocTransfer.Proofs.Session.Lockstep
import DocTransfer.Transfer.Batch

/-! # Runs with a record of the dumps

Dumps and changed files go to the same storage. What tells them apart is that a dump has its folder
made first, so a storage can keep a record of the dumps on its own. Apart from the record, a run is
the same. -/

namespace DocTransfer

variable {σ φ π α : Type}

/-- Files with a record of the dumps that were written, and whether the last thing that happened to
them was that a folder was made. -/
structure Recorded (φ : Type) where
  files : φ
  prepared : Bool := false
  dumps : List String := []

/-- The storage with a record: the path of every write that follows the making of a folder, also if
the write fails. -/
def Storage.recorded (storage : Storage φ) : Storage (Recorded φ) where
  read r path := storage.read r.files path
  write r path text :=
    ((storage.write r.files path text).1,
      { files := (storage.write r.files path text).2
        dumps := if r.prepared then r.dumps ++ [path] else r.dumps })
  makeFolders r path :=
    ((storage.makeFolders r.files path).1,
      { files := (storage.makeFolders r.files path).2
        prepared := (storage.makeFolders r.files path).1.isOk
        dumps := r.dumps })

namespace Transfer

/-! ## Dumps and stored texts -/

/-- A dump is in the record if its folder could be made; otherwise nothing is written. -/
theorem Dump.write_recorded (d : Dump) (storage : Storage φ) (r : Recorded φ)
    (file label text : String) :
    let folder := ((Path.parent? (d.pathFor file label).toList).map String.ofList).getD d.dir
    d.write storage.recorded r file label text =
      { files := d.write storage r.files file label text
        dumps := r.dumps ++
          if (storage.makeFolders r.files folder).1.isOk then [d.pathFor file label] else [] } := by
  unfold Dump.write Storage.recorded
  dsimp only
  generalize ((Path.parent? (d.pathFor file label).toList).map String.ofList).getD d.dir = folder
  cases hmade : storage.makeFolders r.files folder with
  | mk result files => cases result <;> simp [Except.isOk, Except.toBool]

/-- The job with a record of its dumps. -/
def Job.recorded (job : Job σ φ) : Job σ (Recorded φ) where
  service := job.service
  storage := job.storage.recorded
  options := job.options
  forest := job.forest
  dryRun := job.dryRun
  dump := job.dump

theorem sink_dump_recorded (job : Job σ φ) (path : String) (r : Recorded φ) (label text : String) :
    ((job.recorded.sink path).dump r label text).files =
      (job.sink path).dump r.files label text := by
  simp only [Job.sink, Job.recorded]
  cases job.dump with
  | none => rfl
  | some d =>
      dsimp only
      rw [d.write_recorded]

/-- A stored text leaves the record as it is, unless a folder was made just before. -/
theorem sink_store_recorded (job : Job σ φ) (path : String) (r : Recorded φ) (text : String) :
    (job.recorded.sink path).store r text =
      (((job.sink path).store r.files text).1,
        { files := ((job.sink path).store r.files text).2
          prepared := job.dryRun && r.prepared
          dumps := if !job.dryRun && r.prepared then r.dumps ++ [path] else r.dumps }) := by
  cases hdry : job.dryRun with
  | true => simp [Job.sink, Job.recorded, hdry]
  | false =>
      cases hwrite : job.storage.write r.files path text with
      | mk result files =>
          cases result <;> simp [Job.sink, Job.recorded, Storage.recorded, hdry, hwrite]

/-! ## Runs -/

/-- The session with an empty record. -/
def Session.recorded (s : Session σ φ) : Session σ (Recorded φ) :=
  { s with sink := { files := s.sink } }

/-- The session without the record. -/
def Session.plain (s : Session σ (Recorded φ)) : Session σ φ :=
  { s with sink := s.sink.files }

/-- The batch without the record. -/
def Batch.plain (b : Batch σ (Recorded φ) π) : Batch σ φ π :=
  { summary := b.summary, observed := b.observed, session := b.session.plain }

/-- An observer that does not look at the record. -/
def Observer.recorded (observer : Observer φ π) : Observer (Recorded φ) π :=
  fun index total report r p => observer index total report r.files p

theorem lockstep_recorded (job : Job σ φ) (path : String) :
    Lockstep job.service (job.recorded.sink path) job.service (job.sink path)
      fun s s' => s.plain = s' where
  ask {s _} label prompt := by
    rintro rfl
    unfold ask
    simp only [Session.plain]
    cases job.service.complete s.model prompt false with
    | mk reply model => cases reply <;> simp [Agree, sink_dump_recorded]
  store {s _} text := by
    rintro rfl
    rw [store_eq, store_eq, sink_store_recorded]
    exact ⟨rfl, rfl⟩

theorem transferFile_recorded (job : Job σ φ) (path : String) (s : Session σ (Recorded φ)) :
    Agree (fun s s' => s.plain = s') (transferFile job.recorded path s)
      (transferFile job path s.plain) := by
  have hread : job.recorded.storage.read s.sink path = job.storage.read s.plain.sink path := rfl
  unfold transferFile
  rw [hread]
  cases job.storage.read s.plain.sink path with
  | error e => exact .of_related _ rfl
  | ok source =>
      refine (lockstep_recorded job path).transferSource ?_ job.options job.forest source path rfl
      rintro s s' rfl
      rfl

/-- A run with a record is the run without, as far as anyone else can see. -/
theorem transferFiles_recorded (job : Job σ φ) (observer : Observer φ π) (paths : List String)
    (start : π) (s : Session σ φ) :
    (transferFiles job.recorded observer.recorded paths start s.recorded).plain =
      transferFiles job observer paths start s := by
  have hstep (b : Batch σ (Recorded φ) π) (file : String × Nat) :
      (Batch.step job.recorded observer.recorded paths.length b file).plain =
        Batch.step job observer paths.length b.plain file := by
    obtain ⟨hreport, hsession⟩ := transferFile_recorded job file.1 b.session
    simp only [Batch.step, Batch.plain, Observer.recorded, hreport, ← hsession]
    rfl
  exact (List.foldl_hom Batch.plain fun b file => (hstep b file).symm).symm

end Transfer

end DocTransfer
