import DocTransfer.Proofs.Session.Lockstep
import DocTransfer.Transfer.Batch

/-! # A batch, file by file

A batch is its files worked on in a row: each visit ends with a report and with the session for the
next one. Totals and observer follow from the visits alone. -/

namespace DocTransfer.Transfer

variable {σ φ π : Type}

/-- The visits of a batch: the report of each file, and the session after it. -/
def visits (job : Job σ φ) : List String → Session σ φ → List (Report × Session σ φ)
  | [], _ => []
  | path :: paths, s => transferFile job path s :: visits job paths (transferFile job path s).2

def afterFiles (job : Job σ φ) (paths : List String) (s : Session σ φ) : Session σ φ :=
  paths.foldl (fun s path => (transferFile job path s).2) s

def reports (job : Job σ φ) (paths : List String) (s : Session σ φ) : List Report :=
  (visits job paths s).map (·.1)

section

variable (job : Job σ φ) (path : String) (paths : List String) (s : Session σ φ)

@[simp] theorem afterFiles_nil : afterFiles job [] s = s := rfl

@[simp] theorem afterFiles_cons :
    afterFiles job (path :: paths) s = afterFiles job paths (transferFile job path s).2 := rfl

@[simp] theorem reports_nil : reports job [] s = [] := rfl

@[simp] theorem reports_cons :
    reports job (path :: paths) s =
      (transferFile job path s).1 :: reports job paths (transferFile job path s).2 := rfl

end

/-! ## Reports -/

theorem transferFile_path (job : Job σ φ) (path : String) (s : Session σ φ) :
    (transferFile job path s).1.path = path := by
  unfold transferFile
  cases job.storage.read s.sink path with
  | error e => rfl
  | ok source =>
      simp only [transferSource_eq]
      split <;> rfl

theorem reports_path (job : Job σ φ) (paths : List String) (s : Session σ φ) :
    (reports job paths s).map (·.path) = paths := by
  induction paths generalizing s with
  | nil => rfl
  | cons path paths ih => simp [transferFile_path, ih]

theorem length_reports (job : Job σ φ) (paths : List String) (s : Session σ φ) :
    (reports job paths s).length = paths.length := by
  simpa using congrArg List.length (reports_path job paths s)

/-! ## Totals -/

/-- Totals with more reports. -/
theorem BatchSummary.foldl_add (b : BatchSummary) (more : List Report) :
    more.foldl BatchSummary.add b =
      { model := b.model
        processed := b.processed + more.countP fun r => !r.isFailed
        failed := b.failed + more.countP Report.isFailed
        usage := (more.map (·.usage)).foldl (· + ·) b.usage
        files := b.files ++ more } := by
  induction more generalizing b with
  | nil => simp
  | cons r more ih =>
      rw [List.foldl_cons, ih]
      cases hfailed : r.isFailed <;>
        simp [BatchSummary.add, hfailed, Nat.add_assoc, Nat.add_comm 1]

/-- What an observer makes of visits, of which the first has the given index. -/
def Observer.follow (observer : Observer φ π) (total index : Nat)
    (seen : List (Report × Session σ φ)) (start : π) : π :=
  (seen.zipIdx index).foldl (fun p (v, i) => observer i total v.1 v.2.sink p) start

theorem Batch.foldl_step (job : Job σ φ) (observer : Observer φ π) (total index : Nat)
    (paths : List String) (b : Batch σ φ π) :
    (paths.zipIdx index).foldl (Batch.step job observer total) b =
      { summary := (reports job paths b.session).foldl BatchSummary.add b.summary
        observed := observer.follow total index (visits job paths b.session) b.observed
        session := afterFiles job paths b.session } := by
  induction paths generalizing index b with
  | nil => rfl
  | cons path paths ih =>
      rw [List.zipIdx_cons, List.foldl_cons, ih]
      simp [Batch.step, Observer.follow, visits]

/-- A batch in terms of its visits. -/
theorem transferFiles_eq (job : Job σ φ) (observer : Observer φ π) (paths : List String)
    (start : π) (s : Session σ φ) :
    transferFiles job observer paths start s =
      { summary :=
          { model := job.service.model
            processed := (reports job paths s).countP fun r => !r.isFailed
            failed := (reports job paths s).countP Report.isFailed
            usage := Usage.sum ((reports job paths s).map (·.usage))
            files := reports job paths s }
        observed := observer.follow paths.length 0 (visits job paths s) start
        session := afterFiles job paths s } := by
  rw [transferFiles, Batch.foldl_step, BatchSummary.foldl_add]
  simp [Usage.sum]

end DocTransfer.Transfer
