import DocTransfer.Proofs.Batch.Run

/-! # Every token is counted

The tokens of a batch are those of its reports, and those of every request that was answered,
whatever became of the file that it was made for. -/

namespace DocTransfer

/-! ## Sums of token counts -/

namespace Usage

theorem add_eq (a b : Usage) : a + b = ⟨a.input + b.input, a.output + b.output, a.total + b.total⟩ :=
  rfl

theorem add_assoc (a b c : Usage) : a + b + c = a + (b + c) := by
  simp [add_eq, Nat.add_assoc]

theorem zero_add (a : Usage) : ({} : Usage) + a = a := by
  simp [add_eq]

theorem foldl_add (a : Usage) (us : List Usage) : us.foldl (· + ·) a = a + sum us := by
  induction us generalizing a with
  | nil => rfl
  | cons u us ih => rw [sum, List.foldl_cons, List.foldl_cons, ih, ih, zero_add, add_assoc]

theorem sum_append (us vs : List Usage) : sum (us ++ vs) = sum us + sum vs := by
  rw [sum, List.foldl_append, foldl_add]
  rfl

end Usage

/-! ## Requests in a row -/

namespace Model

variable {σ : Type}

/-- What prompts bring when they are put one after the other, and the state they leave. -/
def Service.converse (service : Service σ) : σ → List String →
    List (Except Error Completion) × σ
  | state, [] => ([], state)
  | state, prompt :: prompts =>
    let (outcome, state) := service.complete state prompt false
    let (outcomes, state) := converse service state prompts
    (outcome :: outcomes, state)

theorem Service.converse_append (service : Service σ) (state : σ) (earlier later : List String) :
    service.converse state (earlier ++ later) =
      ((service.converse state earlier).1 ++
          (service.converse (service.converse state earlier).2 later).1,
        (service.converse (service.converse state earlier).2 later).2) := by
  induction earlier generalizing state with
  | nil => rfl
  | cons prompt earlier ih => simp [converse, ih]

/-- The tokens of the requests that were answered. -/
def cost (outcomes : List (Except Error Completion)) : Usage :=
  Usage.sum ((outcomes.filterMap Except.toOption).map (·.usage))

theorem cost_append (xs ys : List (Except Error Completion)) :
    cost (xs ++ ys) = cost xs + cost ys := by
  simp [cost, Usage.sum_append]

end Model

namespace Transfer

open Model

variable {σ φ π : Type}

/-! ## One file -/

/-- A session that has come from a state of the model and a record by these prompts. -/
structure Asked (service : Service σ) (state : σ) (record : List Event) (asked : List String)
    (s : Session σ φ) : Prop where
  prompts : prompts s.events = Transfer.prompts record ++ asked
  model : (service.converse state asked).2 = s.model

theorem Asked.trans {service : Service σ} {state : σ} {record : List Event}
    {earlier later : List String} {s s' : Session σ φ} (h : Asked service state record earlier s)
    (h' : Asked service s.model s.events later s') :
    Asked service state record (earlier ++ later) s' where
  prompts := by rw [h'.prompts, h.prompts, List.append_assoc]
  model := by rw [service.converse_append, h.model, h'.model]

theorem asked_ask (service : Service σ) (sink : Sink φ) (label prompt : String)
    (s : Session σ φ) :
    Asked service s.model s.events [prompt] (ask service sink label prompt s).2 ∧
      (ask service sink label prompt s).2.usage =
        s.usage + cost (service.converse s.model [prompt]).1 := by
  have hconverse : service.converse s.model [prompt] =
      ([(service.complete s.model prompt false).1], (service.complete s.model prompt false).2) :=
    rfl
  unfold ask
  cases hreply : service.complete s.model prompt false with
  | mk reply model =>
      cases reply with
      | error e =>
          refine ⟨⟨by simp, by simp [hconverse, hreply]⟩, ?_⟩
          rw [hconverse, hreply]
          rfl
      | ok a =>
          refine ⟨⟨?_, by simp [hconverse, hreply]⟩, ?_⟩
          · simp only [prompts_append]
            rfl
          · rw [hconverse, hreply]
            simp [cost, Except.toOption, Usage.sum, Usage.zero_add]

theorem asked_store (service : Service σ) (sink : Sink φ) (text : String) (s : Session σ φ) :
    Asked service s.model s.events [] (store sink text s).2 ∧
      (store sink text s).2.usage = s.usage := by
  rw [store_eq]
  refine ⟨⟨?_, rfl⟩, rfl⟩
  rw [prompts_append]
  cases (sink.store s.sink text).1 <;> rfl

/-- What has been spent since then is the cost of the prompts asked since then. -/
def Accounted (service : Service σ) (state : σ) (record : List Event) (s : Session σ φ) : Prop :=
  ∃ asked, Asked service state record asked s ∧ s.usage = cost (service.converse state asked).1

theorem kept_accounted (service : Service σ) (sink : Sink φ) (state : σ) (record : List Event) :
    Kept service sink (Accounted service state record) where
  ask := by
    rintro s label prompt ⟨asked, hasked, husage⟩
    obtain ⟨hmore, hspent⟩ := asked_ask service sink label prompt s
    refine ⟨asked ++ [prompt], hasked.trans hmore, ?_⟩
    rw [hspent, husage, service.converse_append, cost_append, hasked.model]
  store := by
    rintro s text ⟨asked, hasked, husage⟩
    obtain ⟨hmore, hspent⟩ := asked_store service sink text s
    refine ⟨asked ++ [], hasked.trans hmore, ?_⟩
    rw [hspent, husage, List.append_nil]

/-- The tokens of a report are those of the session that wrote it. -/
theorem transferSource_usage (service : Service σ) (sink : Sink φ) (options : Options)
    (forest : List JavaType) (source path : String) (s : Session σ φ) :
    (transferSource service sink options forest source path s).1.usage =
      (transferSource service sink options forest source path s).2.usage := by
  rw [transferSource_eq]
  simp only
  split <;> rfl

/-- A report accounts for all requests made for its file. -/
theorem transferFile_accounted (job : Job σ φ) (path : String) (s : Session σ φ) :
    ∃ asked, Asked job.service s.model s.events asked (transferFile job path s).2 ∧
      (transferFile job path s).1.usage = cost (job.service.converse s.model asked).1 := by
  unfold transferFile
  cases job.storage.read s.sink path with
  | error e => exact ⟨[], ⟨by simp, rfl⟩, rfl⟩
  | ok source =>
      simp only [transferSource_usage]
      apply (kept_accounted job.service (job.sink path) s.model s.events).transferSource
      exact ⟨[], ⟨by simp, rfl⟩, rfl⟩

/-! ## Many files -/

theorem afterFiles_accounted (job : Job σ φ) (paths : List String) (s : Session σ φ) :
    ∃ asked, Asked job.service s.model s.events asked (afterFiles job paths s) ∧
      Usage.sum ((reports job paths s).map (·.usage)) =
        cost (job.service.converse s.model asked).1 := by
  induction paths generalizing s with
  | nil => exact ⟨[], ⟨by simp, rfl⟩, rfl⟩
  | cons path paths ih =>
      obtain ⟨earlier, hearlier, husage⟩ := transferFile_accounted job path s
      obtain ⟨later, hlater, hsum⟩ := ih (transferFile job path s).2
      refine ⟨earlier ++ later, hearlier.trans hlater, ?_⟩
      rw [job.service.converse_append, cost_append, hearlier.model, ← hsum, ← husage, reports_cons,
        List.map_cons, Usage.sum, List.foldl_cons, Usage.foldl_add, Usage.zero_add]

/-- A batch reports on each file, in order and under its path, and shows each report once to the
observer, with its index and the number of files. Files are counted as processed or failed. The
tokens are those of the reports, and those of all requests that were answered: the model has got to
where the prompts on record lead it, and has been asked nothing else. -/
theorem transferFiles_accounting (job : Job σ φ) (observer : Observer φ π) (paths : List String)
    (start : π) (s : Session σ φ) :
    let batch := transferFiles job observer paths start s
    batch.summary.files.map (·.path) = paths ∧
    (∃ seen : List (Report × Session σ φ), seen.map (·.1) = batch.summary.files ∧
      batch.observed = (seen.zipIdx.foldl
        (fun p (v, index) => observer index paths.length v.1 v.2.sink p) start)) ∧
    batch.summary.processed + batch.summary.failed = paths.length ∧
    batch.summary.failed = batch.summary.files.countP Report.isFailed ∧
    batch.summary.usage = Usage.sum (batch.summary.files.map (·.usage)) ∧
    ∃ asked, prompts batch.session.events = prompts s.events ++ asked ∧
      (job.service.converse s.model asked).2 = batch.session.model ∧
      batch.summary.usage =
        Usage.sum (((job.service.converse s.model asked).1.filterMap Except.toOption).map
          (·.usage)) := by
  obtain ⟨asked, hasked, hsum⟩ := afterFiles_accounted job paths s
  simp only [transferFiles_eq]
  refine ⟨reports_path job paths s, ⟨_, rfl, rfl⟩, ?_, trivial, trivial,
    asked, hasked.prompts, hasked.model, hsum⟩
  have hsplit := List.length_eq_countP_add_countP Report.isFailed (l := reports job paths s)
  simp only [length_reports, decide_not, Bool.decide_eq_true] at hsplit
  rw [Nat.add_comm, ← hsplit]

end Transfer

end DocTransfer
