import DocTransfer.Proofs.EditLoop.Semantics
import DocTransfer.Transfer.File

/-! # Two pieces of work side by side

All that the work on a text does to its surroundings are requests and stored texts. So a relation
between two sessions that each of these keeps, with the same outcome on both sides, is kept by the
work as a whole, and its outcome is the same. Taken of one session and itself, such a relation is an
invariant. -/

namespace DocTransfer.Transfer

open Model Matching

variable {σ σ' φ φ' α β γ : Type}

/-! ## Stored texts -/

/-- What is seen of a text that is handed over. -/
def storedEvents (text : String) : Except Error Unit → List Event
  | .ok () => [.stored text]
  | .error e => [.stored text, .lost e]

theorem store_eq (sink : Sink φ) (text : String) (s : Session σ φ) :
    store sink text s =
      ((sink.store s.sink text).1,
        { s with
          sink := (sink.store s.sink text).2
          events := s.events ++ storedEvents text (sink.store s.sink text).1 }) := by
  unfold store
  cases sink.store s.sink text with
  | mk result after => cases result <;> rfl

/-! ## Steps in a row -/

/-- A step that is made only when the one before it has succeeded. -/
def andThen (x : Except Error α × γ) (next : α → γ → Except Error β × γ) : Except Error β × γ :=
  match x with
  | (.error e, s) => (.error e, s)
  | (.ok a, s) => next a s

theorem absorb_eq_andThen (sink : Sink φ) (edits : List Edit) (p : Progress) (s : Session σ φ) :
    absorb sink edits p s =
      if (patch edits p.code).applied = 0 then (.ok (p.absorbed edits), s)
      else
        andThen (store sink (String.ofList (patch edits p.code).code) s) fun _ s =>
          (.ok (p.absorbed edits), s) := by
  by_cases happlied : (patch edits p.code).applied = 0
  · simp [absorb, Progress.absorbed, happlied, patch_code_of_applied_eq_zero happlied]
  · simp only [absorb, happlied, if_false]
    obtain ⟨result, after⟩ := store sink (String.ofList (patch edits p.code).code) s
    cases result <;> rfl

theorem exchange_eq_andThen (service : Service σ) (sink : Sink φ) (label prompt : String)
    (p : Progress) (s : Session σ φ) :
    exchange service sink label prompt p s =
      andThen (ask service sink label prompt s) fun text s =>
        andThen (absorb sink (answerEdits text.toList) { p with requests := p.requests + 1 } s)
          fun q s => (.ok (q, answerEdits text.toList), s) := by
  unfold exchange
  obtain ⟨reply, asked⟩ := ask service sink label prompt s
  cases reply with
  | error e => rfl
  | ok text =>
      simp only [andThen]
      obtain ⟨result, after⟩ := absorb sink (answerEdits text.toList) _ asked
      cases result <;> rfl

/-- What a batch that does not settle the text leads to: the next request, or the end. -/
def unlessConverged (result : Progress × List Edit) (s : Session σ φ)
    (next : Progress → Session σ φ → Except Error Outcome × Session σ φ) :
    Except Error Outcome × Session σ φ :=
  if isConverged result.2 then (.ok { result.1 with ending := .converged }, s)
  else next result.1 s

theorem passes_eq_andThen (service : Service σ) (sink : Sink φ) (b : Brief) (left : Nat)
    (p : Progress) (s : Session σ φ) :
    passes service sink b left p s =
      andThen (generate service sink b { p with passes := p.passes + 1 } s) fun r s =>
        unlessConverged r s fun p s =>
          andThen (correct service sink b p s) fun r s =>
            unlessConverged r s fun p s =>
              match left with
              | 0 => (.ok { p with ending := .capReached }, s)
              | left + 1 => passes service sink b left p s := by
  rw [passes.eq_def]
  dsimp only
  obtain ⟨result, after⟩ := generate service sink b { p with passes := p.passes + 1 } s
  cases result with
  | error e => rfl
  | ok r =>
      simp only [andThen, unlessConverged]
      split
      · rfl
      · obtain ⟨result, after⟩ := correct service sink b r.1 after
        cases result with
        | error e => rfl
        | ok r => rfl

theorem mapTypes_llm (service : Service σ) (sink : Sink φ) (types : List String)
    (forest : List JavaType) (path : String) (s : Session σ φ) :
    mapTypes service sink .llm types forest path s =
      andThen (ask service sink "type-mapping" (Prompt.mapping types (summarize forest) path) s)
        fun text s => (.ok (answerNames text.toList), s) := by
  unfold mapTypes
  simp only
  obtain ⟨reply, asked⟩ := ask service sink "type-mapping" _ s
  cases reply <;> rfl

theorem document_eq_andThen (service : Service σ) (sink : Sink φ) (options : Options)
    (source path : String) (types : List String) (forest : List JavaType) (s : Session σ φ) :
    document service sink options source path types forest s =
      andThen (mapTypes service sink options.matcher types forest path s) fun relevant s =>
        if relevant.isEmpty then (.ok .noMappings, s)
        else if (filterTypes forest relevant).isEmpty then (.ok .noMatches, s)
        else
          andThen (editLoop service sink options.maxPasses ⟨filterTypes forest relevant, path⟩
            source s) fun outcome s => (.ok (.documented outcome), s) := by
  unfold document
  obtain ⟨result, after⟩ := mapTypes service sink options.matcher types forest path s
  cases result with
  | error e => rfl
  | ok relevant =>
      simp only [andThen]
      split
      · rfl
      · split
        · rfl
        · obtain ⟨result, after⟩ := editLoop service sink options.maxPasses _ source after
          cases result <;> rfl

/-- The status of a file whose stages came out like this. -/
def FileStatus.ofResult : Except Error FileStatus → FileStatus
  | .ok status => status
  | .error e => .failed e.message

theorem transferSource_eq (service : Service σ) (sink : Sink φ) (options : Options)
    (forest : List JavaType) (source path : String) (s : Session σ φ) :
    transferSource service sink options forest source path s =
      let types := declaredTypes options.exportWords source path
      let worked := document service sink options source path types forest { s with usage := {} }
      if types.isEmpty then (⟨path, types, {}, .noTypes⟩, { s with usage := {} })
      else (⟨path, types, worked.2.usage, .ofResult worked.1⟩, worked.2) := by
  unfold transferSource
  simp only
  split
  · rfl
  · obtain ⟨result, after⟩ := document service sink options source path _ forest _
    cases result <;> rfl

/-! ## Agreement -/

/-- Two steps with the same outcome, after which the sessions are related. -/
def Agree (related : Session σ φ → Session σ' φ' → Prop) (x : α × Session σ φ)
    (y : α × Session σ' φ') : Prop :=
  x.1 = y.1 ∧ related x.2 y.2

variable {related : Session σ φ → Session σ' φ' → Prop}

theorem Agree.of_related {s : Session σ φ} {s' : Session σ' φ'} (a : α) (h : related s s') :
    Agree related (a, s) (a, s') :=
  ⟨rfl, h⟩

theorem Agree.andThen {x : Except Error α × Session σ φ} {y : Except Error α × Session σ' φ'}
    {next : α → Session σ φ → Except Error β × Session σ φ}
    {next' : α → Session σ' φ' → Except Error β × Session σ' φ'} (h : Agree related x y)
    (hnext : ∀ a s s', related s s' → Agree related (next a s) (next' a s')) :
    Agree related (andThen x next) (Transfer.andThen y next') := by
  obtain ⟨result, s⟩ := x
  obtain ⟨result', s'⟩ := y
  obtain ⟨rfl, hs⟩ := h
  cases result with
  | error e => exact .of_related _ hs
  | ok a => exact hnext a s s' hs

/-- Requests and stored texts come out the same on both sides and keep the sessions related. -/
structure Lockstep (service : Service σ) (sink : Sink φ) (service' : Service σ') (sink' : Sink φ')
    (related : Session σ φ → Session σ' φ' → Prop) : Prop where
  ask : ∀ {s s'} (label prompt : String), related s s' →
    Agree related (ask service sink label prompt s) (Transfer.ask service' sink' label prompt s')
  store : ∀ {s s'} (text : String), related s s' →
    Agree related (store sink text s) (Transfer.store sink' text s')

namespace Lockstep

variable {service : Service σ} {sink : Sink φ} {service' : Service σ'} {sink' : Sink φ'}
  {s : Session σ φ} {s' : Session σ' φ'}

theorem absorb (h : Lockstep service sink service' sink' related) (edits : List Edit)
    (p : Progress) (hs : related s s') :
    Agree related (absorb sink edits p s) (Transfer.absorb sink' edits p s') := by
  rw [absorb_eq_andThen, absorb_eq_andThen]
  split
  · exact .of_related _ hs
  · exact (h.store _ hs).andThen fun _ _ _ => .of_related _

theorem exchange (h : Lockstep service sink service' sink' related) (label prompt : String)
    (p : Progress) (hs : related s s') :
    Agree related (exchange service sink label prompt p s)
      (Transfer.exchange service' sink' label prompt p s') := by
  rw [exchange_eq_andThen, exchange_eq_andThen]
  refine (h.ask label prompt hs).andThen ?_
  intro text s s' hs
  exact (h.absorb _ _ hs).andThen fun _ _ _ => .of_related _

theorem unlessConverged {next : Progress → Session σ φ → Except Error Outcome × Session σ φ}
    {next' : Progress → Session σ' φ' → Except Error Outcome × Session σ' φ'}
    (result : Progress × List Edit) (hs : related s s')
    (hnext : ∀ p, Agree related (next p s) (next' p s')) :
    Agree related (unlessConverged result s next) (Transfer.unlessConverged result s' next') := by
  unfold Transfer.unlessConverged
  split
  · exact .of_related _ hs
  · exact hnext result.1

theorem passes (h : Lockstep service sink service' sink' related) (b : Brief) (left : Nat)
    (p : Progress) (hs : related s s') :
    Agree related (passes service sink b left p s) (Transfer.passes service' sink' b left p s') := by
  induction left generalizing p s s' with
  | zero =>
      rw [passes_eq_andThen, passes_eq_andThen]
      refine (h.exchange _ _ _ hs).andThen fun r s s' hs => unlessConverged r hs fun p => ?_
      refine (h.exchange _ _ _ hs).andThen fun r s s' hs => unlessConverged r hs fun p => ?_
      exact .of_related _ hs
  | succ left ih =>
      rw [passes_eq_andThen, passes_eq_andThen]
      refine (h.exchange _ _ _ hs).andThen fun r s s' hs => unlessConverged r hs fun p => ?_
      refine (h.exchange _ _ _ hs).andThen fun r s s' hs => unlessConverged r hs fun p => ?_
      exact ih p hs

theorem editLoop (h : Lockstep service sink service' sink' related) (maxPasses : Nat) (b : Brief)
    (source : String) (hs : related s s') :
    Agree related (editLoop service sink maxPasses b source s)
      (Transfer.editLoop service' sink' maxPasses b source s') :=
  h.passes b (maxPasses - 1) { code := source.toList } hs

theorem mapTypes (h : Lockstep service sink service' sink' related) (strategy : Strategy)
    (types : List String) (forest : List JavaType) (path : String) (hs : related s s') :
    Agree related (mapTypes service sink strategy types forest path s)
      (Transfer.mapTypes service' sink' strategy types forest path s') := by
  cases strategy with
  | heuristic => exact .of_related _ hs
  | llm =>
      rw [mapTypes_llm, mapTypes_llm]
      exact (h.ask _ _ hs).andThen fun _ _ _ => .of_related _

theorem document (h : Lockstep service sink service' sink' related) (options : Options)
    (source path : String) (types : List String) (forest : List JavaType) (hs : related s s') :
    Agree related (document service sink options source path types forest s)
      (Transfer.document service' sink' options source path types forest s') := by
  rw [document_eq_andThen, document_eq_andThen]
  refine (h.mapTypes _ _ _ _ hs).andThen ?_
  intro relevant s s' hs
  split
  · exact .of_related _ hs
  split
  · exact .of_related _ hs
  · exact (h.editLoop _ _ _ hs).andThen fun _ _ _ => .of_related _

/-- Sessions that have spent the same, in whatever else they differ, give the same report. -/
theorem transferSource (h : Lockstep service sink service' sink' related)
    (husage : ∀ {s s'}, related s s' → s.usage = s'.usage) (options : Options)
    (forest : List JavaType) (source path : String)
    (hs : related { s with usage := {} } { s' with usage := {} }) :
    Agree related (transferSource service sink options forest source path s)
      (Transfer.transferSource service' sink' options forest source path s') := by
  rw [transferSource_eq, transferSource_eq]
  simp only
  split
  · exact .of_related _ hs
  · obtain ⟨hresult, hafter⟩ :=
      h.document options source path (declaredTypes options.exportWords source path) forest hs
    rw [hresult, husage hafter]
    exact .of_related _ hafter

end Lockstep

/-! ## Invariants -/

/-- What neither a request nor a stored text breaks. -/
structure Kept (service : Service σ) (sink : Sink φ) (inv : Session σ φ → Prop) : Prop where
  ask : ∀ {s} (label prompt : String), inv s → inv (ask service sink label prompt s).2
  store : ∀ {s} (text : String), inv s → inv (store sink text s).2

namespace Kept

variable {service : Service σ} {sink : Sink φ} {inv : Session σ φ → Prop} {s : Session σ φ}

theorem lockstep (h : Kept service sink inv) :
    Lockstep service sink service sink fun s s' => s = s' ∧ inv s where
  ask label prompt := by
    rintro ⟨rfl, hs⟩
    exact ⟨rfl, rfl, h.ask label prompt hs⟩
  store text := by
    rintro ⟨rfl, hs⟩
    exact ⟨rfl, rfl, h.store text hs⟩

theorem transferSource (h : Kept service sink inv) (options : Options) (forest : List JavaType)
    (source path : String) (hs : inv { s with usage := {} }) :
    inv (transferSource service sink options forest source path s).2 :=
  (h.lockstep.transferSource (fun hs => by rw [hs.1]) options forest source path ⟨rfl, hs⟩).2.2

end Kept

end DocTransfer.Transfer
