import DocTransfer.Proofs.EditLoop.CrashSafety
import DocTransfer.Proofs.Session.Lockstep

/-! # What the work on a file hands over

Unless the work fails, the text handed over last is the one that the report tells, and nothing is
handed over where the report tells none. -/

namespace DocTransfer.Transfer

open Model Matching

variable {σ φ : Type}

/-- A course that comes to an end has handed over its text. -/
theorem Course.code_eq_lastHanded {b : Brief} {n : Nat} {p : Progress} {events : List Event}
    {o : Outcome} (h : Course b n p events (.ok o)) : o.code = lastHanded p.code events := by
  have hone (prompt : String) (code : List Char) (a : Completion) :
      lastHanded code (answeredEvents prompt code a) = (patch (batchOf a) code).code := by
    simpa using lastHanded_answeredEvents_append prompt code a []
  generalize hresult : Except.ok o = result at h
  induction h with
  | refused => cases hresult
  | lost => cases hresult
  | settled n p a hidle =>
      cases hresult
      rw [hone]
      rfl
  | spent p a hbusy =>
      cases hresult
      rw [hone]
      rfl
  | again hbusy _ ih => rw [lastHanded_answeredEvents_append, ih hresult, Progress.next_code]

theorem editLoop_handed (service : Service σ) (sink : Sink φ) (maxPasses : Nat) (b : Brief)
    (source : String) (s : Session σ φ) :
    ∃ trace, (editLoop service sink maxPasses b source s).2.events = s.events ++ trace ∧
      ∀ o, (editLoop service sink maxPasses b source s).1 = .ok o →
        (handed trace).getLastD source = String.ofList o.code := by
  obtain ⟨trace, htrace, hcourse⟩ := editLoop_course service sink maxPasses b source s
  refine ⟨trace, htrace, ?_⟩
  intro o ho
  rw [ho] at hcourse
  simp [hcourse.code_eq_lastHanded, lastHanded]

theorem ask_handed (service : Service σ) (sink : Sink φ) (label prompt : String)
    (s : Session σ φ) :
    ∃ trace, (ask service sink label prompt s).2.events = s.events ++ trace ∧
      handed trace = [] ∧ prompts trace = [prompt] := by
  obtain ⟨e, after, hask, hevents⟩ | ⟨a, after, hask, hevents⟩ :=
    ask_cases service sink label prompt s
  · exact ⟨_, by rw [hask, hevents], rfl, rfl⟩
  · exact ⟨_, by rw [hask, hevents], rfl, rfl⟩

/-- How many requests it takes to map types. -/
def mappingRequests : Strategy → Nat
  | .llm => 1
  | .heuristic => 0

theorem mapTypes_handed (service : Service σ) (sink : Sink φ) (strategy : Strategy)
    (types : List String) (forest : List JavaType) (path : String) (s : Session σ φ) :
    ∃ trace, (mapTypes service sink strategy types forest path s).2.events = s.events ++ trace ∧
      handed trace = [] ∧ (prompts trace).length = mappingRequests strategy := by
  cases strategy with
  | heuristic => exact ⟨[], (List.append_nil _).symm, rfl, rfl⟩
  | llm =>
      rw [mapTypes_llm]
      obtain ⟨trace, htrace, hnone, hasked⟩ := ask_handed service sink "type-mapping"
        (Prompt.mapping types (summarize forest) path) s
      refine ⟨trace, ?_, hnone, by rw [hasked]; rfl⟩
      rw [← htrace]
      obtain ⟨reply, asked⟩ := ask service sink "type-mapping" _ s
      cases reply <;> rfl

/-- The final text that a status tells. -/
def FileStatus.code? : FileStatus → Option String
  | .documented outcome => some (String.ofList outcome.code)
  | _ => none

theorem document_handed (service : Service σ) (sink : Sink φ) (options : Options)
    (source path : String) (types : List String) (forest : List JavaType) (s : Session σ φ) :
    ∃ trace, (document service sink options source path types forest s).2.events =
        s.events ++ trace ∧
      ∀ status, (document service sink options source path types forest s).1 = .ok status →
        (handed trace).getLastD source = status.code?.getD source := by
  obtain ⟨mapping, hmapping, hnone, -⟩ :=
    mapTypes_handed service sink options.matcher types forest path s
  rw [document_eq_andThen]
  generalize mapTypes service sink options.matcher types forest path s = mapped at hmapping ⊢
  obtain ⟨result, after⟩ := mapped
  cases result with
  | error e => exact ⟨mapping, hmapping, fun status hstatus => by cases hstatus⟩
  | ok relevant =>
      simp only [andThen]
      split
      · refine ⟨mapping, hmapping, ?_⟩
        rintro status ⟨⟩
        simp [hnone, FileStatus.code?]
      split
      · refine ⟨mapping, hmapping, ?_⟩
        rintro status ⟨⟩
        simp [hnone, FileStatus.code?]
      · obtain ⟨loop, hloop, hcode⟩ := editLoop_handed service sink options.maxPasses
          ⟨filterTypes forest relevant, path⟩ source after
        generalize editLoop service sink options.maxPasses ⟨filterTypes forest relevant, path⟩
          source after = looped at hloop hcode ⊢
        have htrace : looped.2.events = s.events ++ (mapping ++ loop) := by
          rw [hloop, hmapping, List.append_assoc]
        obtain ⟨result, done⟩ := looped
        cases result with
        | error e => exact ⟨_, htrace, fun status hstatus => by cases hstatus⟩
        | ok outcome =>
            refine ⟨_, htrace, ?_⟩
            rintro status ⟨⟩
            simpa [hnone, FileStatus.code?] using hcode outcome rfl

/-- A report that tells of no failure tells the text that was handed over last. -/
theorem transferSource_handed (service : Service σ) (sink : Sink φ) (options : Options)
    (forest : List JavaType) (source path : String) (s : Session σ φ) :
    ∃ trace, (transferSource service sink options forest source path s).2.events =
        s.events ++ trace ∧
      ((transferSource service sink options forest source path s).1.isFailed = false →
        (handed trace).getLastD source =
          (transferSource service sink options forest source path s).1.code?.getD source) := by
  rw [transferSource_eq]
  simp only
  split
  · exact ⟨[], (List.append_nil _).symm, fun _ => rfl⟩
  · obtain ⟨trace, htrace, hcode⟩ := document_handed service sink options source path
      (declaredTypes options.exportWords source path) forest { s with usage := {} }
    refine ⟨trace, htrace, ?_⟩
    cases hresult : (document service sink options source path
        (declaredTypes options.exportWords source path) forest { s with usage := {} }).1 with
    | error e => exact fun hfailed => by cases hfailed
    | ok status => exact fun _ => hcode status hresult

end DocTransfer.Transfer
