import DocTransfer.Proofs.Session.Handed

/-! # How far the work on a file goes

A file without types is left at once, and so is one whose types have no counterpart as soon as that
is known: after the mapping, which takes one request or none. Types that were matched by name are
always found again, as both walks over the forest see the same nodes. -/

namespace DocTransfer.Transfer

open Model Matching

variable {σ φ : Type}

/-! ## Matches by name -/

theorem mem_summarize {forest : List JavaType} {entry : Summary} (h : entry ∈ summarize forest) :
    ∃ t ∈ JavaType.walkAll forest, t.fullName = entry.name := by
  obtain ⟨t, ht, rfl⟩ := List.mem_map.mp h
  exact ⟨t, (List.mem_filter.mp ht).1, rfl⟩

theorem mem_heuristicMatches {targets : List String} {summary : List Summary} {name : String}
    (h : name ∈ heuristicMatches targets summary) : ∃ entry ∈ summary, entry.name = name := by
  rw [heuristicMatches, List.mem_eraseDups, List.mem_flatMap] at h
  obtain ⟨target, -, h⟩ := h
  obtain ⟨entry, hentry, rfl⟩ := List.mem_map.mp h
  exact ⟨entry, (List.mem_filter.mp hentry).1, rfl⟩

/-- Every name that was matched in the summary of a forest finds documentation there. -/
theorem filterTypes_ne_nil_of_heuristicMatches {targets : List String} {forest : List JavaType}
    (h : heuristicMatches targets (summarize forest) ≠ []) :
    filterTypes forest (heuristicMatches targets (summarize forest)) ≠ [] := by
  obtain ⟨name, hname⟩ := List.exists_mem_of_ne_nil _ h
  obtain ⟨entry, hentry, rfl⟩ := mem_heuristicMatches hname
  obtain ⟨t, ht, hfull⟩ := mem_summarize hentry
  rw [← hfull] at hname
  apply List.ne_nil_of_mem (a := TypeDocs.ofType t)
  exact List.mem_map_of_mem (List.mem_filter.mpr ⟨ht, by simpa using hname⟩)

/-! ## Stages -/

section

variable {service : Service σ} {sink : Sink φ} {options : Options} {source path : String}
  {types : List String} {forest : List JavaType} {s : Session σ φ}

/-- Where the stages of a file that does not fail come to an end, and with what. -/
theorem document_ok_cases {status : FileStatus}
    (h : (document service sink options source path types forest s).1 = .ok status) :
    ∃ relevant mapped, mapTypes service sink options.matcher types forest path s =
        (.ok relevant, mapped) ∧
      (relevant = [] ∧ status = .noMappings ∧
          (document service sink options source path types forest s).2 = mapped ∨
        relevant ≠ [] ∧ filterTypes forest relevant = [] ∧ status = .noMatches ∧
          (document service sink options source path types forest s).2 = mapped ∨
        ∃ outcome, status = .documented outcome) := by
  rw [document_eq_andThen] at h ⊢
  generalize mapTypes service sink options.matcher types forest path s = x at h ⊢
  obtain ⟨result, mapped⟩ := x
  cases result with
  | error e => cases h
  | ok relevant =>
      refine ⟨relevant, mapped, rfl, ?_⟩
      simp only [andThen, List.isEmpty_iff] at h ⊢
      split at h
      next hnone =>
        cases h
        exact .inl ⟨hnone, rfl, by simp [hnone]⟩
      next hsome =>
        split at h
        next hempty =>
          cases h
          exact .inr (.inl ⟨hsome, hempty, rfl, by simp [hsome, hempty]⟩)
        next =>
          split at h
          next => cases h
          next outcome _ _ =>
            cases h
            exact .inr (.inr ⟨outcome, rfl⟩)

theorem document_ne_noTypes :
    (document service sink options source path types forest s).1 ≠ .ok .noTypes := by
  intro h
  obtain ⟨_, _, -, hends⟩ := document_ok_cases h
  obtain ⟨-, ⟨⟩, -⟩ | ⟨-, -, ⟨⟩, -⟩ | ⟨_, ⟨⟩⟩ := hends

/-- Stages that end with the mapping have asked for the mapping alone and handed over nothing. -/
theorem document_early {status : FileStatus}
    (h : (document service sink options source path types forest s).1 = .ok status)
    (hearly : status = .noMappings ∨ status = .noMatches) :
    ∃ trace, (document service sink options source path types forest s).2.events =
        s.events ++ trace ∧
      handed trace = [] ∧ (prompts trace).length = mappingRequests options.matcher := by
  obtain ⟨trace, htrace, hnone, hasked⟩ :=
    mapTypes_handed service sink options.matcher types forest path s
  refine ⟨trace, ?_, hnone, hasked⟩
  obtain ⟨relevant, mapped, hmap, hends⟩ := document_ok_cases h
  rw [hmap] at htrace
  obtain ⟨-, -, hafter⟩ | ⟨-, -, -, hafter⟩ | ⟨outcome, rfl⟩ := hends
  · rw [hafter, htrace]
  · rw [hafter, htrace]
  · simp at hearly

theorem document_heuristic_ne_noMatches (hmatcher : options.matcher = .heuristic) :
    (document service sink options source path types forest s).1 ≠ .ok .noMatches := by
  intro h
  obtain ⟨relevant, mapped, hmap, hends⟩ := document_ok_cases h
  rw [hmatcher] at hmap
  obtain ⟨rfl, -⟩ : heuristicMatches types (summarize forest) = relevant ∧ s = mapped := by
    simpa [mapTypes] using hmap
  obtain ⟨-, ⟨⟩, -⟩ | ⟨hsome, hempty, -⟩ | ⟨_, ⟨⟩⟩ := hends
  exact filterTypes_ne_nil_of_heuristicMatches hsome hempty

end

theorem eq_ok_of_ofResult {result : Except Error FileStatus} {status : FileStatus}
    (h : FileStatus.ofResult result = status) (hdone : ∀ message, status ≠ .failed message) :
    result = .ok status := by
  cases result with
  | error e => exact absurd h.symm (hdone e.message)
  | ok found => rw [← h]; rfl

/-- A file has the status of one without types exactly when it declares none, and then nothing is
asked, spent or handed over. Where the mapping or its lookup comes up empty nothing is handed over
either, and the requests made are those of the mapping: one to the model, none when types are
matched by name. Then the lookup never comes up empty. The text of a documented file is the one that
was handed over last, or the source. -/
theorem transferSource_stages (service : Service σ) (sink : Sink φ) (options : Options)
    (forest : List JavaType) (source path : String) (s : Session σ φ) :
    let worked := transferSource service sink options forest source path s
    ∃ trace, worked.2.events = s.events ++ trace ∧
      (worked.1.status = .noTypes ↔ declaredTypes options.exportWords source path = []) ∧
      (worked.1.status = .noTypes → prompts trace = [] ∧ handed trace = [] ∧
        worked.1.usage = {} ∧ worked.2.model = s.model ∧ worked.2.sink = s.sink) ∧
      (worked.1.status = .noMappings ∨ worked.1.status = .noMatches →
        handed trace = [] ∧ (prompts trace).length = mappingRequests options.matcher) ∧
      (options.matcher = .heuristic → worked.1.status ≠ .noMatches) ∧
      ∀ outcome, worked.1.status = .documented outcome →
        String.ofList outcome.code = (handed trace).getLastD source := by
  intro worked
  obtain ⟨trace, htrace, hcode⟩ := transferSource_handed service sink options forest source path s
  refine ⟨trace, htrace, ?_⟩
  have hdocumented (outcome : Outcome) (h : worked.1.status = .documented outcome) :
      String.ofList outcome.code = (handed trace).getLastD source := by
    rw [hcode (by simp [Report.isFailed, worked, h]), Report.code?, h]
    rfl
  rw [transferSource_eq] at htrace
  simp only [worked, transferSource_eq] at hdocumented ⊢
  by_cases hnone : declaredTypes options.exportWords source path = []
  · simp only [hnone, List.isEmpty_nil, if_true] at htrace ⊢
    obtain rfl : trace = [] := by simpa using htrace
    simp [prompts, handed]
  · simp only [List.isEmpty_iff, hnone, if_false] at htrace hdocumented ⊢
    refine ⟨?_, ?_, ?_, ?_, hdocumented⟩
    · exact iff_of_false (fun h => document_ne_noTypes (eq_ok_of_ofResult h (by simp))) not_false
    · exact fun h => absurd (eq_ok_of_ofResult h (by simp)) document_ne_noTypes
    · intro h
      obtain ⟨early, htrace', hhanded, hasked⟩ := document_early
        (eq_ok_of_ofResult rfl (by obtain h | h := h <;> simp [h])) h
      obtain rfl : trace = early := List.append_cancel_left (htrace.symm.trans htrace')
      exact ⟨hhanded, hasked⟩
    · exact fun hmatcher h =>
        document_heuristic_ne_noMatches hmatcher (eq_ok_of_ofResult h (by simp))

end DocTransfer.Transfer
