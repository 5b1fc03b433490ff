import DocTransfer.Matching.Basic
import DocTransfer.Proofs.Javadoc.DepthFirst

/-! # What is selected by name

The matches of a file's types are the full names in a forest that answer to one of them: each once,
by the first type that it answers to and then by its first place in the walk. The documentation that
these select is that of all types so named. -/

namespace DocTransfer.Matching

/-! ## Places in a list -/

section Places

variable {α : Type} [DecidableEq α]

theorem idxOf_filter_lt_iff {p : α → Bool} {a b : α} (ha : p a) (hb : p b) (xs : List α) :
    (xs.filter p).idxOf a < (xs.filter p).idxOf b ↔ xs.idxOf a < xs.idxOf b := by
  induction xs with
  | nil => simp
  | cons x xs ih =>
      by_cases hx : p x
      · rw [List.filter_cons_of_pos hx]
        simp only [List.idxOf_cons, cond_eq_ite]
        split <;> split <;> simp [ih]
      · have hxa : x ≠ a := fun h => hx (h ▸ ha)
        have hxb : x ≠ b := fun h => hx (h ▸ hb)
        rw [List.filter_cons_of_neg hx, ih]
        simp [hxa, hxb]

/-- What is left without repetitions stands in the order of first places. -/
theorem pairwise_idxOf_eraseDups (xs : List α) :
    xs.eraseDups.Pairwise fun a b => xs.idxOf a < xs.idxOf b := by
  match xs with
  | [] => simp
  | x :: xs =>
      rw [List.eraseDups_cons]
      refine List.pairwise_cons.mpr ⟨?_, ?_⟩
      · intro a ha
        have hne : x ≠ a := by
          rintro rfl
          simp at ha
        simp [hne]
      · -- the rest without the head is no longer, and keeps the order of what is left in it
        refine (pairwise_idxOf_eraseDups _).imp_of_mem ?_
        intro a b ha hb hlt
        simp only [List.mem_eraseDups, List.mem_filter] at ha hb
        rw [idxOf_filter_lt_iff (p := fun c => !c == x) ha.2 hb.2] at hlt
        have hxa : x ≠ a := by
          rintro rfl
          simp at ha
        have hxb : x ≠ b := by
          rintro rfl
          simp at hb
        simpa [hxa, hxb] using hlt
termination_by xs.length
decreasing_by
  exact Nat.lt_succ_of_le (List.length_filter_le _ _)

end Places

/-! ## Names that answer to a type -/

/-- What follows the last dot of a name, or all of it where there is none. -/
def LastSegment (name segment : List Char) : Prop :=
  '.' ∉ segment ∧ (name = segment ∨ ∃ front, name = front ++ '.' :: segment)

theorem simpleName_append {segment : List Char} (h : '.' ∉ segment) (front : List Char) :
    simpleName (front ++ segment) = simpleName front ++ segment := by
  have hall : ∀ c ∈ segment.reverse, (c != '.') = true := by
    intro c hc
    rw [bne_iff_ne]
    rintro rfl
    exact h (List.mem_reverse.mp hc)
  rw [simpleName, List.reverse_append, List.takeWhile_append_of_pos hall, List.reverse_append,
    List.reverse_reverse, simpleName]

theorem LastSegment.eq_simpleName {name segment : List Char} (h : LastSegment name segment) :
    segment = simpleName name := by
  obtain ⟨hdot, rfl | ⟨front, rfl⟩⟩ := h
  · simpa [simpleName] using (simpleName_append hdot []).symm
  · have happend := simpleName_append hdot (front ++ ['.'])
    simpa [simpleName] using happend.symm

theorem exists_lastSegment (name : List Char) : ∃ segment, LastSegment name segment := by
  by_cases hdot : '.' ∈ name
  · obtain ⟨segment, front, hsplit, hsegment⟩ :=
      List.eq_append_cons_of_mem (List.mem_reverse.mpr hdot)
    refine ⟨segment.reverse, by simpa using hsegment, .inr ⟨front.reverse, ?_⟩⟩
    simpa using congrArg List.reverse hsplit
  · exact ⟨name, hdot, .inl rfl⟩

theorem lastSegment_iff {name segment : List Char} :
    LastSegment name segment ↔ segment = simpleName name := by
  refine ⟨LastSegment.eq_simpleName, ?_⟩
  rintro rfl
  obtain ⟨segment, h⟩ := exists_lastSegment name
  exact h.eq_simpleName ▸ h

/-- The last segment of the full name matches the name of a target type. -/
def Answers (target fullName : String) : Prop :=
  ∃ segment, LastSegment fullName.toList segment ∧ namesMatch target.toList segment

theorem answers_iff {target fullName : String} :
    Answers target fullName ↔ namesMatch target.toList (simpleName fullName.toList) := by
  simp [Answers, lastSegment_iff]

instance (target fullName : String) : Decidable (Answers target fullName) :=
  decidable_of_iff _ answers_iff.symm

/-! ## Selection -/

/-- The place of the first target type that a full name answers to. -/
def firstTarget (targets : List String) (fullName : String) : Nat :=
  targets.findIdx (Answers · fullName)

theorem firstTarget_cons (target : String) (targets : List String) (fullName : String) :
    firstTarget (target :: targets) fullName =
      if Answers target fullName then 0 else firstTarget targets fullName + 1 := by
  by_cases h : Answers target fullName <;> simp [firstTarget, List.findIdx_cons, h]

/-- The full names of a row of types, without empty ones. -/
def namesOf (types : List JavaType) : List String :=
  (types.map (·.fullName)).filter (· != "")

/-- The names that answer to each target type, one type after the other. -/
def answersTo (targets names : List String) : List String :=
  targets.flatMap fun target => names.filter (Answers target ·)

theorem heuristicMatches_eq (targets : List String) (forest : List JavaType) :
    heuristicMatches targets (summarize forest) =
      (answersTo targets (namesOf (JavaType.walkAll forest))).eraseDups := by
  have hanswers (target fullName : String) :
      decide (Answers target fullName) =
        namesMatch target.toList (simpleName fullName.toList) := by
    simp [answers_iff]
  simp only [heuristicMatches, summarize, answersTo, namesOf, hanswers]
  simp [List.filter_map, Function.comp_def]

theorem mem_answersTo {targets names : List String} {name : String} :
    name ∈ answersTo targets names ↔ name ∈ names ∧ ∃ target ∈ targets, Answers target name := by
  simp only [answersTo, List.mem_flatMap, List.mem_filter, decide_eq_true_eq]
  constructor
  · rintro ⟨target, htarget, hname, hanswers⟩
    exact ⟨hname, target, htarget, hanswers⟩
  · rintro ⟨hname, target, htarget, hanswers⟩
    exact ⟨target, htarget, hname, hanswers⟩

/-- Names are met first by the type that they answer to first, and then by their place. -/
theorem lex_of_idxOf_answersTo_lt {targets names : List String} {a b : String} (ha : a ∈ names)
    (hb : b ∈ names) (h : (answersTo targets names).idxOf a < (answersTo targets names).idxOf b) :
    firstTarget targets a < firstTarget targets b ∨
      firstTarget targets a = firstTarget targets b ∧ names.idxOf a < names.idxOf b := by
  -- a name is met under the first target type that it answers to, so only that type counts
  induction targets with
  | nil => simp [answersTo] at h
  | cons target targets ih =>
      have hmem (name : String) (hname : name ∈ names) :
          name ∈ names.filter (Answers target ·) ↔ Answers target name := by
        simp [hname]
      rw [answersTo, List.flatMap_cons, List.idxOf_append, List.idxOf_append] at h
      simp only [hmem a ha, hmem b hb] at h
      rw [firstTarget_cons, firstTarget_cons]
      by_cases hanswersA : Answers target a
      · by_cases hanswersB : Answers target b
        · rw [if_pos hanswersA, if_pos hanswersB, idxOf_filter_lt_iff (by simpa) (by simpa)] at h
          simp [hanswersA, hanswersB, h]
        · simp [hanswersA, hanswersB]
      · by_cases hanswersB : Answers target b
        · rw [if_neg hanswersA, if_pos hanswersB] at h
          have hlast := List.idxOf_lt_length_of_mem ((hmem b hb).mpr hanswersB)
          omega
        · rw [if_neg hanswersA, if_neg hanswersB] at h
          simpa [hanswersA, hanswersB] using ih (Nat.lt_of_add_lt_add_right h)

theorem mem_namesOf {types : List JavaType} {name : String} :
    name ∈ namesOf types ↔ name ≠ "" ∧ ∃ t ∈ types, t.fullName = name := by
  simp [namesOf, and_comm]

theorem mem_heuristicMatches_iff {targets : List String} {forest : List JavaType} {name : String} :
    name ∈ heuristicMatches targets (summarize forest) ↔
      name ≠ "" ∧ (∃ t ∈ JavaType.walkAll forest, t.fullName = name) ∧
        ∃ target ∈ targets, Answers target name := by
  rw [heuristicMatches_eq, List.mem_eraseDups, mem_answersTo, mem_namesOf, and_assoc]

theorem pairwise_heuristicMatches (targets : List String) (forest : List JavaType) :
    (heuristicMatches targets (summarize forest)).Pairwise fun name later =>
      firstTarget targets name < firstTarget targets later ∨
        firstTarget targets name = firstTarget targets later ∧
          ((JavaType.walkAll forest).map (·.fullName)).idxOf name <
            ((JavaType.walkAll forest).map (·.fullName)).idxOf later := by
  rw [heuristicMatches_eq]
  refine (pairwise_idxOf_eraseDups _).imp_of_mem ?_
  intro name later hname hlater hlt
  have hname := (mem_answersTo.mp (List.mem_eraseDups.mp hname)).1
  have hlater := (mem_answersTo.mp (List.mem_eraseDups.mp hlater)).1
  have hlex := lex_of_idxOf_answersTo_lt hname hlater hlt
  rwa [namesOf, idxOf_filter_lt_iff (p := (· != "")) (List.mem_filter.mp hname).2
    (List.mem_filter.mp hlater).2] at hlex

/-- The documentation that matched names select is that of the types with such names. -/
theorem filterTypes_heuristicMatches (targets : List String) (forest : List JavaType) :
    filterTypes forest (heuristicMatches targets (summarize forest)) =
      ((JavaType.walkAll forest).filter fun t =>
        t.fullName ≠ "" ∧ ∃ target ∈ targets, Answers target t.fullName).map TypeDocs.ofType := by
  rw [filterTypes]
  congr 1
  refine List.filter_congr ?_
  intro t ht
  have hsome : ∃ u ∈ JavaType.walkAll forest, u.fullName = t.fullName := ⟨t, ht, rfl⟩
  rw [Bool.eq_iff_iff, List.contains_iff_mem, mem_heuristicMatches_iff, decide_eq_true_eq]
  tauto

/-- In a forest whose types are listed depth first, the matched names are those that are not empty
and answer to a target type. They are without repetitions, in the order of the first target type
that each answers to and then of its first place in the list. Their documentation is that of all
types with such a name, in the order of the list and as often as they stand in it. -/
theorem heuristicMatches_exactly (targets : List String) (forest : List JavaType) :
    ∃ types, JavaType.DepthFirst forest types ∧
      (heuristicMatches targets (summarize forest)).Nodup ∧
      (heuristicMatches targets (summarize forest)).Pairwise (fun name later =>
        firstTarget targets name < firstTarget targets later ∨
          firstTarget targets name = firstTarget targets later ∧
            (types.map (·.fullName)).idxOf name < (types.map (·.fullName)).idxOf later) ∧
      (∀ name, name ∈ heuristicMatches targets (summarize forest) ↔
        name ≠ "" ∧ (∃ t ∈ types, t.fullName = name) ∧ ∃ target ∈ targets, Answers target name) ∧
      filterTypes forest (heuristicMatches targets (summarize forest)) =
        (types.filter fun t =>
          t.fullName ≠ "" ∧ ∃ target ∈ targets, Answers target t.fullName).map fun t =>
            { fullName := t.fullName, javadoc := t.javadoc, members := t.members,
              constants := t.constants.getD [] } := by
  refine ⟨JavaType.walkAll forest, JavaType.depthFirst_walkAll forest, ?_,
    pairwise_heuristicMatches targets forest, fun _ => mem_heuristicMatches_iff,
    filterTypes_heuristicMatches targets forest⟩
  refine (pairwise_heuristicMatches targets forest).imp ?_
  rintro name later hlex rfl
  omega

end DocTransfer.Matching
