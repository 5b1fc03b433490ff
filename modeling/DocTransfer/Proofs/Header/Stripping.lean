import DocTransfer.Config
import DocTransfer.Header.ExportWord
import DocTransfer.Proofs.Text.Find
import DocTransfer.Proofs.Text.Words

/-! # What is left of a header without export words

A header is stripped in passes, each over what the one before has left. Known words go wherever they
stand as words of their own. The other passes follow rules that drop one word between two others. No
pass joins what stood apart or takes a word apart, so the words that are left are words of the
header. -/

namespace DocTransfer.Header

open Text

/-! ## Known words -/

theorem takeWhile_append_of_opensWord {word rest : List Char} (hword : ∀ c ∈ word, isWord c = true)
    (hrest : opensWord rest = false) : (word ++ rest).takeWhile isWord = word := by
  rw [List.takeWhile_append_of_pos hword]
  cases rest with
  | nil => simp
  | cons c rest => simp [show isWord c = false from hrest]

theorem closesWord_of_forall {word : List Char} (hne : word ≠ [])
    (hword : ∀ c ∈ word, isWord c = true) : closesWord word = true := by
  rw [closesWord, List.getLast?_eq_some_getLast hne]
  exact hword _ (List.getLast_mem hne)

section

variable {word : List Char}

/-- A word stands at the head of a text exactly where the text's first word is that word. -/
theorem standsAt_append {run rest : List Char} (hne : word ≠ [])
    (hword : ∀ c ∈ word, isWord c = true) (hrun : ∀ c ∈ run, isWord c = true)
    (hrest : opensWord rest = false) :
    standsAt word false (run ++ rest) = true ↔ run = word := by
  have hcloses := closesWord_of_forall hne hword
  constructor
  · intro h
    unfold standsAt at h
    split at h
    · cases h
    · next after hafter =>
        rw [after?_eq_some_iff] at hafter
        have hopens : opensWord after = false := by simp_all
        rw [← takeWhile_append_of_opensWord hrun hrest, hafter,
          takeWhile_append_of_opensWord hword hopens]
  · rintro rfl
    obtain ⟨c, cs, rfl⟩ := List.exists_cons_of_ne_nil hne
    have hopens : opensWord (c :: (cs ++ rest)) = true := hword c List.mem_cons_self
    rw [standsAt, after?_append]
    simp [hopens, hcloses, hrest]

theorem standsAt_of_not_isWord {c : Char} (hne : word ≠ []) (hword : ∀ d ∈ word, isWord d = true)
    (hc : isWord c = false) (afterWord : Bool) (cs : List Char) :
    standsAt word afterWord (c :: cs) = false := by
  obtain ⟨d, ds, rfl⟩ := List.exists_cons_of_ne_nil hne
  have hdc : d ≠ c := by
    rintro rfl
    simp [hword d List.mem_cons_self] at hc
  simp [standsAt, after?, hdc]

theorem eraseWordFrom_cons (afterWord : Bool) (c : Char) (cs : List Char) :
    eraseWordFrom word 0 afterWord (c :: cs) =
      if word ≠ [] ∧ standsAt word afterWord (c :: cs) then
        eraseWordFrom word (word.length - 1) (isWord c) cs
      else c :: eraseWordFrom word 0 (isWord c) cs := rfl

theorem eraseWordFrom_succ (skip : Nat) (afterWord : Bool) (c : Char) (cs : List Char) :
    eraseWordFrom word (skip + 1) afterWord (c :: cs) =
      eraseWordFrom word skip (isWord c) cs := rfl

theorem eraseWordFrom_cons_of_not_isWord {c : Char} (hne : word ≠ [])
    (hword : ∀ d ∈ word, isWord d = true) (hc : isWord c = false) (afterWord : Bool)
    (cs : List Char) :
    eraseWordFrom word 0 afterWord (c :: cs) = c :: eraseWordFrom word 0 false cs := by
  rw [eraseWordFrom_cons, if_neg (by simp [standsAt_of_not_isWord hne hword hc]), hc]

/-- Inside a word nothing is erased. -/
theorem eraseWordFrom_inside {run : List Char} (hrun : ∀ c ∈ run, isWord c = true)
    (rest : List Char) :
    eraseWordFrom word 0 true (run ++ rest) = run ++ eraseWordFrom word 0 true rest := by
  induction run with
  | nil => rfl
  | cons c run ih =>
      obtain ⟨hc, hrun⟩ := List.forall_mem_cons.mp hrun
      have hstands : standsAt word true (c :: (run ++ rest)) = false := by
        have hopens : opensWord (c :: (run ++ rest)) = true := hc
        unfold standsAt
        split <;> simp [hopens]
      rw [List.cons_append, eraseWordFrom_cons, if_neg (by simp [hstands]), hc, ih hrun,
        List.cons_append]

theorem eraseWordFrom_skip {gone : List Char} (hgone : ∀ c ∈ gone, isWord c = true)
    (rest : List Char) :
    eraseWordFrom word gone.length true (gone ++ rest) = eraseWordFrom word 0 true rest := by
  induction gone with
  | nil => rfl
  | cons c gone ih =>
      obtain ⟨hc, hgone⟩ := List.forall_mem_cons.mp hgone
      rw [List.length_cons, List.cons_append, eraseWordFrom_succ, hc, ih hgone]

/-- The first word of a text goes if it is the one to be erased, and stays otherwise. -/
theorem eraseWordFrom_append {run rest : List Char} (hne : word ≠ [])
    (hword : ∀ c ∈ word, isWord c = true) (hrun : ∀ c ∈ run, isWord c = true)
    (hrest : opensWord rest = false) :
    eraseWordFrom word 0 false (run ++ rest) =
      (if run = word then [] else run) ++ eraseWordFrom word 0 true rest := by
  cases run with
  | nil =>
      rw [if_neg hne.symm, List.nil_append, List.nil_append]
      cases rest with
      | nil => rfl
      | cons d rest =>
          rw [eraseWordFrom_cons_of_not_isWord hne hword hrest,
            eraseWordFrom_cons_of_not_isWord hne hword hrest]
  | cons c run =>
      have hstands := standsAt_append hne hword hrun hrest
      obtain ⟨hc, htail⟩ := List.forall_mem_cons.mp hrun
      rw [List.cons_append] at hstands
      rw [List.cons_append, eraseWordFrom_cons]
      by_cases heq : c :: run = word
      · have hlength : word.length - 1 = run.length := by simp [← heq]
        rw [if_pos ⟨hne, hstands.mpr heq⟩, if_pos heq, hc, hlength, eraseWordFrom_skip htail,
          List.nil_append]
      · rw [if_neg (fun h => heq (hstands.mp h.2)), if_neg heq, hc, eraseWordFrom_inside htail,
          List.cons_append]

theorem eraseWord_of_forall {run : List Char} (hne : word ≠ [])
    (hword : ∀ c ∈ word, isWord c = true) (hrun : ∀ c ∈ run, isWord c = true) :
    eraseWord run word = if run = word then [] else run := by
  have hend : opensWord [] = false := rfl
  have happend := eraseWordFrom_append hne hword hrun hend
  have hnil : eraseWordFrom word 0 true [] = [] := rfl
  rwa [hnil, List.append_nil, List.append_nil] at happend

theorem eraseWord_append_cons_of_forall {run : List Char} {c : Char} (hne : word ≠ [])
    (hword : ∀ d ∈ word, isWord d = true) (hrun : ∀ d ∈ run, isWord d = true)
    (hc : isWord c = false) (rest : List Char) :
    eraseWord (run ++ c :: rest) word = eraseWord run word ++ c :: eraseWord rest word := by
  have hopens : opensWord (c :: rest) = false := hc
  have happend := eraseWordFrom_append hne hword hrun hopens
  rw [eraseWordFrom_cons_of_not_isWord hne hword hc] at happend
  rw [eraseWord_of_forall hne hword hrun]
  exact happend

@[simp] theorem eraseWord_nil (cs : List Char) : eraseWord cs [] = cs := by
  have hfrom : ∀ afterWord, eraseWordFrom [] 0 afterWord cs = cs := by
    induction cs with
    | nil => intro _; rfl
    | cons c cs ih =>
        intro afterWord
        rw [eraseWordFrom_cons, if_neg (by simp), ih]
  exact hfrom false

/-- Erasing a word leaves all other words. -/
theorem words_eraseWord (hword : ∀ c ∈ word, isWord c = true) (cs : List Char) :
    words (eraseWord cs word) = (words cs).filter (· ≠ word) := by
  by_cases hne : word = []
  · subst hne
    rw [eraseWord_nil, eq_comm, List.filter_eq_self]
    intro w hw
    simpa using ne_nil_of_mem_words hw
  have hlast : ∀ run, (∀ c ∈ run, isWord c = true) →
      words (eraseWord run word) = (words run).filter (· ≠ word) := by
    intro run hrun
    rw [eraseWord_of_forall hne hword hrun, words_of_forall hrun]
    by_cases heq : run = word
    · subst heq
      simp [hne, words_of_forall]
    · by_cases hnil : run = []
      · subst hnil
        simp [words_of_forall]
      · simp [heq, hnil, words_of_forall hrun]
  induction cs using wordwise with
  | last run hrun => exact hlast run hrun
  | more run c rest hrun hc ih =>
      rw [eraseWord_append_cons_of_forall hne hword hrun hc, words_append_cons hc,
        words_append_cons hc, List.filter_append, hlast run hrun, ih]

end

/-- Erasing all known words leaves the words that are not known. -/
theorem words_foldl_eraseWord {known : List (List Char)}
    (hknown : ∀ w ∈ known, ∀ c ∈ w, isWord c = true) (cs : List Char) :
    words (known.foldl eraseWord cs) = (words cs).filter (· ∉ known) := by
  induction known generalizing cs with
  | nil => exact (List.filter_eq_self.mpr (by simp)).symm
  | cons w known ih =>
      obtain ⟨hw, hknown⟩ := List.forall_mem_cons.mp hknown
      rw [List.foldl_cons, ih hknown, words_eraseWord hw, List.filter_filter]
      apply List.filter_congr
      intro v _
      simp [Bool.and_comm]

theorem eraseWordFrom_sublist (word : List Char) (skip : Nat) (afterWord : Bool) (cs : List Char) :
    (eraseWordFrom word skip afterWord cs).Sublist cs := by
  fun_induction eraseWordFrom word skip afterWord cs with
  | case1 => exact .refl _
  | case2 _ _ c cs ih => exact ih.cons c
  | case3 _ c cs _ ih => exact ih.cons c
  | case4 _ c cs _ ih => exact ih.cons_cons c

theorem foldl_eraseWord_sublist (known : List (List Char)) (cs : List Char) :
    (known.foldl eraseWord cs).Sublist cs := by
  induction known generalizing cs with
  | nil => exact .refl _
  | cons w known ih => exact (ih _).trans (eraseWordFrom_sublist w 0 false cs)

/-! ## Rules that only delete -/

/-- Nothing but blanks has been put in, and the words that are left are words from before. -/
structure Thinned (new old : List Char) : Prop where
  characters : (unblank new).Sublist (unblank old)
  words : (words new).Sublist (words old)

theorem Thinned.refl (cs : List Char) : Thinned cs cs :=
  ⟨.refl _, .refl _⟩

theorem Thinned.trans {xs ys zs : List Char} (h₁ : Thinned xs ys) (h₂ : Thinned ys zs) :
    Thinned xs zs :=
  ⟨h₁.characters.trans h₂.characters, h₁.words.trans h₂.words⟩

/-- What keeps words apart. -/
structure Separates (gap : List Char) : Prop where
  ne_nil : gap ≠ []
  no_word : ∀ c ∈ gap, isWord c = false

/-- Between words that are only thinned, one separator may take the place of another. -/
theorem Thinned.append {xs ys xs' ys' gap gap' : List Char} (hx : Thinned xs xs')
    (hy : Thinned ys ys') (hgap : Separates gap) (hgap' : Separates gap')
    (hcharacters : (unblank gap).Sublist (unblank gap')) :
    Thinned (xs ++ (gap ++ ys)) (xs' ++ (gap' ++ ys')) := by
  constructor
  · simp only [unblank_append]
    exact hx.characters.append (hcharacters.append hy.characters)
  · rw [words_append_gap hgap.ne_nil hgap.no_word, words_append_gap hgap'.ne_nil hgap'.no_word]
    exact hx.words.append hy.words

/-- A word may go together with what keeps it apart from the next. -/
theorem Thinned.drop (word : List Char) {gap : List Char} (hgap : Separates gap) (cs : List Char) :
    Thinned cs (word ++ (gap ++ cs)) := by
  constructor
  · simp only [unblank_append]
    exact (List.sublist_append_right _ _).trans (List.sublist_append_right _ _)
  · rw [words_append_gap hgap.ne_nil hgap.no_word]
    exact List.sublist_append_right _ _

/-- A rule reads some of a text, and what it writes in any context thins the text out. -/
structure Rule.Thins (rule : Rule) : Prop where
  reads : ∀ {cs new rest}, rule cs = some (new, rest) → ∃ part, part ≠ [] ∧ cs = part ++ rest
  thinned : ∀ {cs new rest}, rule cs = some (new, rest) →
    ∀ before, Thinned (before ++ (new ++ rest)) (before ++ cs)

theorem applyRuleFrom_eq_drop (rule : Rule) (skip : Nat) (cs : List Char) :
    applyRuleFrom rule skip cs = applyRuleFrom rule 0 (cs.drop skip) := by
  induction cs generalizing skip with
  | nil => simp [applyRuleFrom]
  | cons c cs ih =>
      cases skip with
      | zero => rfl
      | succ skip => rw [applyRuleFrom, ih, List.drop_succ_cons]

theorem applyRuleFrom_of_eq_some {rule : Rule} (hrule : rule.Thins) {cs new rest : List Char}
    (h : rule cs = some (new, rest)) :
    applyRuleFrom rule 0 cs = new ++ applyRuleFrom rule 0 rest := by
  obtain ⟨part, hne, rfl⟩ := hrule.reads h
  obtain ⟨c, part, rfl⟩ := List.exists_cons_of_ne_nil hne
  rw [List.cons_append] at h ⊢
  rw [applyRuleFrom, h]
  simp only [List.length_append, Nat.add_sub_cancel]
  rw [applyRuleFrom_eq_drop, List.drop_left]

/-- One application thins a text out wherever it is made, and so do all of them together. -/
theorem Rule.Thins.applyRuleFrom {rule : Rule} (hrule : rule.Thins) (before cs : List Char) :
    Thinned (before ++ Header.applyRuleFrom rule 0 cs) (before ++ cs) := by
  match cs with
  | [] => exact .refl _
  | c :: cs =>
      cases h : rule (c :: cs) with
      | none =>
          rw [Header.applyRuleFrom, h]
          simpa using hrule.applyRuleFrom (before ++ [c]) cs
      | some result =>
          obtain ⟨new, rest⟩ := result
          rw [applyRuleFrom_of_eq_some hrule h, ← List.append_assoc]
          have hrest := hrule.applyRuleFrom (before ++ new) rest
          rw [List.append_assoc before new rest] at hrest
          exact hrest.trans (hrule.thinned h before)
termination_by cs.length
decreasing_by
  · simp
  · obtain ⟨part, hne, heq⟩ := hrule.reads h
    rw [heq, List.length_append]
    have hpos := List.length_pos_iff.mpr hne
    omega

theorem Rule.Thins.applyRule {rule : Rule} (hrule : rule.Thins) (cs : List Char) :
    Thinned (Header.applyRule rule cs) cs :=
  hrule.applyRuleFrom [] cs

/-! ## The rules -/

/-- A run of characters that satisfy `p`. -/
structure IsRun (p : Char → Bool) (run : List Char) : Prop where
  ne_nil : run ≠ []
  all : ∀ c ∈ run, p c = true

theorem run?_eq_some_iff {p : Char → Bool} {cs run rest : List Char} :
    run? p cs = some (run, rest) ↔
      IsRun p run ∧ (∀ c ∈ rest.head?, p c = false) ∧ cs = run ++ rest := by
  constructor
  · intro h
    unfold run? at h
    split at h
    · cases h
    · next hne =>
        cases h
        refine ⟨⟨hne, fun c hc => List.mem_takeWhile_imp hc⟩, ?_,
          List.takeWhile_append_dropWhile.symm⟩
        intro c hc
        have hstop := List.head?_dropWhile_not p cs
        rw [Option.mem_def.mp hc] at hstop
        simpa using hstop
  · rintro ⟨⟨hne, hrun⟩, hrest, rfl⟩
    have htake : (run ++ rest).takeWhile p = run := by
      rw [List.takeWhile_append_of_pos hrun]
      cases rest with
      | nil => simp
      | cons c rest => simp [hrest c rfl]
    have hdrop : (run ++ rest).dropWhile p = rest := by
      rw [List.dropWhile_append_of_pos hrun]
      cases rest with
      | nil => rfl
      | cons c rest => simp [hrest c rfl]
    unfold run?
    rw [htake, hdrop]
    split
    · exact absurd rfl hne
    · rfl

theorem IsRun.separates {gap : List Char} (h : IsRun isBlank gap) : Separates gap :=
  ⟨h.ne_nil, fun c hc => isWord_of_isBlank (h.all c hc)⟩

theorem separates_space : Separates [' '] :=
  IsRun.separates ⟨by simp, by decide⟩

@[simp] theorem unblank_space : unblank [' '] = [] := rfl

theorem decorated?_eq_some {keyword cs name rest : List Char}
    (h : decorated? keyword cs = some (name, rest)) :
    ∃ gap word gap', IsRun isBlank gap ∧ IsRun isWord word ∧ IsRun isBlank gap' ∧
      IsRun isWord name ∧ cs = keyword ++ (gap ++ (word ++ (gap' ++ (name ++ rest)))) := by
  unfold decorated? at h
  simp only [Option.bind_eq_bind, Option.bind_eq_some_iff, Prod.exists] at h
  obtain ⟨cs₁, hkeyword, gap, cs₂, hgap, word, cs₃, hword, gap', cs₄, hgap', hname⟩ := h
  rw [run?_eq_some_iff] at hgap hword hgap' hname
  obtain ⟨hblank, -, rfl⟩ := hgap
  obtain ⟨hrun, -, rfl⟩ := hword
  obtain ⟨hblank', -, rfl⟩ := hgap'
  obtain ⟨hrun', -, rfl⟩ := hname
  exact ⟨gap, word, gap', hblank, hrun, hblank', hrun', after?_eq_some_iff.mp hkeyword⟩

theorem thins_dropBeforeName {keyword : List Char} (hne : keyword ≠ []) :
    (dropBeforeName keyword).Thins := by
  have hreads : ∀ {cs new rest}, dropBeforeName keyword cs = some (new, rest) →
      ∃ gap word gap' name, Separates gap ∧ Separates gap' ∧ new = keyword ++ ' ' :: name ∧
        cs = keyword ++ (gap ++ (word ++ (gap' ++ (name ++ rest)))) := by
    intro cs new rest h
    unfold dropBeforeName at h
    obtain ⟨⟨name, rest'⟩, hdecorated, heq⟩ := Option.bind_eq_some_iff.mp h
    cases heq
    obtain ⟨gap, word, gap', hgap, -, hgap', -, hcs⟩ := decorated?_eq_some hdecorated
    exact ⟨gap, word, gap', name, hgap.separates, hgap'.separates, rfl, hcs⟩
  constructor
  · intro cs new rest h
    obtain ⟨gap, word, gap', name, -, -, -, rfl⟩ := hreads h
    exact ⟨keyword ++ gap ++ word ++ gap' ++ name, by simp [hne], by simp⟩
  · intro cs new rest h before
    obtain ⟨gap, word, gap', name, hgap, hgap', rfl, rfl⟩ := hreads h
    have hdrop := Thinned.append (.refl (before ++ keyword))
      (Thinned.drop word hgap' (name ++ rest)) separates_space hgap (by simp)
    simpa using hdrop

theorem isRun_of_mem_accessWords {access : List Char} (h : access ∈ accessWords) :
    IsRun isWord access := by
  have hwords : ∀ w ∈ accessWords, w ≠ [] ∧ ∀ c ∈ w, isWord c = true := by decide
  exact ⟨(hwords access h).1, (hwords access h).2⟩

theorem access?_eq_some {cs access rest : List Char} (h : access? cs = some (access, rest)) :
    IsRun isWord access ∧ cs = access ++ rest := by
  obtain ⟨w, hmem, hw⟩ := List.exists_of_findSome?_eq_some h
  obtain ⟨rest', hafter, heq⟩ := Option.map_eq_some_iff.mp hw
  cases heq
  exact ⟨isRun_of_mem_accessWords hmem, after?_eq_some_iff.mp hafter⟩

theorem baseToComma?_eq_some {cs base rest : List Char} (h : baseToComma? cs = some (base, rest)) :
    ∃ gap, Separates gap ∧ cs = gap ++ (base ++ ',' :: rest) := by
  unfold baseToComma? at h
  obtain ⟨⟨blanks, cs'⟩, hblanks, hfound⟩ := Option.bind_eq_some_iff.mp h
  rw [run?_eq_some_iff] at hblanks
  obtain ⟨hblank, -, rfl⟩ := hblanks
  have hsplit := List.takeWhile_append_dropWhile (p := fun c => c != ',' && c != '\x7b') (l := cs')
  simp only at hfound
  split at hfound
  · next after hafter =>
      rw [hafter] at hsplit
      split at hfound
      · next hbase =>
          rw [hbase, List.nil_append] at hsplit
          split at hfound
          · cases hfound
          · -- Where the base is the last of the blanks, those before it keep the words apart.
            next hlength =>
              cases hfound
              refine ⟨blanks.take (blanks.length - 1), IsRun.separates ⟨?_, ?_⟩, ?_⟩
              · rw [← List.length_pos_iff, List.length_take]
                omega
              · exact fun c hc => hblank.all c (List.mem_of_mem_take hc)
              · rw [← List.append_assoc, List.take_append_drop, hsplit]
      · cases hfound
        exact ⟨blanks, hblank.separates, by rw [hsplit]⟩
  · cases hfound

theorem separates_around {before after : List Char} (hbefore : ∀ c ∈ before, isBlank c = true)
    (hafter : ∀ c ∈ after, isBlank c = true) (c : Char) (hc : isWord c = false) :
    Separates (before ++ c :: after) := by
  refine ⟨by simp, ?_⟩
  intro d hd
  simp only [List.mem_append, List.mem_cons] at hd
  rcases hd with hd | rfl | hd
  · exact isWord_of_isBlank (hbefore d hd)
  · exact hc
  · exact isWord_of_isBlank (hafter d hd)

theorem trimStart_eq (cs : List Char) :
    ∃ gap, (∀ c ∈ gap, isBlank c = true) ∧ cs = gap ++ trimStart cs :=
  ⟨cs.takeWhile isBlank, fun _ hc => List.mem_takeWhile_imp hc,
    List.takeWhile_append_dropWhile.symm⟩

theorem thins_dropBeforeBases : dropBeforeBases.Thins := by
  have hreads : ∀ {cs new rest}, dropBeforeBases cs = some (new, rest) →
      ∃ gap word gap' name colon access gap'' base, Separates gap ∧ Separates gap' ∧
        Separates colon ∧ unblank colon = [':'] ∧ Separates gap'' ∧
        new = "class ".toList ++ name ++ " : ".toList ++ access ++ ' ' :: base ++ [','] ∧
        cs = "class".toList ++ (gap ++ (word ++ (gap' ++ (name ++ (colon ++
          (access ++ (gap'' ++ (base ++ ',' :: rest)))))))) := by
    intro cs new rest h
    unfold dropBeforeBases at h
    obtain ⟨⟨name, cs₁⟩, hdecorated, hfound⟩ := Option.bind_eq_some_iff.mp h
    obtain ⟨gap, word, gap', hgap, -, hgap', -, rfl⟩ := decorated?_eq_some hdecorated
    simp only at hfound
    split at hfound
    · next cs₂ hcolon =>
        simp only [Option.bind_eq_bind, Option.bind_eq_some_iff, Prod.exists] at hfound
        obtain ⟨access, cs₃, haccess, base, cs₄, hbase, heq⟩ := hfound
        cases heq
        obtain ⟨gap'', hgap'', rfl⟩ := baseToComma?_eq_some hbase
        obtain ⟨before, hbefore, hcs₁⟩ := trimStart_eq cs₁
        obtain ⟨after, hafter, hcs₂⟩ := trimStart_eq cs₂
        refine ⟨gap, word, gap', name, before ++ ':' :: after, access, gap'', base, hgap.separates,
          hgap'.separates, separates_around hbefore hafter ':' (by decide), ?_, hgap'', rfl, ?_⟩
        · have hkept : unblank (':' :: after) = [':'] ++ unblank after := unblank_append [':'] after
          rw [unblank_append, unblank_of_blank hbefore, hkept, unblank_of_blank hafter]
          rfl
        · rw [hcs₁, hcolon, hcs₂, (access?_eq_some haccess).2]
          simp
    · cases hfound
  constructor
  · intro cs new rest h
    obtain ⟨gap, word, gap', name, colon, access, gap'', base, -, -, -, -, -, -, rfl⟩ := hreads h
    exact ⟨"class".toList ++ gap ++ word ++ gap' ++ name ++ colon ++ access ++ gap'' ++ base ++
      [','], by simp, by simp⟩
  · intro cs new rest h before
    obtain ⟨gap, word, gap', name, colon, access, gap'', base, hgap, hgap', hcolon, hkept, hgap'',
      rfl, rfl⟩ := hreads h
    -- from the end to the front: the base, its word of access, the name, the word that goes
    have hbase := Thinned.append (.refl access) (.refl (base ++ ',' :: rest)) separates_space hgap''
      (by simp)
    have hwritten : Separates " : ".toList := ⟨by decide, by decide⟩
    have hname := Thinned.append (.refl name) hbase hwritten hcolon (by rw [hkept]; exact .refl _)
    have hclass := Thinned.append (.refl (before ++ "class".toList))
      (hname.trans (Thinned.drop word hgap' _)) separates_space hgap (by simp)
    simpa using hclass

theorem dropBeforeAccess_eq_some {cs new rest : List Char}
    (h : dropBeforeAccess cs = some (new, rest)) :
    ∃ blanks word gap access gap' name, (∀ c ∈ blanks, isBlank c = true) ∧ IsRun isWord word ∧
      IsRun isBlank gap ∧ IsRun isWord access ∧ IsRun isBlank gap' ∧ IsRun isWord name ∧
      new = ", ".toList ++ access ++ ' ' :: name ∧
      cs = (',' :: blanks) ++ (word ++ (gap ++ (access ++ (gap' ++ (name ++ rest))))) := by
  unfold dropBeforeAccess at h
  split at h
  · next cs₁ =>
      simp only [Option.bind_eq_bind, Option.bind_eq_some_iff, Prod.exists] at h
      obtain ⟨word, cs₂, hword, gap, cs₃, hgap, access, cs₄, haccess, gap', cs₅, hgap', name, cs₆,
        hname, heq⟩ := h
      cases heq
      obtain ⟨blanks, hblanks, hcs₁⟩ := trimStart_eq cs₁
      rw [run?_eq_some_iff] at hword hgap hgap' hname
      obtain ⟨hrun, -, hcs₂⟩ := hword
      obtain ⟨hblank, -, rfl⟩ := hgap
      obtain ⟨hblank', -, rfl⟩ := hgap'
      obtain ⟨hrun', -, rfl⟩ := hname
      obtain ⟨hrunAccess, hcs₃⟩ := access?_eq_some haccess
      refine ⟨blanks, word, gap, access, gap', name, hblanks, hrun, hblank, hrunAccess, hblank',
        hrun', rfl, ?_⟩
      rw [hcs₁, hcs₂, hcs₃]
      simp
  · cases h

theorem thins_dropBeforeAccess : dropBeforeAccess.Thins := by
  constructor
  · intro cs new rest h
    obtain ⟨blanks, word, gap, access, gap', name, -, -, -, -, -, -, -, rfl⟩ :=
      dropBeforeAccess_eq_some h
    exact ⟨',' :: blanks ++ word ++ gap ++ access ++ gap' ++ name, by simp, by simp⟩
  · intro cs new rest h before
    obtain ⟨blanks, word, gap, access, gap', name, hblanks, -, hgap, -, hgap', -, rfl, rfl⟩ :=
      dropBeforeAccess_eq_some h
    have hname := Thinned.append (.refl access) (.refl (name ++ rest)) separates_space
      hgap'.separates (by simp)
    have hwritten : Separates ", ".toList := ⟨by decide, by decide⟩
    have hread : Separates ([] ++ ',' :: blanks) :=
      separates_around (by simp) hblanks ',' (by decide)
    have hkept : (unblank ", ".toList).Sublist (unblank ([] ++ ',' :: blanks)) := by
      have hsplit : unblank (',' :: blanks) = [','] ++ unblank blanks :=
        unblank_append [','] blanks
      rw [List.nil_append, hsplit]
      exact List.sublist_append_left _ _
    have hcomma := Thinned.append (.refl before)
      (hname.trans (Thinned.drop word hgap.separates _)) hwritten hread hkept
    simpa using hcomma

/-! ## All passes -/

/-- Stripping a header only deletes. Every character that is left, blanks apart, comes from the
header, in its order. Where the known words are words, the words that are left are words of the
header, and none of them is known. -/
theorem strip_only_deletes (known : List (List Char)) (source : List Char) :
    (unblank (strip known source)).Sublist (unblank source) ∧
      ((∀ w ∈ known, ∀ c ∈ w, isWord c = true) →
        (words (strip known source)).Sublist (words source) ∧
          ∀ w ∈ words (strip known source), w ∉ known) := by
  have hstrip : Thinned (strip known source) (known.foldl eraseWord source) :=
    (Rule.Thins.applyRule thins_dropBeforeAccess _).trans <|
      (Rule.Thins.applyRule thins_dropBeforeBases _).trans <|
        (Rule.Thins.applyRule (thins_dropBeforeName (by decide)) _).trans <|
          Rule.Thins.applyRule (thins_dropBeforeName (by decide)) _
  refine ⟨hstrip.characters.trans ((foldl_eraseWord_sublist known source).filter _), ?_⟩
  intro hknown
  have hwords := hstrip.words
  rw [words_foldl_eraseWord hknown] at hwords
  refine ⟨hwords.trans List.filter_sublist, ?_⟩
  intro w hw
  simpa using (List.mem_filter.mp (hwords.subset hw)).2

theorem strip_only_deletes_defaultWords :
    let known := defaultExportWords.map String.toList
    let source := "class SP_API Subclass x Bone : public A, DLL public B \x7b".toList
    (∀ w ∈ known, ∀ c ∈ w, isWord c = true) ∧
      (words (strip known source)).Sublist (words source) ∧
        ∀ w ∈ words (strip known source), w ∉ known := by
  have hknown : ∀ w ∈ defaultExportWords.map String.toList, ∀ c ∈ w, isWord c = true := by decide
  exact ⟨hknown, (strip_only_deletes _ _).2 hknown⟩

end DocTransfer.Header
