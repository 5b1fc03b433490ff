import DocTransfer.Proofs.Header.Stripping

/-! # What stripping leaves as it is

Known words only go as whole words. The other passes read three words in a row, so a text whose rows
of words, between marks, have no more than two is left as it is. -/

namespace DocTransfer.Header

open Text

/-! ## Known words -/

section

variable {word : List Char}

theorem eraseWord_append_cons (hword : ∀ d ∈ word, isWord d = true) {c : Char}
    (hc : isWord c = false) (xs ys : List Char) :
    eraseWord (xs ++ c :: ys) word = eraseWord xs word ++ c :: eraseWord ys word := by
  by_cases hne : word = []
  · simp [hne]
  induction xs using wordwise with
  | last run hrun => exact eraseWord_append_cons_of_forall hne hword hrun hc ys
  | more run d rest hrun hd ih =>
      rw [List.append_assoc, List.cons_append,
        eraseWord_append_cons_of_forall hne hword hrun hd,
        eraseWord_append_cons_of_forall hne hword hrun hd, ih, List.append_assoc, List.cons_append]

theorem eraseWord_of_not_mem (hword : ∀ d ∈ word, isWord d = true) {cs : List Char}
    (h : word ∉ words cs) : eraseWord cs word = cs := by
  by_cases hne : word = []
  · simp [hne]
  have hlast : ∀ run, (∀ c ∈ run, isWord c = true) → word ∉ words run →
      eraseWord run word = run := by
    intro run hrun hnot
    rw [eraseWord_of_forall hne hword hrun, if_neg]
    rintro rfl
    simp [words_of_forall hrun, hne] at hnot
  induction cs using wordwise with
  | last run hrun => exact hlast run hrun h
  | more run c rest hrun hc ih =>
      rw [words_append_cons hc, List.mem_append, not_or] at h
      rw [eraseWord_append_cons hword hc, hlast run hrun h.1, ih h.2]

end

section

variable {known : List (List Char)}

theorem foldl_eraseWord_append_cons (hknown : ∀ w ∈ known, ∀ d ∈ w, isWord d = true) {c : Char}
    (hc : isWord c = false) (xs ys : List Char) :
    known.foldl eraseWord (xs ++ c :: ys) =
      known.foldl eraseWord xs ++ c :: known.foldl eraseWord ys := by
  induction known generalizing xs ys with
  | nil => rfl
  | cons w known ih =>
      obtain ⟨hw, hknown⟩ := List.forall_mem_cons.mp hknown
      simp only [List.foldl_cons]
      rw [eraseWord_append_cons hw hc, ih hknown]

theorem foldl_eraseWord_of_not_mem (hknown : ∀ w ∈ known, ∀ d ∈ w, isWord d = true)
    {cs : List Char} (h : ∀ w ∈ words cs, w ∉ known) : known.foldl eraseWord cs = cs := by
  induction known with
  | nil => rfl
  | cons w known ih =>
      obtain ⟨hw, hknown⟩ := List.forall_mem_cons.mp hknown
      have hcs : w ∉ words cs := fun hmem => h w hmem List.mem_cons_self
      rw [List.foldl_cons, eraseWord_of_not_mem hw hcs]
      exact ih hknown fun v hv hmem => h v hv (List.mem_cons_of_mem w hmem)

theorem foldl_eraseWord_nil (hknown : ∀ w ∈ known, ∀ d ∈ w, isWord d = true) :
    known.foldl eraseWord [] = [] :=
  foldl_eraseWord_of_not_mem hknown (by simp [words_of_forall])

theorem foldl_eraseWord_of_mem (hknown : ∀ w ∈ known, ∀ d ∈ w, isWord d = true)
    {word : List Char} (h : word ∈ known) : known.foldl eraseWord word = [] := by
  have hword := hknown word h
  induction known with
  | nil => cases h
  | cons w known ih =>
      obtain ⟨hw, hknown⟩ := List.forall_mem_cons.mp hknown
      rw [List.foldl_cons]
      by_cases hne : w = []
      · rw [hne, eraseWord_nil]
        by_cases hnil : word = []
        · rw [hnil, foldl_eraseWord_nil hknown]
        · exact ih hknown ((List.mem_cons.mp h).resolve_left (fun heq => hnil (heq.trans hne)))
      rw [eraseWord_of_forall hne hw hword]
      split
      · exact foldl_eraseWord_nil hknown
      · next hother => exact ih hknown ((List.mem_cons.mp h).resolve_left hother)

end

/-! ## Rows of words -/

theorem length_words_append_le (xs ys : List Char) :
    (words (xs ++ ys)).length ≤ (words xs).length + (words ys).length := by
  -- two runs that meet are one word at most
  have hruns : ∀ run run', (∀ c ∈ run, isWord c = true) → (∀ c ∈ run', isWord c = true) →
      (words (run ++ run')).length ≤ (words run).length + (words run').length := by
    intro run run' hrun hrun'
    have hboth : ∀ c ∈ run ++ run', isWord c = true := by
      intro c hc
      exact (List.mem_append.mp hc).elim (hrun c) (hrun' c)
    rw [words_of_forall hrun, words_of_forall hrun', words_of_forall hboth]
    cases run <;> cases run' <;> simp
  induction xs using wordwise with
  | last run hrun =>
      induction ys using wordwise with
      | last run' hrun' => exact hruns run run' hrun hrun'
      | more run' c rest hrun' hc _ =>
          have hmeet := hruns run run' hrun hrun'
          rw [← List.append_assoc, words_append_cons hc, words_append_cons hc]
          simp only [List.length_append] at hmeet ⊢
          omega
  | more run c rest hrun hc ih =>
      rw [List.append_assoc, List.cons_append, words_append_cons hc, words_append_cons hc]
      simp only [List.length_append]
      omega

/-- Between its marks a text has rows of at most `k` words. -/
def Rows (k : Nat) (cs : List Char) : Prop :=
  ∀ row, row <:+: cs → (∀ c ∈ row, isWord c = true ∨ isBlank c = true) → (words row).length ≤ k

namespace Rows

variable {k l : Nat} {xs ys : List Char}

theorem mono (h : Rows k xs) (hkl : k ≤ l) : Rows l xs :=
  fun row hrow hchars => (h row hrow hchars).trans hkl

theorem of_infix (h : Rows k xs) (hys : ys <:+: xs) : Rows k ys :=
  fun row hrow => h row (hrow.trans hys)

theorem append (hx : Rows k xs) (hy : Rows l ys) : Rows (k + l) (xs ++ ys) := by
  intro row hrow hchars
  rcases List.infix_append_iff.mp hrow with hin | hin | ⟨front, back, rfl, hfront, hback⟩
  · exact (hx row hin hchars).trans (Nat.le_add_right k l)
  · exact (hy row hin hchars).trans (Nat.le_add_left l k)
  · have hleft := hx front hfront.isInfix fun c hc => hchars c (List.mem_append_left back hc)
    have hright := hy back hback.isInfix fun c hc => hchars c (List.mem_append_right front hc)
    exact (length_words_append_le front back).trans (Nat.add_le_add hleft hright)

theorem mark {c : Char} (hword : isWord c = false) (hblank : isBlank c = false) (hx : Rows k xs)
    (hy : Rows k ys) : Rows k (xs ++ c :: ys) := by
  intro row hrow hchars
  have hc : c ∉ row := by
    intro hmem
    rcases hchars c hmem with h | h
    · simp [hword] at h
    · simp [hblank] at h
  rcases (infix_append_cons_iff hc).mp hrow with hin | hin
  · exact hx row hin hchars
  · exact hy row hin hchars

theorem of_blank (h : ∀ c ∈ xs, isBlank c = true) : Rows 0 xs := by
  intro row hrow _
  have hrow' : ∀ c ∈ row, isWord c = false := fun c hc => isWord_of_isBlank (h c (hrow.subset hc))
  cases row with
  | nil => simp [words_of_forall]
  | cons c row =>
      have hwords := words_append_gap (List.cons_ne_nil c row) hrow' [] []
      rw [List.nil_append, List.append_nil] at hwords
      simp [hwords, words_of_forall]

/-- What holds no blank is one word at most, marks in it or not. -/
theorem of_not_blank (h : ∀ c ∈ xs, isBlank c = false) : Rows 1 xs := by
  intro row hrow hchars
  have hword : ∀ c ∈ row, isWord c = true := by
    intro c hc
    refine (hchars c hc).resolve_right ?_
    simp [h c (hrow.subset hc)]
  rw [words_of_forall hword]
  split <;> simp

end Rows

/-- Three words with blanks between them are a row of three. -/
theorem not_rows_two {x y z gap gap' : List Char} (hx : IsRun isWord x) (hgap : IsRun isBlank gap)
    (hy : IsRun isWord y) (hgap' : IsRun isBlank gap') (hz : IsRun isWord z) {cs : List Char}
    (hin : x ++ (gap ++ (y ++ (gap' ++ z))) <:+: cs) : ¬ Rows 2 cs := by
  intro h
  have hrow := h _ hin (by
    intro c hc
    simp only [List.mem_append] at hc
    rcases hc with hc | hc | hc | hc | hc
    · exact .inl (hx.all c hc)
    · exact .inr (hgap.all c hc)
    · exact .inl (hy.all c hc)
    · exact .inr (hgap'.all c hc)
    · exact .inl (hz.all c hc))
  rw [words_append_gap hgap.ne_nil hgap.separates.no_word,
    words_append_gap hgap'.ne_nil hgap'.separates.no_word, words_of_forall hx.all,
    words_of_forall hy.all, words_of_forall hz.all] at hrow
  simp [hx.ne_nil, hy.ne_nil, hz.ne_nil] at hrow

/-! ## Rules that find nothing -/

theorem applyRule_of_eq_none {rule : Rule} {cs : List Char}
    (h : ∀ suffix, suffix <:+ cs → rule suffix = none) : applyRule rule cs = cs := by
  induction cs with
  | nil => rfl
  | cons c cs ih =>
      rw [applyRule, applyRuleFrom, h _ (List.suffix_refl _)]
      exact congrArg (c :: ·) (ih fun suffix hs => h suffix (hs.trans (List.suffix_cons c cs)))

section

variable {keyword cs : List Char}

theorem decorated?_of_rows (hkeyword : IsRun isWord keyword) (h : Rows 2 cs) :
    decorated? keyword cs = none := by
  rw [Option.eq_none_iff_forall_ne_some]
  rintro ⟨name, rest⟩ hsome
  obtain ⟨gap, word, gap', hgap, hword, hgap', hname, rfl⟩ := decorated?_eq_some hsome
  exact not_rows_two hkeyword hgap hword hgap' hname ⟨[], rest, by simp⟩ h

theorem dropBeforeAccess_of_rows (h : Rows 2 cs) : dropBeforeAccess cs = none := by
  rw [Option.eq_none_iff_forall_ne_some]
  rintro ⟨new, rest⟩ hsome
  obtain ⟨blanks, word, gap, access, gap', name, -, hword, hgap, haccess, hgap', hname, -, rfl⟩ :=
    dropBeforeAccess_eq_some hsome
  exact not_rows_two hword hgap haccess hgap' hname ⟨',' :: blanks, rest, by simp⟩ h

theorem applyRule_dropBeforeName_of_rows (hkeyword : IsRun isWord keyword) (h : Rows 2 cs) :
    applyRule (dropBeforeName keyword) cs = cs := by
  apply applyRule_of_eq_none
  intro suffix hsuffix
  rw [dropBeforeName, decorated?_of_rows hkeyword (h.of_infix hsuffix.isInfix)]
  rfl

end

theorem isRun_class : IsRun isWord "class".toList :=
  ⟨by decide, by decide⟩

theorem isRun_struct : IsRun isWord "struct".toList :=
  ⟨by decide, by decide⟩

/-- The passes over the bases. -/
theorem applyRule_bases_of_rows {cs : List Char} (h : Rows 2 cs) :
    applyRule dropBeforeAccess (applyRule dropBeforeBases cs) = cs := by
  have hbases : applyRule dropBeforeBases cs = cs := by
    apply applyRule_of_eq_none
    intro suffix hsuffix
    rw [dropBeforeBases, decorated?_of_rows isRun_class (h.of_infix hsuffix.isInfix)]
    rfl
  rw [hbases]
  apply applyRule_of_eq_none
  intro suffix hsuffix
  exact dropBeforeAccess_of_rows (h.of_infix hsuffix.isInfix)

/-- Where no row has three words, only known words go. -/
theorem strip_of_rows {known : List (List Char)} {source : List Char}
    (h : Rows 2 (known.foldl eraseWord source)) :
    strip known source = known.foldl eraseWord source := by
  unfold strip
  simp only
  rw [applyRule_dropBeforeName_of_rows isRun_class h,
    applyRule_dropBeforeName_of_rows isRun_struct h, applyRule_bases_of_rows h]

/-! ## A third word in the first row -/

section

variable {keyword gap word gap' name rest : List Char}

theorem IsRun.head?_append {p : Char → Bool} {run cs : List Char} (h : IsRun p run) {c : Char}
    (hc : c ∈ (run ++ cs).head?) : c ∈ run := by
  obtain ⟨d, run, rfl⟩ := List.exists_cons_of_ne_nil h.ne_nil
  cases hc
  exact List.mem_cons_self

theorem dropBeforeName_append (hgap : IsRun isBlank gap) (hword : IsRun isWord word)
    (hgap' : IsRun isBlank gap') (hname : IsRun isWord name) (hrest : opensWord rest = false) :
    dropBeforeName keyword (keyword ++ (gap ++ (word ++ (gap' ++ (name ++ rest))))) =
      some (keyword ++ ' ' :: name, rest) := by
  have hwordBlank : ∀ {cs run : List Char}, IsRun isWord run →
      ∀ c ∈ (run ++ cs).head?, isBlank c = false := by
    intro cs run hrun c hc
    have hc' := hrun.all c (hrun.head?_append hc)
    cases hblank : isBlank c with
    | false => rfl
    | true => simp [isWord_of_isBlank hblank] at hc'
  have hblankWord : ∀ c ∈ (gap' ++ (name ++ rest)).head?, isWord c = false :=
    fun c hc => hgap'.separates.no_word c (hgap'.head?_append hc)
  have hrestWord : ∀ c ∈ rest.head?, isWord c = false := by
    intro c hc
    obtain ⟨rest', rfl⟩ := List.head?_eq_some_iff.mp hc
    exact hrest
  have hdecorated : decorated? keyword (keyword ++ (gap ++ (word ++ (gap' ++ (name ++ rest))))) =
      some (name, rest) := by
    rw [decorated?, after?_append]
    simp [run?_eq_some_iff.mpr ⟨hgap, hwordBlank hword, rfl⟩,
      run?_eq_some_iff.mpr ⟨hword, hblankWord, rfl⟩,
      run?_eq_some_iff.mpr ⟨hgap', hwordBlank hname, rfl⟩,
      run?_eq_some_iff.mpr ⟨hname, hrestWord, rfl⟩]
  rw [dropBeforeName, hdecorated]
  rfl

theorem applyRule_class_struct {cs : List Char} (h : Rows 2 cs) :
    applyRule (dropBeforeName "class".toList) ("struct".toList ++ cs) = "struct".toList ++ cs := by
  -- the keyword is read off before the rest, on which the rule finds nothing
  have hkeyword : applyRule (dropBeforeName "class".toList) ("struct".toList ++ cs) =
      "struct".toList ++ applyRule (dropBeforeName "class".toList) cs := by
    simp [applyRule, applyRuleFrom, dropBeforeName, decorated?, after?]
  rw [hkeyword, applyRule_dropBeforeName_of_rows isRun_class h]

end

/-- Where a name has another word after it in a row that a class or a struct opens, the name
goes. -/
theorem strip_of_three_words {known : List (List Char)}
    {source keyword gap word gap' name rest : List Char}
    (hkeyword : keyword = "class".toList ∨ keyword = "struct".toList)
    (hsource : known.foldl eraseWord source =
      keyword ++ (gap ++ (word ++ (gap' ++ (name ++ rest)))))
    (hgap : IsRun isBlank gap) (hword : IsRun isWord word) (hgap' : IsRun isBlank gap')
    (hname : IsRun isWord name) (hrest : opensWord rest = false)
    (htail : Rows 2 (gap ++ (word ++ (gap' ++ (name ++ rest)))))
    (hleft : Rows 2 (keyword ++ ' ' :: name ++ rest)) :
    strip known source = keyword ++ ' ' :: name ++ rest := by
  have hcollapse : applyRule (dropBeforeName keyword)
      (keyword ++ (gap ++ (word ++ (gap' ++ (name ++ rest))))) =
        keyword ++ ' ' :: name ++ rest := by
    have hkeywordRun : IsRun isWord keyword := by
      rcases hkeyword with rfl | rfl
      · exact isRun_class
      · exact isRun_struct
    have hrest' : Rows 2 rest := htail.of_infix ⟨gap ++ (word ++ (gap' ++ name)), [], by simp⟩
    have hstop := applyRule_dropBeforeName_of_rows hkeywordRun hrest'
    rw [applyRule] at hstop ⊢
    rw [applyRuleFrom_of_eq_some (thins_dropBeforeName hkeywordRun.ne_nil)
      (dropBeforeName_append hgap hword hgap' hname hrest), hstop]
  unfold strip
  simp only [hsource]
  rcases hkeyword with rfl | rfl
  · rw [hcollapse, applyRule_dropBeforeName_of_rows isRun_struct hleft,
      applyRule_bases_of_rows hleft]
  · rw [applyRule_class_struct htail, hcollapse, applyRule_bases_of_rows hleft]

end DocTransfer.Header
