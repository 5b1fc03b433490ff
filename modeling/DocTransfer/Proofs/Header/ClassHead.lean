import DocTransfer.Proofs.Header.Lexing
import DocTransfer.Proofs.Header.Sparing

/-! # Class heads

A class head is a keyword, maybe an export word, a name, maybe `final`, and maybe bases. Where
`final` follows a name of word characters, stripping takes the name for an export word and `final`
for the name. In every other class head only the known words go. -/

namespace DocTransfer.Header

open Source Text

/-! ## Class heads -/

/-- The words of the language that are no identifiers, and those that its compilers add for
attributes. -/
def reservedWords : List String :=
  ["alignas", "alignof", "and", "and_eq", "asm", "auto", "bitand", "bitor", "bool", "break", "case",
   "catch", "char", "char8_t", "char16_t", "char32_t", "class", "co_await", "co_return", "co_yield",
   "compl", "concept", "const", "const_cast", "consteval", "constexpr", "constinit", "continue",
   "decltype", "default", "delete", "do", "double", "dynamic_cast", "else", "enum", "explicit",
   "export", "extern", "false", "float", "for", "friend", "goto", "if", "inline", "int", "long",
   "mutable", "namespace", "new", "noexcept", "not", "not_eq", "nullptr", "operator", "or", "or_eq",
   "private", "protected", "public", "register", "reinterpret_cast", "requires", "return", "short",
   "signed", "sizeof", "static", "static_assert", "static_cast", "struct", "switch", "template",
   "this", "thread_local", "throw", "true", "try", "typedef", "typeid", "typename", "union",
   "unsigned", "using", "virtual", "void", "volatile", "wchar_t", "while", "xor", "xor_eq",
   "__attribute__", "__attribute", "__declspec"]

/-- Blanks, or nothing. -/
structure Gap where
  text : List Char
  spacing : ∀ c ∈ text, isSpacing c = true

/-- Blanks that keep two words apart. -/
structure Space extends Gap where
  ne_nil : text ≠ []

/-- A name that is no word of the language. -/
structure Identifier where
  text : List Char
  opens : ∃ c ∈ text.head?, opensName c = true
  parts : ∀ c ∈ text, isNamePart c = true
  not_reserved : text ∉ reservedWords.map String.toList

/-- A word of access to a base, and the blanks after it. -/
structure Access where
  word : List Char
  is_access : word ∈ accessWords
  after : Space

/-- A base with the blanks around it. -/
structure Base where
  before : Gap
  access : Option Access
  name : Identifier
  after : Gap

/-- The colon after a name, with the blanks before it, and the bases. -/
structure BaseClause where
  before : Gap
  first : Base
  others : List Base

/-- What stands before the body of a class. -/
structure ClassHead where
  keyword : Keyword
  is_class : keyword = .cls ∨ keyword = .struct
  space : Space
  exportWord : Option (List Char × Space)
  name : Identifier
  final : Option Space
  bases : Option BaseClause

/-- The word of access and the blanks after it, if there is one. -/
def Base.accessText (b : Base) : List Char :=
  match b.access with
  | none => []
  | some a => a.word ++ a.after.text

/-- The text of a base, with `f` applied to its name. -/
def Base.text (f : List Char → List Char) (b : Base) : List Char :=
  b.before.text ++ (b.accessText ++ (f b.name.text ++ b.after.text))

/-- The text of bases with commas between them, with `f` applied to their names. -/
def basesText (f : List Char → List Char) (first : Base) (others : List Base) : List Char :=
  first.text f ++ others.flatMap fun b => ',' :: b.text f

/-- The text of bases if there are any. -/
def clauseText (f : List Char → List Char) : Option BaseClause → List Char
  | none => []
  | some c => c.before.text ++ ':' :: basesText f c.first c.others

/-- An empty body and the semicolon after it. -/
def emptyBodyText : List Char :=
  " \x7b \x7d;".toList

/-- The text of a class, part by part. -/
def classText (keyword gap name marking clause : List Char) : List Char :=
  keyword ++ (gap ++ (name ++ (marking ++ (clause ++ emptyBodyText))))

/-- `final` and the blanks before it, if it is there. -/
def finalText : Option Space → List Char
  | none => []
  | some before => before.text ++ "final".toList

namespace ClassHead

/-- The export word and the blanks after it, if there is one. -/
def exportText (h : ClassHead) : List Char :=
  match h.exportWord with
  | none => []
  | some (word, after) => word ++ after.text

/-- The text of a class with this head and an empty body. -/
def source (h : ClassHead) : List Char :=
  classText h.keyword.word.toList (h.space.text ++ h.exportText) h.name.text (finalText h.final)
    (clauseText id h.bases)

/-- What is left between the keyword and the name: all blanks there. -/
def gap (h : ClassHead) : Space where
  text := h.space.text ++ (h.exportWord.map (·.2.text)).getD []
  spacing := by
    intro c hc
    rcases List.mem_append.mp hc with hc | hc
    · exact h.space.spacing c hc
    · cases hword : h.exportWord with
      | none => simp [hword] at hc
      | some exported =>
          rw [hword] at hc
          exact exported.2.spacing c hc
  ne_nil := by simp [h.space.ne_nil]

end ClassHead

/-! ## Characters -/

theorem isBlank_of_isSpacing {c : Char} (h : isSpacing c = true) : isBlank c = true := by
  simp only [isSpacing, Bool.or_eq_true, Bool.and_eq_true, beq_iff_eq, decide_eq_true_eq] at h
  rcases h with rfl | h
  · decide
  · simp only [isBlank, Bool.or_eq_true, Bool.and_eq_true, decide_eq_true_eq, beq_iff_eq]
    omega

theorem isNamePart_of_isBlank {c : Char} : isBlank c = true → isNamePart c = false :=
  eq_false_of_isBlank (by decide +kernel)

theorem isBlank_of_isNamePart {c : Char} (h : isNamePart c = true) : isBlank c = false := by
  cases hblank : isBlank c with
  | false => rfl
  | true => rw [isNamePart_of_isBlank hblank] at h; cases h

theorem Gap.blank (g : Gap) : ∀ c ∈ g.text, isBlank c = true :=
  fun c hc => isBlank_of_isSpacing (g.spacing c hc)

theorem Gap.no_word (g : Gap) : ∀ c ∈ g.text, isWord c = false :=
  fun c hc => isWord_of_isBlank (g.blank c hc)

theorem Space.separates (s : Space) : Separates s.text :=
  ⟨s.ne_nil, s.no_word⟩

theorem Identifier.not_blank (n : Identifier) : ∀ c ∈ n.text, isBlank c = false :=
  fun c hc => isBlank_of_isNamePart (n.parts c hc)

/-- A character that ends a word of a class head. -/
def Separating (c : Char) : Prop :=
  isSpacing c = true ∨ c ∈ headMarks

theorem Separating.not_word {c : Char} (h : Separating c) : isWord c = false := by
  rcases h with h | h
  · exact isWord_of_isBlank (isBlank_of_isSpacing h)
  · have hmarks : ∀ d ∈ headMarks, isWord d = false := by decide
    exact hmarks c h

theorem Gap.separating_head (g : Gap) {c : Char} (hc : Separating c) {rest : List Char} :
    ∀ d ∈ (g.text ++ c :: rest).head?, Separating d := by
  intro d hd
  cases htext : g.text with
  | nil =>
      rw [htext] at hd
      cases hd
      exact hc
  | cons e text =>
      rw [htext] at hd
      cases hd
      exact .inl (g.spacing d (by simp [htext]))

theorem Space.separating_head (s : Space) (rest : List Char) :
    ∀ d ∈ (s.text ++ rest).head?, Separating d := by
  intro d hd
  obtain ⟨e, text, htext⟩ := List.exists_cons_of_ne_nil s.ne_nil
  rw [htext] at hd
  cases hd
  exact .inl (s.spacing d (by simp [htext]))

theorem separating_clause (f : List Char → List Char) (bases : Option BaseClause) :
    ∀ c ∈ (clauseText f bases ++ emptyBodyText).head?, Separating c := by
  cases bases with
  | none =>
      intro c hc
      cases hc
      exact .inl rfl
  | some clause =>
      rw [clauseText, List.append_assoc, List.cons_append]
      exact clause.before.separating_head (.inr (by decide))

/-! ## Known words -/

/-- Words of word characters that mean nothing to the language. -/
structure AreExportWords (known : List (List Char)) : Prop where
  words : ∀ w ∈ known, ∀ c ∈ w, isWord c = true
  not_reserved : ∀ w ∈ known, w ∉ reservedWords.map String.toList
  not_final : "final".toList ∉ known

section

variable {known : List (List Char)} (hknown : AreExportWords known)

include hknown

theorem erase_between {gap : List Char} (hgap : Separates gap) (xs ys : List Char) :
    known.foldl eraseWord (xs ++ (gap ++ ys)) =
      known.foldl eraseWord xs ++ (gap ++ known.foldl eraseWord ys) := by
  obtain ⟨hne, hno⟩ := hgap
  induction gap generalizing xs with
  | nil => exact absurd rfl hne
  | cons c gap ih =>
      obtain ⟨hc, hno⟩ := List.forall_mem_cons.mp hno
      rw [List.cons_append, foldl_eraseWord_append_cons hknown.words hc, List.cons_append]
      by_cases hlast : gap = []
      · simp [hlast]
      · have hrest := ih [] hlast hno
        rw [foldl_eraseWord_nil hknown.words, List.nil_append, List.nil_append] at hrest
        rw [hrest]

theorem erase_before {gap : List Char} (hgap : ∀ c ∈ gap, isWord c = false) (xs : List Char) :
    known.foldl eraseWord (gap ++ xs) = gap ++ known.foldl eraseWord xs := by
  by_cases hne : gap = []
  · simp [hne]
  · have hbetween := erase_between hknown ⟨hne, hgap⟩ [] xs
    simpa [foldl_eraseWord_nil hknown.words] using hbetween

theorem erase_after {gap : List Char} (hgap : ∀ c ∈ gap, isWord c = false) (xs : List Char) :
    known.foldl eraseWord (xs ++ gap) = known.foldl eraseWord xs ++ gap := by
  by_cases hne : gap = []
  · simp [hne]
  · have hbetween := erase_between hknown ⟨hne, hgap⟩ xs []
    simpa [foldl_eraseWord_nil hknown.words] using hbetween

theorem erase_word {word : List Char} (hword : ∀ c ∈ word, isWord c = true) (h : word ∉ known) :
    known.foldl eraseWord word = word := by
  apply foldl_eraseWord_of_not_mem hknown.words
  intro w hw
  rw [words_of_forall hword] at hw
  split at hw
  · cases hw
  · rw [List.mem_singleton] at hw
    rwa [hw]

theorem erase_reserved {s : String} (hs : s ∈ reservedWords)
    (hword : ∀ c ∈ s.toList, isWord c = true) : known.foldl eraseWord s.toList = s.toList :=
  erase_word hknown hword fun hmem =>
    hknown.not_reserved _ hmem (List.mem_map.mpr ⟨s, hs, rfl⟩)

theorem Access.erase (a : Access) : known.foldl eraseWord a.word = a.word := by
  have haccess : ∀ w ∈ accessWords, w ∈ reservedWords.map String.toList := by decide
  exact erase_word hknown (isRun_of_mem_accessWords a.is_access).all fun hmem =>
    hknown.not_reserved _ hmem (haccess _ a.is_access)

theorem Base.erase (b : Base) :
    known.foldl eraseWord (b.text id) = b.text (known.foldl eraseWord) := by
  have hname := erase_after hknown b.after.no_word b.name.text
  unfold Base.text accessText
  rw [erase_before hknown b.before.no_word]
  cases b.access with
  | none => simp only [List.nil_append, id, hname]
  | some a =>
      simp only [List.append_assoc, id]
      rw [erase_between hknown a.after.separates, a.erase hknown, hname]

theorem erase_bases (first : Base) (others : List Base) :
    known.foldl eraseWord (basesText id first others) =
      basesText (known.foldl eraseWord) first others := by
  unfold basesText
  induction others generalizing first with
  | nil => simp only [List.flatMap_nil, List.append_nil, first.erase hknown]
  | cons b others ih =>
      rw [List.flatMap_cons, List.flatMap_cons, List.cons_append,
        foldl_eraseWord_append_cons hknown.words (by decide), first.erase hknown, ih,
        List.cons_append]

theorem erase_clause (bases : Option BaseClause) (xs : List Char) :
    known.foldl eraseWord (xs ++ clauseText id bases) =
      known.foldl eraseWord xs ++ clauseText (known.foldl eraseWord) bases := by
  cases bases with
  | none => simp [clauseText]
  | some c =>
      rw [clauseText, clauseText, ← List.append_assoc,
        foldl_eraseWord_append_cons hknown.words (by decide), erase_after hknown c.before.no_word,
        erase_bases hknown, List.append_assoc]

theorem ClassHead.erase (h : ClassHead) (hexport : ∀ w ∈ h.exportWord, w.1 ∈ known)
    (hname : ∀ w ∈ Text.words h.name.text, w ∉ known) :
    known.foldl eraseWord h.source =
      classText h.keyword.word.toList h.gap.text h.name.text (finalText h.final)
        (clauseText (known.foldl eraseWord) h.bases) := by
  have hkeyword : known.foldl eraseWord h.keyword.word.toList = h.keyword.word.toList := by
    rcases h.is_class with hk | hk
    · rw [hk]
      exact erase_reserved hknown (by decide) (by decide)
    · rw [hk]
      exact erase_reserved hknown (by decide) (by decide)
  have hnameFinal : known.foldl eraseWord (h.name.text ++ finalText h.final) =
      h.name.text ++ finalText h.final := by
    have hkeeps := foldl_eraseWord_of_not_mem hknown.words hname
    unfold finalText
    cases h.final with
    | none => simpa using hkeeps
    | some before =>
        simp only
        rw [erase_between hknown before.separates, hkeeps,
          erase_word hknown (by decide) hknown.not_final]
  have hexported : known.foldl eraseWord (h.exportText ++ (h.name.text ++ finalText h.final)) =
      (h.exportWord.map (·.2.text)).getD [] ++ (h.name.text ++ finalText h.final) := by
    unfold exportText
    cases hword : h.exportWord with
    | none => simpa using hnameFinal
    | some exported =>
        obtain ⟨word, after⟩ := exported
        simp only [List.append_assoc, Option.map_some, Option.getD_some]
        rw [erase_between hknown after.separates,
          foldl_eraseWord_of_mem hknown.words (hexport _ hword), hnameFinal, List.nil_append]
  have hbody : ∀ c ∈ emptyBodyText, isWord c = false := by decide
  have hassoc : h.source = (h.keyword.word.toList ++ (h.space.text ++ (h.exportText ++
      (h.name.text ++ finalText h.final))) ++ clauseText id h.bases) ++ emptyBodyText := by
    simp [source, classText]
  rw [hassoc, erase_after hknown hbody, erase_clause hknown,
    erase_between hknown h.space.separates, hkeyword, hexported]
  simp [classText, gap]

end

/-! ## Rows -/

section

variable {f : List Char → List Char}

theorem Base.rows (hf : ∀ n : Identifier, ∀ c ∈ f n.text, isBlank c = false) (b : Base) :
    Rows 2 (b.text f) := by
  have haccess : Rows 1 b.accessText := by
    unfold accessText
    cases b.access with
    | none => exact Rows.of_not_blank (by simp)
    | some a =>
        have hword : ∀ w ∈ accessWords, ∀ c ∈ w, isBlank c = false := by decide
        exact (Rows.of_not_blank (hword a.word a.is_access)).append (Rows.of_blank a.after.blank)
  have hname := (Rows.of_not_blank (hf b.name)).append (Rows.of_blank b.after.blank)
  exact ((Rows.of_blank b.before.blank).append (haccess.append hname)).mono (by decide)

theorem rows_bases (hf : ∀ n : Identifier, ∀ c ∈ f n.text, isBlank c = false) (first : Base)
    (others : List Base) : Rows 2 (basesText f first others) := by
  unfold basesText
  induction others generalizing first with
  | nil => simpa using first.rows hf
  | cons b others ih => exact Rows.mark (by decide) (by decide) (first.rows hf) (ih b)

/-- What follows the first row of a class has short rows. -/
theorem rows_append_clause (hf : ∀ n : Identifier, ∀ c ∈ f n.text, isBlank c = false)
    {front : List Char} (hfront : Rows 2 front) (bases : Option BaseClause) :
    Rows 2 (front ++ (clauseText f bases ++ emptyBodyText)) := by
  have hbody : Rows 2 " \x7d;".toList := by
    have hblank : ∀ c ∈ [' '], isBlank c = true := by decide
    have hmarks : ∀ c ∈ ['\x7d', ';'], isBlank c = false := by decide
    exact ((Rows.of_blank hblank).append (Rows.of_not_blank hmarks)).mono (by decide)
  have hclause : Rows 2 (front ++ clauseText f bases) := by
    cases bases with
    | none => simpa [clauseText] using hfront
    | some c =>
        rw [clauseText, ← List.append_assoc]
        exact Rows.mark (by decide) (by decide) (hfront.append (Rows.of_blank c.before.blank))
          (rows_bases hf c.first c.others)
  have hspace : Rows 2 (front ++ clauseText f bases ++ [' ']) :=
    hclause.append (Rows.of_blank (by decide))
  have hopen := Rows.mark (c := '\x7b') (by decide) (by decide) hspace hbody
  simpa [emptyBodyText] using hopen

end

/-! ## Stripping -/

theorem isRun_final : IsRun isWord "final".toList :=
  ⟨by decide, by decide⟩

theorem rows_final : Rows 1 "final".toList :=
  Rows.of_not_blank (by decide)

theorem Space.isRun (s : Space) : IsRun isBlank s.text :=
  ⟨s.ne_nil, s.blank⟩

theorem Identifier.ne_nil (n : Identifier) : n.text ≠ [] := by
  obtain ⟨c, hc, -⟩ := n.opens
  intro heq
  simp [heq] at hc

theorem ClassHead.keyword_cases (h : ClassHead) :
    h.keyword.word.toList = "class".toList ∨ h.keyword.word.toList = "struct".toList := by
  rcases h.is_class with hk | hk <;> simp [hk, Keyword.word]

theorem ClassHead.rows_keyword (h : ClassHead) : Rows 1 h.keyword.word.toList := by
  rcases h.keyword_cases with hk | hk
  · rw [hk]
    exact Rows.of_not_blank (by decide)
  · rw [hk]
    exact Rows.of_not_blank (by decide)

/-- Whether `final` stands after a name of word characters. -/
def ClassHead.hidesName (h : ClassHead) : Bool :=
  h.final.isSome && h.name.text.all isWord

section

variable {known : List (List Char)}

theorem erase_not_blank (n : Identifier) :
    ∀ c ∈ known.foldl eraseWord n.text, isBlank c = false :=
  fun c hc => n.not_blank c ((foldl_eraseWord_sublist known n.text).subset hc)

theorem ClassHead.rows_front (h : ClassHead) (hshown : h.hidesName = false) :
    Rows 2 (h.keyword.word.toList ++ (h.gap.text ++ (h.name.text ++ finalText h.final))) := by
  have hgap := Rows.of_blank h.gap.blank
  cases hfinal : h.final with
  | none =>
      have hname := Rows.of_not_blank h.name.not_blank
      simpa [finalText] using h.rows_keyword.append (hgap.append hname)
  | some before =>
      -- the name has a character that is no word character, which ends a row
      have hmark : ∃ c ∈ h.name.text, isWord c = false := by
        simpa [hidesName, hfinal] using hshown
      obtain ⟨c, hmem, hc⟩ := hmark
      obtain ⟨xs, ys, hname⟩ := List.append_of_mem hmem
      have hnot := h.name.not_blank
      rw [hname] at hnot
      have hx : Rows 1 xs := Rows.of_not_blank fun d hd => hnot d (by simp [hd])
      have hy : Rows 1 ys := Rows.of_not_blank fun d hd => hnot d (by simp [hd])
      have hfront := h.rows_keyword.append (hgap.append hx)
      have hback := hy.append ((Rows.of_blank before.blank).append rows_final)
      have hrows := Rows.mark hc (hnot c (by simp)) hfront hback
      rw [hname]
      simpa [finalText] using hrows

theorem ClassHead.strip_shown (h : ClassHead) (hknown : AreExportWords known)
    (hexport : ∀ w ∈ h.exportWord, w.1 ∈ known) (hname : ∀ w ∈ Text.words h.name.text, w ∉ known)
    (hshown : h.hidesName = false) :
    strip known h.source =
      classText h.keyword.word.toList h.gap.text h.name.text (finalText h.final)
        (clauseText (known.foldl eraseWord) h.bases) := by
  have herase := h.erase hknown hexport hname
  have hrows := rows_append_clause (f := known.foldl eraseWord) erase_not_blank
    (h.rows_front hshown) h.bases
  rw [strip_of_rows, herase]
  rw [herase, classText]
  simpa using hrows

theorem ClassHead.strip_hidden (h : ClassHead) (hknown : AreExportWords known)
    (hexport : ∀ w ∈ h.exportWord, w.1 ∈ known) (hname : ∀ w ∈ Text.words h.name.text, w ∉ known)
    (hhidden : h.hidesName = true) :
    strip known h.source =
      classText h.keyword.word.toList [' '] "final".toList []
        (clauseText (known.foldl eraseWord) h.bases) := by
  have herase := h.erase hknown hexport hname
  obtain ⟨hfinal, hword⟩ := Bool.and_eq_true_iff.mp hhidden
  obtain ⟨before, hbefore⟩ := Option.isSome_iff_exists.mp hfinal
  have hrun : IsRun isWord h.name.text := ⟨h.name.ne_nil, List.all_eq_true.mp hword⟩
  have hrest : opensWord (clauseText (known.foldl eraseWord) h.bases ++ emptyBodyText) = false := by
    have hhead := separating_clause (known.foldl eraseWord) h.bases
    unfold opensWord
    split
    · rfl
    · next heq => exact (hhead _ (by rw [heq]; rfl)).not_word
  have hfront := (Rows.of_blank h.gap.blank).append
    ((Rows.of_not_blank h.name.not_blank).append ((Rows.of_blank before.blank).append rows_final))
  have htail := rows_append_clause (f := known.foldl eraseWord) erase_not_blank
    (hfront.mono (by decide)) h.bases
  have hspace : Rows 0 [' '] := Rows.of_blank (by decide)
  have hcollapsed := h.rows_keyword.append (hspace.append rows_final)
  have hleft := rows_append_clause (f := known.foldl eraseWord) erase_not_blank
    (hcollapsed.mono (by decide)) h.bases
  rw [hbefore] at herase
  have hstrip := strip_of_three_words h.keyword_cases (by simpa [classText, finalText] using herase)
    h.gap.isRun hrun before.isRun isRun_final hrest (by simpa using htail) (by simpa using hleft)
  rw [hstrip, classText]
  simp

end

end DocTransfer.Header
