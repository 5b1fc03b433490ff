import DocTransfer.Declared
import DocTransfer.Proofs.Header.ClassHead
import DocTransfer.Proofs.Header.Specifier
import DocTransfer.Proofs.Path.Below

/-! # The name that a class is declared under

A class with an empty body is stripped and read: its text is a row of words and marks, these are the
tokens of a class, and the class is known by its name. -/

namespace DocTransfer.Header

open Source Text

/-! ## Words and marks -/

theorem endsWord_of_separating {rest : List Char} (h : ∀ c ∈ rest.head?, Separating c) :
    EndsWord rest := by
  intro c hc
  rcases h c hc with hspacing | hmark
  · refine ⟨isNamePart_of_isBlank (isBlank_of_isSpacing hspacing), ?_, ?_⟩
    · rintro rfl
      exact absurd hspacing (by decide)
    · rintro rfl
      exact absurd hspacing (by decide)
  · have hmarks : ∀ d ∈ headMarks, isNamePart d = false ∧ d ≠ '"' ∧ d ≠ '\x27' := by decide
    exact hmarks c hmark

/-- The kinds and texts of the tokens of a base. -/
def Base.lexemes (f : List Char → List Char) (b : Base) : List (TokenKind × List Char) :=
  (b.access.map fun a => (.word, a.word)).toList ++
    if f b.name.text = [] then [] else [(.word, f b.name.text)]

/-- The kinds and texts of the tokens of bases. -/
def basesLexemes (f : List Char → List Char) (first : Base) (others : List Base) :
    List (TokenKind × List Char) :=
  first.lexemes f ++ others.flatMap fun b => (.mark, [',']) :: b.lexemes f

/-- The kinds and texts of the tokens of bases if there are any. -/
def clauseLexemes (f : List Char → List Char) : Option BaseClause → List (TokenKind × List Char)
  | none => []
  | some c => (.mark, [':']) :: basesLexemes f c.first c.others

/-- The kind and text of `final`, if it is there. -/
def finalLexemes (final : Option Space) : List (TokenKind × List Char) :=
  (final.map fun _ => (.word, "final".toList)).toList

/-- `f` takes the name of a base away as a whole, or leaves it as it is. -/
def Base.TakenWhole (f : List Char → List Char) (b : Base) : Prop :=
  f b.name.text = [] ∨ f b.name.text = b.name.text

section

variable {f : List Char → List Char}

theorem Base.headerLexemes {b : Base} (hf : b.TakenWhole f) {c : Char} (hc : Separating c)
    (rest : List Char) :
    headerLexemes (b.text f ++ c :: rest) = b.lexemes f ++ headerLexemes (c :: rest) := by
  have hname : Header.headerLexemes (f b.name.text ++ (b.after.text ++ c :: rest)) =
      (if f b.name.text = [] then [] else [(TokenKind.word, f b.name.text)]) ++
        Header.headerLexemes (c :: rest) := by
    rcases hf with hf | hf
    · rw [hf, if_pos rfl, List.nil_append, List.nil_append, headerLexemes_gap b.after.spacing]
    · rw [hf, if_neg b.name.ne_nil, headerLexemes_word b.name.opens b.name.parts
        (endsWord_of_separating (b.after.separating_head hc)),
        headerLexemes_gap b.after.spacing, List.singleton_append]
  unfold Base.text Base.lexemes accessText
  rw [List.append_assoc, headerLexemes_gap b.before.spacing]
  cases b.access with
  | none => simpa using hname
  | some a =>
      have haccess : ∀ w ∈ accessWords,
          (∃ d ∈ w.head?, opensName d = true) ∧ ∀ d ∈ w, isNamePart d = true := by decide
      obtain ⟨hopens, hparts⟩ := haccess a.word a.is_access
      simp only [List.append_assoc]
      rw [headerLexemes_word hopens hparts (endsWord_of_separating (a.after.separating_head _)),
        headerLexemes_gap a.after.spacing, hname]
      rfl

theorem head?_ne_colon {xs : List Char} (hxs : ':' ∉ xs) {c : Char} (hc : c ≠ ':')
    (rest : List Char) : (xs ++ c :: rest).head? ≠ some ':' := by
  cases xs with
  | nil => simpa using hc
  | cons d xs =>
      have hd : d ≠ ':' := fun heq => hxs (by simp [heq])
      simpa using hd

theorem Base.no_colon {b : Base} (hf : b.TakenWhole f) : ':' ∉ b.text f := by
  have hgap : ∀ g : Gap, ':' ∉ g.text := fun g hmem => absurd (g.spacing _ hmem) (by decide)
  have haccess : ':' ∉ b.accessText := by
    unfold accessText
    cases b.access with
    | none => simp
    | some a =>
        have hwords : ∀ w ∈ accessWords, ':' ∉ w := by decide
        simp [hwords a.word a.is_access, hgap a.after.toGap]
  have hname : ':' ∉ f b.name.text := by
    rcases hf with hf | hf
    · simp [hf]
    · rw [hf]
      exact fun hmem => absurd (b.name.parts _ hmem) (by decide)
  simp [Base.text, hgap, haccess, hname]

theorem no_colon_bases {first : Base} {others : List Base}
    (hf : ∀ b ∈ first :: others, b.TakenWhole f) : ':' ∉ basesText f first others := by
  obtain ⟨hfirst, hothers⟩ := List.forall_mem_cons.mp hf
  simp only [basesText, List.mem_append, List.mem_flatMap, List.mem_cons, not_or, not_exists,
    not_and]
  exact ⟨Base.no_colon hfirst, fun b hb => ⟨by decide, Base.no_colon (hothers b hb)⟩⟩

theorem headerLexemes_bases {first : Base} {others : List Base}
    (hf : ∀ b ∈ first :: others, b.TakenWhole f) (rest : List Char) :
    headerLexemes (basesText f first others ++ ' ' :: rest) =
      basesLexemes f first others ++ headerLexemes (' ' :: rest) := by
  induction others generalizing first with
  | nil =>
      simpa [basesText, basesLexemes] using
        Base.headerLexemes (hf first List.mem_cons_self) (.inl rfl) rest
  | cons b others ih =>
      obtain ⟨hfirst, hothers⟩ := List.forall_mem_cons.mp hf
      have htext : basesText f first (b :: others) ++ ' ' :: rest =
          first.text f ++ ',' :: (basesText f b others ++ ' ' :: rest) := by
        simp [basesText]
      have hlexemes : basesLexemes f first (b :: others) =
          first.lexemes f ++ (TokenKind.mark, [',']) :: basesLexemes f b others := by
        simp [basesLexemes]
      rw [htext, hlexemes, Base.headerLexemes hfirst (.inr (by decide)),
        headerLexemes_mark (by decide) (head?_ne_colon (no_colon_bases hothers) (by decide) rest),
        ih hothers, List.append_assoc, List.cons_append]

/-- The kinds and texts of the tokens of an empty body and the semicolon after it. -/
def bodyLexemes : List (TokenKind × List Char) :=
  [(.mark, ['\x7b']), (.mark, ['\x7d']), (.mark, [';'])]

theorem headerLexemes_body : headerLexemes emptyBodyText = bodyLexemes := by
  decide

/-- The bases if there are any. -/
def clauseBases : Option BaseClause → List Base
  | none => []
  | some c => c.first :: c.others

theorem headerLexemes_clause {bases : Option BaseClause}
    (hf : ∀ b ∈ clauseBases bases, b.TakenWhole f) :
    headerLexemes (clauseText f bases ++ emptyBodyText) = clauseLexemes f bases ++ bodyLexemes := by
  cases bases with
  | none => exact headerLexemes_body
  | some c =>
      have hbody : emptyBodyText = ' ' :: "\x7b \x7d;".toList := rfl
      rw [clauseText, clauseLexemes, List.append_assoc, List.cons_append, List.cons_append,
        headerLexemes_gap c.before.spacing, hbody,
        headerLexemes_mark (by decide) (head?_ne_colon (no_colon_bases hf) (by decide) _),
        headerLexemes_bases hf, ← hbody, headerLexemes_body]

theorem headerLexemes_classText (k : Keyword) (gap : Space) (name : Identifier)
    (final : Option Space) {bases : Option BaseClause}
    (hf : ∀ b ∈ clauseBases bases, b.TakenWhole f) :
    headerLexemes (classText k.word.toList gap.text name.text (finalText final)
        (clauseText f bases)) =
      (.word, k.word.toList) :: (.word, name.text) ::
        (finalLexemes final ++ (clauseLexemes f bases ++ bodyLexemes)) := by
  have hkeyword : (∃ c ∈ k.word.toList.head?, opensName c = true) ∧
      ∀ c ∈ k.word.toList, isNamePart c = true := by
    cases k <;> decide
  have hclause := separating_clause f bases
  have hrest : headerLexemes (finalText final ++ (clauseText f bases ++ emptyBodyText)) =
      finalLexemes final ++ (clauseLexemes f bases ++ bodyLexemes) ∧
      EndsWord (finalText final ++ (clauseText f bases ++ emptyBodyText)) := by
    cases final with
    | none => exact ⟨headerLexemes_clause hf, endsWord_of_separating hclause⟩
    | some before =>
        rw [finalText, List.append_assoc]
        refine ⟨?_, endsWord_of_separating (before.separating_head _)⟩
        rw [headerLexemes_gap before.spacing, headerLexemes_word (by decide) (by decide)
          (endsWord_of_separating hclause), headerLexemes_clause hf]
        rfl
  rw [classText, headerLexemes_word hkeyword.1 hkeyword.2
    (endsWord_of_separating (gap.separating_head _)), headerLexemes_gap gap.spacing,
    headerLexemes_word name.opens name.parts hrest.2, hrest.1]

end

/-! ## From tokens to names -/

theorem is_of_lexeme {t : Token} {kind : TokenKind} {s : String}
    (h : t.lexeme = (kind, s.toList)) (hkind : kind = .word ∨ kind = .mark) : t.is s = true := by
  obtain ⟨rfl, htext⟩ := Prod.mk.inj h
  exact (is_iff_of_kind hkind s).mpr htext

theorem isNameToken_of_lexeme {t : Token} {text : List Char} (h : t.lexeme = (.word, text))
    (hopens : ∃ c ∈ text.head?, opensName c = true) : IsNameToken t := by
  obtain ⟨hkind, rfl⟩ := Prod.mk.inj h
  exact ⟨hkind, hopens⟩

theorem isOneOf_iff_of_kind {t : Token} (h : t.kind = .word ∨ t.kind = .mark)
    (names : List String) : t.isOneOf names = true ↔ t.text ∈ names.map String.toList := by
  rw [Token.isOneOf, List.any_eq_true, List.mem_map]
  constructor
  · rintro ⟨s, hs, his⟩
    exact ⟨s, hs, ((is_iff_of_kind h s).mp his).symm⟩
  · rintro ⟨s, hs, htext⟩
    exact ⟨s, hs, (is_iff_of_kind h s).mpr htext.symm⟩

section

variable {f : List Char → List Char}

theorem Base.mem_lexemes {b : Base} (hf : b.TakenWhole f) {l : TokenKind × List Char}
    (hl : l ∈ b.lexemes f) :
    ∃ text, l = (.word, text) ∧ ∃ c ∈ text.head?, opensName c = true := by
  rcases List.mem_append.mp hl with hl | hl
  · obtain ⟨a, -, rfl⟩ : ∃ a, b.access = some a ∧ (.word, a.word) = l := by simpa using hl
    have haccess : ∀ w ∈ accessWords, ∃ c ∈ w.head?, opensName c = true := by decide
    exact ⟨a.word, rfl, haccess a.word a.is_access⟩
  · split at hl
    · cases hl
    · next hne =>
        rw [List.mem_singleton] at hl
        rw [hf.resolve_left hne] at hl
        exact ⟨b.name.text, hl, b.name.opens⟩

theorem isHeadTail_of_lexemes {final : Option Space} {bases : Option BaseClause}
    (hf : ∀ b ∈ clauseBases bases, b.TakenWhole f)
    {marking rest : List Token} (hmarking : marking.map Token.lexeme = finalLexemes final)
    (hrest : rest.map Token.lexeme = clauseLexemes f bases) : IsHeadTail marking rest := by
  constructor
  · intro t ht
    have hmem : t.lexeme ∈ finalLexemes final := hmarking ▸ List.mem_map_of_mem ht
    have hfinal : t.lexeme = (.word, "final".toList) := by
      cases final with
      | none => cases hmem
      | some _ => simpa [finalLexemes] using hmem
    have his := is_of_lexeme hfinal (.inl rfl)
    exact ⟨isNameToken_of_lexeme hfinal (by decide), by simp [Token.isOneOf, markingWords, his]⟩
  · cases bases with
    | none => exact .inl (List.map_eq_nil_iff.mp hrest)
    | some c =>
        obtain ⟨colon, rest, rfl, hcolon, hbases⟩ := List.map_eq_cons_iff.mp hrest
        refine .inr ⟨colon, rest, rfl, is_of_lexeme (s := ":") hcolon (.inr rfl), ?_⟩
        intro t ht
        have hmem : t.lexeme ∈ basesLexemes f c.first c.others := hbases ▸ List.mem_map_of_mem ht
        have hbase : ∀ b ∈ c.first :: c.others, t.lexeme ∈ b.lexemes f → IsNameToken t := by
          intro b hb hl
          obtain ⟨text, heq, hopens⟩ := Base.mem_lexemes (hf b hb) hl
          exact isNameToken_of_lexeme heq hopens
        simp only [basesLexemes, List.mem_append, List.mem_flatMap, List.mem_cons] at hmem
        rcases hmem with hmem | ⟨b, hb, hcomma | hmem⟩
        · exact .inl (hbase _ List.mem_cons_self hmem)
        · exact .inr (is_of_lexeme (s := ",") hcomma (.inr rfl))
        · exact .inl (hbase b (List.mem_cons_of_mem _ hb) hmem)

theorem exists_classTokens {k : Keyword} (hk : k ≠ .enum) (name : Identifier)
    (final : Option Space) {bases : Option BaseClause}
    (hf : ∀ b ∈ clauseBases bases, b.TakenWhole f)
    {ts : List Token}
    (hts : ts.map Token.lexeme = (.word, k.word.toList) :: (.word, name.text) ::
      (finalLexemes final ++ (clauseLexemes f bases ++ bodyLexemes))) :
    ∃ t : ClassTokens, ts = t.all ∧ t.name.text = name.text := by
  obtain ⟨keyword, ts, rfl, hkeyword, hts⟩ := List.map_eq_cons_iff.mp hts
  obtain ⟨nameToken, ts, rfl, hname, hts⟩ := List.map_eq_cons_iff.mp hts
  obtain ⟨marking, ts, rfl, hmarking, hts⟩ := List.map_eq_append_iff.mp hts
  obtain ⟨rest, ts, rfl, hrest, hts⟩ := List.map_eq_append_iff.mp hts
  obtain ⟨opening, ts, rfl, hopening, hts⟩ := List.map_eq_cons_iff.mp hts
  obtain ⟨closing, ts, rfl, hclosing, hts⟩ := List.map_eq_cons_iff.mp hts
  obtain ⟨semicolon, ts, rfl, hsemicolon, hts⟩ := List.map_eq_cons_iff.mp hts
  obtain rfl := List.map_eq_nil_iff.mp hts
  have htext : nameToken.text = name.text := (Prod.mk.inj hname).2
  have hreserved : ∀ s ∈ reservedWords, nameToken.is s = false := by
    intro s hs
    rw [Bool.eq_false_iff, ne_eq, is_iff_of_kind (.inl (Prod.mk.inj hname).1), htext]
    exact fun heq => name.not_reserved (List.mem_map.mpr ⟨s, hs, heq.symm⟩)
  have hattribute : nameToken.isOneOf attributeWords = false := by
    have hsubset : ∀ s ∈ attributeWords, s ∈ reservedWords := by decide
    rw [Token.isOneOf, List.any_eq_false]
    exact fun s hs => by simp [hreserved s (hsubset s hs)]
  exact ⟨{
    kind := k
    not_enum := hk
    keyword := keyword
    is_keyword := is_of_lexeme hkeyword (.inl rfl)
    name := nameToken
    is_name := isNameToken_of_lexeme hname name.opens
    not_attribute := hattribute
    not_template := hreserved "template" (by decide)
    marking := marking
    bases := rest
    is_tail := isHeadTail_of_lexemes hf hmarking hrest
    opening := opening
    is_opening := is_of_lexeme (s := "\x7b") hopening (.inr rfl)
    closing := closing
    is_closing := is_of_lexeme (s := "\x7d") hclosing (.inr rfl)
    semicolon := semicolon
    is_semicolon := is_of_lexeme (s := ";") hsemicolon (.inr rfl) },
    by simp [ClassTokens.all, ClassTokens.head], htext⟩

theorem trim_of_not_blank {cs : List Char} (h : ∀ c ∈ cs, isBlank c = false) : trim cs = cs := by
  have hdrop : ∀ {xs : List Char}, (∀ c ∈ xs, isBlank c = false) → xs.dropWhile isBlank = xs := by
    intro xs hxs
    cases xs with
    | nil => rfl
    | cons c xs => simp [hxs c List.mem_cons_self]
  rw [trim, trimStart, hdrop h, trimEnd, dropEndWhile,
    hdrop fun c hc => h c (List.mem_reverse.mp hc), List.reverse_reverse]

theorem add_identifier (name : Identifier) :
    Declared.add [] name.text = [String.ofList name.text] := by
  simp [Declared.add, trim_of_not_blank name.not_blank, name.ne_nil]

/-- A class that needs no stripping is known by its name, unless that only marks a class. -/
theorem types_classText {k : Keyword} (hk : k ≠ .enum) (gap : Space) (name : Identifier)
    (final : Option Space) {bases : Option BaseClause}
    (hf : ∀ b ∈ clauseBases bases, b.TakenWhole f) :
    let source := classText k.word.toList gap.text name.text (finalText final) (clauseText f bases)
    types source (read source) =
      if name.text ∈ markingWords.map String.toList then [] else [String.ofList name.text] := by
  intro source
  obtain ⟨t, hall, hname⟩ := exists_classTokens hk name final hf
    (headerLexemes_classText k gap name final hf)
  have hmarks := isOneOf_iff_of_kind (.inl t.is_name.word) markingWords
  rw [hname] at hmarks
  rw [t.types_read hall, hname, add_identifier]
  simp only [hmarks]

end

/-! ## Files -/

theorem exists_folder_and_name (cs : List Char) :
    ∃ folder name, cs = folder ++ name ∧ (folder = [] ∨ folder.getLast? = some '/') ∧
      '/' ∉ name := by
  induction cs with
  | nil => exact ⟨[], [], rfl, .inl rfl, by simp⟩
  | cons c cs ih =>
      obtain ⟨folder, name, rfl, hfolder, hname⟩ := ih
      by_cases hnil : folder = []
      · subst hnil
        by_cases hc : c = '/'
        · exact ⟨[c], name, rfl, .inr (by simp [hc]), hname⟩
        · exact ⟨[], c :: name, rfl, .inl rfl, by simp [hname, Ne.symm hc]⟩
      · refine ⟨c :: folder, name, rfl, .inr ?_, hname⟩
        rw [List.getLast?_cons_of_ne_nil hnil]
        exact hfolder.resolve_left hnil

/-- A file is a header if its name is more than `.h` and ends with it. -/
theorem ofPath?_header {front : List Char} {c : Char} (hc : c ≠ '/') :
    Language.ofPath? (front ++ c :: ".h".toList) = some .header := by
  obtain ⟨folder, stem, rfl, hfolder, hstem⟩ := exists_folder_and_name front
  have hname : Path.IsName (stem ++ c :: ".h".toList) := by
    refine ⟨by simp, ?_, ?_, ?_⟩
    · simp [hstem, hc.symm]
    · intro heq
      have hlength := congrArg List.length heq
      simp at hlength
    · intro heq
      have hlength := congrArg List.length heq
      simp at hlength
  have hjoin : Path.join folder (stem ++ c :: ".h".toList) =
      folder ++ stem ++ c :: ".h".toList := by
    rw [Path.join, if_neg hname.relative, if_pos hfolder, List.append_assoc]
  have hfile : Path.fileName? (folder ++ stem ++ c :: ".h".toList) =
      some (stem ++ c :: ".h".toList) := by
    rw [← hjoin, Path.fileName?, hname.plain.components_join]
    simp
  have hextension : Path.nameExtension? (stem ++ c :: ".h".toList) = some ['h'] := by
    simp [Path.nameExtension?]
  rw [Language.ofPath?, Path.extension?, hfile, Option.bind_some, hextension]
  decide

/-! ## Declared types -/

/-- The names in a class head. -/
def ClassHead.names (h : ClassHead) : List Identifier :=
  h.name :: (clauseBases h.bases).map (·.name)

/-- Whether a class is not found under its name: `final` stands after a name of word characters, or
the name is a word that may also mark a class. -/
def ClassHead.isLost (h : ClassHead) : Bool :=
  h.hidesName || (markingWords.map String.toList).contains h.name.text

/-- `final`, which is an identifier in other places. -/
def finalName : Identifier where
  text := "final".toList
  opens := by decide
  parts := by decide
  not_reserved := by decide

/-- Exactly one type is declared by a class with an empty body, and it is the class, unless the
class is lost. Export words are words that mean nothing to the language, and none of them is only a
part of a name in the class head. -/
theorem declaredTypes_classHead {known : List String}
    (hknown : AreExportWords (known.map String.toList)) (h : ClassHead)
    (hexport : ∀ w ∈ h.exportWord, w.1 ∈ known.map String.toList)
    (hname : h.name.text ∉ known.map String.toList)
    (hwhole : ∀ n ∈ h.names, ∀ w ∈ Text.words n.text, w ∈ known.map String.toList → w = n.text)
    {path : String} {front : List Char} {c : Char}
    (hpath : path.toList = front ++ c :: ".h".toList) (hc : c ≠ '/') :
    declaredTypes known (String.ofList h.source) path =
      if h.isLost then [] else [String.ofList h.name.text] := by
  have hkept : ∀ w ∈ Text.words h.name.text, w ∉ known.map String.toList := by
    intro w hw hmem
    exact hname (hwhole h.name List.mem_cons_self w hw hmem ▸ hmem)
  have hbases : ∀ b ∈ clauseBases h.bases,
      b.TakenWhole ((known.map String.toList).foldl eraseWord) := by
    intro b hb
    by_cases hmem : b.name.text ∈ known.map String.toList
    · exact .inl (foldl_eraseWord_of_mem hknown.words hmem)
    · refine .inr (foldl_eraseWord_of_not_mem hknown.words fun w hw hw' => hmem ?_)
      have hin : b.name ∈ h.names := List.mem_cons_of_mem _ (List.mem_map_of_mem hb)
      exact hwhole b.name hin w hw hw' ▸ hw'
  have hk : h.keyword ≠ .enum := by
    rcases h.is_class with hk | hk <;> simp [hk]
  rw [declaredTypes, hpath, ofPath?_header hc]
  simp only [Option.bind_some, Language.grammar?, Grammar.declaredTypes, String.toList_ofList]
  cases hhidden : h.hidesName with
  | true =>
      rw [h.strip_hidden hknown hexport hkept hhidden]
      have htypes := types_classText (f := (known.map String.toList).foldl eraseWord) hk
        ⟨⟨[' '], by decide⟩, by decide⟩ finalName none hbases
      have hfinal : finalName.text ∈ markingWords.map String.toList := by decide
      rw [if_pos hfinal] at htypes
      have hlost : h.isLost = true := by simp [ClassHead.isLost, hhidden]
      rw [if_pos hlost]
      exact htypes
  | false =>
      rw [h.strip_shown hknown hexport hkept hhidden]
      have htypes := types_classText (f := (known.map String.toList).foldl eraseWord) hk h.gap
        h.name h.final hbases
      simp only at htypes
      rw [htypes]
      simp [ClassHead.isLost, hhidden]

/-- `class SP_API Bone : public Update, Tint`. -/
def boneHead : ClassHead where
  keyword := .cls
  is_class := .inl rfl
  space := ⟨⟨[' '], by decide⟩, by decide⟩
  exportWord := some ("SP_API".toList, ⟨⟨[' '], by decide⟩, by decide⟩)
  name := ⟨"Bone".toList, by decide, by decide, by decide⟩
  final := none
  bases := some {
    before := ⟨[' '], by decide⟩
    first := {
      before := ⟨[' '], by decide⟩
      access := some ⟨"public".toList, by decide, ⟨⟨[' '], by decide⟩, by decide⟩⟩
      name := ⟨"Update".toList, by decide, by decide, by decide⟩
      after := ⟨[], by decide⟩ }
    others := [{
      before := ⟨[' '], by decide⟩
      access := none
      name := ⟨"Tint".toList, by decide, by decide, by decide⟩
      after := ⟨[], by decide⟩ }] }

theorem declaredTypes_classHead_bone :
    AreExportWords (defaultExportWords.map String.toList) ∧
      (∀ w ∈ boneHead.exportWord, w.1 ∈ defaultExportWords.map String.toList) ∧
      boneHead.name.text ∉ defaultExportWords.map String.toList ∧
      (∀ n ∈ boneHead.names, ∀ w ∈ Text.words n.text,
        w ∈ defaultExportWords.map String.toList → w = n.text) ∧
      String.ofList boneHead.source = "class SP_API Bone : public Update, Tint \x7b \x7d;" ∧
      declaredTypes defaultExportWords (String.ofList boneHead.source) "include/Bone.h" =
        ["Bone"] := by
  have hknown : AreExportWords (defaultExportWords.map String.toList) :=
    ⟨by decide, by decide, by decide⟩
  have hexport : ∀ w ∈ boneHead.exportWord, w.1 ∈ defaultExportWords.map String.toList := by
    simp [boneHead, defaultExportWords]
  have hname : boneHead.name.text ∉ defaultExportWords.map String.toList := by decide
  have hwhole : ∀ n ∈ boneHead.names, ∀ w ∈ Text.words n.text,
      w ∈ defaultExportWords.map String.toList → w = n.text := by decide
  have hpath : "include/Bone.h".toList = "include/Bon".toList ++ 'e' :: ".h".toList := by decide
  refine ⟨hknown, hexport, hname, hwhole, by decide, ?_⟩
  exact declaredTypes_classHead hknown boneHead hexport hname hwhole hpath (by decide)

/-- A class of which nothing is found: its name is taken for an export word. -/
theorem declaredTypes_final_class :
    declaredTypes defaultExportWords "class Foo final \x7b \x7d;" "Foo.h" = [] ∧
      "Foo" ∉ declaredTypes defaultExportWords "class Foo final \x7b \x7d;" "Foo.h" := by
  decide +kernel

end DocTransfer.Header
