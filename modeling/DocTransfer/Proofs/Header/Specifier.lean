import DocTransfer.Proofs.Header.Lexing

/-! # The name of a class with an empty body

A class is its keyword, its name, maybe `final`, maybe bases after a colon, and its body. It is
read into one specifier. Where the word after the keyword only marks a class, the specifier has no
name of its own, and none is found before the colon or the body. -/

namespace DocTransfer.Header

open Source

/-! ## Tokens -/

theorem is_iff_of_kind {t : Token} (h : t.kind = .word ∨ t.kind = .mark) (s : String) :
    t.is s = true ↔ t.text = s.toList := by
  rcases h with h | h <;> simp [Token.is, h]

/-- A word that may be a name, as far as its first character tells. -/
structure IsNameToken (t : Token) : Prop where
  word : t.kind = .word
  opens : ∃ c ∈ t.text.head?, opensName c = true

theorem IsNameToken.is_eq_false {t : Token} (h : IsNameToken t) {s : String}
    (hs : ∀ c ∈ s.toList.head?, opensName c = false) : t.is s = false := by
  rw [Bool.eq_false_iff, ne_eq, is_iff_of_kind (.inl h.word)]
  intro htext
  obtain ⟨c, hc, hopens⟩ := h.opens
  rw [htext] at hc
  simp [hs c hc] at hopens

theorem IsNameToken.isPlain {t : Token} (h : IsNameToken t) : t.IsPlain := by
  constructor
  · simp [closer?, h.is_eq_false (s := "(") (by decide), h.is_eq_false (s := "[") (by decide),
      h.is_eq_false (s := "\x7b") (by decide)]
  · simp [Token.isOneOf, h.is_eq_false (s := ")") (by decide),
      h.is_eq_false (s := "]") (by decide), h.is_eq_false (s := "\x7d") (by decide)]

theorem kind_of_is {t : Token} {s : String} (h : t.is s = true) :
    t.kind = .word ∨ t.kind = .mark := by
  simp only [Token.is, Bool.and_eq_true, Bool.or_eq_true, beq_iff_eq] at h
  exact h.1

/-- The marks that open or close. -/
def brackets : List String :=
  ["(", "[", "\x7b", ")", "]", "\x7d"]

theorem isPlain_of_is {t : Token} {s : String} (h : t.is s = true) (hs : s ∉ brackets) :
    t.IsPlain := by
  have hbracket : ∀ b ∈ brackets, t.is b = false :=
    fun b hb => Token.is_eq_false h (fun heq => hs (heq ▸ hb))
  simp only [brackets, List.forall_mem_cons] at hbracket
  simp [Token.IsPlain, closer?, Token.isOneOf, hbracket]

/-- Words that only mark a class. -/
def markingWords : List String :=
  ["final", "override"]

/-- What stands between the name of a class and its body: marking words, and bases. -/
structure IsHeadTail (marking bases : List Token) : Prop where
  marking : ∀ t ∈ marking, IsNameToken t ∧ t.isOneOf markingWords = true
  bases : bases = [] ∨ ∃ colon rest, bases = colon :: rest ∧ colon.is ":" = true ∧
    ∀ t ∈ rest, IsNameToken t ∨ t.is "," = true

/-! ## Splitting -/

theorem keyword?_eq_some {p : Piece} {k : Keyword} (h : p.is k.word = true) :
    keyword? p = some k := by
  cases p with
  | group => cases h
  | leaf t =>
      have hother : ∀ k' : Keyword, k.word ≠ k'.word → t.is k'.word = false :=
        fun k' => Token.is_eq_false h
      have hcls := hother .cls
      have hstruct := hother .struct
      have henum := hother .enum
      cases k <;> simp_all [keyword?, Piece.is, Keyword.word]

section

variable {marking bases : List Token} {o : Token} (c : Token) (inner after : List Piece)

theorem IsHeadTail.leadsToBody (htail : IsHeadTail marking bases) (ho : o.is "\x7b" = true) :
    Header.leadsToBody ((marking ++ bases).map .leaf ++ .group o inner c :: after) = true := by
  obtain ⟨hmarking, hbases⟩ := htail
  induction marking with
  | nil =>
      rcases hbases with rfl | ⟨colon, rest, rfl, hcolon, -⟩
      · simp [Header.leadsToBody, Piece.opensWith, ho]
      · simp [Header.leadsToBody, Piece.is, hcolon]
  | cons t marking ih =>
      obtain ⟨⟨-, ht⟩, hmarking⟩ := List.forall_mem_cons.mp hmarking
      have hrest := ih hmarking
      have ht' : (Piece.leaf t).isOneOf ["final", "override"] = true := ht
      simp only [List.cons_append, List.map_cons, Header.leadsToBody, ht', hrest, Bool.and_true,
        Bool.or_true]

theorem splitBases_append {ts : List Token} (hts : ∀ t ∈ ts, t.is ";" = false ∧ t.is "=" = false)
    (ho : o.is "\x7b" = true) :
    splitBases (ts.map .leaf ++ .group o inner c :: after) =
      some (ts.map .leaf, .group o inner c, after) := by
  induction ts with
  | nil => simp [splitBases, Piece.opensWith, ho]
  | cons t ts ih =>
      obtain ⟨⟨hsemicolon, hequals⟩, hts⟩ := List.forall_mem_cons.mp hts
      rw [List.map_cons, List.cons_append, splitBases, ih hts]
      simp [Piece.opensWith, Piece.is, hsemicolon, hequals]

theorem IsHeadTail.splitBases (htail : IsHeadTail marking bases) (ho : o.is "\x7b" = true) :
    Header.splitBases ((marking ++ bases).map .leaf ++ .group o inner c :: after) =
      some ((marking ++ bases).map .leaf, .group o inner c, after) := by
  apply splitBases_append c inner after _ ho
  intro t ht
  rcases List.mem_append.mp ht with ht | ht
  · have hname := (htail.marking t ht).1
    exact ⟨hname.is_eq_false (by decide), hname.is_eq_false (by decide)⟩
  · rcases htail.bases with rfl | ⟨colon, rest, rfl, hcolon, hrest⟩
    · cases ht
    · rcases List.mem_cons.mp ht with rfl | ht
      · exact ⟨Token.is_eq_false hcolon (by decide), Token.is_eq_false hcolon (by decide)⟩
      · rcases hrest t ht with hname | hcomma
        · exact ⟨hname.is_eq_false (by decide), hname.is_eq_false (by decide)⟩
        · exact ⟨Token.is_eq_false hcomma (by decide), Token.is_eq_false hcomma (by decide)⟩

/-- What follows the name of a class does not go on with the name. -/
theorem IsHeadTail.head (htail : IsHeadTail marking bases) (o : Token) :
    ∃ q more, (marking ++ bases).map .leaf ++ .group o inner c :: after = q :: more ∧
      q.is "<" = false ∧ q.is "::" = false := by
  obtain ⟨hmarking, hbases⟩ := htail
  cases marking with
  | nil =>
      rcases hbases with rfl | ⟨colon, rest, rfl, hcolon, -⟩
      · exact ⟨_, _, rfl, rfl, rfl⟩
      · exact ⟨_, _, rfl, Token.is_eq_false hcolon (by decide),
          Token.is_eq_false hcolon (by decide)⟩
  | cons t marking =>
      have hname := (hmarking t List.mem_cons_self).1
      exact ⟨_, _, rfl, hname.is_eq_false (by decide), hname.is_eq_false (by decide)⟩

end

theorem splitName_single {name : Token} (hname : IsNameToken name)
    (htemplate : name.is "template" = false) {q : Piece} (hangle : q.is "<" = false)
    (hcolons : q.is "::" = false) (fuel : Nat) (more : List Piece) :
    splitName (fuel + 1) (.leaf name :: q :: more) = ([.leaf name], q :: more) := by
  have hword : (Piece.leaf name).isWord = true := by simp [Piece.isWord, Token.isWord, hname.word]
  have hfirst : (Piece.leaf name).is "::" = false := hname.is_eq_false (by decide)
  have htemplate' : (Piece.leaf name).is "template" = false := htemplate
  simp [splitName, hword, hfirst, htemplate', hangle, hcolons]

/-! ## Reading -/

/-- The node of a token between the name of a class and its body. -/
def tailNode (t : Token) : HeaderTree :=
  nodeOf (if t.is ":" then .colon else if isName (.leaf t) then .typeIdentifier else .other)
    (.leaf t)

theorem map_tailNode (ts : List Token) :
    ((ts.map Piece.leaf).map fun b =>
      nodeOf (if b.is ":" then .colon else if isName b then .typeIdentifier else .other) b) =
      ts.map tailNode := by
  rw [List.map_map]
  rfl

/-- The node of an empty body. -/
def emptyBody (o c : Token) : HeaderTree :=
  .node .other (some .body) o.start c.stop []

/-- The specifier of a class with an empty body; `names` holds the node of its name. -/
def classNode (k : Keyword) (keyword : Token) (names : List HeaderTree) (tail : List Token)
    (o c : Token) : HeaderTree :=
  .node (.specifier k) none keyword.start c.stop
    (nodeOf (.keyword k) (.leaf keyword) :: names ++ tail.map tailNode ++ [emptyBody o c])

/-- The words that may stand before attributes. -/
def attributeWords : List String :=
  ["__attribute__", "__attribute", "__declspec", "alignas"]

theorem items_nil (fuel : Nat) : items fuel [] = [] := by
  cases fuel <;> rfl

section

variable {k : Keyword} {keyword name o c : Token} {marking bases : List Token}
  {after : List Piece}

theorem splitAttributes_name (hattribute : name.isOneOf attributeWords = false)
    (rest : List Piece) : splitAttributes (.leaf name :: rest) = ([], .leaf name :: rest) := by
  have hleaf : ¬ (Piece.leaf name).opensWith "[" = true := by simp [Piece.opensWith]
  have hword : ¬ (Piece.leaf name).isOneOf
      ["__attribute__", "__attribute", "__declspec", "alignas"] = true :=
    Bool.eq_false_iff.mp hattribute
  cases rest <;> exact (if_neg hleaf).trans (if_neg hword)

/-- The specifier of a class is read from its name, if it has one, what follows the name, and its
body. -/
theorem specifier_of_parts {fuel : Nat} {rest names tail : List Piece} {marks : List Token}
    (hk : k ≠ .enum) (hattributes : splitAttributes rest = ([], rest))
    (hnames : (if isUnnamed rest then ([], rest) else splitName fuel rest) = (names, tail))
    (hleads : leadsToBody tail = true)
    (hbases : splitBases tail = some (marks.map .leaf, .group o [] c, after)) :
    specifier (fuel + 1) k (.leaf keyword) rest =
      (classNode k keyword (if names.isEmpty then [] else [typeNode (some .name) names]) marks o c,
        after) := by
  rw [specifier]
  · simp only [hattributes, hnames, hleads, if_true, hbases, if_neg hk, items_nil, map_tailNode]
    rfl
  · exact fun _ _ henum => absurd henum hk

theorem specifier_named (hk : k ≠ .enum) (hname : IsNameToken name)
    (hattribute : name.isOneOf attributeWords = false) (htemplate : name.is "template" = false)
    (hmarks : name.isOneOf markingWords = false) (htail : IsHeadTail marking bases)
    (ho : o.is "\x7b" = true) (fuel : Nat) :
    specifier (fuel + 2) k (.leaf keyword)
        (.leaf name :: ((marking ++ bases).map .leaf ++ .group o [] c :: after)) =
      (classNode k keyword [typeNode (some .name) [.leaf name]] (marking ++ bases) o c, after) := by
  have hleads := htail.leadsToBody c [] after ho
  have hsplit := htail.splitBases c [] after ho
  have hnamed : isUnnamed (.leaf name :: ((marking ++ bases).map .leaf ++ .group o [] c :: after)) =
      false := by
    have hmarks' : (Piece.leaf name).isOneOf ["final", "override"] = false := hmarks
    simp [isUnnamed, hmarks']
  obtain ⟨q, more, heq, hangle, hcolons⟩ := htail.head c [] after o
  rw [heq] at hleads hsplit hnamed ⊢
  have hnames : (if isUnnamed (.leaf name :: q :: more) then ([], .leaf name :: q :: more)
      else splitName (fuel + 1) (.leaf name :: q :: more)) = ([.leaf name], q :: more) := by
    rw [hnamed]
    exact splitName_single hname htemplate hangle hcolons fuel more
  exact specifier_of_parts hk (splitAttributes_name hattribute _) hnames hleads hsplit

theorem specifier_unnamed (hk : k ≠ .enum) (htail : IsHeadTail (name :: marking) bases)
    (ho : o.is "\x7b" = true) (fuel : Nat) :
    specifier (fuel + 1) k (.leaf keyword)
        (.leaf name :: ((marking ++ bases).map .leaf ++ .group o [] c :: after)) =
      (classNode k keyword [] (name :: (marking ++ bases)) o c, after) := by
  have hmarks := (htail.marking name List.mem_cons_self).2
  have hattribute : name.isOneOf attributeWords = false :=
    Token.isOneOf_eq_false hmarks (by decide)
  have htail' : IsHeadTail marking bases :=
    ⟨fun t ht => htail.marking t (List.mem_cons_of_mem name ht), htail.bases⟩
  have hleads := htail.leadsToBody c [] after ho
  have hleads' := htail'.leadsToBody c [] after ho
  have hsplit := htail.splitBases c [] after ho
  rw [List.cons_append, List.map_cons, List.cons_append] at hleads hsplit
  have hunnamed : isUnnamed
      (.leaf name :: ((marking ++ bases).map .leaf ++ .group o [] c :: after)) = true := by
    have hmarks' : (Piece.leaf name).isOneOf ["final", "override"] = true := hmarks
    rw [isUnnamed, hmarks', hleads', Bool.and_true]
  exact specifier_of_parts hk (splitAttributes_name hattribute _) (if_pos hunnamed) hleads hsplit

end

/-! ## Names -/

section

variable {source : List Char} {k : Keyword} {keyword name o c : Token} {tail : List Token}

theorem preorderAll_of_leaves {ts : List HeaderTree} (h : ∀ t ∈ ts, t.children = []) :
    SourceTree.preorderAll ts = ts := by
  induction ts with
  | nil => rfl
  | cons t ts ih =>
      obtain ⟨ht, hts⟩ := List.forall_mem_cons.mp h
      rw [SourceTree.preorderAll, ih hts]
      obtain ⟨kind, label, start, stop, children⟩ := t
      cases ht
      rfl

/-- Whether nodes of a kind decide by themselves what is declared. -/
def Kind.declares : Kind → Bool
  | .specifier _ | .function | .typedef | .friend => true
  | _ => false

/-- A node that declares nothing and holds nothing. -/
structure IsInert (t : HeaderTree) : Prop where
  leaf : t.children = []
  idle : t.kind.declares = false

theorem IsInert.visit {t : HeaderTree} (h : IsInert t) (found : List String) :
    visit source found t = found := by
  obtain ⟨kind, label, start, stop, children⟩ := t
  obtain ⟨hleaf, hidle⟩ := h
  cases hleaf
  have hfriend : kind ≠ .friend := by
    rintro rfl
    cases hidle
  have hname : name? source (.node kind label start stop []) = none := by
    unfold name?
    split <;> rfl
  refine (if_neg hfriend).trans ?_
  rw [hname]
  rfl

theorem visitAll_of_inert {ts : List HeaderTree} (h : ∀ t ∈ ts, IsInert t)
    (found : List String) : visitAll source found ts = found := by
  induction ts with
  | nil => rfl
  | cons t ts ih =>
      obtain ⟨ht, hts⟩ := List.forall_mem_cons.mp h
      change visitAll source (Header.visit source found t) ts = found
      rw [ht.visit, ih hts]

theorem isInert_tailNode (t : Token) : IsInert (tailNode t) := by
  refine ⟨rfl, ?_⟩
  simp only [tailNode, nodeOf, SourceTree.kind]
  split_ifs <;> rfl

theorem isInert_name (t : Token) : IsInert (typeNode (some .name) [.leaf t]) := by
  refine ⟨rfl, ?_⟩
  simp only [typeNode, SourceTree.kind]
  split_ifs <;> rfl

theorem isInert_of_mem_classNode {names : List HeaderTree} (hnames : ∀ t ∈ names, IsInert t) :
    ∀ t ∈ (classNode k keyword names tail o c).children, IsInert t := by
  intro t ht
  simp only [classNode, SourceTree.children, List.mem_append, List.mem_cons, List.mem_map,
    List.not_mem_nil, or_false] at ht
  rcases ht with ((rfl | ht) | ⟨t', -, rfl⟩) | rfl
  · exact ⟨rfl, rfl⟩
  · exact hnames t ht
  · exact isInert_tailNode t'
  · exact ⟨rfl, rfl⟩

/-- A header that holds one class with an empty body declares what the class is called. -/
theorem types_classNode {names : List HeaderTree} (hnames : ∀ t ∈ names, IsInert t)
    (place stop : Nat) :
    types source (.node .other none 0 stop
        [around .other none place [classNode k keyword names tail o c]]) =
      Declared.addSome [] (specifierName? source (classNode k keyword names tail o c)) := by
  have hclass : ∀ found, visit source found (classNode k keyword names tail o c) =
      Declared.addSome found (specifierName? source (classNode k keyword names tail o c)) := by
    intro found
    rw [classNode, visit, if_neg (by simp), name?]
    exact visitAll_of_inert (isInert_of_mem_classNode hnames) _
  simp [types, visit, visitAll, around, name?, SourceTree.kind, Declared.addSome, hclass]

theorem part?_body_classNode {names : List HeaderTree}
    (hnames : ∀ t ∈ names, t.label ≠ some .body) :
    (classNode k keyword names tail o c).part? .body = some (emptyBody o c) := by
  have hfront : (nodeOf (.keyword k) (.leaf keyword) :: names ++ tail.map tailNode).find?
      (·.label == some .body) = none := by
    rw [List.find?_eq_none]
    intro t ht
    simp only [List.mem_append, List.mem_cons, List.mem_map] at ht
    rcases ht with (rfl | ht) | ⟨t', -, rfl⟩
    · simp [nodeOf, SourceTree.label]
    · simpa using hnames t ht
    · simp [tailNode, nodeOf, SourceTree.label]
  rw [classNode, SourceTree.part?, SourceTree.children, List.find?_append, hfront, Option.none_or]
  rfl

/-- The node of a token says what the token says. -/
theorem text_of_token {t : Token} (hlocated : (source.drop t.start).take t.text.length = t.text)
    (kind : Kind) (label : Option Label) (ts : List HeaderTree) :
    (SourceTree.node kind label t.start t.stop ts).text source = t.text := by
  have hlength : t.stop - t.start = t.text.length := by simp [Token.stop]
  rw [SourceTree.text, SourceTree.start, SourceTree.stop, hlength]
  exact hlocated

theorem specifierName?_named (hname : name.text ≠ [])
    (hlocated : (source.drop name.start).take name.text.length = name.text) :
    specifierName? source (classNode k keyword [typeNode (some .name) [.leaf name]] tail o c) =
      some name.text := by
  have hbody : (classNode k keyword [typeNode (some .name) [.leaf name]] tail o c).part? .body =
      some (emptyBody o c) :=
    part?_body_classNode (by simp [typeNode, SourceTree.label])
  have hpart : (classNode k keyword [typeNode (some .name) [.leaf name]] tail o c).part? .name =
      some (typeNode (some .name) [.leaf name]) := by
    simp [classNode, SourceTree.part?, SourceTree.children, nodeOf, typeNode, SourceTree.label]
  have htext : (typeNode (some .name) [.leaf name]).text source = name.text :=
    text_of_token hlocated _ _ _
  simp [specifierName?, hbody, hpart, htext, hname]

/-- No name is found where each one ends after the colon has begun. -/
theorem firstName?_eq_none {t word : HeaderTree}
    (hword : t.childWhere? Kind.isKeyword = some word)
    (h : ∀ d ∈ t.descendantsWhere Kind.isName, ∃ colon,
      t.descendants.find? (fun d => d.kind == .colon && word.stop ≤ d.start) = some colon ∧
        colon.start < d.stop) : firstName? source t = none := by
  have hfind : ∀ limit, (∀ d ∈ t.descendantsWhere Kind.isName, limit < d.stop) →
      (t.descendantsWhere Kind.isName).find?
        (fun d => word.stop ≤ d.start && d.stop ≤ limit) = none := by
    intro limit hlimit
    rw [List.find?_eq_none]
    intro d hd
    have hd' := hlimit d hd
    simp only [Bool.and_eq_true, decide_eq_true_eq]
    omega
  unfold firstName?
  rw [hword]
  simp only [Option.bind_eq_bind, Option.bind_some]
  rw [hfind]
  · rfl
  · intro d hd
    obtain ⟨colon, hcolon, hbefore⟩ := h d hd
    rw [hcolon]
    simp only
    omega

theorem descendants_classNode {names : List HeaderTree} (hnames : ∀ t ∈ names, IsInert t) :
    (classNode k keyword names tail o c).descendants =
      nodeOf (.keyword k) (.leaf keyword) :: names ++ tail.map tailNode ++ [emptyBody o c] :=
  preorderAll_of_leaves fun t ht => (isInert_of_mem_classNode (k := k) hnames t ht).leaf

theorem kind_tailNode_colon {colon : Token} (hcolon : colon.is ":" = true) :
    (tailNode colon).kind = .colon := by
  simp [tailNode, nodeOf, SourceTree.kind, hcolon]

section

variable {marking bases rest : List Token}

theorem IsHeadTail.kind_marking (htail : IsHeadTail marking bases) :
    ∀ t ∈ marking, (tailNode t).kind = .other := by
  intro t ht
  obtain ⟨hname, hmarks⟩ := htail.marking t ht
  have hcolon : t.is ":" = false := hname.is_eq_false (by decide)
  have hnot : isName (.leaf t) = false := by
    obtain ⟨s, hs, his⟩ := List.any_eq_true.mp hmarks
    have hqualifier : ∀ s ∈ markingWords, s ∈ qualifierWords := by decide
    have hone : (Piece.leaf t).isOneOf qualifierWords = true :=
      List.any_eq_true.mpr ⟨s, hqualifier s hs, his⟩
    simp [isName, hone]
  simp [tailNode, nodeOf, SourceTree.kind, hcolon, hnot]

theorem find?_colon {colon : Token} (hcolon : colon.is ":" = true)
    (hmarking : ∀ t ∈ marking, (tailNode t).kind = .other) (hkeyword : keyword.stop ≤ colon.start) :
    (nodeOf (.keyword k) (.leaf keyword) :: (marking ++ colon :: rest).map tailNode ++
        [emptyBody o c]).find?
      (fun d => d.kind == .colon && (nodeOf (.keyword k) (.leaf keyword)).stop ≤ d.start) =
      some (tailNode colon) := by
  rw [List.find?_eq_some_iff_append]
  refine ⟨?_, nodeOf (.keyword k) (.leaf keyword) :: marking.map tailNode,
    rest.map tailNode ++ [emptyBody o c], by simp, ?_⟩
  · rw [kind_tailNode_colon hcolon]
    simp [nodeOf, tailNode, SourceTree.start, SourceTree.stop, Piece.start, Piece.stop, hkeyword]
  · intro d hd
    rcases List.mem_cons.mp hd with rfl | hd
    · rfl
    · obtain ⟨t, ht, rfl⟩ := List.mem_map.mp hd
      simp [hmarking t ht]

/-- Where the word after the keyword only marks a class, all names stand after the colon. -/
theorem specifierName?_unnamed (htail : IsHeadTail marking bases)
    (hordered : (keyword :: (marking ++ bases)).Pairwise fun t t' => t.stop ≤ t'.start) :
    specifierName? source (classNode k keyword [] (marking ++ bases) o c) = none := by
  have hbody : (classNode k keyword [] (marking ++ bases) o c).part? .body =
      some (emptyBody o c) :=
    part?_body_classNode (by simp)
  have hname : (classNode k keyword [] (marking ++ bases) o c).part? .name = none := by
    rw [SourceTree.part?, List.find?_eq_none]
    intro t ht
    simp only [classNode, SourceTree.children, List.mem_append, List.mem_cons, List.mem_map,
      List.not_mem_nil, or_false] at ht
    rcases ht with (rfl | ⟨t', -, rfl⟩) | rfl
    · simp [nodeOf, SourceTree.label]
    · simp [tailNode, nodeOf, SourceTree.label]
    · simp [emptyBody, SourceTree.label]
  rw [specifierName?, hbody, hname]
  have hkeyword : (classNode k keyword [] (marking ++ bases) o c).childWhere? Kind.isKeyword =
      some (nodeOf (.keyword k) (.leaf keyword)) := rfl
  apply firstName?_eq_none hkeyword
  intro d hd
  have hdescendants : (classNode k keyword [] (marking ++ bases) o c).descendants =
      nodeOf (.keyword k) (.leaf keyword) :: [] ++ (marking ++ bases).map tailNode ++
        [emptyBody o c] :=
    descendants_classNode (by simp)
  rw [SourceTree.descendantsWhere, hdescendants] at hd
  rw [hdescendants]
  obtain ⟨hmem, hkind⟩ := List.mem_filter.mp hd
  simp only [List.mem_append, List.mem_cons, List.mem_map, List.not_mem_nil, or_false] at hmem
  rcases hmem with (rfl | ⟨t, ht | ht, rfl⟩) | rfl
  · cases hkind
  · rw [htail.kind_marking t ht] at hkind
    cases hkind
  · rcases htail.bases with rfl | ⟨colon, rest, rfl, hcolon, -⟩
    · cases ht
    rcases List.mem_cons.mp ht with rfl | ht
    · rw [kind_tailNode_colon hcolon] at hkind
      cases hkind
    obtain ⟨hafter, hordered⟩ := List.pairwise_cons.mp hordered
    refine ⟨tailNode colon, find?_colon hcolon htail.kind_marking (hafter colon (by simp)), ?_⟩
    have hbases := (List.pairwise_append.mp hordered).2.1
    have hstop := (List.pairwise_cons.mp hbases).1 t ht
    have hlength : colon.text.length = 1 := by
      simp only [Token.is, Bool.and_eq_true, beq_iff_eq] at hcolon
      rw [hcolon.2]
      rfl
    simp only [tailNode, nodeOf, SourceTree.start, SourceTree.stop, Piece.start, Piece.stop,
      Token.stop] at hstop ⊢
    omega
  · cases hkind

end

end

/-! ## One class -/

section

variable {k : Keyword} {keyword name o c semicolon : Token} {marking bases : List Token}

/-- A header of one class is read into its specifier. -/
theorem items_class {tail : List Piece} {node : HeaderTree} (hkeyword : keyword.is k.word = true)
    (hname : IsNameToken name) (hsemicolon : semicolon.is ";" = true) (fuel : Nat)
    (hspecifier : specifier (fuel + 2) k (.leaf keyword) (.leaf name :: tail) =
      (node, [.leaf semicolon])) :
    items (fuel + 5) (.leaf keyword :: .leaf name :: tail) =
      [around .other none keyword.start [node]] := by
  have hword : ∀ s ∈ [";", "template", "typedef", "friend"], (Piece.leaf keyword).is s = false := by
    have hne : ∀ s ∈ [";", "template", "typedef", "friend"], k.word ≠ s := by
      cases k <;> decide
    exact fun s hs => Token.is_eq_false hkeyword (hne s hs)
  simp only [List.forall_mem_cons] at hword
  obtain ⟨hkeyword₁, hkeyword₂, hkeyword₃, hkeyword₄, -⟩ := hword
  have hcolon : (Piece.leaf name).is ":" = false := hname.is_eq_false (by decide)
  have htemplate : isTemplateHead (.leaf keyword :: .leaf name :: tail) = false := by
    simp [isTemplateHead, hkeyword₂]
  have hend : parts (fuel + 2) [.leaf semicolon] = ([], false, []) := by
    have hnone : keyword? (.leaf semicolon) = none := by
      have hne : ∀ k : Keyword, ";" ≠ k.word := by
        intro k
        cases k <;> decide
      simp [keyword?, Piece.is, fun k : Keyword => Token.is_eq_false hsemicolon (hne k)]
    have hsemicolon' : (Piece.leaf semicolon).is ";" = true := hsemicolon
    simp [parts, hnone, hsemicolon']
  have hparts : parts (fuel + 3) (.leaf keyword :: .leaf name :: tail) = ([node], false, []) := by
    rw [parts, keyword?_eq_some (p := .leaf keyword) hkeyword]
    simp only [hspecifier, hend]
  have hitem : item (fuel + 4) (.leaf keyword) (.leaf name :: tail) =
      ([around .other none keyword.start [node]], []) := by
    rw [item]
    simp only [hkeyword₁, htemplate, List.head?_cons, Option.any_some, hcolon, Bool.and_false,
      hkeyword₃, hkeyword₄, Piece.opensWith, Bool.false_eq_true, if_false, hparts]
    rfl
  rw [items, hitem]
  simp only [items_nil, List.append_nil]

end

/-- The tokens of a class with an empty body. -/
structure ClassTokens where
  kind : Keyword
  not_enum : kind ≠ .enum
  keyword : Token
  is_keyword : keyword.is kind.word = true
  name : Token
  is_name : IsNameToken name
  not_attribute : name.isOneOf attributeWords = false
  not_template : name.is "template" = false
  marking : List Token
  bases : List Token
  is_tail : IsHeadTail marking bases
  opening : Token
  is_opening : opening.is "\x7b" = true
  closing : Token
  is_closing : closing.is "\x7d" = true
  semicolon : Token
  is_semicolon : semicolon.is ";" = true

namespace ClassTokens

/-- What stands before the body, in order. -/
def head (t : ClassTokens) : List Token :=
  t.keyword :: t.name :: (t.marking ++ t.bases)

/-- All tokens in order. -/
def all (t : ClassTokens) : List Token :=
  t.head ++ t.opening :: t.closing :: [t.semicolon]

theorem mem_head (t : ClassTokens) :
    ∀ a ∈ t.head, IsNameToken a ∨ ∃ s, s ∉ brackets ∧ a.is s = true := by
  have hkeyword : ∀ k : Keyword, k.word ∉ brackets := by
    intro k
    cases k <;> decide
  intro a ha
  simp only [head, List.mem_cons, List.mem_append] at ha
  rcases ha with rfl | rfl | ha | ha
  · exact .inr ⟨_, hkeyword t.kind, t.is_keyword⟩
  · exact .inl t.is_name
  · exact .inl (t.is_tail.marking a ha).1
  · rcases t.is_tail.bases with hbases | ⟨colon, rest, hbases, hcolon, hrest⟩
    · simp [hbases] at ha
    · rw [hbases, List.mem_cons] at ha
      rcases ha with rfl | ha
      · exact .inr ⟨":", by decide, hcolon⟩
      · exact (hrest a ha).imp_right fun hcomma => ⟨",", by decide, hcomma⟩

theorem kind_of_mem_all (t : ClassTokens) : ∀ a ∈ t.all, a.kind = .word ∨ a.kind = .mark := by
  intro a ha
  simp only [all, List.mem_append, List.mem_cons, List.not_mem_nil, or_false] at ha
  rcases ha with ha | rfl | rfl | rfl
  · rcases t.mem_head a ha with hname | ⟨s, -, his⟩
    · exact .inl hname.word
    · exact kind_of_is his
  · exact kind_of_is t.is_opening
  · exact kind_of_is t.is_closing
  · exact kind_of_is t.is_semicolon

theorem gather_all (t : ClassTokens) :
    gather t.all = t.head.map .leaf ++ [.group t.opening [] t.closing, .leaf t.semicolon] := by
  have hhead : ∀ a ∈ t.head, a.IsPlain := by
    intro a ha
    rcases t.mem_head a ha with hname | ⟨s, hs, his⟩
    · exact hname.isPlain
    · exact isPlain_of_is his hs
  have hafter : ∀ a ∈ [t.semicolon], a.IsPlain := by
    simpa using isPlain_of_is t.is_semicolon (by decide)
  exact gather_empty_braces hhead t.is_opening t.is_closing hafter

theorem types_read_of_specifier (t : ClassTokens) {source : List Char}
    (hpieces : pieces source = gather t.all) {names : List HeaderTree} {tail : List Token}
    (hnames : ∀ n ∈ names, IsInert n)
    (hspecifier : ∀ fuel, specifier (fuel + 2) t.kind (.leaf t.keyword)
      (.leaf t.name :: ((t.marking ++ t.bases).map .leaf ++
        .group t.opening [] t.closing :: [.leaf t.semicolon])) =
      (classNode t.kind t.keyword names tail t.opening t.closing, [.leaf t.semicolon])) :
    types source (read source) = Declared.addSome []
      (specifierName? source (classNode t.kind t.keyword names tail t.opening t.closing)) := by
  rw [gather_all, head, List.map_cons, List.map_cons, List.cons_append, List.cons_append] at hpieces
  have hfuel : 4 * Piece.sizeAll (pieces source) + 8 = 4 * Piece.sizeAll (pieces source) + 3 + 5 :=
    rfl
  have hitems := items_class t.is_keyword t.is_name t.is_semicolon
    (4 * Piece.sizeAll (pieces source) + 3) (hspecifier _)
  rw [read]
  simp only [hfuel]
  rw [hpieces] at hitems ⊢
  rw [hitems, types_classNode hnames]

/-- A class is known by its name, unless that only marks a class. -/
theorem types_read (t : ClassTokens) {source : List Char}
    (htokens : tokens isAsciiGap step source = t.all) :
    types source (read source) =
      if t.name.isOneOf markingWords then [] else Declared.add [] t.name.text := by
  have hpieces : pieces source = gather t.all := by
    rw [pieces, htokens, List.filter_eq_self.mpr]
    intro a ha
    rcases t.kind_of_mem_all a ha with hkind | hkind <;> simp [Token.isComment, hkind]
  have hlocated : (source.drop t.name.start).take t.name.text.length = t.name.text := by
    apply text_of_mem_tokens
    rw [htokens]
    simp [all, head]
  have hordered : t.head.Pairwise fun a b => a.stop ≤ b.start := by
    have hall := tokens_ordered isAsciiGap step source
    rw [htokens] at hall
    exact (List.pairwise_append.mp hall).1
  split
  · next hmarks =>
      have htail : IsHeadTail (t.name :: t.marking) t.bases :=
        ⟨List.forall_mem_cons.mpr ⟨⟨t.is_name, hmarks⟩, t.is_tail.marking⟩, t.is_tail.bases⟩
      rw [t.types_read_of_specifier hpieces (by simp)
        (fun fuel => specifier_unnamed t.not_enum htail t.is_opening (fuel + 1)),
        ← List.cons_append, specifierName?_unnamed htail hordered]
      rfl
  · next hmarks =>
      have hmarks' : t.name.isOneOf markingWords = false := by simpa using hmarks
      have hne : t.name.text ≠ [] := by
        obtain ⟨c, hc, -⟩ := t.is_name.opens
        rintro heq
        simp [heq] at hc
      rw [t.types_read_of_specifier hpieces (by simp [isInert_name])
        (specifier_named t.not_enum t.is_name t.not_attribute t.not_template hmarks' t.is_tail
          t.is_opening), specifierName?_named hne hlocated]
      rfl

end ClassTokens

end DocTransfer.Header
