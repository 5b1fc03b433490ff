import DocTransfer.Proofs.Header.Specifier

/-! # Types as they are written

A type is a word of the language, a name with scopes and arguments, or a class, maybe with its body;
words that qualify it may come first. What follows a type is left as it is when the type is read. -/

namespace DocTransfer.Header

open Source

/-! ## Names of types -/

/-- A word that can name a type. -/
structure IsDeclaredName (t : Token) : Prop extends IsNameToken t where
  name : isName (.leaf t) = true
  not_keyword : keyword? (.leaf t) = none
  not_attribute : t.isOneOf attributeWords = false

theorem IsDeclaredName.not_words {t : Token} (h : IsDeclaredName t) :
    (Piece.leaf t).isOneOf primitiveWords = false ∧ (Piece.leaf t).isOneOf sizeWords = false ∧
      (Piece.leaf t).isOneOf qualifierWords = false ∧
      (Piece.leaf t).isOneOf otherWords = false := by
  have hname := h.name
  simp only [isName, Bool.and_eq_true, Bool.not_eq_true'] at hname
  obtain ⟨⟨⟨⟨-, hprimitive⟩, hsize⟩, hqualifier⟩, hother⟩ := hname
  exact ⟨hprimitive, hsize, hqualifier, hother⟩

theorem IsDeclaredName.not_marking {t : Token} (h : IsDeclaredName t) :
    (Piece.leaf t).isOneOf markingWords = false := by
  have hqualifiers : ∀ s ∈ markingWords, s ∈ qualifierWords := by decide
  refine List.any_eq_false.mpr fun s hs => ?_
  simpa [Piece.is] using Piece.is_eq_false h.not_words.2.2.1 (hqualifiers s hs)

/-- Pieces between angle brackets, with pairs of such brackets inside. -/
inductive Nested : List Piece → Prop
  | nil : Nested []
  | other {p : Piece} {ps : List Piece} (hp : p.isOneOf [";", "<", ">"] = false) (h : Nested ps) :
      Nested (p :: ps)
  | angles {o c : Piece} {ps qs : List Piece} (ho : o.is "<" = true) (hc : c.is ">" = true)
      (hps : Nested ps) (hqs : Nested qs) : Nested (o :: (ps ++ c :: qs))

theorem splitAngles_nested {ps : List Piece} (h : Nested ps) (depth : Nat) (rest : List Piece) :
    splitAngles (depth + 1) (ps ++ rest) =
      (ps ++ (splitAngles (depth + 1) rest).1, (splitAngles (depth + 1) rest).2) := by
  induction h generalizing depth rest with
  | nil => rfl
  | other hp h ih =>
      rw [List.cons_append, splitAngles]
      simp [Piece.is_eq_false hp (s := ";") (by simp), Piece.is_eq_false hp (s := "<") (by simp),
        Piece.is_eq_false hp (s := ">") (by simp), ih]
  | angles ho hc hps hqs ihps ihqs =>
      rw [List.cons_append, splitAngles, List.append_assoc, List.cons_append]
      simp only [Piece.is_of_ne ho (b := ";") (by decide), ho, if_true, Bool.false_eq_true,
        if_false, ihps, Nat.succ_ne_zero]
      rw [splitAngles]
      simp [Piece.is_of_ne hc (b := ";") (by decide), Piece.is_of_ne hc (b := "<") (by decide), hc,
        ihqs]

/-- Arguments of a template. -/
structure Arguments where
  opening : Piece
  is_opening : opening.is "<" = true
  inner : List Piece
  nested : Nested inner
  closing : Piece
  is_closing : closing.is ">" = true

/-- The pieces of the arguments of a template. -/
def Arguments.pieces (a : Arguments) : List Piece :=
  a.opening :: (a.inner ++ [a.closing])

theorem Arguments.splitAngles (a : Arguments) (rest : List Piece) :
    splitAngles 0 (a.pieces ++ rest) = (a.pieces, rest) := by
  have hopening : a.opening.is ";" = false := Piece.is_of_ne a.is_opening (by decide)
  have hclosing : Header.splitAngles 1 (a.closing :: rest) = ([a.closing], rest) := by
    rw [Header.splitAngles]
    simp [Piece.is_of_ne a.is_closing (b := ";") (by decide),
      Piece.is_of_ne a.is_closing (b := "<") (by decide), a.is_closing]
  rw [pieces, List.cons_append, Header.splitAngles, List.append_assoc, List.singleton_append]
  simp [hopening, a.is_opening, splitAngles_nested a.nested, hclosing]

/-- The pieces of optional arguments. -/
def argumentPieces : Option Arguments → List Piece
  | none => []
  | some a => a.pieces

/-- The name of a type: scopes and a last part, each maybe with arguments. -/
inductive TypeName where
  | last (token : Token) (h : IsDeclaredName token) (arguments : Option Arguments)
  | scope (token : Token) (h : IsDeclaredName token) (arguments : Option Arguments) (colons : Piece)
      (hcolons : colons.is "::" = true) (inner : TypeName)

namespace TypeName

/-- The first word of a name. -/
def first : TypeName → Token
  | last t _ _ | scope t _ _ _ _ _ => t

/-- What follows the first word of a name. -/
def more : TypeName → List Piece
  | last _ _ arguments => argumentPieces arguments
  | scope _ _ arguments colons _ inner =>
    argumentPieces arguments ++ colons :: .leaf inner.first :: inner.more

/-- The pieces of a name. -/
def pieces (n : TypeName) : List Piece :=
  .leaf n.first :: n.more

/-- How many steps a name takes to be read. -/
def steps : TypeName → Nat
  | last _ _ _ => 1
  | scope _ _ _ _ _ inner => inner.steps + 1

theorem isDeclaredName_first (n : TypeName) : IsDeclaredName n.first := by
  cases n with
  | last t h _ => exact h
  | scope t h _ _ _ _ => exact h

theorem splitName_step {t : Token} (h : IsDeclaredName t) (arguments : Option Arguments) {q : Piece}
    (hangle : q.is "<" = false) (fuel : Nat) (rest : List Piece) :
    Header.splitName (fuel + 1) (.leaf t :: (argumentPieces arguments ++ q :: rest)) =
      if q.is "::" && rest.head?.any (·.isWord) then
        (.leaf t :: argumentPieces arguments ++ q :: (Header.splitName fuel rest).1,
          (Header.splitName fuel rest).2)
      else (.leaf t :: argumentPieces arguments, q :: rest) := by
  have hword : (Piece.leaf t).isWord = true := by simp [Piece.isWord, Token.isWord, h.word]
  have hfirst : (Piece.leaf t).is "::" = false := h.toIsNameToken.is_eq_false (by decide)
  have htemplate : (Piece.leaf t).is "template" = false :=
    Piece.is_eq_false h.not_words.2.2.2 (by decide)
  cases arguments with
  | none =>
      simp only [argumentPieces, List.nil_append, Header.splitName, hfirst, htemplate, hword,
        hangle, Bool.or_self, Bool.false_eq_true, if_false, if_true]
  | some a =>
      have hsplit := a.splitAngles (q :: rest)
      rw [Arguments.pieces, List.cons_append] at hsplit
      rw [argumentPieces, Arguments.pieces, List.cons_append, Header.splitName]
      simp only [hfirst, htemplate, hword, Bool.or_self, Bool.false_eq_true, if_false, if_true,
        a.is_opening, hsplit]

/-- A name ends where neither arguments nor another part follow. -/
theorem splitName (n : TypeName) {fuel : Nat} (hfuel : n.steps ≤ fuel) {q : Piece}
    (hangle : q.is "<" = false) (hcolons : q.is "::" = false) (rest : List Piece) :
    Header.splitName fuel (n.pieces ++ q :: rest) = (n.pieces, q :: rest) := by
  induction n generalizing fuel with
  | last t h arguments =>
      obtain ⟨fuel, rfl⟩ := Nat.exists_eq_add_of_le' hfuel
      have hstep := splitName_step h arguments hangle fuel rest
      rw [hcolons, Bool.false_and, if_neg (by decide)] at hstep
      exact hstep
  | scope t h arguments colons hscope inner ih =>
      obtain ⟨fuel, rfl⟩ := Nat.exists_eq_add_of_le' hfuel
      have hword : (Piece.leaf inner.first).isWord = true := by
        simp [Piece.isWord, Token.isWord, inner.isDeclaredName_first.word]
      have hinner := ih (Nat.le_add_left inner.steps fuel)
      rw [pieces, List.cons_append] at hinner
      have hstep := splitName_step h arguments (Piece.is_of_ne hscope (by decide))
        (fuel + inner.steps) (.leaf inner.first :: (inner.more ++ q :: rest))
      rw [hscope, List.head?_cons, Option.any_some, hword, Bool.and_self, if_pos rfl,
        hinner] at hstep
      simpa [pieces, more, first, steps, ← Nat.add_assoc] using hstep

end TypeName

/-! ## Types -/

/-- A type as it is written before a declarator. -/
inductive TypeSpec where
  | qualified (qualifier : Token) (h : qualifier.isOneOf qualifierWords = true) (inner : TypeSpec)
  | primitive (token : Token) (h : token.isOneOf primitiveWords = true)
  | sized (token : Token) (h : token.isOneOf sizeWords = true) (more : List Token)
      (hmore : ∀ t ∈ more, t.isOneOf (sizeWords ++ primitiveWords) = true)
  | named (name : TypeName)
  | tagged (k : Keyword) (keyword : Token) (h : keyword.is k.word = true) (name : Token)
      (hname : IsDeclaredName name)
  | defined (k : Keyword) (keyword : Token) (h : keyword.is k.word = true) (name : Option Token)
      (hname : ∀ t ∈ name, IsDeclaredName t) (o : Token) (ho : o.is "\x7b" = true)
      (members : List Piece) (c : Token)

namespace TypeSpec

/-- The pieces of a type. -/
def pieces : TypeSpec → List Piece
  | qualified q _ inner => .leaf q :: inner.pieces
  | primitive t _ => [.leaf t]
  | sized t _ more _ => .leaf t :: more.map .leaf
  | named n => n.pieces
  | tagged _ keyword _ name _ => [.leaf keyword, .leaf name]
  | defined _ keyword _ name _ o _ members c =>
    .leaf keyword :: (name.toList.map .leaf ++ [.group o members c])

/-- How many steps a type takes to be read. -/
def steps : TypeSpec → Nat
  | qualified _ _ inner => inner.steps + 1
  | primitive _ _ | sized _ _ _ _ => 1
  | named n => n.steps + 1
  | tagged _ _ _ _ _ | defined _ _ _ _ _ _ _ _ _ => 3

end TypeSpec

/-- The words and marks that go on with a type or lead to the body of one. -/
def typeContinuations : List String :=
  ["<", "::", ":"] ++ (markingWords ++ (sizeWords ++ primitiveWords))

/-- A piece that does not go on with a type before it. -/
structure EndsType (q : Piece) : Prop where
  stops : q.isOneOf typeContinuations = false
  no_body : q.opensWith "\x7b" = false

theorem EndsType.not_words {q : Piece} (h : EndsType q) :
    q.isOneOf markingWords = false ∧ q.isOneOf sizeWords = false ∧
      q.isOneOf primitiveWords = false := by
  have hstops := h.stops
  simp only [typeContinuations, Piece.isOneOf_append, Bool.or_eq_false_iff] at hstops
  exact hstops.2

theorem EndsType.leadsToBody {q : Piece} (h : EndsType q) (rest : List Piece) :
    leadsToBody (q :: rest) = false := by
  have hcolon : q.is ":" = false := Piece.is_eq_false h.stops (by decide)
  have hmarks : q.isOneOf ["final", "override"] = false := h.not_words.1
  simp [Header.leadsToBody, h.no_body, hcolon, hmarks]

theorem keyword?_eq_none {t : Token} {names : List String} (h : t.isOneOf names = true)
    (hnames : ∀ k : Keyword, k.word ∉ names) : keyword? (.leaf t) = none := by
  obtain ⟨s, hs, his⟩ := List.any_eq_true.mp h
  have hother : ∀ k : Keyword, t.is k.word = false :=
    fun k => Token.is_eq_false his fun heq => hnames k (heq ▸ hs)
  simp [keyword?, Piece.is, hother]

section

variable {k : Keyword} {keyword : Token} {q : Piece}

theorem IsDeclaredName.not_second {name : Token} (h : IsDeclaredName name) :
    (Piece.leaf name).isOneOf ["class", "struct"] = false := by
  have hkeyword := h.not_keyword
  simp only [keyword?, List.find?_eq_none, List.mem_cons, List.not_mem_nil, or_false,
    forall_eq_or_imp, forall_eq] at hkeyword
  have hcls : name.is "class" = false := by simpa [Piece.is, Keyword.word] using hkeyword.1
  have hstruct : name.is "struct" = false := by simpa [Piece.is, Keyword.word] using hkeyword.2.1
  simp [Piece.isOneOf, Token.isOneOf, hcls, hstruct]

/-- What follows a specifier, when it is known what follows its name. -/
theorem exists_specifier {p : Piece} {ps name after : List Piece} {fuel : Nat}
    (hsecond : ∀ q ∈ ps.head?, q.isOneOf ["class", "struct"] = false)
    (hattributes : splitAttributes ps = ([], ps)) (hnamed : isUnnamed ps = false)
    (hname : splitName fuel ps = (name, after)) :
    ∃ node, specifier (fuel + 1) k p ps =
      (node, match (if leadsToBody after then splitBases after else none) with
        | some (_, .group _ _ _, rest) => rest
        | _ => after) := by
  have hrest : ∀ q more, k = .enum → ps = q :: more → q.isOneOf ["class", "struct"] = false :=
    fun q more _ hps => hsecond q (by rw [hps]; rfl)
  by_cases henum : k = .enum ∧ ∃ q more, ps = q :: more
  · obtain ⟨rfl, q, more, rfl⟩ := henum
    rw [specifier]
    simp only [hrest q more rfl rfl, hattributes, hnamed, hname, Bool.false_eq_true, if_false]
    generalize (if leadsToBody after then splitBases after else none) = found
    rcases found with _ | ⟨bases, _ | ⟨o, inner, c⟩, rest⟩ <;> exact ⟨_, rfl⟩
  · rw [specifier]
    · simp only [hattributes, hnamed, hname, Bool.false_eq_true, if_false]
      generalize (if leadsToBody after then splitBases after else none) = found
      rcases found with _ | ⟨bases, _ | ⟨o, inner, c⟩, rest⟩ <;> exact ⟨_, rfl⟩
    · exact fun q more hk hps => henum ⟨hk, q, more, hps⟩

theorem specifier_tagged {name : Token} (hname : IsDeclaredName name) (hq : EndsType q)
    (fuel : Nat) (rest : List Piece) :
    ∃ node,
      specifier (fuel + 2) k (.leaf keyword) (.leaf name :: q :: rest) = (node, q :: rest) := by
  have hunnamed : isUnnamed (.leaf name :: q :: rest) = false := by
    simp [isUnnamed, hq.leadsToBody]
  have hsplit := splitName_single hname.toIsNameToken
    (Piece.is_eq_false hname.not_words.2.2.2 (by decide))
    (Piece.is_eq_false hq.stops (by decide)) (Piece.is_eq_false hq.stops (by decide)) fuel rest
  obtain ⟨node, hnode⟩ := exists_specifier (k := k) (p := .leaf keyword)
    (by simpa using hname.not_second) (splitAttributes_name hname.not_attribute _) hunnamed hsplit
  rw [hq.leadsToBody] at hnode
  exact ⟨node, hnode⟩

theorem specifier_defined {name : Option Token} (hname : ∀ t ∈ name, IsDeclaredName t) {o : Token}
    (ho : o.is "\x7b" = true) (members : List Piece) (c : Token) (fuel : Nat) (rest : List Piece) :
    ∃ node, specifier (fuel + 2) k (.leaf keyword)
      (name.toList.map .leaf ++ .group o members c :: rest) = (node, rest) := by
  have hleads : leadsToBody (.group o members c :: rest) = true := by
    simp [leadsToBody, Piece.opensWith, ho]
  have hbases : splitBases (.group o members c :: rest) =
      some ([], .group o members c, rest) := by
    simp [splitBases, Piece.opensWith, ho]
  cases name with
  | none =>
      have hattributes : splitAttributes (.group o members c :: rest) =
          ([], .group o members c :: rest) := by
        have hsquare := Token.is_eq_false ho (b := "[") (by decide)
        cases rest <;> simp [splitAttributes, Piece.opensWith, Piece.isOneOf, hsquare]
      have hunnamed : isUnnamed (.group o members c :: rest) = false := by
        simp [isUnnamed, Piece.isOneOf]
      have hsplit : splitName (fuel + 1) (.group o members c :: rest) =
          ([], .group o members c :: rest) := by
        simp [splitName, Piece.is, Piece.isWord]
      obtain ⟨node, hnode⟩ := exists_specifier (k := k) (p := .leaf keyword)
        (by simp [Piece.isOneOf]) hattributes hunnamed hsplit
      rw [hleads, if_pos rfl, hbases] at hnode
      exact ⟨node, hnode⟩
  | some t =>
      have ht := hname t rfl
      have hmarks : (Piece.leaf t).isOneOf ["final", "override"] = false := ht.not_marking
      have hunnamed : isUnnamed (.leaf t :: .group o members c :: rest) = false := by
        simp [isUnnamed, hmarks]
      have hsplit := splitName_single ht.toIsNameToken
        (Piece.is_eq_false ht.not_words.2.2.2 (by decide)) (q := .group o members c) rfl rfl fuel
        rest
      obtain ⟨node, hnode⟩ := exists_specifier (k := k) (p := .leaf keyword)
        (by simpa using ht.not_second) (splitAttributes_name ht.not_attribute _) hunnamed hsplit
      rw [hleads, if_pos rfl, hbases] at hnode
      exact ⟨node, hnode⟩

end

theorem typeParts_specifier {k : Keyword} {keyword : Token} (hkeyword : keyword.is k.word = true)
    {fuel : Nat} {ps rest : List Piece} {node : HeaderTree}
    (hspecifier : specifier fuel k (.leaf keyword) ps = (node, rest)) :
    typeParts (fuel + 1) (.leaf keyword :: ps) = ([node], rest) := by
  have hqualifier : (Piece.leaf keyword).isOneOf qualifierWords = false := by
    have hwords : ∀ k : Keyword, ∀ s ∈ qualifierWords, k.word ≠ s := by
      intro k
      cases k <;> decide
    refine List.any_eq_false.mpr fun s hs => ?_
    simp [Token.is_eq_false hkeyword (hwords k s hs)]
  simp [typeParts, hqualifier, keyword?_eq_some (p := .leaf keyword) hkeyword, hspecifier]

/-- A type is read up to the declarator. -/
theorem TypeSpec.typeParts (T : TypeSpec) {fuel : Nat} (hfuel : T.steps ≤ fuel) {q : Piece}
    (hq : EndsType q) (rest : List Piece) :
    ∃ nodes, typeParts fuel (T.pieces ++ q :: rest) = (nodes, q :: rest) := by
  induction T generalizing fuel with
  | qualified qualifier h inner ih =>
      obtain ⟨fuel, rfl⟩ := Nat.exists_eq_add_of_le' hfuel
      obtain ⟨nodes, hnodes⟩ := ih (Nat.le_add_left inner.steps fuel)
      have hqualifier : (Piece.leaf qualifier).isOneOf qualifierWords = true := h
      refine ⟨nodeOf .mark (.leaf qualifier) :: nodes, ?_⟩
      simp [pieces, steps, ← Nat.add_assoc, Header.typeParts, hqualifier, hnodes]
  | primitive t h =>
      obtain ⟨fuel, rfl⟩ := Nat.exists_eq_add_of_le' hfuel
      have hqualifier : (Piece.leaf t).isOneOf qualifierWords = false :=
        Token.isOneOf_eq_false h (by decide)
      have hsize : (Piece.leaf t).isOneOf sizeWords = false := Token.isOneOf_eq_false h (by decide)
      have hprimitive : (Piece.leaf t).isOneOf primitiveWords = true := h
      have hkeyword := keyword?_eq_none h (fun k => by cases k <;> decide)
      refine ⟨[nodeOf .other (.leaf t)], ?_⟩
      simp [pieces, steps, Header.typeParts, hqualifier, hkeyword, hsize, hprimitive]
  | sized t h more hmore =>
      obtain ⟨fuel, rfl⟩ := Nat.exists_eq_add_of_le' hfuel
      have hqualifier : (Piece.leaf t).isOneOf qualifierWords = false :=
        Token.isOneOf_eq_false h (by decide)
      have hsize : (Piece.leaf t).isOneOf sizeWords = true := h
      have hkeyword := keyword?_eq_none h (fun k => by cases k <;> decide)
      refine ⟨[nodeOf .other (.leaf t)], ?_⟩
      have hdrop : (more.map Piece.leaf ++ q :: rest).dropWhile
          (fun p => p.isOneOf sizeWords || p.isOneOf primitiveWords) = q :: rest := by
        rw [List.dropWhile_append_of_pos]
        · simp [hq.not_words]
        · intro p hp
          obtain ⟨t', ht', rfl⟩ := List.mem_map.mp hp
          have hnumeric : (Piece.leaf t').isOneOf (sizeWords ++ primitiveWords) = true :=
            hmore t' ht'
          rwa [Piece.isOneOf_append] at hnumeric
      simp [pieces, steps, Header.typeParts, hqualifier, hkeyword, hsize, hdrop]
  | named n =>
      obtain ⟨fuel, rfl⟩ := Nat.exists_eq_add_of_le' hfuel
      have hfirst := n.isDeclaredName_first
      obtain ⟨hprimitive, hsize, hqualifier, hother⟩ := hfirst.not_words
      have hdecltype : (Piece.leaf n.first).is "decltype" = false :=
        Piece.is_eq_false hother (by decide)
      have hsplit := n.splitName (Nat.le_add_left n.steps fuel)
        (Piece.is_eq_false hq.stops (by decide)) (Piece.is_eq_false hq.stops (by decide)) rest
      rw [TypeName.pieces, List.cons_append] at hsplit
      refine ⟨[typeNode none n.pieces], ?_⟩
      simp [pieces, TypeName.pieces, steps, ← Nat.add_assoc, Header.typeParts, hqualifier,
        hfirst.not_keyword, hsize, hprimitive, hdecltype, hfirst.name, hsplit]
  | tagged k keyword h name hname =>
      obtain ⟨fuel, rfl⟩ := Nat.exists_eq_add_of_le' hfuel
      obtain ⟨node, hnode⟩ : ∃ node, specifier (fuel + 2) k (.leaf keyword)
          (.leaf name :: q :: rest) = (node, q :: rest) := specifier_tagged hname hq fuel rest
      exact ⟨[node], typeParts_specifier h hnode⟩
  | defined k keyword h name hname o ho members c =>
      obtain ⟨fuel, rfl⟩ := Nat.exists_eq_add_of_le' hfuel
      obtain ⟨node, hnode⟩ : ∃ node, specifier (fuel + 2) k (.leaf keyword)
          (name.toList.map .leaf ++ .group o members c :: q :: rest) = (node, q :: rest) :=
        specifier_defined hname ho members c fuel (q :: rest)
      refine ⟨[node], ?_⟩
      rw [pieces, List.cons_append, List.append_assoc, List.singleton_append]
      exact typeParts_specifier h hnode

theorem TypeSpec.opens (T : TypeSpec) : ∃ p more, T.pieces = p :: more ∧ p.is ":" = false := by
  have hword : ∀ {t : Token} {names : List String}, t.isOneOf names = true → ":" ∉ names →
      t.is ":" = false := by
    intro t names h hnames
    have hnot : t.isOneOf [":"] = false :=
      Token.isOneOf_eq_false h fun s hs hcolon => hnames (List.mem_singleton.mp hcolon ▸ hs)
    exact Piece.is_eq_false (p := .leaf t) hnot List.mem_cons_self
  have hkeyword : ∀ {t : Token} {k : Keyword}, t.is k.word = true → t.is ":" = false :=
    fun {t k} h => Token.is_eq_false h (by cases k <;> decide)
  cases T with
  | qualified q h inner => exact ⟨_, _, rfl, hword h (by decide)⟩
  | primitive t h => exact ⟨_, _, rfl, hword h (by decide)⟩
  | sized t h more hmore => exact ⟨_, _, rfl, hword h (by decide)⟩
  | named n => exact ⟨_, _, rfl, n.isDeclaredName_first.toIsNameToken.is_eq_false (by decide)⟩
  | tagged k keyword h name hname => exact ⟨_, _, rfl, hkeyword h⟩
  | defined k keyword h name hname o ho members c => exact ⟨_, _, rfl, hkeyword h⟩

end DocTransfer.Header
