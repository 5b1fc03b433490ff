import DocTransfer.Config
import DocTransfer.Declared
import DocTransfer.Proofs.Header.TypeSpec

/-! # The name that a typedef brings in

A declarator is a name with marks before it, sizes and parameters after it, and brackets around all
of that. A typedef goes by the last type name in it. This is the name it brings in, unless a type is
named in what follows that name. -/

namespace DocTransfer.Header

open Source

/-! ## Type names in the order of the text -/

theorem preorderAll_append (ts us : List HeaderTree) :
    SourceTree.preorderAll (ts ++ us) = SourceTree.preorderAll ts ++ SourceTree.preorderAll us := by
  induction ts with
  | nil => rfl
  | cons t ts ih =>
      rw [List.cons_append, SourceTree.preorderAll, SourceTree.preorderAll, ih, List.append_assoc]

/-- The type names in a row of nodes. -/
def typeNames (ts : List HeaderTree) : List HeaderTree :=
  (SourceTree.preorderAll ts).filter fun d => d.kind == .typeIdentifier

@[simp] theorem typeNames_append (ts us : List HeaderTree) :
    typeNames (ts ++ us) = typeNames ts ++ typeNames us := by
  rw [typeNames, preorderAll_append, List.filter_append]
  rfl

theorem typeNames_singleton (kind : Kind) (label : Option Label) (start stop : Nat)
    (ts : List HeaderTree) :
    typeNames [.node kind label start stop ts] =
      (if kind = .typeIdentifier then [.node kind label start stop ts] else []) ++
        typeNames ts := by
  by_cases h : kind = .typeIdentifier
  · simp [typeNames, SourceTree.preorderAll, SourceTree.preorder, SourceTree.kind, h]
  · simp [typeNames, SourceTree.preorderAll, SourceTree.preorder, SourceTree.kind, h]

/-! ## Declarators -/

/-- The name of a type and nothing else. -/
structure IsTypeName (n : HeaderTree) : Prop where
  kind : n.kind = .typeIdentifier
  leaf : n.children = []

/-- A row of nodes is a declarator of the name `n`, and `later` are the type names in it that come
after `n`. -/
inductive Introduces (n : HeaderTree) : List HeaderTree → List HeaderTree → Prop
  /-- The name alone. -/
  | name : Introduces n [n] []
  /-- Marks of pointers and words that go with them. -/
  | pointer {mark : HeaderTree} {row later : List HeaderTree} (hmark : typeNames [mark] = [])
      (h : Introduces n row later) : Introduces n (mark :: row) later
  /-- The size of an array or the parameters of a function. -/
  | suffix {row later : List HeaderTree} (rest : List HeaderTree) (h : Introduces n row later) :
      Introduces n (row ++ rest) (later ++ typeNames rest)
  /-- A node around a declarator, such as one for brackets. -/
  | around {kind : Kind} {row later : List HeaderTree} (hkind : kind ≠ .typeIdentifier)
      (label : Option Label) (start stop : Nat) (h : Introduces n row later) :
      Introduces n [.node kind label start stop row] later

theorem Introduces.typeNames {n : HeaderTree} (hn : IsTypeName n) {row later : List HeaderTree}
    (h : Introduces n row later) : typeNames row = n :: later := by
  induction h with
  | name =>
      obtain ⟨kind, label, start, stop, children⟩ := n
      obtain ⟨hkind, hleaf⟩ := hn
      cases hkind
      cases hleaf
      rfl
  | pointer hmark h ih =>
      rw [← List.singleton_append, typeNames_append, hmark, ih, List.nil_append]
  | suffix rest h ih => rw [typeNames_append, ih, List.cons_append]
  | around hkind label start stop h ih =>
      rw [typeNames_singleton, if_neg hkind, ih, List.nil_append]

/-- A typedef goes by the last type name after the one that it brings in, if there is one, and so by
the name that it brings in exactly where that last one, if any, reads the same. -/
theorem typedef_name {n : HeaderTree} (hn : IsTypeName n) {row later : List HeaderTree}
    (h : Introduces n row later) (source : List Char) (label : Option Label) (start stop : Nat)
    (type : List HeaderTree) :
    name? source (.node .typedef label start stop (type ++ row)) =
        some ((later.getLast?.getD n).text source) ∧
      (name? source (.node .typedef label start stop (type ++ row)) = some (n.text source) ↔
        ∀ last ∈ later.getLast?, last.text source = n.text source) := by
  have hlast : name? source (.node .typedef label start stop (type ++ row)) =
      some ((later.getLast?.getD n).text source) := by
    have hnames : (SourceTree.node .typedef label start stop (type ++ row)).descendantsWhere
        (· == .typeIdentifier) = typeNames type ++ n :: later := by
      rw [← h.typeNames hn, ← typeNames_append]
      rfl
    rw [name?, typedefName?]
    simp only [SourceTree.kind, hnames, List.getLast?_append, List.getLast?_cons]
    rfl
  refine ⟨hlast, ?_⟩
  rw [hlast]
  cases later.getLast? with
  | none => simp
  | some last => simp

/-! ## Reading declarators -/

/-- The words and marks that may stand before the name in a declarator. -/
def pointerWords : List String :=
  ["*", "&", "const", "volatile"]

/-- A mark of a pointer, or a word that goes with it. -/
structure IsPointerMark (t : Token) : Prop where
  mark : t.isOneOf pointerWords = true
  not_name : isName (.leaf t) = false

/-- A declarator as it is written. -/
inductive Declarator where
  | name (token : Token) (h : IsDeclaredName token)
  | pointer (mark : Token) (h : IsPointerMark mark) (inner : Declarator)
  | array (inner : Declarator) (o : Token) (h : o.is "[" = true) (size : List Piece) (c : Token)
  | function (inner : Declarator) (o : Token) (h : o.is "(" = true) (parameters : List Piece)
      (c : Token)
  | parenthesized (o : Token) (h : o.is "(" = true) (inner : Declarator) (c : Token)

namespace Declarator

/-- The name that a declarator is about. -/
def token : Declarator → Token
  | name t _ => t
  | pointer _ _ d | array d _ _ _ _ | function d _ _ _ _ | parenthesized _ _ d _ => d.token

/-- The pieces of a declarator. -/
def pieces : Declarator → List Piece
  | name t _ => [.leaf t]
  | pointer m _ d => .leaf m :: d.pieces
  | array d o _ inner c | function d o _ inner c => d.pieces ++ [.group o inner c]
  | parenthesized o _ d c => [.group o d.pieces c]

/-- Whether parameters stand in a declarator. -/
def takesParameters : Declarator → Bool
  | name _ _ => false
  | function _ _ _ _ _ => true
  | pointer _ _ d | array d _ _ _ _ | parenthesized _ _ d _ => d.takesParameters

/-- How many steps a declarator takes to be read. -/
def steps : Declarator → Nat
  | name _ _ => 1
  | pointer _ _ d | array d _ _ _ _ | function d _ _ _ _ | parenthesized _ _ d _ => d.steps + 1

theorem length_pieces_le_steps (d : Declarator) : d.pieces.length ≤ d.steps := by
  induction d with
  | name => exact Nat.le_refl 1
  | pointer m h d ih => exact Nat.succ_le_succ ih
  | array d o h inner c ih
  | function d o h inner c ih => simpa [pieces, steps] using ih
  | parenthesized o h d c => simp [pieces, steps]

theorem exists_step (d : Declarator) {fuel : Nat} (hfuel : d.steps + 1 ≤ fuel) :
    ∃ left, fuel - d.pieces.length = left + 1 := by
  have hlength := d.length_pieces_le_steps
  exact ⟨fuel - d.pieces.length - 1, by omega⟩

theorem typedefNames_nil (fuel : Nat) (named : Bool) : typedefNames fuel named [] = [] := by
  cases fuel <;> simp [typedefNames]

theorem typeNames_identifiers (ps : List Piece) : typeNames (identifiers ps) = [] := by
  have hleaves : ∀ t ∈ identifiers ps, t.children = [] := by
    intro t ht
    obtain ⟨p, -, rfl⟩ := List.mem_map.mp ht
    rfl
  rw [typeNames, preorderAll_of_leaves hleaves, List.filter_eq_nil_iff]
  intro t ht
  obtain ⟨p, -, rfl⟩ := List.mem_map.mp ht
  simp only [nodeOf, SourceTree.kind]
  split <;> decide

/-- The row that a declarator is read into brings in its name. Type names only come after it where
there are parameters. -/
theorem introduces (d : Declarator) {fuel : Nat} (hfuel : d.steps ≤ fuel) {rest : List Piece}
    (hrest : rest.head?.any (·.is "::") = false) :
    ∃ row later, Introduces (nodeOf .typeIdentifier (.leaf d.token)) row later ∧
      (d.takesParameters = false → later = []) ∧
      typedefNames fuel false (d.pieces ++ rest) =
        row ++ typedefNames (fuel - d.pieces.length) true rest := by
  induction d generalizing fuel rest with
  | name t h =>
      obtain ⟨fuel, rfl⟩ := Nat.exists_eq_add_of_le' hfuel
      have hattribute : (Piece.leaf t).isOneOf
          ["__attribute__", "__attribute", "__declspec", "alignas"] = false := h.not_attribute
      refine ⟨_, _, .name, fun _ => rfl, ?_⟩
      simp [pieces, steps, typedefNames, hattribute, h.name, hrest, token]
  | pointer m h d ih =>
      obtain ⟨fuel, rfl⟩ := Nat.exists_eq_add_of_le' hfuel
      obtain ⟨row, later, hrow, hlater, hnames⟩ := ih (Nat.le_add_left d.steps fuel) hrest
      have hattribute : (Piece.leaf m).isOneOf
          ["__attribute__", "__attribute", "__declspec", "alignas"] = false :=
        Token.isOneOf_eq_false h.mark (by decide)
      have hmark : typeNames [nodeOf .other (.leaf m)] = [] := rfl
      refine ⟨_, _, .pointer hmark hrow, hlater, ?_⟩
      simp [pieces, steps, typedefNames, hattribute, h.not_name, hnames, ← Nat.add_assoc]
  | array d o h size c ih =>
      have hgroup : (Piece.group o size c :: rest).head?.any (·.is "::") = false := rfl
      obtain ⟨row, later, hrow, hlater, hnames⟩ := ih (Nat.le_of_succ_le hfuel) hgroup
      obtain ⟨left, hleft⟩ := d.exists_step hfuel
      refine ⟨_, _, .suffix (identifiers [.group o size c]) hrow, ?_, ?_⟩
      · intro hparameters
        rw [hlater hparameters, typeNames_identifiers, List.append_nil]
      · have hround := Token.is_eq_false h (b := "(") (by decide)
        rw [pieces, List.append_assoc, List.singleton_append, hnames, List.length_append, hleft,
          typedefNames]
        simp [hround, show fuel - (d.pieces.length + 1) = left by omega]
  | function d o h inner c ih =>
      have hgroup : (Piece.group o inner c :: rest).head?.any (·.is "::") = false := rfl
      obtain ⟨row, later, hrow, -, hnames⟩ := ih (Nat.le_of_succ_le hfuel) hgroup
      obtain ⟨left, hleft⟩ := d.exists_step hfuel
      refine ⟨_, _, .suffix (parameters left (splitCommas 0 inner)) hrow, nofun, ?_⟩
      rw [pieces, List.append_assoc, List.singleton_append, hnames, List.length_append, hleft,
        typedefNames]
      simp [h, show fuel - (d.pieces.length + 1) = left by omega]
  | parenthesized o h d c ih =>
      obtain ⟨left, rfl⟩ := Nat.exists_eq_add_of_le' hfuel
      have hnone : ([] : List Piece).head?.any (·.is "::") = false := rfl
      obtain ⟨row, later, hrow, hlater, hnames⟩ := ih (Nat.le_add_left d.steps left) hnone
      rw [List.append_nil, typedefNames_nil, List.append_nil] at hnames
      refine ⟨row, later, hrow, hlater, ?_⟩
      simp [pieces, steps, ← Nat.add_assoc, typedefNames, h, hnames]

end Declarator

/-! ## Declarations -/

/-- A typedef as it is written. -/
structure TypedefDeclaration where
  keyword : Token
  is_typedef : keyword.is "typedef" = true
  type : TypeSpec
  declarator : Declarator
  semicolon : Token
  is_semicolon : semicolon.is ";" = true

namespace TypedefDeclaration

/-- The name that a typedef brings in. -/
def name (t : TypedefDeclaration) : Token :=
  t.declarator.token

/-- The pieces of a typedef. -/
def pieces (t : TypedefDeclaration) : List Piece :=
  .leaf t.keyword :: (t.type.pieces ++ (t.declarator.pieces ++ [.leaf t.semicolon]))

/-- How many steps a typedef takes to be read. -/
def steps (t : TypedefDeclaration) : Nat :=
  max t.type.steps t.declarator.steps + 3

end TypedefDeclaration

/-! ## Steps

A header is read in as many steps as its size allows, which is enough for every typedef in it. -/

@[simp] theorem size_leaf (t : Token) : (Piece.leaf t).size = 1 := rfl

@[simp] theorem size_group (o : Token) (inner : List Piece) (c : Token) :
    (Piece.group o inner c).size = 2 + Piece.sizeAll inner := rfl

@[simp] theorem sizeAll_nil : Piece.sizeAll [] = 0 := rfl

@[simp] theorem sizeAll_cons (p : Piece) (ps : List Piece) :
    Piece.sizeAll (p :: ps) = p.size + Piece.sizeAll ps := rfl

@[simp] theorem sizeAll_append (ps qs : List Piece) :
    Piece.sizeAll (ps ++ qs) = Piece.sizeAll ps + Piece.sizeAll qs := by
  induction ps with
  | nil => simp
  | cons p ps ih => rw [List.cons_append, sizeAll_cons, sizeAll_cons, ih, Nat.add_assoc]

theorem TypeName.steps_le_size (n : TypeName) : n.steps ≤ Piece.sizeAll n.pieces := by
  induction n with
  | last t h arguments => simp [steps, pieces]
  | scope t h arguments colons hcolons inner ih =>
      simp only [pieces, sizeAll_cons, size_leaf] at ih
      simp only [steps, pieces, first, more, sizeAll_cons, size_leaf, sizeAll_append]
      omega

theorem TypeSpec.steps_le_size (T : TypeSpec) : T.steps ≤ Piece.sizeAll T.pieces + 1 := by
  induction T with
  | qualified q h inner ih =>
      simp only [steps, pieces, sizeAll_cons, size_leaf]
      omega
  | primitive t h => simp [steps, pieces]
  | sized t h more hmore => simp [steps, pieces]
  | named n => exact Nat.succ_le_succ n.steps_le_size
  | tagged k keyword h name hname => simp [steps, pieces]
  | defined k keyword h name hname o ho members c =>
      simp only [steps, pieces, sizeAll_cons, sizeAll_nil, size_leaf, size_group, sizeAll_append]
      omega

theorem Declarator.steps_le_size (d : Declarator) : d.steps ≤ Piece.sizeAll d.pieces := by
  induction d with
  | name t h => simp [steps, pieces]
  | pointer m h d ih =>
      simp only [steps, pieces, sizeAll_cons, size_leaf]
      omega
  | array d o h inner c ih
  | function d o h inner c ih =>
      simp only [steps, pieces, sizeAll_cons, sizeAll_nil, size_group, sizeAll_append]
      omega
  | parenthesized o h d c ih =>
      simp only [steps, pieces, sizeAll_cons, sizeAll_nil, size_group]
      omega

theorem TypedefDeclaration.steps_le_size (t : TypedefDeclaration) :
    t.steps ≤ 4 * Piece.sizeAll t.pieces := by
  have htype := t.type.steps_le_size
  have hdeclarator := t.declarator.steps_le_size
  simp only [steps, pieces, sizeAll_cons, sizeAll_nil, size_leaf, sizeAll_append]
  omega

/-! ## Reading declarations -/

theorem Declarator.opens (d : Declarator) :
    ∃ q more, d.pieces = q :: more ∧ EndsType q := by
  induction d with
  | name t h =>
      refine ⟨_, _, rfl, ?_, rfl⟩
      obtain ⟨hprimitive, hsize, -, -⟩ := h.not_words
      have hmarks : (Piece.leaf t).isOneOf ["<", "::", ":"] = false := by
        have hopens : ∀ s ∈ ["<", "::", ":"], ∀ c ∈ s.toList.head?, opensName c = false := by
          decide
        refine List.any_eq_false.mpr fun s hs => ?_
        simp [h.toIsNameToken.is_eq_false (hopens s hs)]
      rw [typeContinuations, Piece.isOneOf_append, Piece.isOneOf_append, Piece.isOneOf_append,
        hmarks, h.not_marking, hsize, hprimitive]
      rfl
  | pointer m h d ih => exact ⟨_, _, rfl, Token.isOneOf_eq_false h.mark (by decide), rfl⟩
  | array d o h inner c ih
  | function d o h inner c ih =>
      obtain ⟨q, more, heq, hq⟩ := ih
      exact ⟨q, _, by rw [pieces, heq, List.cons_append], hq⟩
  | parenthesized o h d c ih => exact ⟨_, _, rfl, rfl, Token.is_eq_false h (by decide)⟩

theorem Declarator.not_semicolon (d : Declarator) : ∀ p ∈ d.pieces, p.is ";" = false := by
  induction d with
  | name t h =>
      intro p hp
      obtain rfl := List.mem_singleton.mp hp
      exact h.toIsNameToken.is_eq_false (by decide)
  | pointer m h d ih =>
      intro p hp
      rcases List.mem_cons.mp hp with rfl | hp
      · have hnot : m.isOneOf [";"] = false := Token.isOneOf_eq_false h.mark (by decide)
        exact Piece.is_eq_false (p := .leaf m) hnot List.mem_cons_self
      · exact ih p hp
  | array d o h inner c ih
  | function d o h inner c ih =>
      intro p hp
      rcases List.mem_append.mp hp with hp | hp
      · exact ih p hp
      · obtain rfl := List.mem_singleton.mp hp
        rfl
  | parenthesized o h d c ih =>
      intro p hp
      obtain rfl := List.mem_singleton.mp hp
      rfl

theorem typedefParts_declarator (T : TypeSpec) (d : Declarator) {fuel : Nat}
    (hT : T.steps ≤ fuel) (hd : d.steps ≤ fuel) {semicolon : Token}
    (hsemicolon : semicolon.is ";" = true) (rest : List Piece) :
    ∃ type row later,
      typedefParts (fuel + 1) (T.pieces ++ (d.pieces ++ .leaf semicolon :: rest)) =
        (type ++ row, rest) ∧
      Introduces (nodeOf .typeIdentifier (.leaf d.token)) row later ∧
      (d.takesParameters = false → later = []) := by
  obtain ⟨q, more, hopens, hq⟩ := d.opens
  obtain ⟨type, htype⟩ := T.typeParts hT hq (more ++ .leaf semicolon :: rest)
  rw [← List.cons_append, ← hopens] at htype
  have hnone : ([] : List Piece).head?.any (·.is "::") = false := rfl
  obtain ⟨row, later, hrow, hlater, hnames⟩ := d.introduces hd hnone
  rw [List.append_nil, Declarator.typedefNames_nil, List.append_nil] at hnames
  have hfront : (d.pieces ++ Piece.leaf semicolon :: rest).takeWhile (fun p => !p.is ";") =
      d.pieces := by
    have hsemicolon' : (Piece.leaf semicolon).is ";" = true := hsemicolon
    rw [List.takeWhile_append_of_pos fun p hp => by simp [d.not_semicolon p hp]]
    simp [hsemicolon']
  refine ⟨type, row, later, ?_, hrow, hlater⟩
  rw [typedefParts]
  simp only [htype, hfront, hnames]
  simp [hopens]

/-- A typedef is read into one node: its type, and then a row that brings in its name. -/
theorem TypedefDeclaration.items (t : TypedefDeclaration) {fuel : Nat} (hfuel : t.steps ≤ fuel)
    (rest : List Piece) :
    ∃ start stop type row later,
      items fuel (t.pieces ++ rest) =
        .node .typedef none start stop (type ++ row) :: items (fuel - 1) rest ∧
      Introduces (nodeOf .typeIdentifier (.leaf t.name)) row later ∧
      (t.declarator.takesParameters = false → later = []) := by
  obtain ⟨left, hleft⟩ : ∃ left, fuel = left + 3 ∧ t.type.steps ≤ left ∧
      t.declarator.steps ≤ left := by
    rw [steps] at hfuel
    exact ⟨fuel - 3, by omega⟩
  obtain ⟨rfl, hT, hd⟩ := hleft
  obtain ⟨type, row, later, hparts, hrow, hlater⟩ :=
    typedefParts_declarator t.type t.declarator hT hd t.is_semicolon rest
  obtain ⟨p, more, hopens, hcolon⟩ := t.type.opens
  have hkeyword : ∀ s ∈ [";", "template"], (Piece.leaf t.keyword).is s = false := by
    have hne : ∀ s ∈ [";", "template"], "typedef" ≠ s := by decide
    exact fun s hs => Token.is_eq_false t.is_typedef (hne s hs)
  have htypedef : (Piece.leaf t.keyword).is "typedef" = true := t.is_typedef
  have htemplate : ∀ ps, isTemplateHead (.leaf t.keyword :: ps) = false := by
    intro ps
    cases ps <;> simp [isTemplateHead, hkeyword "template" (by simp)]
  refine ⟨t.keyword.start, ((type ++ row).getLast?.map SourceTree.stop).getD t.keyword.stop, type,
    row, later, ?_, hrow, hlater⟩
  rw [pieces, List.cons_append, List.append_assoc, List.append_assoc, List.singleton_append,
    Header.items, item]
  rw [hopens] at hparts ⊢
  simp only [hkeyword ";" (by simp), htemplate, List.cons_append, List.head?_cons, Option.any_some,
    hcolon, Bool.and_false, htypedef, Bool.false_eq_true, if_false, if_true] at hparts ⊢
  rw [hparts]
  rfl

/-- Wherever a typedef stands in a header, it is read into one node, and the type names of that node
are those of its type, the name it brings in, and then those of its parameters. It goes by the last
of them, so by the name it brings in exactly where the last type of its parameters, if any, reads
the same. -/
theorem typedef_reported (t : TypedefDeclaration) {source : List Char}
    (hname : t.name ∈ tokens isAsciiGap step source) {fuel : Nat}
    (hfuel : 4 * Piece.sizeAll t.pieces ≤ fuel) (rest : List Piece) :
    ∃ node before later,
      items fuel (t.pieces ++ rest) = node :: items (fuel - 1) rest ∧
      node.kind = .typedef ∧
      typeNames node.children = before ++ nodeOf .typeIdentifier (.leaf t.name) :: later ∧
      (t.declarator.takesParameters = false → later = []) ∧
      name? source node =
        some ((later.getLast?.getD (nodeOf .typeIdentifier (.leaf t.name))).text source) ∧
      (name? source node = some t.name.text ↔
        ∀ last ∈ later.getLast?, last.text source = t.name.text) := by
  obtain ⟨start, stop, type, row, later, hitems, hrow, hlater⟩ :=
    t.items (Nat.le_trans t.steps_le_size hfuel) rest
  have hn : IsTypeName (nodeOf .typeIdentifier (.leaf t.name)) := ⟨rfl, rfl⟩
  have htext : (nodeOf .typeIdentifier (.leaf t.name)).text source = t.name.text :=
    text_of_token (text_of_mem_tokens hname) _ _ _
  have hreported := typedef_name hn hrow source none start stop type
  rw [htext] at hreported
  refine ⟨_, typeNames type, later, hitems, rfl, ?_, hlater, hreported⟩
  rw [SourceTree.children, typeNames_append, hrow.typeNames hn]

/-- `typedef Bone *Bones[4];` -/
def bonesTypedef : TypedefDeclaration where
  keyword := ⟨.word, 0, "typedef".toList, true⟩
  is_typedef := by decide
  type := .named (.last ⟨.word, 8, "Bone".toList, false⟩
    ⟨⟨rfl, by decide⟩, by decide, by decide, by decide⟩ none)
  declarator := .array
    (.pointer ⟨.mark, 13, ['*'], false⟩ ⟨by decide, by decide⟩
      (.name ⟨.word, 14, "Bones".toList, false⟩
        ⟨⟨rfl, by decide⟩, by decide, by decide, by decide⟩))
    ⟨.mark, 19, ['['], false⟩ (by decide) [.leaf ⟨.literal, 20, ['4'], false⟩]
    ⟨.mark, 21, [']'], false⟩
  semicolon := ⟨.mark, 22, [';'], false⟩
  is_semicolon := by decide

theorem typedef_reported_bones :
    let source := "typedef Bone *Bones[4];".toList
    let fuel := 4 * Piece.sizeAll bonesTypedef.pieces + 8
    pieces source = bonesTypedef.pieces ∧
      bonesTypedef.name ∈ tokens isAsciiGap step source ∧
      4 * Piece.sizeAll bonesTypedef.pieces ≤ fuel ∧
      ∃ node, (read source).children = [node] ∧ name? source node = some "Bones".toList := by
  intro source fuel
  have hfourth : (tokens isAsciiGap step source)[3]? = some bonesTypedef.name := rfl
  have htokens := List.mem_of_getElem? hfourth
  have hpieces : pieces source = bonesTypedef.pieces := rfl
  have hfuel : 4 * Piece.sizeAll bonesTypedef.pieces ≤ fuel := Nat.le_add_right _ 8
  obtain ⟨node, before, later, hitems, -, -, hlater, -, hname⟩ :=
    typedef_reported bonesTypedef htokens hfuel []
  refine ⟨hpieces, htokens, hfuel, node, ?_, hname.mpr ?_⟩
  · rw [items_nil, List.append_nil] at hitems
    rw [read, SourceTree.children, hpieces]
    exact hitems
  · rw [hlater rfl]
    simp

/-- A callback that goes by the type of its parameter. -/
theorem declaredTypes_callback :
    let source := "typedef void (*Callback)(Bone *bone);"
    declaredTypes defaultExportWords source "a.h" = ["Bone"] ∧
      "Callback" ∉ declaredTypes defaultExportWords source "a.h" := by
  decide +kernel

end DocTransfer.Header
