import DocTransfer.Proofs.Javadoc.Rows

/-! # The shape of a documentation tree

Whatever tree a source was read into, names grow from the outside in, all types of a file share its
path and package, and everything that is kept as documentation stands in the source as it is. -/

namespace DocTransfer.Javadoc

open Source

/-! ## Documentation out of a source -/

theorem text_infix (source : List Char) (t : JavaTree) : t.text source <:+: source :=
  (List.take_prefix _ _).isInfix.trans (List.drop_suffix _ _).isInfix

/-- A comment with its opening mark, as it stands in a source. -/
structure IsJavadoc (source : List Char) (doc : String) : Prop where
  opens : "/**".toList <+: doc.toList
  contiguous : doc.toList <:+: source

theorem isJavadoc_docOf {source : List Char} {previous : Option JavaTree}
    (h : docOf source previous ≠ []) : IsJavadoc source (String.ofList (docOf source previous)) := by
  rw [docOf_eq] at h ⊢
  cases hcomment : previous.filter (isDocComment source) with
  | none => simp [hcomment] at h
  | some t =>
      obtain ⟨-, hdoc⟩ := Option.filter_eq_some_iff.mp hcomment
      simp only [Option.map_some, Option.getD_some]
      constructor
      · simpa using isDocComment_text hdoc
      · simpa using text_infix source t

theorem isJavadoc_of_member {source : List Char} {previous : Option JavaTree} {t : JavaTree}
    {m : JavaMember} (h : member source previous t = some m) :
    m.signature ≠ "" ∧ IsJavadoc source m.javadoc := by
  simp only [member] at h
  split at h
  · next hkept =>
      simp only [Bool.and_eq_true, Bool.not_eq_true', List.isEmpty_eq_false_iff] at hkept
      obtain ⟨⟨-, hdoc⟩, hhead⟩ := hkept
      cases h
      exact ⟨by simpa using hhead, isJavadoc_docOf hdoc⟩
  · cases h

theorem isJavadoc_of_enumConstant {source : List Char} {previous : Option JavaTree} {t : JavaTree}
    {c : JavaConstant} (h : enumConstant source previous t = some c) :
    IsJavadoc source c.javadoc := by
  simp only [enumConstant] at h
  split at h
  · next hkept =>
      simp only [Bool.and_eq_true, Bool.not_eq_true', List.isEmpty_eq_false_iff] at hkept
      cases h
      exact isJavadoc_docOf hkept.2
  · cases h

theorem isJavadoc_of_mem_membersIn {o : Origin} {ts : List JavaTree} {m : JavaMember}
    (h : m ∈ membersIn o ts) : m.signature ≠ "" ∧ IsJavadoc o.source m.javadoc := by
  obtain ⟨⟨previous, t⟩, -, hmember⟩ := List.mem_filterMap.mp h
  exact isJavadoc_of_member hmember

theorem isJavadoc_of_mem_constantsIn {o : Origin} {ts : List JavaTree} {c : JavaConstant}
    (h : c ∈ constantsIn o ts) : IsJavadoc o.source c.javadoc := by
  obtain ⟨⟨previous, t⟩, -, hconstant⟩ := List.mem_filterMap.mp h
  exact isJavadoc_of_enumConstant hconstant

/-! ## One type -/

/-- What can be relied on in a type from a file: its package and path are those of the file, the
types right inside it carry on its name, only an enum has constants, and all documentation comes
from the source. -/
structure WellShaped (source : List Char) (path package : String) (t : JavaType) : Prop where
  packageName : t.packageName = package
  sourcePath : t.sourcePath = path
  nested : ∀ n ∈ t.nested, n.fullName = t.fullName ++ "." ++ n.simpleName
  constants : t.constants.isSome = true ↔ t.kind = .enum
  javadoc : t.javadoc = "" ∨ IsJavadoc source t.javadoc
  members : ∀ m ∈ t.members, m.signature ≠ "" ∧ IsJavadoc source m.javadoc
  constantDocs : ∀ c ∈ t.constants.getD [], IsJavadoc source c.javadoc

/-- The name of a type is that of its surroundings followed by its own. -/
theorem fullName_of_mem_typesIn {o : Origin} {outer : Option String} {previous : Option JavaTree}
    {ts : List JavaTree} {type : JavaType} (h : type ∈ typesIn o outer previous ts) :
    type.fullName = fullName o outer type.simpleName := by
  obtain ⟨before, t, -, htype⟩ := mem_typesIn o h
  obtain ⟨kind, nameNode, -, -, rfl⟩ := (typeOf?_eq_some_iff o).mp htype
  rfl

theorem wellShaped_declaredType (o : Origin) (outer : Option String) (previous : Option JavaTree)
    (t : JavaTree) (kind : TypeKind) (nameNode : JavaTree) :
    WellShaped o.source o.path o.package (declaredType o outer previous t kind nameNode) where
  packageName := rfl
  sourcePath := rfl
  nested n hn := by
    rcases List.mem_append.mp hn with hn | hn
    · exact fullName_of_mem_typesIn hn
    · exact fullName_of_mem_typesIn hn
  constants := by
    simp only [declaredType, JavaType.constants, JavaType.kind]
    split <;> simp [*]
  javadoc := by
    by_cases hdoc : docOf o.source previous = []
    · exact .inl (by simp [declaredType, JavaType.javadoc, hdoc])
    · exact .inr (isJavadoc_docOf hdoc)
  members m hm := by
    rcases List.mem_append.mp hm with hm | hm
    · exact isJavadoc_of_mem_membersIn hm
    · exact isJavadoc_of_mem_membersIn hm
  constantDocs c hc := by
    simp only [declaredType, JavaType.constants] at hc
    split at hc
    · exact isJavadoc_of_mem_constantsIn hc
    · cases hc

/-! ## Whole forests -/

/-- At any depth of a forest there are only types that some node declares. -/
theorem declared_of_mem_walkAll (o : Origin) (ts : List JavaTree) {outer : Option String}
    {previous : Option JavaTree} {type : JavaType}
    (h : type ∈ JavaType.walkAll (typesIn o outer previous ts)) :
    ∃ outer previous t kind nameNode, declaredType o outer previous t kind nameNode = type := by
  induction ts using rowInduction generalizing outer previous with
  | row ts ih =>
      rw [JavaType.walkAll_eq_flatMap, List.mem_flatMap] at h
      obtain ⟨top, htop, h⟩ := h
      obtain ⟨before, t, ht, htype⟩ := mem_typesIn o htop
      obtain ⟨kind, nameNode, -, -, rfl⟩ := (typeOf?_eq_some_iff o).mp htype
      rw [JavaType.walk_eq, List.mem_cons] at h
      rcases h with rfl | h
      · exact ⟨outer, before, t, kind, nameNode, rfl⟩
      · rw [declaredType, JavaType.nested, JavaType.walkAll_eq_flatMap, List.flatMap_append,
          List.mem_append, ← JavaType.walkAll_eq_flatMap, ← JavaType.walkAll_eq_flatMap] at h
        rcases h with h | h
        · exact (ih t ht).1 h
        · exact (ih t ht).2 h

/-- What can be relied on in the forest of a file. -/
structure ShapedForest (source : List Char) (path package : String) (forest : List JavaType) :
    Prop where
  top : ∀ t ∈ forest,
    t.fullName = if package = "" then t.simpleName else package ++ "." ++ t.simpleName
  shaped : ∀ t ∈ JavaType.walkAll forest, WellShaped source path package t

theorem shapedForest_typesOf (source : List Char) (path : String) (root : JavaTree) :
    ShapedForest source path (packageOf source root) (typesOf source path root) where
  top t ht := by
    rw [fullName_of_mem_typesIn ht, fullName]
    simp only [String.isEmpty_iff]
  shaped t ht := by
    obtain ⟨outer, previous, u, kind, nameNode, rfl⟩ := declared_of_mem_walkAll _ _ ht
    exact wellShaped_declaredType ⟨source, path, packageOf source root⟩ outer previous u kind nameNode

/-- Whatever tree a source is read into, its forest has names that grow from the package inwards, one
path and package throughout, constants exactly in enums, signatures for all members, and
documentation that opens with its mark and stands in the source. -/
theorem forest_shape (source path : String) :
    (∀ root, ShapedForest source.toList path (packageOf source.toList root)
      (typesOf source.toList path root)) ∧
    ∃ package, ShapedForest source.toList path package (extract source path) :=
  ⟨shapedForest_typesOf source.toList path,
    packageOf source.toList (read source.toList), shapedForest_typesOf source.toList path _⟩

end DocTransfer.Javadoc
