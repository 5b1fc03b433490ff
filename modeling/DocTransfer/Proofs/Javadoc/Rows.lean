import DocTransfer.Javadoc.Extract

/-! # Extraction, row by row

A declaration is judged by its place in a row of siblings. The types of a row come from its nodes,
one by one, and inside each of them two more rows are searched: the body of the type and, in an
enum, the declarations after the constants. -/

namespace DocTransfer

/-! ## Walks over a forest -/

namespace JavaType

theorem walk_eq (t : JavaType) : t.walk = t :: walkAll t.nested := by
  cases t
  rfl

theorem walkAll_eq_flatMap (forest : List JavaType) : walkAll forest = forest.flatMap walk := by
  induction forest with
  | nil => rfl
  | cons t ts ih =>
      rw [List.flatMap_cons, ← ih]
      rfl

end JavaType

namespace Javadoc

open Source

/-! ## Comments -/

/-- A comment that documents what follows it. -/
def isDocComment (source : List Char) (t : JavaTree) : Bool :=
  t.kind == .blockComment && "/**".toList.isPrefixOf (t.text source)

theorem docOf_eq (source : List Char) (previous : Option JavaTree) :
    docOf source previous =
      ((previous.filter (isDocComment source)).map (·.text source)).getD [] := by
  cases previous with
  | none => rfl
  | some t =>
      unfold docOf isDocComment
      simp only [Option.filter_some]
      split <;> rfl

/-- Documentation opens with its mark, so there is none where it is empty. -/
theorem isDocComment_text {source : List Char} {t : JavaTree} (h : isDocComment source t = true) :
    "/**".toList <+: t.text source := by
  rw [isDocComment, Bool.and_eq_true] at h
  exact List.isPrefixOf_iff_prefix.mp h.2

/-! ## The rows inside a type -/

@[simp] theorem childrenAt_none (ts : List JavaTree) : childrenAt none ts = [] := rfl

@[simp] theorem childrenAt_nil (place : Option Nat) : childrenAt place [] = [] := by
  cases place <;> rfl

@[simp] theorem childrenAt_zero (t : JavaTree) (ts : List JavaTree) :
    childrenAt (some 0) (t :: ts) = t.children := rfl

@[simp] theorem childrenAt_succ (n : Nat) (t : JavaTree) (ts : List JavaTree) :
    childrenAt (some (n + 1)) (t :: ts) = childrenAt (some n) ts := rfl

/-- What stands at a place is the row inside some node, unless it is nothing. -/
theorem childrenAt_cases (place : Option Nat) (ts : List JavaTree) :
    childrenAt place ts = [] ∨
      ∃ i t, place = some i ∧ ts[i]? = some t ∧ childrenAt place ts = t.children := by
  cases place with
  | none => exact .inl rfl
  | some i =>
      cases ht : ts[i]? with
      | none => exact .inl (by simp [childrenAt, ht])
      | some t => exact .inr ⟨i, t, rfl, ht, by simp [childrenAt, ht]⟩

/-- The row of nodes in the body of a type. -/
def bodyOf (t : JavaTree) : List JavaTree :=
  childrenAt (bodyPlace? t.children) t.children

/-- The row of declarations after the constants of an enum. -/
def laterOf (t : JavaTree) : List JavaTree :=
  childrenAt (declarationsPlace? (bodyOf t)) (bodyOf t)

theorem sizeOf_children_lt (t : JavaTree) : sizeOf t.children < sizeOf t := by
  cases t with
  | node kind label start stop children =>
      simp only [SourceTree.children, SourceTree.node.sizeOf_spec]
      omega

theorem sizeOf_childrenAt_le (place : Option Nat) (ts : List JavaTree) :
    sizeOf (childrenAt place ts) ≤ sizeOf ts := by
  obtain hnil | ⟨i, t, -, ht, hchildren⟩ := childrenAt_cases place ts
  · rw [hnil]
    cases ts with
    | nil => exact Nat.le_refl _
    | cons t ts =>
        simp only [List.nil.sizeOf_spec, List.cons.sizeOf_spec]
        omega
  · have hmem := List.sizeOf_lt_of_mem (List.mem_of_getElem? ht)
    have hinner := sizeOf_children_lt t
    rw [hchildren]
    omega

/-- Rows can be taken one after the other from the inside out: a property that passes from the rows
inside the types of a row to that row holds of all rows. -/
theorem rowInduction {motive : List JavaTree → Prop}
    (row : ∀ ts, (∀ t ∈ ts, motive (bodyOf t) ∧ motive (laterOf t)) → motive ts)
    (ts : List JavaTree) : motive ts := by
  apply row
  intro t ht
  have hnode := List.sizeOf_lt_of_mem ht
  have hchildren := sizeOf_children_lt t
  have hbody : sizeOf (bodyOf t) ≤ sizeOf t.children := sizeOf_childrenAt_le _ _
  have hlater : sizeOf (laterOf t) ≤ sizeOf (bodyOf t) := sizeOf_childrenAt_le _ _
  exact ⟨rowInduction row (bodyOf t), rowInduction row (laterOf t)⟩
termination_by sizeOf ts

/-! ## The types of a row -/

variable (o : Origin)

theorem typesIn_cons (outer : Option String) (previous : Option JavaTree) (t : JavaTree)
    (ts : List JavaTree) :
    typesIn o outer previous (t :: ts) =
      (typeOf? o outer previous t).toList ++ typesIn o outer (nearest previous t) ts := rfl

theorem laterIn_eq (outer : String) (place : Option Nat) (ts : List JavaTree) :
    laterIn o outer place ts = typesIn o (some outer) none (childrenAt place ts) := by
  induction ts generalizing place with
  | nil =>
      cases place with
      | none => rfl
      | some n => cases n <;> rfl
  | cons t ts ih =>
      cases place with
      | none => rfl
      | some n =>
          cases n with
          | zero => cases t; rfl
          | succ n => exact ih (some n)

theorem nestedIn_eq (outer : String) (place : Option Nat) (ts : List JavaTree) :
    nestedIn o outer place ts =
      typesIn o (some outer) none (childrenAt place ts) ++
        typesIn o (some outer) none
          (childrenAt (declarationsPlace? (childrenAt place ts)) (childrenAt place ts)) := by
  induction ts generalizing place with
  | nil =>
      cases place with
      | none => rfl
      | some n => cases n <;> rfl
  | cons t ts ih =>
      cases place with
      | none => rfl
      | some n =>
          cases n with
          | zero =>
              cases t
              rw [childrenAt_zero, ← laterIn_eq]
              rfl
          | succ n => exact ih (some n)

/-- The type that a node of a kind declares, if this node holds its name. -/
def declaredType (outer : Option String) (previous : Option JavaTree) (t : JavaTree)
    (kind : TypeKind) (nameNode : JavaTree) : JavaType :=
  let name := String.ofList (nameNode.text o.source)
  let full := fullName o outer name
  .mk name full o.package kind (String.ofList (docOf o.source previous))
    (membersIn o (bodyOf t) ++ membersIn o (laterOf t))
    (if kind = .enum then some (constantsIn o (bodyOf t)) else none)
    (typesIn o (some full) none (bodyOf t) ++ typesIn o (some full) none (laterOf t)) o.path

theorem typeOf?_of_kind {outer : Option String} {previous : Option JavaTree} {t : JavaTree}
    {kind : TypeKind} (h : t.kind = .typeDeclaration kind) :
    typeOf? o outer previous t =
      (nameNode? t).map (declaredType o outer previous t kind) := by
  obtain ⟨_, label, start, stop, children⟩ := t
  cases h
  cases hname : nameNode? (.node (.typeDeclaration kind) label start stop children) with
  | none => simp [typeOf?, hname]
  | some nameNode =>
      simp [typeOf?, hname, nestedIn_eq, declaredType, bodyOf, laterOf, SourceTree.children]

theorem typeOf?_eq_none {outer : Option String} {previous : Option JavaTree} {t : JavaTree}
    (h : ∀ kind, t.kind ≠ .typeDeclaration kind) : typeOf? o outer previous t = none := by
  obtain ⟨kind, label, start, stop, children⟩ := t
  cases kind with
  | typeDeclaration kind => exact absurd rfl (h kind)
  | _ => rfl

/-- A node declares a type if it is of such a kind and has a name. -/
theorem typeOf?_eq_some_iff {outer : Option String} {previous : Option JavaTree} {t : JavaTree}
    {type : JavaType} :
    typeOf? o outer previous t = some type ↔
      ∃ kind nameNode, t.kind = .typeDeclaration kind ∧ nameNode? t = some nameNode ∧
        declaredType o outer previous t kind nameNode = type := by
  by_cases htype : ∃ kind, t.kind = .typeDeclaration kind
  · obtain ⟨kind, hkind⟩ := htype
    simp [typeOf?_of_kind o hkind, hkind]
  · have hnone : ∀ kind, t.kind ≠ .typeDeclaration kind := not_exists.mp htype
    simp [typeOf?_eq_none o hnone, hnone]

theorem mem_typesIn {outer : Option String} {previous : Option JavaTree} {ts : List JavaTree}
    {type : JavaType} (h : type ∈ typesIn o outer previous ts) :
    ∃ previous t, t ∈ ts ∧ typeOf? o outer previous t = some type := by
  induction ts generalizing previous with
  | nil => cases h
  | cons t ts ih =>
      rw [typesIn_cons, List.mem_append, Option.mem_toList] at h
      rcases h with h | h
      · exact ⟨previous, t, by simp, h⟩
      · obtain ⟨before, u, hu, htype⟩ := ih h
        exact ⟨before, u, by simp [hu], htype⟩

end Javadoc

end DocTransfer
