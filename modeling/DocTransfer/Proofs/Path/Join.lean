import DocTransfer.FileTree

/-! # Names below a path

A name that is joined to a path becomes its last component, and the path can be that of a file. -/

namespace DocTransfer

/-! ## Pieces of a list -/

namespace Text

variable {α : Type} (p : α → Bool)

theorem splitWhere_cons (x : α) (xs : List α) :
    splitWhere p (x :: xs) =
      if p x then [] :: splitWhere p xs
      else match splitWhere p xs with
        | [] => [[x]]
        | piece :: pieces => (x :: piece) :: pieces := rfl

theorem splitWhere_ne_nil (xs : List α) : splitWhere p xs ≠ [] := by
  cases xs with
  | nil => exact List.cons_ne_nil _ _
  | cons x xs =>
      rw [splitWhere_cons]
      split
      · simp
      · split <;> simp

variable {p}

theorem splitWhere_append_cons {x : α} (h : p x = true) (xs ys : List α) :
    splitWhere p (xs ++ x :: ys) = splitWhere p xs ++ splitWhere p ys := by
  induction xs with
  | nil => exact if_pos h
  | cons z xs ih =>
      rw [List.cons_append, splitWhere_cons, splitWhere_cons, ih]
      cases hsplit : splitWhere p xs with
      | nil => exact absurd hsplit (splitWhere_ne_nil p xs)
      | cons piece pieces => by_cases hz : p z <;> simp [hz]

theorem splitWhere_of_forall_not {xs : List α} (h : ∀ x ∈ xs, p x = false) :
    splitWhere p xs = [xs] := by
  induction xs with
  | nil => rfl
  | cons x xs ih =>
      obtain ⟨hx, hxs⟩ := List.forall_mem_cons.mp h
      rw [splitWhere_cons, hx, ih hxs]
      rfl

end Text

namespace Path

open Text

/-! ## Pieces of a path -/

/-- What may stand as a name in a folder. -/
structure IsName (name : List Char) : Prop where
  ne_nil : name ≠ []
  no_slash : '/' ∉ name
  ne_here : name ≠ ['.']
  ne_up : name ≠ ['.', '.']

instance (name : List Char) : Decidable (IsName name) :=
  decidable_of_iff (name ≠ [] ∧ '/' ∉ name ∧ name ≠ ['.'] ∧ name ≠ ['.', '.'])
    ⟨fun ⟨h₁, h₂, h₃, h₄⟩ => ⟨h₁, h₂, h₃, h₄⟩, fun ⟨h₁, h₂, h₃, h₄⟩ => ⟨h₁, h₂, h₃, h₄⟩⟩

/-- A path that does not begin at the root. -/
def Relative (path : List Char) : Prop :=
  path.head? ≠ some '/'

theorem IsName.component? {name : List Char} (h : IsName name) (first : Bool) :
    component? first name = some (.name name) := by
  simp [Path.component?, h.ne_nil, h.ne_here, h.ne_up]

theorem IsName.relative {name : List Char} (h : IsName name) : Relative name := by
  intro hhead
  exact h.no_slash (List.mem_of_mem_head? hhead)

/-- The pieces of a path that does not begin at the root, each with its component. -/
def tagged : List (List Char) → List (List Char × Option Component)
  | [] => []
  | p :: ps => (p, component? true p) :: ps.map fun p => (p, component? false p)

theorem pieces_of_relative {path : List Char} (h : Relative path) :
    pieces path = tagged (splitWhere (· == '/') path) := by
  unfold pieces
  split
  · exact absurd rfl h
  · cases splitWhere (· == '/') path <;> rfl

theorem splitWhere_of_no_slash {cs : List Char} (h : '/' ∉ cs) :
    splitWhere (· == '/') cs = [cs] := by
  apply splitWhere_of_forall_not
  intro c hc
  have hne : c ≠ '/' := by
    rintro rfl
    exact h hc
  simpa using hne

theorem tagged_append {ps : List (List Char)} (h : ps ≠ []) (qs : List (List Char)) :
    tagged (ps ++ qs) = tagged ps ++ qs.map fun q => (q, component? false q) := by
  cases ps with
  | nil => exact absurd rfl h
  | cons p ps => simp [tagged]

/-- What stands after a slash is taken apart on its own. -/
theorem pieces_append_slash {base : List Char} (hne : base ≠ []) (path : List Char) :
    pieces (base ++ '/' :: path) =
      pieces base ++ (splitWhere (· == '/') path).map fun q => (q, component? false q) := by
  by_cases hrelative : Relative base
  · have happend : Relative (base ++ '/' :: path) := by
      obtain ⟨c, cs, rfl⟩ := List.exists_cons_of_ne_nil hne
      exact hrelative
    rw [pieces_of_relative happend, pieces_of_relative hrelative, splitWhere_append_cons (by simp),
      tagged_append (splitWhere_ne_nil _ _)]
  · obtain ⟨c, cs, rfl⟩ := List.exists_cons_of_ne_nil hne
    have hc : c = '/' := by simpa [Relative] using hrelative
    subst hc
    rw [List.cons_append, pieces, pieces, splitWhere_append_cons (by simp), List.map_append,
      List.cons_append]

theorem pieces_append_slash_name {base name : List Char} (hne : base ≠ []) (hname : IsName name) :
    pieces (base ++ '/' :: name) = pieces base ++ [(name, some (.name name))] := by
  rw [pieces_append_slash hne, splitWhere_of_no_slash hname.no_slash, List.map_singleton,
    hname.component?]

theorem pieces_join {base name : List Char} (hbase : Relative base) (hname : IsName name) :
    ∃ front, pieces (join base name) = front ++ [(name, some (.name name))] ∧
      front.filterMap (·.2) = components base := by
  have hjoin : join base name =
      if base = [] ∨ base.getLast? = some '/' then base ++ name else base ++ '/' :: name := by
    rw [join, if_neg hname.relative]
  rw [hjoin]
  by_cases hempty : base = []
  · subst hempty
    refine ⟨[], ?_, rfl⟩
    simp [pieces_of_relative hname.relative, splitWhere_of_no_slash hname.no_slash, tagged,
      hname.component?]
  by_cases hslash : base.getLast? = some '/'
  · obtain ⟨front, rfl⟩ := List.getLast?_eq_some_iff.mp hslash
    have hne : front ≠ [] := by
      rintro rfl
      exact hbase rfl
    refine ⟨pieces front, ?_, ?_⟩
    · simp only [hslash, or_true, if_true, List.append_assoc, List.singleton_append]
      rw [pieces_append_slash_name hne hname]
    · rw [components, pieces_append_slash hne]
      simp [splitWhere, component?]
  · refine ⟨pieces base, ?_, rfl⟩
    simp only [hempty, hslash, or_self, if_false]
    rw [pieces_append_slash_name hempty hname]

/-! ## Components -/

section

variable {base name : List Char} (hbase : Relative base) (hname : IsName name)

include hbase hname

theorem components_join : components (join base name) = components base ++ [.name name] := by
  obtain ⟨front, hpieces, hfront⟩ := pieces_join hbase hname
  rw [components, hpieces, List.filterMap_append, hfront]
  rfl

theorem wantsFolder_join : FileTree.wantsFolder (join base name) = false := by
  obtain ⟨front, hpieces, -⟩ := pieces_join hbase hname
  simp [FileTree.wantsFolder, hpieces]

theorem relative_join : Relative (join base name) := by
  rw [join, if_neg hname.relative]
  cases base with
  | nil => simpa using hname.relative
  | cons c cs =>
      split
      · exact hbase
      · exact hbase

end

end Path

end DocTransfer
