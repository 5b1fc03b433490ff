import DocTransfer.Header.Types
import DocTransfer.Proofs.Declared.Names
import DocTransfer.Proofs.Source.Walk
import DocTransfer.Script.Types
import DocTransfer.Sharp.Types

/-! # The types that a tree declares

Which nodes of a tree are looked at, and which name each of them offers, does not hang on what has
been found before. The types declared are the set of the names offered, in the order of a walk. -/

namespace DocTransfer.Declared

open Source SourceTree

variable {κ : Type} {name? : SourceTree κ → Option (List Char)} {root : SourceTree κ}

/-- The names that the nodes at some places offer. -/
def candidatesAt (name? : SourceTree κ → Option (List Char)) (root : SourceTree κ)
    (places : List Place) : List (List Char) :=
  places.filterMap fun p => (root.at? p).bind name?

/-- The names are the set of those that the visited nodes offer, in the order of a walk. -/
def Lists (visited : Place → Prop) (name? : SourceTree κ → Option (List Char))
    (root : SourceTree κ) (names : List String) : Prop :=
  ∃ places, Preordered visited places ∧ OrderedSetOf (candidatesAt name? root places) names

/-- Adds the name that the node at a place offers. -/
def addAt (name? : SourceTree κ → Option (List Char)) (root : SourceTree κ) (found : List String)
    (p : Place) : List String :=
  addSome found ((root.at? p).bind name?)

theorem foldl_addAt (places : List Place) (found : List String) :
    places.foldl (addAt name? root) found = (candidatesAt name? root places).foldl add found := by
  induction places generalizing found with
  | nil => rfl
  | cons p places ih =>
      rw [List.foldl_cons, ih, addAt, candidatesAt, candidatesAt, List.filterMap_cons]
      cases (root.at? p).bind name? with
      | none => rfl
      | some name => rfl

section

variable {visited : Place → Prop} [DecidablePred visited]

theorem lists_of_foldl {names : List String} (hvisited : ∀ p, visited p → (root.at? p).isSome)
    (h : names = ((placesFrom [] root).filter visited).foldl (addAt name? root) []) :
    Lists visited name? root names := by
  refine ⟨_, preordered_filter root hvisited, ?_⟩
  rw [h, foldl_addAt]
  exact orderedSetOf_foldl_add _

/-- A visited node offers its name before its children are gone through. -/
theorem foldl_placesFrom {visit : List String → SourceTree κ → List String} {p : Place}
    {t : SourceTree κ} (h : root.at? p = some t) (hp : visited p)
    (hchildren : ∀ i c, t.children[i]? = some c → ∀ found,
      visit found c = ((placesFrom (i :: p) c).filter visited).foldl (addAt name? root) found)
    (found : List String) :
    ((placesFrom p t).filter visited).foldl (addAt name? root) found =
      t.children.foldl visit (addSome found (name? t)) := by
  rw [placesFrom_eq, List.filter_cons_of_pos (by simpa using hp), List.foldl_cons, addAt, h,
    Option.bind_some]
  refine (foldl_filter_placesInRow ?_ _).symm
  intro i c hc found
  rw [Nat.zero_add]
  exact hchildren i c hc found

end

end DocTransfer.Declared

/-! ## C# -/

namespace DocTransfer.Sharp

open Source SourceTree Declared

variable {source : List Char} {root : SharpTree}

theorem visitAll_eq_foldl (cs : List SharpTree) (found : List String) :
    visitAll source found cs = cs.foldl (visit source) found := by
  induction cs generalizing found with
  | nil => rfl
  | cons c cs ih => exact ih (visit source found c)

theorem visit_eq (t : SharpTree) (found : List String) :
    visit source found t =
      t.children.foldl (visit source) (addSome found (name? source t)) := by
  cases t
  rw [← visitAll_eq_foldl]
  rfl

/-- All nodes are visited. -/
def Visited (root : SharpTree) (p : Place) : Prop :=
  (root.at? p).isSome

instance (root : SharpTree) : DecidablePred (Visited root) :=
  fun p => inferInstanceAs (Decidable ((root.at? p).isSome = true))

theorem visit_eq_foldl {t : SharpTree} {p : Place} (h : root.at? p = some t)
    (found : List String) :
    visit source found t =
      ((placesFrom p t).filter (Visited root)).foldl (addAt (name? source) root) found := by
  induction t using treeInduction generalizing p found with
  | node t ih =>
      have hp : Visited root p := by simp [Visited, h]
      rw [visit_eq, foldl_placesFrom h hp]
      intro i c hc found
      exact ih c (List.mem_of_getElem? hc) (at?_child h hc) found

theorem lists_types (source : List Char) (root : SharpTree) :
    Lists (Visited root) (name? source) root (types source root) :=
  lists_of_foldl (fun _ h => h) (visit_eq_foldl rfl [])

end DocTransfer.Sharp

/-! ## Headers -/

namespace DocTransfer.Header

open Source SourceTree Declared

variable {source : List Char} {root : HeaderTree}

theorem visitAll_eq_foldl (cs : List HeaderTree) (found : List String) :
    visitAll source found cs = cs.foldl (visit source) found := by
  induction cs generalizing found with
  | nil => rfl
  | cons c cs ih => exact ih (visit source found c)

theorem visit_eq (t : HeaderTree) (found : List String) :
    visit source found t =
      if t.kind = .friend then found
      else t.children.foldl (visit source) (addSome found (name? source t)) := by
  cases t
  rw [← visitAll_eq_foldl]
  rfl

/-- Neither a node nor any node around it declares a friend. -/
def OutsideFriends (root : HeaderTree) (p : Place) : Prop :=
  ∀ q t, q <:+ p → root.at? q = some t → t.kind ≠ .friend

/-- All nodes are visited that are no part of the declaration of a friend. -/
def Visited (root : HeaderTree) (p : Place) : Prop :=
  (root.at? p).isSome ∧ OutsideFriends root p

theorem outsideFriends_cons {p : Place} {i : Nat} {t : HeaderTree} (hp : OutsideFriends root p)
    (h : root.at? (i :: p) = some t) (ht : t.kind ≠ .friend) : OutsideFriends root (i :: p) := by
  intro q u hq hu
  rcases List.suffix_cons_iff.mp hq with rfl | hq
  · rw [h] at hu
    cases hu
    exact ht
  · exact hp q u hq hu

open Classical in
theorem visit_eq_foldl {t : HeaderTree} {p : Place} (h : root.at? p = some t)
    (habove : t.kind ≠ .friend → OutsideFriends root p) (found : List String) :
    visit source found t =
      ((placesFrom p t).filter (Visited root)).foldl (addAt (name? source) root) found := by
  induction t using treeInduction generalizing p found with
  | node t ih =>
      rw [visit_eq]
      split
      · next hfriend =>
          rw [filter_placesFrom_eq_nil, List.foldl_nil]
          exact fun q hq hvisited => hvisited.2 p t hq h hfriend
      · next hfriend =>
          have hp := habove hfriend
          rw [foldl_placesFrom h ⟨by simp [h], hp⟩]
          intro i c hc found
          have hchild := at?_child h hc
          exact ih c (List.mem_of_getElem? hc) hchild (outsideFriends_cons hp hchild) found

theorem lists_types (source : List Char) (root : HeaderTree) :
    Lists (Visited root) (name? source) root (types source root) := by
  classical
  refine lists_of_foldl (fun _ h => h.1) (visit_eq_foldl rfl ?_ [])
  intro hroot q t hq ht
  obtain rfl := List.suffix_nil.mp hq
  cases ht
  exact hroot

end DocTransfer.Header

/-! ## Scripts -/

namespace DocTransfer.Script

open Source SourceTree Declared

variable {source : List Char} {root : ScriptTree}

/-- What becomes of a node: it is visited itself, the declaration that it exports is visited in its
place, or it is left out. -/
inductive Treatment where
  | itself
  | exported
  | leftOut

/-- What becomes of a node whose parent is visited. -/
def treat (t : ScriptTree) : Treatment :=
  if exportsDeclaration t then .exported else .itself

/-- Whether a node is a declaration for its parent. -/
def isDeclared (t : ScriptTree) : Bool :=
  t.label == some .declaration

/-- What becomes of the node at a place. Of what is directly inside an export only the declaration
that it stands for is visited, and that is not looked at as an export again. -/
def treatment (root : ScriptTree) : Place → Treatment
  | [] => treat root
  | i :: p =>
    match treatment root p with
    | .itself => ((root.rowAt p)[i]?.map treat).getD .leftOut
    | .exported => if (root.rowAt p).findIdx? isDeclared = some i then .itself else .leftOut
    | .leftOut => .leftOut

/-- All nodes are visited, but of an export with a declaration only that declaration. -/
def Visited (root : ScriptTree) (p : Place) : Prop :=
  (root.at? p).isSome ∧ treatment root p = .itself

theorem visitAll_eq_foldl (cs : List ScriptTree) (found : List String) :
    visitAll source found cs = cs.foldl (visit source) found := by
  induction cs generalizing found with
  | nil => rfl
  | cons c cs ih => exact ih (visit source found c)

theorem visit_eq (t : ScriptTree) (found : List String) :
    visit source found t =
      if exportsDeclaration t then visitExported source found t.children
      else t.children.foldl (visit source) (addSome found (name? source t)) := by
  cases t
  rw [← visitAll_eq_foldl]
  rfl

theorem visitExported_eq {cs : List ScriptTree} {d : ScriptTree} (hd : cs.find? isDeclared = some d)
    (found : List String) :
    visitExported source found cs =
      d.children.foldl (visit source) (addSome found (name? source d)) := by
  induction cs with
  | nil => simp at hd
  | cons c cs ih =>
      obtain ⟨kind, label, start, stop, children⟩ := c
      by_cases hlabel : label = some .declaration
      · rw [List.find?_cons_of_pos (by simp [isDeclared, SourceTree.label, hlabel])] at hd
        cases hd
        exact (if_pos hlabel).trans (visitAll_eq_foldl _ _)
      · rw [List.find?_cons_of_neg (by simp [isDeclared, SourceTree.label, hlabel])] at hd
        exact (if_neg hlabel).trans (ih hd)

theorem treatment_cons (root : ScriptTree) (i : Nat) (p : Place) :
    treatment root (i :: p) =
      match treatment root p with
      | .itself => ((root.rowAt p)[i]?.map treat).getD .leftOut
      | .exported => if (root.rowAt p).findIdx? isDeclared = some i then .itself else .leftOut
      | .leftOut => .leftOut := rfl

theorem treatment_child {p : Place} {t c : ScriptTree} (h : root.at? p = some t)
    (hp : treatment root p = .itself) {i : Nat} (hc : t.children[i]? = some c) :
    treatment root (i :: p) = treat c := by
  rw [treatment_cons, hp]
  simp [rowAt_of_at? h, hc]

theorem treatment_of_exported {p : Place} {t : ScriptTree} (h : root.at? p = some t)
    (hp : treatment root p = .exported) (i : Nat) :
    treatment root (i :: p) =
      if t.children.findIdx? isDeclared = some i then .itself else .leftOut := by
  rw [treatment_cons, hp]
  simp only [rowAt_of_at? h]

/-- What is inside a node that is left out is left out. -/
theorem not_visited_of_leftOut {p q : Place} (hp : treatment root p = .leftOut) (h : p <:+ q) :
    ¬ Visited root q := by
  have hleft : treatment root q = .leftOut := by
    obtain ⟨front, rfl⟩ := h
    induction front with
    | nil => exact hp
    | cons i front ih => rw [List.cons_append, treatment_cons, ih]
  simp [Visited, hleft]

open Classical in
theorem visit_eq_foldl {t : ScriptTree} {p : Place} (h : root.at? p = some t)
    (hp : treatment root p = treat t) (found : List String) :
    visit source found t =
      ((placesFrom p t).filter (Visited root)).foldl (addAt (name? source) root) found := by
  rw [visit_eq]
  split
  · next hexports =>
      rw [treat, if_pos hexports] at hp
      -- the declaration is visited, and neither the export nor what else is inside it
      obtain ⟨d, hd⟩ := Option.isSome_iff_exists.mp (Bool.and_eq_true_iff.mp hexports).2
      change t.children.find? isDeclared = some d at hd
      obtain ⟨i, hi, hdi⟩ :=
        Option.bind_eq_some_iff.mp (List.find?_eq_bind_findIdx?_getElem? ▸ hd)
      have hdeclared : treatment root (i :: p) = .itself := by
        rw [treatment_of_exported h hp, if_pos hi]
      have hleft : ∀ j, j ≠ 0 + i → ∀ q, j :: p <:+ q → ¬ Visited root q := by
        intro j hj q hq
        have hne : t.children.findIdx? isDeclared ≠ some j := by
          rw [hi, ne_eq, Option.some.injEq]
          omega
        exact not_visited_of_leftOut (by rw [treatment_of_exported h hp, if_neg hne]) hq
      have hplace := at?_child h hdi
      have hself : ¬ Visited root p := by simp [Visited, hp]
      rw [visitExported_eq hd, placesFrom_eq, List.filter_cons_of_neg (by simpa using hself),
        filter_placesInRow_eq hdi hleft, Nat.zero_add,
        foldl_placesFrom hplace ⟨by simp [hplace], hdeclared⟩]
      intro j c hc found
      have hsize : sizeOf c < sizeOf t :=
        (sizeOf_lt_of_mem_children (List.mem_of_getElem? hc)).trans
          (sizeOf_lt_of_mem_children (List.mem_of_getElem? hdi))
      exact visit_eq_foldl (at?_child hplace hc) (treatment_child hplace hdeclared hc) found
  · next hexports =>
      rw [treat, if_neg hexports] at hp
      rw [foldl_placesFrom h ⟨by simp [h], hp⟩]
      intro i c hc found
      have hsize := sizeOf_lt_of_mem_children (List.mem_of_getElem? hc)
      exact visit_eq_foldl (at?_child h hc) (treatment_child h hp hc) found
termination_by sizeOf t

theorem lists_types (source : List Char) (root : ScriptTree) :
    Lists (Visited root) (name? source) root (types source root) := by
  classical
  exact lists_of_foldl (fun _ h => h.1) (visit_eq_foldl rfl rfl [])

end DocTransfer.Script

/-! ## All grammars -/

namespace DocTransfer.Declared

/-- For each grammar the types declared in a tree are the set of the names that its visited nodes
offer, in the order of a walk. In a header no part of the declaration of a friend is visited, and a
specifier offers a name only if it has a body; in a script an export with a declaration stands for
this declaration. -/
theorem types_list_candidates (source : List Char) :
    (∀ root, Lists (Header.Visited root) (Header.name? source) root (Header.types source root)) ∧
      (∀ root, Lists (Sharp.Visited root) (Sharp.name? source) root (Sharp.types source root)) ∧
      (∀ root,
        Lists (Script.Visited root) (Script.name? source) root (Script.types source root)) ∧
      ∀ (t : Header.HeaderTree) (k : Header.Keyword), t.kind = .specifier k →
        (Header.name? source t).isSome → (t.part? .body).isSome := by
  refine ⟨Header.lists_types source, Sharp.lists_types source, Script.lists_types source, ?_⟩
  intro t k hkind hname
  rw [Header.name?, hkind] at hname
  cases hbody : t.part? .body with
  | none => simp [Header.specifierName?, hbody] at hname
  | some body => rfl

end DocTransfer.Declared
