import DocTransfer.Source.Tree
import Mathlib.Data.List.Perm.Subperm

/-! # Places in a tree

Two nodes of a tree may be equal, so a node is told by where it stands. -/

namespace DocTransfer.Source

/-- Where a node stands: its index among its siblings, followed by the place of its parent. The root
stands at the empty place. -/
abbrev Place := List Nat

namespace SourceTree

variable {κ : Type}

/-- The node at a place. -/
def at? (root : SourceTree κ) : Place → Option (SourceTree κ)
  | [] => some root
  | i :: p => (at? root p).bind (·.children[i]?)

/-- The row of nodes inside the node at a place. -/
def rowAt (root : SourceTree κ) (p : Place) : List (SourceTree κ) :=
  ((root.at? p).map children).getD []

variable {root t : SourceTree κ} {p : Place}

theorem at?_cons (root : SourceTree κ) (i : Nat) (p : Place) :
    root.at? (i :: p) = (root.rowAt p)[i]? := by
  rw [at?, rowAt]
  cases root.at? p <;> simp

theorem rowAt_of_at? (h : root.at? p = some t) : root.rowAt p = t.children := by
  rw [rowAt, h, Option.map_some, Option.getD_some]

theorem rowAt_of_at?_none (h : root.at? p = none) : root.rowAt p = [] := by
  rw [rowAt, h, Option.map_none, Option.getD_none]

/-- What has a place of its own inside a row also has the node of the row around it. -/
theorem at?_of_at?_cons {i : Nat} (h : root.at? (i :: p) = some t) :
    ∃ parent, root.at? p = some parent ∧ parent.children[i]? = some t := by
  rw [at?] at h
  exact Option.bind_eq_some_iff.mp h

/-! ## All places -/

mutual

/-- The places of a node and of everything inside it, each node before its children. -/
def placesFrom (p : Place) : SourceTree κ → List Place
  | .node _ _ _ _ cs => p :: placesInRow p 0 cs

/-- The places of everything in the part of a row that begins with an index. -/
def placesInRow (p : Place) : Nat → List (SourceTree κ) → List Place
  | _, [] => []
  | i, c :: cs => placesFrom (i :: p) c ++ placesInRow p (i + 1) cs

end

mutual

/-- The nodes at the places of a tree, in order. -/
theorem map_at?_placesFrom : (t : SourceTree κ) → {p : Place} → root.at? p = some t →
    (placesFrom p t).map root.at? = t.preorder.map some
  | .node k l a b cs, p, h => by
      have hrow : (placesInRow p 0 cs).map root.at? = (preorderAll cs).map some :=
        map_at?_placesInRow cs [] (rowAt_of_at? h)
      rw [placesFrom, preorder, List.map_cons, List.map_cons, h, hrow]

theorem map_at?_placesInRow : (cs front : List (SourceTree κ)) → {p : Place} →
    root.rowAt p = front ++ cs →
    (placesInRow p front.length cs).map root.at? = (preorderAll cs).map some
  | [], front, p, h => by rw [placesInRow, preorderAll]; rfl
  | c :: cs, front, p, h => by
      have hfirst : root.at? (front.length :: p) = some c := by
        rw [at?_cons, h]
        simp
      have hrest : root.rowAt p = (front ++ [c]) ++ cs := by
        rw [h]
        simp
      have hmore := map_at?_placesInRow cs (front ++ [c]) hrest
      rw [List.length_append, List.length_singleton] at hmore
      rw [placesInRow, preorderAll, List.map_append, List.map_append,
        map_at?_placesFrom c hfirst, hmore]

end

theorem mem_placesFrom_self (p : Place) (t : SourceTree κ) : p ∈ placesFrom p t := by
  cases t
  simp [placesFrom]

theorem mem_placesInRow {cs : List (SourceTree κ)} {k : Nat} {c : SourceTree κ} (p : Place)
    (i : Nat) (h : cs[k]? = some c) : (i + k) :: p ∈ placesInRow p i cs := by
  induction cs generalizing i k with
  | nil => simp at h
  | cons d cs ih =>
      rw [placesInRow, List.mem_append]
      cases k with
      | zero => exact .inl (mem_placesFrom_self _ d)
      | succ k =>
          have hrest := ih (i + 1) (by simpa using h)
          rw [Nat.add_right_comm] at hrest
          exact .inr hrest

mutual

/-- With a place, its children's places are among the places of a tree. -/
theorem mem_placesFrom_cons {q : Place} {i : Nat} {u c : SourceTree κ} (hq : root.at? q = some u)
    (hc : u.children[i]? = some c) : (t : SourceTree κ) → {p : Place} → root.at? p = some t →
    q ∈ placesFrom p t → i :: q ∈ placesFrom p t
  | .node k l a b cs, p, h, hmem => by
      rw [placesFrom, List.mem_cons] at hmem ⊢
      rcases hmem with rfl | hmem
      · rw [h] at hq
        cases hq
        have hchild := mem_placesInRow q 0 hc
        rw [Nat.zero_add] at hchild
        exact .inr hchild
      · exact .inr (mem_placesInRow_cons hq hc cs [] (rowAt_of_at? h) hmem)

theorem mem_placesInRow_cons {q : Place} {i : Nat} {u c : SourceTree κ} (hq : root.at? q = some u)
    (hc : u.children[i]? = some c) : (cs front : List (SourceTree κ)) → {p : Place} →
    root.rowAt p = front ++ cs → q ∈ placesInRow p front.length cs →
    i :: q ∈ placesInRow p front.length cs
  | [], front, p, h, hmem => by simp [placesInRow] at hmem
  | d :: cs, front, p, h, hmem => by
      have hfirst : root.at? (front.length :: p) = some d := by
        rw [at?_cons, h]
        simp
      have hrest : root.rowAt p = (front ++ [d]) ++ cs := by
        rw [h]
        simp
      rw [placesInRow, List.mem_append] at hmem ⊢
      rcases hmem with hmem | hmem
      · exact .inl (mem_placesFrom_cons hq hc d hfirst hmem)
      · have hmore := mem_placesInRow_cons hq hc cs (front ++ [d]) hrest
        rw [List.length_append, List.length_singleton] at hmore
        exact .inr (hmore hmem)

end

theorem mem_placesFrom_nil {q : Place} (h : root.at? q = some t) : q ∈ placesFrom [] root := by
  induction q generalizing t with
  | nil => exact mem_placesFrom_self [] root
  | cons i q ih =>
      obtain ⟨parent, hparent, hchild⟩ := at?_of_at?_cons h
      exact mem_placesFrom_cons hparent hchild root rfl (ih hparent)

/-- There are no more distinct places with a property than nodes that have it. -/
theorem length_le_countP {places : List Place} {isWanted : SourceTree κ → Bool}
    (hnodup : places.Nodup) (h : ∀ q ∈ places, ∃ t, root.at? q = some t ∧ isWanted t = true) :
    places.length ≤ root.preorder.countP isWanted := by
  have hsubset : places ⊆ (placesFrom [] root).filter fun q => (root.at? q).any isWanted := by
    intro q hq
    obtain ⟨t, ht, hwanted⟩ := h q hq
    exact List.mem_filter.mpr ⟨mem_placesFrom_nil ht, by simp [ht, hwanted]⟩
  calc places.length
      ≤ ((placesFrom [] root).filter fun q => (root.at? q).any isWanted).length :=
        (hnodup.subperm hsubset).length_le
    _ = ((placesFrom [] root).map root.at?).countP (Option.any isWanted) := by
        rw [← List.countP_eq_length_filter, List.countP_map]
        rfl
    _ = root.preorder.countP isWanted := by
        rw [map_at?_placesFrom root rfl, List.countP_map]
        rfl

end SourceTree

end DocTransfer.Source
