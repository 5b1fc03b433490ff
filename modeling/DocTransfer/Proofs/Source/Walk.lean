import DocTransfer.Proofs.Source.Place
import Mathlib.Data.List.Lex

/-! # The order of a walk

A walk comes to a node, then to what is inside it, and then to what follows. This is the order of
the indices that lead to the nodes from the root. -/

namespace DocTransfer.Source

/-- Whether a walk comes to one place before another. -/
def Precedes (p q : Place) : Prop :=
  p.reverse < q.reverse

/-- The places that satisfy a condition, each once and in the order of a walk. -/
structure Preordered (visited : Place → Prop) (places : List Place) : Prop where
  mem_iff : ∀ p, p ∈ places ↔ visited p
  ascending : places.Pairwise Precedes

namespace SourceTree

variable {κ : Type}

theorem sizeOf_lt_of_mem_children [SizeOf κ] {t c : SourceTree κ} (h : c ∈ t.children) :
    sizeOf c < sizeOf t := by
  obtain ⟨kind, label, start, stop, children⟩ := t
  have hmem : sizeOf c < sizeOf children := List.sizeOf_lt_of_mem h
  simp only [node.sizeOf_spec]
  omega

/-- What passes from the nodes inside a node to this node holds of all nodes. -/
@[elab_as_elim]
theorem treeInduction {motive : SourceTree κ → Prop}
    (node : ∀ t, (∀ c ∈ t.children, motive c) → motive t) (t : SourceTree κ) : motive t := by
  apply node
  intro c hc
  have hsize := sizeOf_lt_of_mem_children hc
  exact treeInduction node c
termination_by sizeOf t

/-! ## Places inside a node -/

theorem placesFrom_eq (p : Place) (t : SourceTree κ) :
    placesFrom p t = p :: placesInRow p 0 t.children := by
  cases t
  rw [placesFrom, children]

theorem placesInRow_eq (p : Place) (i : Nat) (cs : List (SourceTree κ)) :
    placesInRow p i cs = (cs.zipIdx i).flatMap fun (c, j) => placesFrom (j :: p) c := by
  induction cs generalizing i with
  | nil => rw [placesInRow, List.zipIdx_nil, List.flatMap_nil]
  | cons c cs ih => rw [placesInRow, List.zipIdx_cons, List.flatMap_cons, ih]

theorem suffix_of_mem_placesFrom {p q : Place} {t : SourceTree κ} (h : q ∈ placesFrom p t) :
    p <:+ q := by
  induction t using treeInduction generalizing p with
  | node t ih =>
      rw [placesFrom_eq, List.mem_cons, placesInRow_eq, List.mem_flatMap] at h
      rcases h with rfl | ⟨⟨c, j⟩, hc, hq⟩
      · exact List.suffix_refl q
      · have hchild : c ∈ t.children := (List.mem_zipIdx hc).2.2 ▸ List.getElem_mem _
        exact (List.suffix_cons j p).trans (ih c hchild hq)

theorem precedes_of_suffix {p q : Place} {i : Nat} (h : i :: p <:+ q) : Precedes p q := by
  obtain ⟨front, rfl⟩ := h
  have hreverse : (front ++ i :: p).reverse = p.reverse ++ i :: front.reverse := by simp
  have hlt : List.Lex (· < ·) [] (i :: front.reverse) := .nil
  have happend := hlt.append_left (· < ·) p.reverse
  rwa [List.append_nil, ← hreverse] at happend

theorem precedes_of_lt {p q r : Place} {i j : Nat} (hij : i < j) (hq : i :: p <:+ q)
    (hr : j :: p <:+ r) : Precedes q r := by
  obtain ⟨front, rfl⟩ := hq
  obtain ⟨front', rfl⟩ := hr
  rw [Precedes, List.reverse_append, List.reverse_append, List.reverse_cons, List.reverse_cons,
    List.append_assoc, List.append_assoc]
  exact List.Lex.append_left (· < ·) (.rel hij) p.reverse

/-- The places of a tree are listed in the order of a walk. -/
theorem pairwise_placesFrom (p : Place) (t : SourceTree κ) :
    (placesFrom p t).Pairwise Precedes := by
  induction t using treeInduction generalizing p with
  | node t ih =>
      rw [placesFrom_eq, placesInRow_eq]
      refine List.pairwise_cons.mpr ⟨?_, List.pairwise_flatMap.mpr ⟨?_, ?_⟩⟩
      · intro q hq
        obtain ⟨⟨c, i⟩, -, hq⟩ := List.mem_flatMap.mp hq
        exact precedes_of_suffix (suffix_of_mem_placesFrom hq)
      · rintro ⟨c, i⟩ hc
        exact ih c (List.fst_mem_of_mem_zipIdx hc) (i :: p)
      · have hindices : t.children.zipIdx.Pairwise fun a b => a.2 < b.2 := by
          rw [← List.pairwise_map (f := Prod.snd), List.zipIdx_map_snd]
          exact List.pairwise_lt_range'
        refine hindices.imp ?_
        intro a b hlt q hq r hr
        exact precedes_of_lt hlt (suffix_of_mem_placesFrom hq) (suffix_of_mem_placesFrom hr)

/-! ## Visited places -/

theorem at?_child {root t c : SourceTree κ} {p : Place} (h : root.at? p = some t) {i : Nat}
    (hc : t.children[i]? = some c) : root.at? (i :: p) = some c := by
  rw [at?_cons, rowAt_of_at? h, hc]

section

variable {visited : Place → Prop} [DecidablePred visited] {p : Place} {t : SourceTree κ}

/-- Those places of a tree that are visited are in the order of a walk. -/
theorem preordered_filter (root : SourceTree κ) (h : ∀ p, visited p → (root.at? p).isSome) :
    Preordered visited ((placesFrom [] root).filter visited) := by
  refine ⟨?_, (pairwise_placesFrom [] root).filter _⟩
  intro p
  rw [List.mem_filter, decide_eq_true_eq]
  refine ⟨And.right, fun hp => ⟨?_, hp⟩⟩
  obtain ⟨t, ht⟩ := Option.isSome_iff_exists.mp (h p hp)
  exact mem_placesFrom_nil ht

/-- A row is gone through node by node, if each node is gone through by its visited places. -/
theorem foldl_filter_placesInRow {β : Type} {visit : β → SourceTree κ → β} {step : β → Place → β}
    {cs : List (SourceTree κ)} {i : Nat}
    (h : ∀ k c, cs[k]? = some c → ∀ found,
      visit found c = ((placesFrom ((i + k) :: p) c).filter visited).foldl step found)
    (found : β) :
    cs.foldl visit found = ((placesInRow p i cs).filter visited).foldl step found := by
  induction cs generalizing i found with
  | nil => rw [placesInRow]; rfl
  | cons c cs ih =>
      rw [placesInRow, List.filter_append, List.foldl_append, List.foldl_cons, h 0 c rfl]
      refine ih ?_ _
      intro k d hd found
      rw [h (k + 1) d hd, Nat.add_right_comm, Nat.add_assoc]

theorem filter_placesFrom_eq_nil (h : ∀ q, p <:+ q → ¬ visited q) :
    (placesFrom p t).filter visited = [] := by
  apply List.filter_eq_nil_iff.mpr
  intro q hq
  simpa using h q (suffix_of_mem_placesFrom hq)

/-- Where a single node of a row is gone through, the others do not count. -/
theorem filter_placesInRow_eq {cs : List (SourceTree κ)} {i k : Nat} {c : SourceTree κ}
    (hc : cs[i]? = some c) (h : ∀ j, j ≠ k + i → ∀ q, j :: p <:+ q → ¬ visited q) :
    (placesInRow p k cs).filter visited = (placesFrom ((k + i) :: p) c).filter visited := by
  induction cs generalizing i k with
  | nil => simp at hc
  | cons d cs ih =>
      rw [placesInRow, List.filter_append]
      cases i with
      | zero =>
          have hrest : (placesInRow p (k + 1) cs).filter visited = [] := by
            rw [placesInRow_eq, List.filter_flatMap, List.flatMap_eq_nil_iff]
            rintro ⟨e, j⟩ he
            refine filter_placesFrom_eq_nil (h j ?_)
            have hj := (List.mem_zipIdx he).1
            omega
          cases hc
          rw [hrest, List.append_nil, Nat.add_zero]
      | succ i =>
          rw [filter_placesFrom_eq_nil (h k (by omega)), List.nil_append,
            ih (by simpa using hc) (by rwa [Nat.add_right_comm, Nat.add_assoc]), Nat.add_right_comm,
            Nat.add_assoc]

end

end SourceTree

end DocTransfer.Source
