import DocTransfer.Proofs.Javadoc.Rows
import DocTransfer.Proofs.Source.Place
import Mathlib.Data.List.Forall2
import Mathlib.Data.List.Nodup

/-! # Places of declarations

What a forest holds can be told by the place of its declaration. The comment that documents it is
then the one right before that place, and the same comment stands right before no other. -/

namespace DocTransfer.Javadoc

open Source SourceTree

/-! ## The comment before a declaration -/

/-- The index of the nearest named node before an index of a row. -/
def nearestBefore? (row : List JavaTree) : Nat → Option Nat
  | 0 => none
  | j + 1 => if (row[j]?).any (·.kind.isNamed) then some j else nearestBefore? row j

/-- The nearest named node before an index of a row. -/
def previousAt (row : List JavaTree) (j : Nat) : Option JavaTree :=
  (nearestBefore? row j).bind (row[·]?)

theorem nearest_previousAt {row : List JavaTree} {j : Nat} {t : JavaTree} (h : row[j]? = some t) :
    nearest (previousAt row j) t = previousAt row (j + 1) := by
  rw [previousAt, previousAt, nearest, nearestBefore?, h, Option.any_some]
  split
  · rw [Option.bind_some, h]
  · rfl

/-- Between a node and the nearest named one before it there is no other named node. -/
theorem nearestBefore?_eq_some {row : List JavaTree} {i j : Nat}
    (h : nearestBefore? row j = some i) :
    i < j ∧ ∀ k t, i < k → k < j → row[k]? = some t → t.kind.isNamed = false := by
  induction j with
  | zero => simp [nearestBefore?] at h
  | succ j ih =>
      rw [nearestBefore?] at h
      split at h
      · cases h
        exact ⟨by omega, by omega⟩
      · next hunnamed =>
          obtain ⟨hlt, hbetween⟩ := ih h
          refine ⟨by omega, ?_⟩
          intro k t hik hkj ht
          obtain rfl | hkj : k = j ∨ k < j := by omega
          · simpa [ht] using hunnamed
          · exact hbetween k t hik hkj ht

/-- Two named nodes with the same nearest named node before them are one. -/
theorem eq_of_nearestBefore? {row : List JavaTree} {i j k : Nat} {t u : JavaTree}
    (hj : nearestBefore? row j = some i) (hk : nearestBefore? row k = some i)
    (ht : row[j]? = some t) (hu : row[k]? = some u) (htn : t.kind.isNamed = true)
    (hun : u.kind.isNamed = true) : j = k := by
  obtain ⟨hij, hbeforej⟩ := nearestBefore?_eq_some hj
  obtain ⟨hik, hbeforek⟩ := nearestBefore?_eq_some hk
  rcases Nat.lt_trichotomy j k with hlt | heq | hlt
  · rw [hbeforek j t hij hlt ht] at htn
    cases htn
  · exact heq
  · rw [hbeforej k u hik hlt hu] at hun
    cases hun

/-- The place of the comment that documents what is declared at a place. -/
def commentOf? (source : List Char) (root : JavaTree) : Place → Option Place
  | [] => none
  | j :: p =>
    ((nearestBefore? (root.rowAt p) j).filter
      fun i => ((root.rowAt p)[i]?).any (isDocComment source)).map (· :: p)

/-- The documentation of what is declared at a place. -/
def docAt (source : List Char) (root : JavaTree) (q : Place) : List Char :=
  (((commentOf? source root q).bind root.at?).map (·.text source)).getD []

variable {source : List Char} {root : JavaTree}

theorem docOf_previousAt (source : List Char) (root : JavaTree) (p : Place) (j : Nat) :
    docOf source (previousAt (root.rowAt p) j) = docAt source root (j :: p) := by
  rw [docOf_eq, docAt, commentOf?, previousAt]
  cases hbefore : nearestBefore? (root.rowAt p) j with
  | none => rfl
  | some i =>
      cases ht : (root.rowAt p)[i]? with
      | none => simp [ht, Option.filter_some]
      | some t =>
          by_cases hdoc : isDocComment source t
          · simp [ht, hdoc, at?_cons, Option.filter_some]
          · simp [ht, hdoc, Option.filter_some]

theorem commentOf?_eq_some {q c : Place} (h : commentOf? source root q = some c) :
    ∃ t, root.at? c = some t ∧ isDocComment source t = true := by
  cases q with
  | nil => cases h
  | cons j p =>
      obtain ⟨i, hi, rfl⟩ := Option.map_eq_some_iff.mp h
      obtain ⟨-, hdoc⟩ := Option.filter_eq_some_iff.mp hi
      rw [at?_cons]
      cases ht : (root.rowAt p)[i]? with
      | none => simp [ht] at hdoc
      | some t => exact ⟨t, rfl, by simpa [ht] using hdoc⟩

/-- A comment stands right before one named node at most. -/
theorem commentOf?_injective {q q' c : Place} {t t' : JavaTree}
    (h : commentOf? source root q = some c) (h' : commentOf? source root q' = some c)
    (ht : root.at? q = some t) (ht' : root.at? q' = some t') (hn : t.kind.isNamed = true)
    (hn' : t'.kind.isNamed = true) : q = q' := by
  cases q with
  | nil => cases h
  | cons j p =>
      cases q' with
      | nil => cases h'
      | cons k p' =>
          obtain ⟨i, hi, rfl⟩ := Option.map_eq_some_iff.mp h
          obtain ⟨i', hi', heq⟩ := Option.map_eq_some_iff.mp h'
          obtain ⟨rfl, rfl⟩ := List.cons.inj heq
          rw [at?_cons] at ht ht'
          obtain ⟨hbefore, -⟩ := Option.filter_eq_some_iff.mp hi
          obtain ⟨hbefore', -⟩ := Option.filter_eq_some_iff.mp hi'
          rw [eq_of_nearestBefore? hbefore hbefore' ht ht' hn hn']

/-! ## What a forest documents -/

/-- Something that a forest may hold documentation of. -/
inductive Entry where
  | type (t : JavaType)
  | member (m : JavaMember)
  | constant (c : JavaConstant)

def Entry.javadoc : Entry → String
  | .type t => t.javadoc
  | .member m => m.javadoc
  | .constant c => c.javadoc

/-- A type, its members and its constants, without the types inside it. -/
def ownEntries (t : JavaType) : List Entry :=
  .type t :: (t.members.map .member ++ (t.constants.getD []).map .constant)

/-- The entries of a forest at all depths. -/
def entries (forest : List JavaType) : List Entry :=
  (JavaType.walkAll forest).flatMap ownEntries

/-- A node declares what an entry is about. -/
def Declares (source : List Char) (node : JavaTree) : Entry → Prop
  | .type t => node.kind = .typeDeclaration t.kind ∧
      ∃ name, nameNode? node = some name ∧ t.simpleName = String.ofList (name.text source)
  | .member m => node.kind.isMember = true ∧ m.signature = String.ofList (signature source node)
  | .constant _ => node.kind = .enumConstant

theorem Declares.isNamed {node : JavaTree} {e : Entry} (h : Declares source node e) :
    node.kind.isNamed = true := by
  cases e with
  | type t => rw [h.1]; rfl
  | member m =>
      have hmember := h.1
      cases hkind : node.kind <;> simp_all [Kind.isMember, Kind.isNamed]
  | constant c =>
      have hconstant : node.kind = .enumConstant := h
      rw [hconstant]
      rfl

/-- An entry is declared at a place and documented by the comment before it, if there is one. -/
def DeclaredAt (source : List Char) (root : JavaTree) (e : Entry) (q : Place) : Prop :=
  ∃ node, root.at? q = some node ∧ Declares source node e ∧
    e.javadoc = String.ofList (docAt source root q)

@[simp] theorem entries_nil : entries [] = [] := by
  simp [entries, JavaType.walkAll]

theorem entries_append (forest more : List JavaType) :
    entries (forest ++ more) = entries forest ++ entries more := by
  simp only [entries, JavaType.walkAll_eq_flatMap, List.flatMap_append]

theorem entries_singleton (t : JavaType) : entries [t] = ownEntries t ++ entries t.nested := by
  simp [entries, JavaType.walkAll, JavaType.walk_eq]

/-! ## Places of their own -/

/-- Entries have places of their own in a region. -/
def Placed (source : List Char) (root : JavaTree) (es : List Entry) (region : Place → Prop) : Prop :=
  ∃ places, List.Forall₂ (DeclaredAt source root) es places ∧ places.Nodup ∧
    ∀ q ∈ places, region q

variable {es es' : List Entry} {region region' : Place → Prop}

theorem Placed.nil : Placed source root [] region :=
  ⟨[], .nil, .nil, by simp⟩

theorem Placed.single {e : Entry} {q : Place} (h : DeclaredAt source root e q) :
    Placed source root [e] (· = q) :=
  ⟨[q], .cons h .nil, by simp, by simp⟩

theorem Placed.mono (h : Placed source root es region) (hmono : ∀ q, region q → region' q) :
    Placed source root es region' := by
  obtain ⟨places, hdeclared, hnodup, hregion⟩ := h
  exact ⟨places, hdeclared, hnodup, fun q hq => hmono q (hregion q hq)⟩

theorem Placed.append (h : Placed source root es region) (h' : Placed source root es' region')
    (hapart : ∀ q, region q → ¬ region' q) :
    Placed source root (es ++ es') fun q => region q ∨ region' q := by
  obtain ⟨places, hdeclared, hnodup, hregion⟩ := h
  obtain ⟨places', hdeclared', hnodup', hregion'⟩ := h'
  refine ⟨places ++ places', List.rel_append hdeclared hdeclared', ?_, ?_⟩
  · refine List.Nodup.append hnodup hnodup' ?_
    intro q hq hq'
    exact hapart q (hregion q hq) (hregion' q hq')
  · intro q hq
    exact (List.mem_append.mp hq).imp (hregion q) (hregion' q)

/-! ## Rows -/

/-- The places at and below the nodes of certain kinds in the row at a place. -/
def Inside (root : JavaTree) (p : Place) (kinds : Kind → Prop) (q : Place) : Prop :=
  ∃ i t, (root.rowAt p)[i]? = some t ∧ kinds t.kind ∧ (i :: p) <:+ q

theorem eq_of_cons_suffix {i j : Nat} {p q : Place} (hi : (i :: p) <:+ q) (hj : (j :: p) <:+ q) :
    i = j :=
  (List.cons.inj ((List.suffix_of_suffix_length_le hi hj (by simp)).eq_of_length (by simp))).1

/-- A place is at or below one node of a row only. -/
theorem Inside.apart {p q : Place} {kinds kinds' : Kind → Prop} (h : Inside root p kinds q)
    (hkinds : ∀ k, kinds k → ¬ kinds' k) : ¬ Inside root p kinds' q := by
  rintro ⟨j, u, hu, hkind', hj⟩
  obtain ⟨i, t, ht, hkind, hi⟩ := h
  obtain rfl := eq_of_cons_suffix hi hj
  rw [ht] at hu
  cases hu
  exact hkinds _ hkind hkind'

/-- What is inside a node of a row is also inside the row. -/
theorem Inside.outward {i : Nat} {p q : Place} {kinds kinds' : Kind → Prop}
    (h : Inside root (i :: p) kinds' q)
    (hkinds : ∀ t, (root.rowAt p)[i]? = some t → kinds t.kind) : Inside root p kinds q := by
  obtain ⟨k, u, hu, -, hsuffix⟩ := h
  rw [← at?_cons] at hu
  obtain ⟨t, ht, -⟩ := at?_of_at?_cons hu
  rw [at?_cons] at ht
  exact ⟨i, t, ht, hkinds t ht, (List.suffix_cons k (i :: p)).trans hsuffix⟩

/-- Entries that come from the nodes of a row, each from one of them, have places of their own if
those of each node do. The induction is over the part of the row that is still to come. -/
theorem placed_row {p : Place} {kinds : Kind → Prop}
    (found : Option JavaTree → JavaTree → List Entry)
    (h : ∀ j t, (root.rowAt p)[j]? = some t →
      Placed source root (found (previousAt (root.rowAt p) j) t)
        fun q => kinds t.kind ∧ (j :: p) <:+ q) :
    Placed source root
      ((withPrevious none (root.rowAt p)).flatMap fun (previous, t) => found previous t)
      (Inside root p kinds) := by
  have hpart : ∀ rest front, root.rowAt p = front ++ rest →
      Placed source root
        ((withPrevious (previousAt (root.rowAt p) front.length) rest).flatMap
          fun (previous, t) => found previous t)
        fun q => ∃ j t, front.length ≤ j ∧ (root.rowAt p)[j]? = some t ∧ kinds t.kind ∧
          (j :: p) <:+ q := by
    intro rest
    induction rest with
    | nil =>
        intro front _
        exact .nil
    | cons t rest ih =>
        intro front hrow
        have ht : (root.rowAt p)[front.length]? = some t := by
          rw [hrow]
          simp
        have hmore := ih (front ++ [t]) (by rw [hrow]; simp)
        rw [List.length_append, List.length_singleton, ← nearest_previousAt ht] at hmore
        rw [withPrevious, List.flatMap_cons]
        refine ((h front.length t ht).append hmore ?_).mono ?_
        · rintro q ⟨-, hfirst⟩ ⟨j, u, hj, -, -, hlater⟩
          have heq := eq_of_cons_suffix hfirst hlater
          omega
        · rintro q (⟨hkind, hq⟩ | ⟨j, u, hj, hu, hkind, hq⟩)
          · exact ⟨front.length, t, Nat.le_refl _, ht, hkind, hq⟩
          · exact ⟨j, u, by omega, hu, hkind, hq⟩
  refine (hpart (root.rowAt p) [] rfl).mono ?_
  rintro q ⟨j, t, -, ht, hkind, hq⟩
  exact ⟨j, t, ht, hkind, hq⟩

/-- The same for nodes that give one entry each, or none. -/
theorem placed_filterMap {α : Type} {p : Place} {kinds : Kind → Prop}
    {find : Option JavaTree → JavaTree → Option α} {entry : α → Entry}
    (h : ∀ j t a, (root.rowAt p)[j]? = some t → find (previousAt (root.rowAt p) j) t = some a →
      kinds t.kind ∧ DeclaredAt source root (entry a) (j :: p)) :
    Placed source root
      (((withPrevious none (root.rowAt p)).filterMap fun (previous, t) => find previous t).map entry)
      (Inside root p kinds) := by
  rw [List.filterMap_eq_flatMap_toList, List.map_flatMap]
  refine placed_row (fun previous t => (find previous t).toList.map entry) fun j t ht => ?_
  cases hfound : find (previousAt (root.rowAt p) j) t with
  | none => exact .nil
  | some a =>
      obtain ⟨hkind, hdeclared⟩ := h j t a ht hfound
      refine (Placed.single hdeclared).mono ?_
      rintro q rfl
      exact ⟨hkind, List.suffix_refl _⟩

end DocTransfer.Javadoc
