import DocTransfer.Proofs.Javadoc.Rows
import Mathlib.Data.List.Basic

/-! # Depth-first order

A type in a forest has an address: its place in the top row or, after the address of the type around
it, its place there. In the order of addresses a type comes before those inside it, and these come
before all that follows it. A walk lists all types of a forest in this order. -/

namespace DocTransfer.JavaType

/-- The type at an address. -/
def typeAt? : List JavaType → List Nat → Option JavaType
  | _, [] => none
  | forest, i :: address =>
    forest[i]?.bind fun t => if address = [] then some t else typeAt? t.nested address

/-- All types of a forest, at any depth, in the order of their addresses. -/
def DepthFirst (forest types : List JavaType) : Prop :=
  ∃ addresses : List (List Nat),
    addresses.Pairwise (· < ·) ∧
    addresses.map (typeAt? forest) = types.map some ∧
    ∀ address, (typeAt? forest address).isSome → address ∈ addresses

theorem sizeOf_nested_lt (t : JavaType) : sizeOf t.nested < sizeOf t := by
  cases t
  simp only [nested, mk.sizeOf_spec]
  omega

/-- What passes from the forests inside the types of a row to this row holds of all forests. -/
theorem forestInduction {motive : List JavaType → Prop}
    (row : ∀ forest, (∀ t ∈ forest, motive t.nested) → motive forest) (forest : List JavaType) :
    motive forest := by
  apply row
  intro t ht
  have hnode := List.sizeOf_lt_of_mem ht
  have hnested := sizeOf_nested_lt t
  exact forestInduction row t.nested
termination_by sizeOf forest

/-! ## The addresses of a row -/

theorem ne_nil_of_typeAt?_isSome {forest : List JavaType} {address : List Nat}
    (h : (typeAt? forest address).isSome) : address ≠ [] := by
  rintro rfl
  simp [typeAt?] at h

theorem typeAt?_inside {forest : List JavaType} {i : Nat} {t : JavaType} (ht : forest[i]? = some t)
    {address : List Nat} (h : address ≠ []) :
    typeAt? forest (i :: address) = typeAt? t.nested address := by
  simp [typeAt?, ht, h]

/-- The addresses of a type in a row and of the types inside it, by their addresses there. -/
def addressesAt (i : Nat) (inside : List (List Nat)) : List (List Nat) :=
  [i] :: inside.map (i :: ·)

theorem pairwise_addressesAt (i : Nat) {inside : List (List Nat)} (h : inside.Pairwise (· < ·))
    (hne : ∀ address ∈ inside, address ≠ []) : (addressesAt i inside).Pairwise (· < ·) := by
  refine List.pairwise_cons.mpr ⟨?_, ?_⟩
  · rintro _ hmem
    obtain ⟨address, haddress, rfl⟩ := List.mem_map.mp hmem
    obtain ⟨j, address, rfl⟩ := List.exists_cons_of_ne_nil (hne address haddress)
    simp
  · refine List.pairwise_map.mpr (h.imp ?_)
    intro a b hlt
    simpa using hlt

theorem exists_cons_of_mem_addressesAt {i : Nat} {inside : List (List Nat)} {address : List Nat}
    (h : address ∈ addressesAt i inside) : ∃ rest, address = i :: rest := by
  obtain rfl | h := List.mem_cons.mp h
  · exact ⟨[], rfl⟩
  · obtain ⟨rest, -, rfl⟩ := List.mem_map.mp h
    exact ⟨rest, rfl⟩

theorem map_typeAt?_addressesAt {forest : List JavaType} {i : Nat} {t : JavaType}
    (ht : forest[i]? = some t) {inside : List (List Nat)}
    (h : inside.map (typeAt? t.nested) = (walkAll t.nested).map some)
    (hne : ∀ address ∈ inside, address ≠ []) :
    (addressesAt i inside).map (typeAt? forest) = t.walk.map some := by
  have hinside : (inside.map (i :: ·)).map (typeAt? forest) = inside.map (typeAt? t.nested) := by
    rw [List.map_map]
    exact List.map_congr_left fun address haddress => typeAt?_inside ht (hne address haddress)
  rw [addressesAt, List.map_cons, hinside, h, walk_eq, List.map_cons]
  simp [typeAt?, ht]

/-- The addresses of a whole row. -/
def rowAddresses (forest : List JavaType) (inside : JavaType → List (List Nat)) :
    List (List Nat) :=
  forest.zipIdx.flatMap fun (t, i) => addressesAt i (inside t)

section Row

variable {forest : List JavaType} {inside : JavaType → List (List Nat)}

theorem pairwise_rowAddresses (h : ∀ t ∈ forest, (inside t).Pairwise (· < ·))
    (hne : ∀ t ∈ forest, ∀ address ∈ inside t, address ≠ []) :
    (rowAddresses forest inside).Pairwise (· < ·) := by
  refine List.pairwise_flatMap.mpr ⟨?_, ?_⟩
  · rintro ⟨t, i⟩ hplace
    have ht := List.mem_of_getElem? (List.mem_zipIdx_iff_getElem?.mp hplace)
    exact pairwise_addressesAt i (h t ht) (hne t ht)
  · have hplaces : forest.zipIdx.Pairwise fun p q => p.2 < q.2 := by
      rw [← List.pairwise_map (f := Prod.snd), List.zipIdx_map_snd]
      exact List.pairwise_lt_range'
    refine hplaces.imp ?_
    intro p q hlt a ha b hb
    obtain ⟨_, rfl⟩ := exists_cons_of_mem_addressesAt ha
    obtain ⟨_, rfl⟩ := exists_cons_of_mem_addressesAt hb
    exact List.cons_lt_cons_iff.mpr (.inl hlt)

theorem map_typeAt?_rowAddresses
    (h : ∀ t ∈ forest, (inside t).map (typeAt? t.nested) = (walkAll t.nested).map some)
    (hne : ∀ t ∈ forest, ∀ address ∈ inside t, address ≠ []) :
    (rowAddresses forest inside).map (typeAt? forest) = (walkAll forest).map some := by
  have hrow : (rowAddresses forest inside).map (typeAt? forest) =
      forest.zipIdx.flatMap fun p => p.1.walk.map some := by
    rw [rowAddresses, List.map_flatMap]
    refine List.flatMap_congr ?_
    rintro ⟨t, i⟩ hplace
    have hi := List.mem_zipIdx_iff_getElem?.mp hplace
    have ht := List.mem_of_getElem? hi
    exact map_typeAt?_addressesAt hi (h t ht) (hne t ht)
  rw [hrow, walkAll_eq_flatMap, List.map_flatMap,
    ← List.flatMap_map Prod.fst (fun t : JavaType => t.walk.map some), List.zipIdx_map_fst]

theorem mem_rowAddresses
    (h : ∀ t ∈ forest, ∀ address, (typeAt? t.nested address).isSome → address ∈ inside t)
    {address : List Nat} (hsome : (typeAt? forest address).isSome) :
    address ∈ rowAddresses forest inside := by
  cases address with
  | nil => simp [typeAt?] at hsome
  | cons i address =>
      rw [typeAt?, Option.isSome_bind] at hsome
      obtain ⟨t, hi, hinside⟩ := (Option.any_eq_true ..).mp hsome
      refine List.mem_flatMap.mpr ⟨(t, i), List.mem_zipIdx_iff_getElem?.mpr hi, ?_⟩
      by_cases hnil : address = []
      · simp [addressesAt, hnil]
      · rw [if_neg hnil] at hinside
        refine List.mem_cons_of_mem _ (List.mem_map_of_mem ?_)
        exact h t (List.mem_of_getElem? hi) address hinside

end Row

/-- A walk is depth first. -/
theorem depthFirst_walkAll (forest : List JavaType) : DepthFirst forest (walkAll forest) := by
  induction forest using forestInduction with
  | row forest ih =>
      -- the addresses inside each type of the row are at hand; they get its place in front
      choose! inside hascending htypes hall using ih
      have hne (t : JavaType) (ht : t ∈ forest) : ∀ address ∈ inside t, address ≠ [] := by
        intro address haddress
        have hsome : typeAt? t.nested address ∈ (walkAll t.nested).map some :=
          htypes t ht ▸ List.mem_map_of_mem haddress
        obtain ⟨u, -, hu⟩ := List.mem_map.mp hsome
        exact ne_nil_of_typeAt?_isSome (by rw [← hu]; rfl)
      exact ⟨rowAddresses forest inside, pairwise_rowAddresses hascending hne,
        map_typeAt?_rowAddresses htypes hne, fun _ => mem_rowAddresses hall⟩

end DocTransfer.JavaType
