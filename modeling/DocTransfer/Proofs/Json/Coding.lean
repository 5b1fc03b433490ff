import DocTransfer.Json.Decode
import DocTransfer.Proofs.Json.Pretty

/-! # Readers that undo writing

A limit on nesting is a budget that reading spends level by level. A reader is faithful to a way of
writing if it spends exactly what the written value nests: it reads back what fits, refuses what
does not, and whatever else it accepts can be written within the limit too. -/

namespace DocTransfer.Json

variable {α : Type}

/-! ## Depth -/

theorem depthItems_le_iff {xs : List Json} {limit : Nat} :
    depthItems xs ≤ limit ↔ ∀ x ∈ xs, x.depth ≤ limit := by
  induction xs with
  | nil => simp [depthItems]
  | cons x xs ih => rw [depthItems, Nat.max_le, ih, List.forall_mem_cons]

theorem depth_array_le_succ_iff {xs : List Json} {limit : Nat} :
    (Json.array xs).depth ≤ limit + 1 ↔ depthItems xs ≤ limit := by
  rw [depth, Nat.add_le_add_iff_right]

/-! ## Lists -/

theorem mapM_outline {read : Outline → Option α} {encode : α → Json} {limit : Nat} (xs : List α)
    (h : ∀ a ∈ xs, read (encode a).outline = if (encode a).depth ≤ limit then some a else none) :
    (outlineItems (xs.map encode)).mapM read =
      if depthItems (xs.map encode) ≤ limit then some xs else none := by
  induction xs with
  | nil => simp [outlineItems, depthItems]
  | cons a xs ih =>
      obtain ⟨hfirst, hmore⟩ := List.forall_mem_cons.mp h
      rw [List.map_cons, outlineItems, List.mapM_cons, hfirst, ih hmore, depthItems]
      by_cases ha : (encode a).depth ≤ limit
      · by_cases hxs : depthItems (xs.map encode) ≤ limit
        · simp [ha, hxs, Nat.max_le]
        · simp [ha, hxs, Nat.max_le]
      · simp [ha, Nat.max_le]

theorem mapM_of_forall {β : Type} {f : β → Option α} {g : β → α} {xs : List β}
    (h : ∀ x ∈ xs, f x = some (g x)) : xs.mapM f = some (xs.map g) := by
  induction xs with
  | nil => rfl
  | cons x xs ih =>
      rw [List.forall_mem_cons] at h
      rw [List.mapM_cons, h.1, ih h.2]
      rfl

theorem exists_of_mem_mapM {read : Outline → Option α} {items : List Outline} {xs : List α}
    (h : items.mapM read = some xs) {a : α} (ha : a ∈ xs) : ∃ o, read o = some a := by
  induction items generalizing xs with
  | nil =>
      cases h
      cases ha
  | cons o items ih =>
      simp only [List.mapM_cons, Option.bind_eq_bind, Option.bind_eq_some_iff] at h
      obtain ⟨b, hb, ys, hys, heq⟩ := h
      cases heq
      obtain rfl | ha := List.mem_cons.mp ha
      · exact ⟨o, hb⟩
      · exact ih hys ha

theorem numbersOfItems_map (encode : α → Json) (h : ∀ a, (encode a).numbers = []) (xs : List α) :
    numbersOfItems (xs.map encode) = [] := by
  induction xs with
  | nil => rfl
  | cons a xs ih => rw [List.map_cons, numbersOfItems, h, ih, List.append_nil]

/-! ## Faithful readers -/

structure Faithful (decode : Decoder α) (encode : α → Json) : Prop where
  /-- What was written is read back if it nests no deeper than allowed. -/
  inverts (a : α) (limit : Nat) :
    decode limit (encode a).outline = if (encode a).depth ≤ limit then some a else none
  /-- What was read nests no deeper than allowed when it is written. -/
  bounded {limit : Nat} {o : Outline} {a : α} :
    decode limit o = some a → (encode a).depth ≤ limit

theorem faithful_text : Faithful Decode.text Json.string where
  inverts s limit := by simp [outline, depth, Decode.text]
  bounded _ := by simp [depth]

theorem Faithful.list {decode : Decoder α} {encode : α → Json} (h : Faithful decode encode) :
    Faithful (Decode.list decode) fun xs => .array (xs.map encode) where
  inverts xs limit := by
    cases limit with
    | zero => simp [depth, Decode.list]
    | succ limit =>
        rw [outline, Decode.list, mapM_outline xs fun a _ => h.inverts a limit]
        simp only [depth_array_le_succ_iff]
  bounded {limit o xs} hread := by
    cases limit with
    | zero => cases o <;> cases hread
    | succ limit =>
        rw [depth_array_le_succ_iff, depthItems_le_iff, List.forall_mem_map]
        intro a ha
        cases o with
        | array items =>
            obtain ⟨o, ho⟩ := exists_of_mem_mapM hread ha
            exact h.bounded ho
        | _ => cases hread

theorem of_nullable_eq_some {decode : Decoder α} {limit : Nat} {o : Outline} {a : α}
    (h : Decode.nullable decode limit o = some (some a)) : decode limit o = some a := by
  unfold Decode.nullable at h
  split at h
  · cases h
  · simpa using h

/-- A record takes a level of nesting, whichever way it is written. -/
theorem one_le_of_slots {known : List (List String)} {limit : Nat} {o : Outline} {s : Decode.Slots}
    (h : Decode.slots known limit o = some s) : 1 ≤ limit := by
  cases limit with
  | zero => cases o <;> cases h
  | succ limit => exact Nat.le_add_left 1 limit

/-! ## Records -/

/-- The values of a name in a written object that names no field twice. -/
theorem valuesNamed_outlineFields {fs : List (String × Json)} (h : (fs.map Prod.fst).Nodup)
    (name : String) :
    Decode.valuesNamed [name] (outlineFields fs) = ((fs.lookup name).map outline).toList := by
  induction fs with
  | nil => rfl
  | cons f fs ih =>
      obtain ⟨first, value⟩ := f
      rw [List.map_cons, List.nodup_cons] at h
      have hnext := ih h.2
      rw [Decode.valuesNamed] at hnext ⊢
      by_cases heq : name = first
      · -- the name stands first, so no later field has it
        have hnone : fs.lookup name = none := by
          rw [List.lookup_eq_none_iff]
          intro p hp
          have hne : name ≠ p.1 := by
            intro hp'
            exact h.1 (List.mem_map.mpr ⟨p, hp, hp'.symm.trans heq⟩)
          simpa using hne
        rw [hnone] at hnext
        simp [outlineFields, heq] at hnext ⊢
        exact hnext
      · have hbeq : (name == first) = false := beq_eq_false_iff_ne.mpr heq
        have hne : ¬ first = name := fun h => heq h.symm
        rw [List.lookup_cons, hbeq, ← hnext]
        simp [outlineFields, hne]

/-- Every field of a written object is found under its name, and what was left out is not there. -/
theorem slots_object {fs : List (String × Json)} (h : (fs.map Prod.fst).Nodup)
    (names : List String) (limit : Nat) :
    Decode.slots (names.map fun name => [name]) (limit + 1) (Json.object fs).outline =
      some ⟨false, names.map fun name => (fs.lookup name).map outline⟩ := by
  have hnamed : (outlineFields fs).any (·.1.isNone) = false := by
    clear h
    induction fs with
    | nil => rfl
    | cons f fs ih => simpa [outlineFields] using ih
  rw [outline, Decode.slots, hnamed, mapM_of_forall
    (g := fun known => known.head?.bind fun name => (fs.lookup name).map outline)]
  · simp
  · intro known hknown
    obtain ⟨name, -, rfl⟩ := List.mem_map.mp hknown
    rw [valuesNamed_outlineFields h, List.head?_cons, Option.bind_some]
    cases fs.lookup name <;> rfl

/-- A field with a default has the default, or was read. -/
theorem eq_default_or_read {s : Decode.Slots} {i : Nat} {default a : α}
    {read : Outline → Option α} (h : s.withDefault i default read = some a) :
    a = default ∨ ∃ o, read o = some a := by
  unfold Decode.Slots.withDefault at h
  split at h
  · exact .inl (Option.some.inj h).symm
  · exact .inr ⟨_, h⟩

/-- A record of two texts, written as an object. -/
theorem Faithful.texts {first second : String} (hne : first ≠ second) {make : String → String → α}
    {one other : α → String} (hmake : ∀ a, make (one a) (other a) = a) :
    Faithful
      (fun limit o => do
        let s ← Decode.slots [[first], [second]] limit o
        return make (← s.required 0 (Decode.text (limit - 1)))
          (← s.required 1 (Decode.text (limit - 1))))
      fun a => .object [(first, .string (one a)), (second, .string (other a))] where
  inverts a limit := by
    cases limit with
    | zero => simp [depth, Decode.slots]
    | succ limit =>
        simp [depth, depthFields, outline, outlineFields, Decode.slots, Decode.valuesNamed,
          Decode.Slots.required, Decode.Slots.value?, Decode.text, hne, hne.symm, hmake]
  bounded {limit o a} hread := by
    obtain ⟨s, hslots, -⟩ := Option.bind_eq_some_iff.mp hread
    simpa [depth, depthFields] using one_le_of_slots hslots

end DocTransfer.Json
