import DocTransfer.Javadoc.Json
import DocTransfer.Proofs.Json.Coding

/-! # Saved documentation loads as it was

A forest comes back from its file unless it nests deeper than the reader goes; then the file is
refused. What has been loaded once, in whichever form it was written, never nests too deep. -/

namespace DocTransfer

open Json

/-! ## Members, constants and kinds -/

theorem JavaMember.faithful : Faithful JavaMember.decoder JavaMember.toJson :=
  Faithful.texts (by decide) fun _ => rfl

theorem JavaConstant.faithful : Faithful JavaConstant.decoder JavaConstant.toJson :=
  Faithful.texts (by decide) fun _ => rfl

theorem TypeKind.decoder_word (limit : Nat) (kind : TypeKind) :
    TypeKind.decoder limit (.string (some kind.word)) = some kind := by
  cases kind <;> rfl

namespace JavaType

/-! ## Trees -/

theorem toJsonAll_eq_map (forest : List JavaType) : toJsonAll forest = forest.map toJson := by
  induction forest with
  | nil => rfl
  | cons t ts ih => rw [toJsonAll, ih, List.map_cons]

/-- How deep the constants of a tree nest as JSON; where there is no list nothing is written. -/
def constantsDepth (t : JavaType) : Nat :=
  match t.constants with
  | some cs => (Json.array (cs.map JavaConstant.toJson)).depth
  | none => 0

/-- A tree fits when all its lists do, one level further in. -/
theorem depth_toJson_le_succ_iff {t : JavaType} {limit : Nat} :
    t.toJson.depth ≤ limit + 1 ↔
      (Json.array (t.members.map JavaMember.toJson)).depth ≤ limit ∧ t.constantsDepth ≤ limit ∧
      (Json.array (t.nested.map toJson)).depth ≤ limit := by
  obtain ⟨simpleName, fullName, packageName, kind, javadoc, members, constants, nested, path⟩ := t
  cases constants with
  | none =>
      simp only [toJson, toJsonAll_eq_map, depth, depthFields, constantsDepth, JavaType.members,
        JavaType.constants, JavaType.nested, List.cons_append, List.nil_append]
      omega
  | some cs =>
      simp only [toJson, toJsonAll_eq_map, depth, depthFields, constantsDepth, JavaType.members,
        JavaType.constants, JavaType.nested, List.cons_append, List.nil_append]
      omega

/-- The fields of a written tree, as they are found again. -/
def slotsOf (t : JavaType) : Decode.Slots where
  positional := false
  values :=
    [some (.string (some t.simpleName)), some (.string (some t.fullName)),
     some (.string (some t.packageName)), some (.string (some t.kind.word)),
     some (.string (some t.javadoc)),
     some (.array (outlineItems (t.members.map JavaMember.toJson))),
     t.constants.map fun cs => .array (outlineItems (cs.map JavaConstant.toJson)),
     some (.array (outlineItems (t.nested.map toJson))), some (.string (some t.sourcePath))]

theorem slots_toJson (t : JavaType) (limit : Nat) :
    Decode.slots fieldNames (limit + 1) t.toJson.outline = some t.slotsOf := by
  obtain ⟨simpleName, fullName, packageName, kind, javadoc, members, constants, nested, path⟩ := t
  have hnested := toJsonAll_eq_map nested
  cases constants with
  | none =>
      rw [toJson, hnested]
      rfl
  | some cs =>
      rw [toJson, hnested]
      rfl

theorem constants_slot (t : JavaType) (limit : Nat) :
    t.slotsOf.withDefault 6 none (Decode.nullable (Decode.list JavaConstant.decoder) limit) =
      if t.constantsDepth ≤ limit then some t.constants else none := by
  have hslot : t.slotsOf.value? 6 =
      t.constants.map fun cs => .array (outlineItems (cs.map JavaConstant.toJson)) := by
    simp [slotsOf, Decode.Slots.value?]
  cases hconstants : t.constants with
  | none => simp [Decode.Slots.withDefault, hslot, hconstants, constantsDepth]
  | some cs =>
      have hlist := JavaConstant.faithful.list.inverts cs limit
      rw [outline] at hlist
      simp only [Decode.Slots.withDefault, hslot, hconstants, constantsDepth, Option.map_some,
        Decode.nullable, hlist]
      split <;> rfl

/-- A tree reads back as far as it fits, if its nested types do. -/
theorem decodeWith_outline {read : Outline → Option (List JavaType)} {limit : Nat} (t : JavaType)
    (hread : read (.array (outlineItems (t.nested.map toJson))) =
      if (Json.array (t.nested.map toJson)).depth ≤ limit then some t.nested else none) :
    decoder.decodeWith read limit t.toJson.outline =
      if t.toJson.depth ≤ limit + 1 then some t else none := by
  have hmembers : t.slotsOf.required 5 (Decode.list JavaMember.decoder limit) =
      if (Json.array (t.members.map JavaMember.toJson)).depth ≤ limit then some t.members
      else none := JavaMember.faithful.list.inverts t.members limit
  have hkind : t.slotsOf.required 3 (TypeKind.decoder limit) = some t.kind :=
    TypeKind.decoder_word limit t.kind
  have hnested : t.slotsOf.required 7 read = _ := hread
  have htext (i : Nat) (s : String) (h : t.slotsOf.value? i = some (.string (some s))) :
      t.slotsOf.required i (Decode.text limit) = some s := by
    simp [Decode.Slots.required, h, Decode.text]
  rw [decoder.decodeWith, slots_toJson]
  simp only [Option.bind_eq_bind, Option.bind_some, htext 0 t.simpleName rfl,
    htext 1 t.fullName rfl, htext 2 t.packageName rfl, hkind, htext 4 t.javadoc rfl, hmembers,
    constants_slot, hnested, htext 8 t.sourcePath rfl, depth_toJson_le_succ_iff]
  by_cases hfit : (Json.array (t.members.map JavaMember.toJson)).depth ≤ limit
  · by_cases hfit' : t.constantsDepth ≤ limit
    · by_cases hfit'' : (Json.array (t.nested.map toJson)).depth ≤ limit
      · simp only [hfit, hfit', hfit'', and_self, if_true, Option.bind_some]
        cases t
        rfl
      · simp [hfit, hfit', hfit'']
    · simp [hfit, hfit']
  · simp [hfit]

/-- Even a tree without anything inside has its empty lists. -/
theorem not_depth_toJson_le_one (t : JavaType) : ¬ t.toJson.depth ≤ 1 := by
  simp [depth_toJson_le_succ_iff, depth]

/-- A tree reads back if it fits, and not otherwise. -/
theorem decoder_outline : ∀ (limit : Nat) (t : JavaType),
    decoder limit t.toJson.outline = if t.toJson.depth ≤ limit then some t else none
  | 0, t => by
      have hdeep := not_depth_toJson_le_one t
      rw [decoder, if_neg (by omega)]
      simp
  | 1, t => by
      rw [decoder, if_neg (not_depth_toJson_le_one t)]
      simp
  | limit + 2, t => by
      rw [decoder, decodeWith_outline]
      simp only [depth_array_le_succ_iff]
      exact mapM_outline t.nested fun u _ => decoder_outline limit u

/-- The lists that a tree was read from. -/
theorem lists_of_decodeWith {read : Outline → Option (List JavaType)} {limit : Nat} {o : Outline}
    {t : JavaType} (h : decoder.decodeWith read limit o = some t) :
    (∃ o, Decode.list JavaMember.decoder limit o = some t.members) ∧
      (∀ cs, t.constants = some cs → ∃ o, Decode.list JavaConstant.decoder limit o = some cs) ∧
      ∃ o, read o = some t.nested := by
  simp only [decoder.decodeWith, Option.bind_eq_bind, Option.bind_eq_some_iff,
    Decode.Slots.required] at h
  obtain ⟨s, -, _, -, _, -, _, -, _, -, _, -, members, ⟨o₁, -, hmembers⟩, constants, hconstants,
    nested, ⟨o₂, -, hnested⟩, _, -, heq⟩ := h
  cases heq
  refine ⟨⟨o₁, hmembers⟩, ?_, o₂, hnested⟩
  rintro cs ⟨⟩
  unfold Decode.Slots.withDefault at hconstants
  split at hconstants
  · cases hconstants
  · exact ⟨_, of_nullable_eq_some hconstants⟩

/-- A tree that was read fits when it is written. -/
theorem depth_le_of_decoder : ∀ {limit : Nat} {o : Outline} {t : JavaType},
    decoder limit o = some t → t.toJson.depth ≤ limit
  | 0, o, t, h => by cases h
  | 1, o, t, h => by cases h
  | limit + 2, o, t, h => by
      rw [decoder] at h
      obtain ⟨⟨_, hmembers⟩, hconstants, o, hnested⟩ := lists_of_decodeWith h
      rw [depth_toJson_le_succ_iff]
      refine ⟨JavaMember.faithful.list.bounded hmembers, ?_, ?_⟩
      · unfold constantsDepth
        split
        next cs hcs =>
          obtain ⟨_, hlist⟩ := hconstants cs hcs
          exact JavaConstant.faithful.list.bounded hlist
        next => exact Nat.zero_le _
      · rw [depth_array_le_succ_iff, depthItems_le_iff, List.forall_mem_map]
        intro u hu
        split at hnested
        next items =>
          obtain ⟨_, hdecoded⟩ := exists_of_mem_mapM hnested hu
          exact depth_le_of_decoder hdecoded
        next => cases hnested

theorem faithful : Faithful decoder toJson :=
  ⟨fun t limit => decoder_outline limit t, depth_le_of_decoder⟩

/-! ## Files -/

mutual

theorem numbers_toJson : (t : JavaType) → t.toJson.numbers = []
  | .mk _ _ _ _ _ members constants nested _ => by
      have hmembers := numbersOfItems_map JavaMember.toJson (fun _ => rfl) members
      have hnested := numbers_toJsonAll nested
      cases constants with
      | none => simp [toJson, numbers, numbersOfFields, hmembers, hnested]
      | some cs =>
          have hconstants := numbersOfItems_map JavaConstant.toJson (fun _ => rfl) cs
          simp [toJson, numbers, numbersOfFields, hmembers, hconstants, hnested]

theorem numbers_toJsonAll : (forest : List JavaType) → numbersOfItems (toJsonAll forest) = []
  | [] => rfl
  | t :: ts => by rw [toJsonAll, numbersOfItems, numbers_toJson t, numbers_toJsonAll ts]; rfl

end

theorem load_eq_ok_iff {text : String} {forest : List JavaType} :
    load text = .ok forest ↔
      (Outline.read? text.toList).bind (Decode.list decoder maxDepth) = some forest := by
  unfold load
  split <;> simp [*]

theorem load_saved (forest : List JavaType) :
    load (save forest) =
      if (Json.array (toJsonAll forest)).depth ≤ maxDepth then .ok forest else .error .json := by
  have houtline := read?_pretty (j := .array (toJsonAll forest))
    (by simp [numbers, numbers_toJsonAll])
  have hlist := faithful.list.inverts forest maxDepth
  rw [← toJsonAll_eq_map] at hlist
  rw [load, save, houtline, Option.bind_some, hlist]
  by_cases hfits : (Json.array (toJsonAll forest)).depth ≤ maxDepth
  · simp only [hfits, if_true]
  · simp only [hfits, if_false]

/-- Saved documentation loads as it was if its JSON nests no deeper than the reader goes, and is
refused as JSON otherwise. Documentation that was loaded from any text saves and loads as it is. -/
theorem load_save (forest : List JavaType) :
    (load (save forest) =
      if (Json.array (toJsonAll forest)).depth ≤ maxDepth then .ok forest else .error .json) ∧
    ∀ text, load text = .ok forest → load (save forest) = .ok forest := by
  refine ⟨load_saved forest, ?_⟩
  intro text hload
  obtain ⟨o, -, hlist⟩ := Option.bind_eq_some_iff.mp (load_eq_ok_iff.mp hload)
  have hfits := faithful.list.bounded hlist
  rw [← toJsonAll_eq_map] at hfits
  rw [load_saved, if_pos hfits]

end JavaType

end DocTransfer
