import DocTransfer.Transfer.File
import DocTransfer.Proofs.FileTree.Create
import DocTransfer.Proofs.Json.Coding
import DocTransfer.Proofs.Json.Numbers

/-! # Saved settings load as they were

Reading settings fills in the defaults and drops what is not a setting. Saving writes out every
setting that is set, so reading again has nothing to add: whatever form the first file had, the
second load gives what the first one gave. -/

namespace DocTransfer

open Json Number Matching

theorem Matching.Strategy.decoder_word (limit : Nat) (strategy : Strategy) :
    Strategy.decoder limit (.string (some strategy.word)) = some strategy := by
  cases strategy <;> rfl

/-- A list of texts is read back as soon as a list may stand there at all. -/
theorem list_outline_strings (limit : Nat) (xs : List String) :
    Decode.list Decode.text (limit + 1) (Json.strings xs).outline = some xs := by
  have hlist := faithful_text.list.inverts xs (limit + 1)
  have hdepth : (Json.array (xs.map Json.string)).depth ≤ limit + 1 := by
    rw [depth_array_le_succ_iff, depthItems_le_iff, List.forall_mem_map]
    exact fun _ _ => Nat.zero_le _
  rwa [if_pos hdepth] at hlist

/-! ## The settings of a model -/

namespace ModelConfig

/-- The counts fit in the bytes that they are read into. -/
structure InRange (m : ModelConfig) : Prop where
  timeout : m.timeoutSecs ≤ maxCount
  tokens : ∀ n ∈ m.maxOutputTokens, n ≤ maxSmallCount

theorem inRange_default : InRange {} :=
  ⟨by decide, by simp⟩

theorem inRange_of_decoder {limit : Nat} {o : Outline} {m : ModelConfig}
    (h : Config.modelDecoder limit o = some m) : m.InRange := by
  simp only [Config.modelDecoder, Option.bind_eq_bind, Option.bind_eq_some_iff] at h
  obtain ⟨s, -, _, -, _, -, tokens, htokens, timeout, htimeout, heq⟩ := h
  cases heq
  constructor
  · rcases eq_default_or_read htimeout with rfl | ⟨o, ho⟩
    · exact inRange_default.timeout
    · exact le_of_natural ho
  · rintro n rfl
    rcases eq_default_or_read htokens with h | ⟨o, ho⟩
    · cases h
    · exact le_of_natural (of_nullable_eq_some ho)

/-- The settings of a model as JSON. -/
def toJson (m : ModelConfig) : Json :=
  .object (
    [("model", .string m.model), ("temperature", .number (.single m.temperature))] ++
    (match m.maxOutputTokens with
     | some n => [("maxOutputTokens", .nat n)]
     | none => []) ++
    [("timeoutSecs", .nat m.timeoutSecs)])

/-- The fields of written settings, as they are found again. -/
theorem slots_toJson (m : ModelConfig) (limit : Nat) :
    Decode.slots [["model"], ["temperature"], ["maxOutputTokens"], ["timeoutSecs"]] (limit + 1)
        m.toJson.outline =
      some ⟨false, [some (.string (some m.model)), some (numberOutline (.single m.temperature)),
        m.maxOutputTokens.map (outline ∘ Json.nat), some (Json.nat m.timeoutSecs).outline]⟩ := by
  let names := ["model", "temperature", "maxOutputTokens", "timeoutSecs"]
  obtain ⟨model, temperature, tokens, timeout⟩ := m
  cases tokens with
  | none => exact slots_object (by simp) names limit
  | some n => exact slots_object (by simp) names limit

theorem decoder_outline {m : ModelConfig} (h : m.InRange) (htemperature : ReadsBack m.temperature)
    (limit : Nat) : Config.modelDecoder (limit + 1) m.toJson.outline = some m := by
  have hsingle := htemperature.legible.2 (limit + 1)
  have htimeout := natural_outline h.timeout (Nat.le_refl _) (limit + 1)
  rw [Config.modelDecoder, slots_toJson]
  obtain ⟨model, temperature, tokens, timeout⟩ := m
  cases tokens with
  | none => simp [Decode.Slots.withDefault, Decode.Slots.value?, Decode.text, hsingle, htimeout]
  | some n =>
      have htokens := nullable_natural_outline (h.tokens n rfl) (by decide) (limit + 1)
      simp [Decode.Slots.withDefault, Decode.Slots.value?, Decode.text, hsingle, htimeout, htokens]

end ModelConfig

/-! ## The settings of a transfer -/

theorem defaultMaxPasses_le : defaultMaxPasses ≤ maxCount := by
  decide

namespace TransferConfig

theorem maxPasses_le_of_decoder {limit : Nat} {o : Outline} {t : TransferConfig}
    (h : Config.transferDecoder limit o = some t) : t.maxPasses ≤ maxCount := by
  simp only [Config.transferDecoder, Option.bind_eq_bind, Option.bind_eq_some_iff] at h
  obtain ⟨s, -, passes, hpasses, _, -, _, -, _, -, _, -, heq⟩ := h
  cases heq
  rcases eq_default_or_read hpasses with rfl | ⟨o, ho⟩
  · exact defaultMaxPasses_le
  · exact le_of_natural ho

/-- The settings of a transfer as JSON. -/
def toJson (t : TransferConfig) : Json :=
  .object [
    ("maxPasses", .nat t.maxPasses), ("matcher", .string t.matcher.word),
    ("extensions", .strings t.extensions), ("exclude", .strings t.exclude),
    ("debugDir", .string t.debugDir)]

theorem slots_toJson (t : TransferConfig) (limit : Nat) :
    Decode.slots [["maxPasses"], ["matcher"], ["extensions"], ["exclude"], ["debugDir"]] (limit + 1)
        t.toJson.outline =
      some ⟨false, [some (Json.nat t.maxPasses).outline, some (.string (some t.matcher.word)),
        some (Json.strings t.extensions).outline, some (Json.strings t.exclude).outline,
        some (.string (some t.debugDir))]⟩ :=
  slots_object (by simp) ["maxPasses", "matcher", "extensions", "exclude", "debugDir"] limit

theorem decoder_outline {t : TransferConfig} (h : t.maxPasses ≤ maxCount) (limit : Nat) :
    Config.transferDecoder (limit + 2) t.toJson.outline = some t := by
  have hpasses := natural_outline h (Nat.le_refl _) (limit + 2)
  have hmatcher := Strategy.decoder_word (limit + 1) t.matcher
  rw [Config.transferDecoder, slots_toJson]
  simp [Decode.Slots.withDefault, Decode.Slots.value?, Decode.text, hpasses, hmatcher,
    list_outline_strings]

end TransferConfig

/-! ## All settings -/

namespace Config

structure InRange (c : Config) : Prop where
  llm : c.llm.InRange
  passes : c.transfer.maxPasses ≤ maxCount

/-- A section that is missing is in range like one that was read. -/
theorem inRange_of_decoder {limit : Nat} {o : Outline} {c : Config}
    (h : decoder limit o = some c) : c.InRange := by
  simp only [decoder, Option.bind_eq_bind, Option.bind_eq_some_iff] at h
  obtain ⟨s, -, llm, hllm, transfer, htransfer, _, -, _, -, heq⟩ := h
  cases heq
  constructor
  · rcases eq_default_or_read hllm with rfl | ⟨o, ho⟩
    · exact ModelConfig.inRange_default
    · exact ModelConfig.inRange_of_decoder ho
  · rcases eq_default_or_read htransfer with rfl | ⟨o, ho⟩
    · exact defaultMaxPasses_le
    · exact TransferConfig.maxPasses_le_of_decoder ho

theorem soleDecoder_outline {α : Type} {name : String} {default a : α} {value : Decoder α}
    {j : Json} {limit : Nat} (h : value limit j.outline = some a) :
    soleDecoder name default value (limit + 1) (Json.object [(name, j)]).outline = some a := by
  have hdistinct : ([(name, j)].map Prod.fst).Nodup := by simp
  have hslots := slots_object hdistinct [name] limit
  rw [List.map_singleton] at hslots
  rw [soleDecoder, hslots]
  simp [Decode.Slots.withDefault, Decode.Slots.value?, h]

theorem toJson_eq (c : Config) :
    c.toJson = .object [("llm", c.llm.toJson), ("transfer", c.transfer.toJson),
      ("cpp", .object [("exportMacros", .strings c.exportWords)]),
      ("output", .object [("javadocs", .string c.javadocs)])] :=
  rfl

theorem slots_toJson (c : Config) (limit : Nat) :
    Decode.slots [["llm"], ["transfer"], ["cpp"], ["output"]] (limit + 1) c.toJson.outline =
      some ⟨false, [some c.llm.toJson.outline, some c.transfer.toJson.outline,
        some (Json.object [("exportMacros", .strings c.exportWords)]).outline,
        some (Json.object [("javadocs", .string c.javadocs)]).outline]⟩ := by
  rw [toJson_eq]
  exact slots_object (by simp) ["llm", "transfer", "cpp", "output"] limit

theorem decoder_outline {c : Config} (h : c.InRange) (htemperature : ReadsBack c.llm.temperature)
    (limit : Nat) : decoder (limit + 3) c.toJson.outline = some c := by
  have hllm := ModelConfig.decoder_outline h.llm htemperature (limit + 1)
  have htransfer := TransferConfig.decoder_outline h.passes limit
  have hwords : soleDecoder "exportMacros" defaultExportWords (Decode.list Decode.text) (limit + 2)
      (Json.object [("exportMacros", .strings c.exportWords)]).outline = some c.exportWords :=
    soleDecoder_outline (list_outline_strings limit c.exportWords)
  have hjavadocs : soleDecoder "javadocs" "javadocs.json" Decode.text (limit + 2)
      (Json.object [("javadocs", .string c.javadocs)]).outline = some c.javadocs :=
    soleDecoder_outline rfl
  rw [decoder, slots_toJson]
  simp [Decode.Slots.withDefault, Decode.Slots.value?, hllm, htransfer, hwords, hjavadocs]

theorem numbers_strings (xs : List String) : (Json.strings xs).numbers = [] :=
  numbersOfItems_map Json.string (fun _ => rfl) xs

/-- The numbers of the settings are the temperature and counts. -/
theorem numbers_toJson (c : Config) :
    c.toJson.numbers = .single c.llm.temperature ::
      (c.llm.maxOutputTokens.toList ++ [c.llm.timeoutSecs, c.transfer.maxPasses]).map
        fun n : Nat => .int n := by
  rw [toJson_eq, ModelConfig.toJson, TransferConfig.toJson]
  cases c.llm.maxOutputTokens <;>
    simp [numbers, numbersOfFields, numbers_strings, Json.nat]

theorem legible_of_mem_numbers {c : Config} (htemperature : ReadsBack c.llm.temperature)
    {n : JsonNumber} (hn : n ∈ c.toJson.numbers) : Legible n := by
  rw [numbers_toJson] at hn
  rcases List.mem_cons.mp hn with rfl | hn
  · exact htemperature.legible.1
  · obtain ⟨k, -, rfl⟩ := List.mem_map.mp hn
    exact legible_int k

theorem parse_eq_ok_iff {text : String} {c : Config} :
    parse text = .ok c ↔
      (Outline.read? text.toList).bind (decoder maxDepth) = some c ∧ c.fault? = none := by
  unfold parse
  split
  · simp [*]
  · next c' hread =>
      rw [hread, Option.some.injEq]
      constructor
      · intro h
        split at h
        · cases h
        · next hfault =>
            cases h
            exact ⟨rfl, hfault⟩
      · rintro ⟨rfl, hfault⟩
        rw [hfault]

theorem load_eq_ok_iff {t : FileTree} {path : String} {c : Config} :
    load t path = .ok c ↔ ∃ text, t.read path.toList = .ok text ∧ parse text = .ok c := by
  unfold load
  split <;> simp [*]

/-- Settings without a fault that fit in their bytes come back from their text. -/
theorem parse_save_of_inRange {c : Config} (h : c.InRange)
    (htemperature : ReadsBack c.llm.temperature) (hfault : c.fault? = none) :
    parse (save c) = .ok c := by
  rw [parse_eq_ok_iff, save, read?_pretty fun n hn => legible_of_mem_numbers htemperature hn]
  exact ⟨decoder_outline h htemperature 124, hfault⟩

/-- Settings that were loaded, from a file of whatever form, have no fault, come back from the text
that they are saved as, and are loaded as they were from any file that this text is written to. So a
transfer has the same settings from the saved file. -/
theorem stable_under_save {t : FileTree} {path : String} {c : Config}
    (hload : load t path = .ok c) (htemperature : ReadsBack c.llm.temperature) :
    c.fault? = none ∧ parse (save c) = .ok c ∧
    ∀ (u v : FileTree) (out : String), u.write out.toList (save c) = .ok v →
      load v out = .ok c ∧
      (load v out).map Transfer.Options.ofConfig = .ok (Transfer.Options.ofConfig c) := by
  obtain ⟨text, -, hparse⟩ := load_eq_ok_iff.mp hload
  obtain ⟨hread, hfault⟩ := parse_eq_ok_iff.mp hparse
  obtain ⟨o, -, hdecode⟩ := Option.bind_eq_some_iff.mp hread
  have hsaved := parse_save_of_inRange (inRange_of_decoder hdecode) htemperature hfault
  refine ⟨hfault, hsaved, ?_⟩
  intro u v out hwrite
  obtain ⟨-, -, -, hout, -⟩ := FileTree.grows_of_write hwrite
  have hloaded : load v out = .ok c := load_eq_ok_iff.mpr ⟨save c, hout, hsaved⟩
  exact ⟨hloaded, by rw [hloaded]; rfl⟩

/-- Sections in order, the first with a name that is no setting, the second cut off. -/
def mixedForms : FileTree :=
  .folder [("settings.json", .file (.text (
    "[\x7b\"temperature\": 0.1, \"maxOutputTokens\": 9, \"other\": [null]\x7d, " ++
    "[3, \x7b\"heuristic\": null\x7d, [\".ts\"]]]")))]

/-- The settings in `mixedForms`. -/
def mixedSettings : Config where
  llm := { temperature := Format.single.round false 1 10, maxOutputTokens := some 9 }
  transfer := { maxPasses := 3, matcher := .heuristic, extensions := [".ts"] }

theorem stable_under_save_mixedForms :
    load mixedForms "settings.json" = .ok mixedSettings ∧
    ReadsBack mixedSettings.llm.temperature ∧
    mixedSettings.fault? = none ∧ parse (save mixedSettings) = .ok mixedSettings ∧
    ∀ (u v : FileTree) (out : String), u.write out.toList (save mixedSettings) = .ok v →
      load v out = .ok mixedSettings ∧
      (load v out).map Transfer.Options.ofConfig =
        .ok (Transfer.Options.ofConfig mixedSettings) := by
  have hload : load mixedForms "settings.json" = .ok mixedSettings := by decide +kernel
  have htemperature : ReadsBack mixedSettings.llm.temperature := by decide +kernel
  exact ⟨hload, htemperature, stable_under_save hload htemperature⟩

end Config

end DocTransfer
