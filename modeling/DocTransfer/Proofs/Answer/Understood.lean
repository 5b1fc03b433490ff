import DocTransfer.Proofs.Answer.Tolerance
import DocTransfer.Proofs.Json.Written

/-! # Which written edits are understood

Edits that are written as JSON come back as they were, alone and in a fence, unless one of their
texts holds a fence mark itself. Such a mark closes the fence around the answer, which leaves a text
that breaks off inside a string. -/

namespace DocTransfer.Transfer

open Json Text

/-! ## Edits as JSON -/

/-- A side of an edit as JSON; a missing one is null. -/
def sideJson : Option String → Json
  | some s => .string s
  | none => .null

/-- An edit as JSON. -/
def Edit.toJson (e : Edit) : Json :=
  .object [("oldString", sideJson e.old), ("newString", sideJson e.new)]

/-- The text of edits: a JSON array without blanks. -/
def editsText (edits : List Edit) : List Char :=
  compact (.array (edits.map Edit.toJson))

/-- A text on lines of its own in a fence with the tag of JSON. -/
def inFence (text : List Char) : List Char :=
  fenceMark ++ "json".toList ++ ['\n'] ++ text ++ ['\n'] ++ fenceMark

theorem optionalText?_sideJson (side : Option String) :
    optionalText? (sideJson side) = some side := by
  cases side <;> rfl

theorem Edit.ofJson?_toJson (e : Edit) : Edit.ofJson? e.toJson = some e := by
  simp [Edit.ofJson?, Edit.toJson, List.lookup_cons, optionalText?_sideJson]

theorem compact_sideJson_some (s : String) : compact (sideJson (some s)) = quoted s := rfl

theorem compactItems_singleton (x : Json) : compactItems [x] = compact x := rfl

theorem compactItems_cons_cons (x y : Json) (xs : List Json) :
    compactItems (x :: y :: xs) = compact x ++ ',' :: compactItems (y :: xs) := rfl

/-- An edit is written as its two fields in braces. -/
theorem Edit.compact_toJson (e : Edit) :
    compact e.toJson = '\x7b' :: ((quoted "oldString" ++ ':' :: compact (sideJson e.old)) ++
      ',' :: (quoted "newString" ++ ':' :: compact (sideJson e.new))) ++ ['\x7d'] := rfl

/-- Edits are written as items in brackets. -/
theorem editsText_eq (edits : List Edit) :
    editsText edits = '[' :: compactItems (edits.map Edit.toJson) ++ [']'] := rfl

/-! ## The text is read -/

/-- The outline of a side. -/
def sideOutline : Option String → Outline
  | some s => .string (some s)
  | none => .null

/-- The outline of an edit. -/
def Edit.outline (e : Edit) : Outline :=
  .object [(some "oldString", sideOutline e.old), (some "newString", sideOutline e.new)]

theorem reads_side (side : Option String) (rest : List Char) :
    Reads (.value (sideOutline side)) (compact (sideJson side) ++ rest) rest := by
  cases side with
  | none => exact .nullWord rest
  | some s =>
      rw [compact_sideJson_some, quoted_append]
      exact .string (string?_of_quoted s rest)

theorem Edit.compact_append (e : Edit) (rest : List Char) :
    compact e.toJson ++ rest = '\x7b' :: (quoted "oldString" ++ ':' :: (compact (sideJson e.old) ++
      ',' :: (quoted "newString" ++ ':' :: (compact (sideJson e.new) ++ '\x7d' :: rest)))) := by
  simp [e.compact_toJson]

theorem reads_edit (e : Edit) (rest : List Char) :
    Reads (.value e.outline) (compact e.toJson ++ rest) rest := by
  have hmark : ∀ c : Char, isSpace c = false → ∀ cs, skipSpace (c :: cs) = c :: cs :=
    fun c hc => skipSpace_cons_of_not_isSpace hc
  rw [e.compact_append, quoted_append, quoted_append]
  exact .object (.moreFields (string?_of_quoted _ _) (hmark ':' rfl _) (reads_side e.old _)
    (hmark ',' rfl _) (.lastField (string?_of_quoted _ _) (hmark ':' rfl _) (reads_side e.new _)
      (hmark '\x7d' rfl _)))

theorem reads_items (e : Edit) (edits : List Edit) (rest : List Char) :
    Reads (.items ((e :: edits).map Edit.outline))
      (compactItems ((e :: edits).map Edit.toJson) ++ ']' :: rest) rest := by
  induction edits generalizing e with
  | nil => exact .lastItem (reads_edit e _) (skipSpace_cons_of_not_isSpace rfl _)
  | cons e' edits ih =>
      have htext : compactItems ((e :: e' :: edits).map Edit.toJson) ++ ']' :: rest =
          compact e.toJson ++ ',' :: (compactItems ((e' :: edits).map Edit.toJson) ++ ']' :: rest) := by
        simp [compactItems_cons_cons]
      rw [htext]
      exact .moreItems (reads_edit e _) (skipSpace_cons_of_not_isSpace rfl _) (ih e')

theorem reads_editsText (edits : List Edit) (rest : List Char) :
    Reads (.value (.array (edits.map Edit.outline))) (editsText edits ++ rest) rest := by
  have htext : editsText edits ++ rest =
      '[' :: (compactItems (edits.map Edit.toJson) ++ ']' :: rest) := by
    simp [editsText_eq]
  rw [htext]
  cases edits with
  | nil => exact .emptyArray (skipSpace_cons_of_not_isSpace rfl _)
  | cons e edits => exact .array (reads_items e edits rest)

theorem value?_sideOutline (limit : Nat) (side : Option String) :
    Outline.value? limit (sideOutline side) = some (sideJson side) := by
  cases side <;> rfl

theorem value?_editOutline (limit : Nat) (e : Edit) :
    Outline.value? (limit + 1) e.outline = some e.toJson := by
  obtain ⟨old, new⟩ := e
  cases old <;> cases new <;> rfl

theorem items?_cons (limit : Nat) (x : Outline) (xs : List Outline) :
    Outline.items? limit (x :: xs) =
      (Outline.value? limit x).bind fun y => (Outline.items? limit xs).bind fun ys => some (y :: ys) := rfl

theorem items?_editOutlines (limit : Nat) (edits : List Edit) :
    Outline.items? (limit + 1) (edits.map Edit.outline) = some (edits.map Edit.toJson) := by
  induction edits with
  | nil => rfl
  | cons e edits ih =>
      rw [List.map_cons, items?_cons, value?_editOutline, ih]
      rfl

/-- The text of edits has their values for its value, whatever blanks follow. -/
theorem read?_editsText (edits : List Edit) {blanks : List Char} (h : skipSpace blanks = []) :
    Json.read? (editsText edits ++ blanks) = some (.array (edits.map Edit.toJson)) := by
  have houtline : Outline.read? (editsText edits ++ blanks) =
      some (.array (edits.map Edit.outline)) :=
    Outline.read?_eq_some_iff.mpr ⟨blanks, reads_editsText edits blanks, h⟩
  simp [Json.read?, houtline, Outline.value?, maxDepth, items?_editOutlines]

/-! ## Fence marks in the text -/

/-- Whether a text of the edit holds a fence mark. -/
def Edit.HoldsFence (e : Edit) : Prop :=
  ∃ s, (e.old = some s ∨ e.new = some s) ∧ fenceMark <:+: s.toList

/-- The strings in the text of an edit. -/
def Edit.strings (e : Edit) : List String :=
  "oldString" :: e.old.toList ++ "newString" :: e.new.toList

theorem written_side (side : Option String) : Written side.toList (compact (sideJson side)) := by
  cases side with
  | none =>
      exact .outer 'n' (by decide) (by decide) (by decide) <|
        .outer 'u' (by decide) (by decide) (by decide) <|
        .outer 'l' (by decide) (by decide) (by decide) <|
        .outer 'l' (by decide) (by decide) (by decide) .nil
  | some s =>
      rw [compact_sideJson_some]
      exact .string s .nil

theorem written_mark {c : Char} (hquote : c ≠ '"') (htick : c ≠ '`') (hcontrol : 0x20 ≤ c.toNat) :
    Written [] [c] :=
  .outer c hquote htick hcontrol .nil

theorem written_edit (e : Edit) : Written e.strings (compact e.toJson) := by
  have hfield : ∀ (name : String) (side : Option String),
      Written (name :: side.toList) (quoted name ++ ':' :: compact (sideJson side)) := by
    intro name side
    rw [quoted_append]
    exact .string name (.outer ':' (by decide) (by decide) (by decide) (written_side side))
  have htext : compact e.toJson =
      '\x7b' :: ((quoted "oldString" ++ ':' :: compact (sideJson e.old)) ++
        ',' :: ((quoted "newString" ++ ':' :: compact (sideJson e.new)) ++ ['\x7d'])) := by
    simp [e.compact_toJson]
  rw [htext, Edit.strings]
  refine .outer '\x7b' (by decide) (by decide) (by decide) ((hfield _ _).append ?_)
  refine .outer ',' (by decide) (by decide) (by decide) ?_
  simpa using (hfield "newString" e.new).append (written_mark (by decide) (by decide) (by decide))

theorem written_items (edits : List Edit) :
    Written (edits.flatMap Edit.strings) (compactItems (edits.map Edit.toJson)) := by
  induction edits with
  | nil => exact .nil
  | cons e edits ih =>
      cases edits with
      | nil => simpa [compactItems_singleton] using written_edit e
      | cons e' edits =>
          have htext : compactItems ((e :: e' :: edits).map Edit.toJson) =
              compact e.toJson ++ ',' :: compactItems ((e' :: edits).map Edit.toJson) :=
            compactItems_cons_cons ..
          rw [htext, List.flatMap_cons]
          exact (written_edit e).append (.outer ',' (by decide) (by decide) (by decide) ih)

theorem written_editsText (edits : List Edit) :
    Written (edits.flatMap Edit.strings) (editsText edits) := by
  rw [editsText_eq]
  refine .outer '[' (by decide) (by decide) (by decide) ?_
  simpa using (written_items edits).append (written_mark (by decide) (by decide) (by decide))

theorem fenceMark_infix_escaped_iff {s : List Char} :
    fenceMark <:+: s.flatMap escapeChar ↔ fenceMark <:+: s := by
  have htick : escapeChar '`' = ['`'] := by decide
  constructor
  · rintro ⟨before, after, h⟩
    have hfirst : s.flatMap escapeChar = before ++ '`' :: ('`' :: '`' :: after) := by
      simpa [fenceMark] using h.symm
    obtain ⟨s₁, s₂, rfl, -, hsecond⟩ := escaped_eq_append_tick hfirst
    obtain ⟨s₃, rfl, hthird⟩ := escaped_eq_tick_cons hsecond.symm
    obtain ⟨s₄, rfl, -⟩ := escaped_eq_tick_cons hthird.symm
    exact ⟨s₁, s₄, by simp [fenceMark]⟩
  · rintro ⟨before, after, rfl⟩
    exact ⟨before.flatMap escapeChar, after.flatMap escapeChar, by simp [fenceMark, htick]⟩

/-- The fence marks of a written text stand in its strings. -/
theorem fenceMark_infix_iff_of_written {ss : List String} {cs : List Char} (h : Written ss cs) :
    fenceMark <:+: cs ↔ ∃ s ∈ ss, fenceMark <:+: s.toList := by
  have hhead : ∀ {c : Char} {cs : List Char}, c ≠ '`' →
      (fenceMark <:+: c :: cs ↔ fenceMark <:+: cs) := by
    intro c cs hc
    simp [List.infix_cons_iff, fenceMark, hc.symm]
  induction h with
  | nil => simp [fenceMark]
  | outer c _ htick _ _ ih => exact (hhead htick).trans ih
  | string s _ ih =>
      rw [hhead (by decide), infix_append_cons_iff (by decide), fenceMark_infix_escaped_iff]
      simp [ih]

theorem fenceMark_infix_editsText_iff {edits : List Edit} :
    fenceMark <:+: editsText edits ↔ ∃ e ∈ edits, e.HoldsFence := by
  have hname : ∀ name : String, name = "oldString" ∨ name = "newString" →
      ¬ fenceMark <:+: name.toList := by
    rintro name (rfl | rfl) <;> exact not_fenceMark_infix_of_not_mem (by decide)
  rw [fenceMark_infix_iff_of_written (written_editsText edits)]
  constructor
  · rintro ⟨s, hs, hmark⟩
    obtain ⟨e, he, hs⟩ := List.mem_flatMap.mp hs
    simp only [Edit.strings, List.cons_append, List.mem_cons, List.mem_append,
      Option.mem_toList] at hs
    rcases hs with rfl | hs | rfl | hs
    · exact absurd hmark (hname _ (.inl rfl))
    · exact ⟨e, he, s, .inl hs, hmark⟩
    · exact absurd hmark (hname _ (.inr rfl))
    · exact ⟨e, he, s, .inr hs, hmark⟩
  · rintro ⟨e, he, s, hs, hmark⟩
    refine ⟨s, List.mem_flatMap.mpr ⟨e, he, ?_⟩, hmark⟩
    rcases hs with hs | hs <;> simp [Edit.strings, hs]

/-! ## Answers -/

theorem loosened_body {body cs : List Char} (hbody : LiteralBody body)
    (hcs : Loosened .outside cs cs) : Loosened .inside (body ++ '"' :: cs) (body ++ '"' :: cs) := by
  induction hbody with
  | nil => exact .closing hcs
  | plain c hquote hslash _ _ ih => exact .inner c hquote hslash ih
  | escape c _ _ ih => exact .escape c ih

theorem loosened_refl {cs : List Char} (h : WellQuoted cs) : Loosened .outside cs cs := by
  induction h with
  | nil => exact .done
  | outer c hquote _ _ ih => exact .outer c hquote ih
  | literal hbody _ ih => exact .opening (loosened_body hbody ih)

theorem answerEdits_of_stripFence {edits : List Edit} {text blanks : List Char}
    (hblanks : skipSpace blanks = []) (hfence : stripFence text = editsText edits ++ blanks) :
    answerEdits text = edits := by
  have hread := read?_editsText edits hblanks
  have hitems := answerItems_of_stripFence hread (loosened_refl (wellQuoted_of_read? hread)) hfence
  simp [answerEdits, hitems, Function.comp_def, Edit.ofJson?_toJson]

theorem flatMap_escapeControl_of_le {cs : List Char} (h : ∀ c ∈ cs, 0x20 ≤ c.toNat) :
    cs.flatMap escapeControl = cs := by
  induction cs with
  | nil => rfl
  | cons c cs ih =>
      rw [List.flatMap_cons, escapeControl_of_le (h c (by simp)), ih fun d hd => h d (by simp [hd])]
      rfl

/-- Where no control character stands there is nothing to mend. -/
theorem escapeLiterals_of_le {cs : List Char} (h : ∀ c ∈ cs, 0x20 ≤ c.toNat) :
    escapeLiterals cs = cs := by
  fun_induction escapeLiterals cs with
  | case1 => rfl
  | case2 cs body rest hliteral _ ih =>
      obtain ⟨inner, rfl, rfl⟩ := literal?_eq_append hliteral
      rw [flatMap_escapeControl_of_le fun c hc => h c (by grind), ih fun c hc => h c (by grind)]
      simp
  | case3 cs _ ih => rw [ih fun c hc => h c (by simp [hc])]
  | case4 c cs _ ih => rw [ih fun d hd => h d (by simp [hd])]

/-- A text that breaks off brings no edits. -/
theorem answerEdits_of_breaksOff {text body : List Char} (hfence : stripFence text = body)
    (hbody : BreaksOff body) (hcontrol : ∀ c ∈ body, 0x20 ≤ c.toNat) : answerEdits text = [] := by
  have hread : Json.read? body = none := by
    rw [Option.eq_none_iff_forall_ne_some]
    intro j hj
    exact hbody.not_wellQuoted (wellQuoted_of_read? hj)
  simp [answerEdits, answerItems, hfence, escapeLiterals_of_le hcontrol, hread]

theorem editsText_eq_cons (edits : List Edit) : ∃ tail, editsText edits = '[' :: tail :=
  ⟨compactItems (edits.map Edit.toJson) ++ [']'], editsText_eq edits⟩

theorem inFence_eq (text : List Char) : inFence text =
    [] ++ (fenceMark ++ ("json".toList ++ (['\n'] ++ (text ++ '\n' :: fenceMark)))) := by
  simp only [inFence, List.append_assoc, List.cons_append, List.nil_append]

theorem newline_blank : ∀ c ∈ ['\n'], isBlank c = true := by
  intro c hc
  obtain rfl := List.mem_singleton.mp hc
  rfl

/-- In a fence, the body ends with the first fence mark of the edits themselves. -/
theorem stripFence_inFence {edits : List Edit} (h : fenceMark <:+: editsText edits) :
    ∃ body rest, editsText edits = body ++ '`' :: rest ∧
      stripFence (inFence (editsText edits)) = body := by
  obtain ⟨tail, htail⟩ := editsText_eq_cons edits
  cases hsplit : splitFirst? fenceMark (editsText edits) with
  | none => exact absurd h (splitFirst?_eq_none_iff.mp hsplit)
  | some found =>
      obtain ⟨body, rest⟩ := found
      have hbody := splitFirst?_eq_append hsplit
      have hne : body ≠ [] := by
        rintro rfl
        rw [htail] at hbody
        exact absurd (List.cons.inj hbody).1 (by decide)
      obtain ⟨c, body, rfl⟩ := List.exists_cons_of_ne_nil hne
      have hopen : skipSpace (editsText edits ++ '\n' :: fenceMark) =
          '[' :: (tail ++ '\n' :: fenceMark) := by
        rw [htail]
        exact skipSpace_cons_of_not_isSpace rfl _
      have hbody' := fencedBody?_of_tag List.not_mem_nil (.inr rfl) newline_blank hopen
      have hcut := splitFirst?_append hsplit ('\n' :: fenceMark)
      rw [htail, List.cons_append] at hcut
      refine ⟨c :: body, '`' :: '`' :: rest, by simpa [fenceMark] using hbody, ?_⟩
      rw [stripFence, inFence_eq, hbody', hcut]
      rfl

/-- Edits in a fence are understood exactly when none of them holds a fence mark. -/
theorem answerEdits_inFence_iff (edits : List Edit) :
    answerEdits (inFence (editsText edits)) = edits ↔ ¬ ∃ e ∈ edits, e.HoldsFence := by
  rw [← fenceMark_infix_editsText_iff]
  constructor
  · intro hedits hmark
    obtain ⟨body, rest, hcut, hfence⟩ := stripFence_inFence hmark
    have hwritten := written_editsText edits
    have hnone : answerEdits (inFence (editsText edits)) = [] := by
      refine answerEdits_of_breaksOff hfence (hwritten.breaksOff hcut) ?_
      intro c hc
      exact hwritten.le_toNat (by simp [hcut, hc])
    obtain rfl : edits = [] := hedits.symm.trans hnone
    rw [fenceMark_infix_editsText_iff] at hmark
    exact absurd hmark (by simp)
  · intro hmark
    obtain ⟨tail, htail⟩ := editsText_eq_cons edits
    have hopen : skipSpace (editsText edits ++ ['\n']) = '[' :: (tail ++ ['\n']) := by
      rw [htail]
      exact skipSpace_cons_of_not_isSpace rfl _
    have hmark' : ¬ fenceMark <:+: editsText edits ++ ['\n'] := by
      rw [infix_append_cons_iff (by decide)]
      simpa [hmark] using not_fenceMark_infix_of_not_mem List.not_mem_nil
    have hfence := stripFence_of_fence [] List.not_mem_nil (.inr rfl) newline_blank hopen hmark'
      (by simp)
    have hstrip : stripFence (inFence (editsText edits)) = editsText edits ++ ['\n'] := by
      rw [inFence_eq, htail]
      simpa only [htail, List.append_assoc, List.append_nil, List.cons_append, List.nil_append]
        using hfence
    exact answerEdits_of_stripFence rfl hstrip

theorem answerEdits_editsText {edits : List Edit} (h : ¬ ∃ e ∈ edits, e.HoldsFence) :
    answerEdits (editsText edits) = edits := by
  rw [← fenceMark_infix_editsText_iff] at h
  apply answerEdits_of_stripFence (show skipSpace [] = [] from rfl)
  rw [stripFence_of_no_mark h, List.append_nil]

/-- Edits that are written as JSON are understood, alone and in a fence, exactly when none of their
texts holds a fence mark. -/
theorem answerEdits_editsText_iff (edits : List Edit) :
    (answerEdits (editsText edits) = edits ∧ answerEdits (inFence (editsText edits)) = edits) ↔
      ∀ e ∈ edits, ∀ s, e.old = some s ∨ e.new = some s → ¬ fenceMark <:+: s.toList := by
  have hclean : (∀ e ∈ edits, ∀ s, e.old = some s ∨ e.new = some s → ¬ fenceMark <:+: s.toList) ↔
      ¬ ∃ e ∈ edits, e.HoldsFence := by
    simp only [Edit.HoldsFence, not_exists, not_and]
  rw [hclean, ← answerEdits_inFence_iff]
  constructor
  · rintro ⟨-, hfenced⟩
    exact hfenced
  · intro hfenced
    have hnone := hfenced
    rw [answerEdits_inFence_iff] at hnone
    exact ⟨answerEdits_editsText hnone, hfenced⟩

/-- A comment with an example in a fence, as a model may well propose it. -/
def fencedExample : Edit where
  old := some "class A"
  new := some "/** Use: ```new A()``` */\nclass A"

/-- The example in the comment is taken for the answer, and no edit is left. -/
theorem answerEdits_fencedExample :
    answerEdits (editsText [fencedExample]) = [] ∧
      answerEdits (inFence (editsText [fencedExample])) = [] := by
  decide +kernel

end DocTransfer.Transfer
