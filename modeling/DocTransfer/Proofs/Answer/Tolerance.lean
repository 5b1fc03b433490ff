import DocTransfer.Proofs.Answer.Literal
import DocTransfer.Proofs.Text.Find

/-! # Answers are read through fences and raw control characters

An array that a model has written with raw control characters in its strings, and perhaps put into a
fence with words around it, is read as the array that was meant. -/

namespace DocTransfer.Transfer

open Json Text

/-! ## Fences -/

/-- A fence mark does not begin inside a text that holds none and does not end with a backtick. -/
theorem not_fenceMark_prefix_append {x : Char} {xs : List Char} (hmark : ¬ fenceMark <:+: x :: xs)
    (hlast : (x :: xs).getLast? ≠ some '`') (rest : List Char) :
    ¬ fenceMark <+: x :: (xs ++ rest) := by
  rintro ⟨tail, htail⟩
  cases xs with
  | nil =>
      simp only [fenceMark, List.cons_append, List.cons.injEq] at htail
      simp [← htail.1] at hlast
  | cons y xs =>
      cases xs with
      | nil =>
          simp only [fenceMark, List.cons_append, List.cons.injEq] at htail
          simp [← htail.2.1] at hlast
      | cons z xs =>
          simp only [fenceMark, List.cons_append, List.cons.injEq] at htail
          obtain ⟨rfl, rfl, rfl, -⟩ := htail
          exact hmark ⟨[], xs, rfl⟩

/-- The first fence mark after a text is found there, unless the text holds one or ends with a
backtick that would join it. -/
theorem splitFirst?_fenceMark {xs : List Char} (hmark : ¬ fenceMark <:+: xs)
    (hlast : xs.getLast? ≠ some '`') (rest : List Char) :
    splitFirst? fenceMark (xs ++ (fenceMark ++ rest)) = some (xs, rest) := by
  induction xs with
  | nil => simp [fenceMark, splitFirst?, after?]
  | cons x xs ih =>
      have htail : xs.getLast? ≠ some '`' := by
        intro h
        simp [List.getLast?_cons, h] at hlast
      have hocc : ¬ fenceMark <:+: xs := fun h => hmark (h.trans (List.suffix_cons x xs).isInfix)
      rw [List.cons_append, splitFirst?_cons_of_not_at_head
        (not_fenceMark_prefix_append hmark hlast _), ih hocc htail]
      rfl

theorem not_fenceMark_infix_of_not_mem {xs : List Char} (h : '`' ∉ xs) : ¬ fenceMark <:+: xs :=
  fun hocc => h (hocc.subset (by simp [fenceMark]))

theorem splitFirst?_fenceMark_of_not_mem {xs : List Char} (h : '`' ∉ xs) (rest : List Char) :
    splitFirst? fenceMark (xs ++ (fenceMark ++ rest)) = some (xs, rest) := by
  apply splitFirst?_fenceMark (not_fenceMark_infix_of_not_mem h)
  intro hlast
  exact h (List.mem_of_getLast? hlast)

/-- A text without a fence mark is taken whole. -/
theorem stripFence_of_no_mark {text : List Char} (h : ¬ fenceMark <:+: text) :
    stripFence text = text := by
  simp [stripFence, fencedBody?, splitFirst?_eq_none_iff.mpr h]

/-! ## The text of an array in an answer -/

theorem isBlank_of_isSpace {c : Char} (h : isSpace c = true) : isBlank c = true := by
  simp only [isSpace, Bool.or_eq_true, beq_iff_eq] at h
  rcases h with ((rfl | rfl) | rfl) | rfl <;> decide

/-- Before a bracket the blanks of JSON are all that is trimmed. -/
theorem trimStart_of_skipSpace {text tail : List Char} (h : skipSpace text = '[' :: tail) :
    trimStart text = '[' :: tail := by
  induction text using skipSpace_induction with
  | nil => cases h
  | blank c text hc ih =>
      rw [skipSpace_cons_of_isSpace hc] at h
      simpa [trimStart, isBlank_of_isSpace hc] using ih h
  | other c text hc =>
      rw [skipSpace_cons_of_not_isSpace hc] at h
      rw [h]
      rfl

theorem trimStart_append_of_blank {blanks text : List Char} (h : ∀ c ∈ blanks, isBlank c = true) :
    trimStart (blanks ++ text) = trimStart text :=
  List.dropWhile_append_of_pos h

/-- A text that opens with a bracket after its blanks does not open with the tag of a fence. -/
theorem after?_json_of_trimStart {text tail : List Char} (h : trimStart text = '[' :: tail) :
    after? "json".toList text = none := by
  rw [after?_eq_none_iff]
  rintro ⟨rest, rfl⟩
  have hword : trimStart ("json".toList ++ rest) = 'j' :: ("son".toList ++ rest) := rfl
  rw [hword] at h
  exact absurd (List.cons.inj h).1 (by decide)

/-- With its tag or without one, a fence is left at the bracket of its array. -/
theorem trimStart_of_tag {tag blanks text tail : List Char} (htag : tag = [] ∨ tag = "json".toList)
    (hblanks : ∀ c ∈ blanks, isBlank c = true) (h : skipSpace text = '[' :: tail) :
    trimStart ((after? "json".toList (tag ++ (blanks ++ text))).getD (tag ++ (blanks ++ text))) =
      '[' :: tail := by
  have htrim : trimStart (blanks ++ text) = '[' :: tail := by
    rw [trimStart_append_of_blank hblanks, trimStart_of_skipSpace h]
  rcases htag with rfl | rfl
  · rw [List.nil_append, after?_json_of_trimStart htrim]
    exact htrim
  · rw [after?_append]
    exact htrim

/-- The body of a fence begins at the bracket of its array. -/
theorem fencedBody?_of_tag {before tag blanks text tail : List Char} (hbefore : '`' ∉ before)
    (htag : tag = [] ∨ tag = "json".toList) (hblanks : ∀ c ∈ blanks, isBlank c = true)
    (h : skipSpace text = '[' :: tail) :
    fencedBody? (before ++ (fenceMark ++ (tag ++ (blanks ++ text)))) =
      (splitFirst? fenceMark ('[' :: tail)).map (·.1) := by
  have hbody := trimStart_of_tag htag hblanks h
  simp only [fencedBody?, splitFirst?_fenceMark_of_not_mem hbefore, Option.bind_eq_bind,
    Option.bind_some, hbody]
  cases splitFirst? fenceMark ('[' :: tail) <;> rfl

/-- The array in a fence is found, whatever stands before and after the fence. -/
theorem stripFence_of_fence {before tag blanks text tail : List Char} (after : List Char)
    (hbefore : '`' ∉ before) (htag : tag = [] ∨ tag = "json".toList)
    (hblanks : ∀ c ∈ blanks, isBlank c = true) (h : skipSpace text = '[' :: tail)
    (hmark : ¬ fenceMark <:+: text) (hlast : text.getLast? ≠ some '`') :
    stripFence (before ++ (fenceMark ++ (tag ++ (blanks ++ (text ++ (fenceMark ++ after)))))) =
      '[' :: tail := by
  have hsuffix : '[' :: tail <:+ text := h ▸ List.dropWhile_suffix isSpace
  have hmark' : ¬ fenceMark <:+: '[' :: tail := fun hin => hmark (hin.trans hsuffix.isInfix)
  have hlast' : ('[' :: tail).getLast? ≠ some '`' := by
    obtain ⟨skipped, rfl⟩ := hsuffix
    simpa using hlast
  have hbody := fencedBody?_of_tag hbefore htag hblanks (skipSpace_append h (fenceMark ++ after))
  have hfenced := splitFirst?_fenceMark hmark' hlast' after
  simp only [stripFence, hbody]
  rw [← List.cons_append, hfenced]
  rfl

/-! ## Answers -/

theorem answerItems_of_stripFence {text strict loose : List Char} {items : List Json}
    (h : Json.read? strict = some (.array items)) (hloose : Loosened .outside strict loose)
    (hfence : stripFence text = loose) : answerItems text = items := by
  have hmended := escapeLiterals_of_loosened (wellQuoted_of_read? h) hloose
  simp only [answerItems, hfence, hmended, h]

/-- Blanks aside, a loosened array begins with the same bracket. -/
theorem skipSpace_of_loosened {strict loose tail : List Char}
    (h : Loosened .outside strict loose) (hstrict : skipSpace strict = '[' :: tail) :
    ∃ tail', skipSpace loose = '[' :: tail' := by
  have hskip := h.skipSpace
  rw [hstrict] at hskip
  obtain ⟨tail', hloose, -⟩ := hskip.outer_inv (by decide)
  exact ⟨tail', hloose⟩

/-- An array written with raw control characters in its strings is read as the strict array, alone
or in the first fence of a text. -/
theorem answerItems_of_loosened {strict loose : List Char} {items : List Json}
    (h : Json.read? strict = some (.array items)) (hloose : Loosened .outside strict loose)
    (hmark : ¬ fenceMark <:+: loose) :
    answerItems loose = items ∧
      ∀ before tag blanks after : List Char, '`' ∉ before → (tag = [] ∨ tag = "json".toList) →
        (∀ c ∈ blanks, isBlank c = true) →
        answerItems (before ++ fenceMark ++ tag ++ blanks ++ loose ++ fenceMark ++ after) =
          items := by
  refine ⟨answerItems_of_stripFence h hloose (stripFence_of_no_mark hmark), ?_⟩
  intro before tag blanks after hbefore htag hblanks
  obtain ⟨tail, hstrict⟩ := skipSpace_of_read?_array h
  obtain ⟨tail', hopen⟩ := skipSpace_of_loosened hloose hstrict
  have hlast := getLast?_ne_of_loosened (wellQuoted_of_read? h) hloose
  -- the blanks before the bracket are lost with the ones of the fence
  have hskip : Json.read? (skipSpace strict) = some (.array items) := by
    rw [read?_skipSpace, h]
  apply answerItems_of_stripFence hskip hloose.skipSpace
  simp only [List.append_assoc]
  rw [stripFence_of_fence after hbefore htag hblanks hopen hmark hlast, hopen]

/-- An escaped quote and an escaped backslash stand right before a raw line feed here, and the next
literal is a raw tab. -/
theorem answerItems_of_loosened_escapes :
    answerItems "Here:\n```json\n[\"\\\"\\\\\n\", \"\t\"]\n```\nDone.".toList =
      [.string "\"\\\n", .string "\t"] := by
  have hread : Json.read? "[\"\\\"\\\\\\n\", \"\\t\"]\n".toList =
      some (.array [.string "\"\\\n", .string "\t"]) := by
    cbv
  have hloose : Loosened .outside "[\"\\\"\\\\\\n\", \"\\t\"]\n".toList
      "[\"\\\"\\\\\n\", \"\t\"]\n".toList :=
    .outer _ (by decide) <| .opening <| .escape _ <| .escape _ <|
      .raw _ _ (by decide) (by decide) <| .closing <| .outer _ (by decide) <|
      .outer _ (by decide) <| .opening <| .raw _ _ (by decide) (by decide) <| .closing <|
      .outer _ (by decide) <| .outer _ (by decide) .done
  have hmark : ¬ fenceMark <:+: "[\"\\\"\\\\\n\", \"\t\"]\n".toList :=
    not_fenceMark_infix_of_not_mem (by decide)
  exact (answerItems_of_loosened hread hloose hmark).2 "Here:\n".toList "json".toList ['\n']
    "\nDone.".toList (by decide) (.inr rfl) (by simp [isBlank])

end DocTransfer.Transfer
