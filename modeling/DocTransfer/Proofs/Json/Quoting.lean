import DocTransfer.Proofs.Json.Grammar

/-! # Quotes of JSON text pair up

Outside strings an accepted text has no quote, so that its strings can be told apart without reading
the rest. It has no backtick there either. -/

namespace DocTransfer.Json

/-- A text made of string literals and of characters that are neither quotes nor backticks. -/
inductive WellQuoted : List Char → Prop where
  | nil : WellQuoted []
  | outer {cs : List Char} (c : Char) (hquote : c ≠ '"') (htick : c ≠ '`') (rest : WellQuoted cs) :
      WellQuoted (c :: cs)
  | literal {body cs : List Char} (hbody : LiteralBody body) (rest : WellQuoted cs) :
      WellQuoted ('"' :: (body ++ '"' :: cs))

theorem WellQuoted.append {cs : List Char} (used : List Char)
    (hused : ∀ c ∈ used, c ≠ '"' ∧ c ≠ '`') (h : WellQuoted cs) : WellQuoted (used ++ cs) := by
  induction used with
  | nil => exact h
  | cons c used ih =>
      have hc := hused c (by simp)
      exact .outer c hc.1 hc.2 (ih fun d hd => hused d (by simp [hd]))

theorem ne_of_class {p : Char → Bool} (hquote : p '"' = false) (htick : p '`' = false) {c : Char}
    (h : p c = true) : c ≠ '"' ∧ c ≠ '`' := by
  refine ⟨?_, ?_⟩
  · rintro rfl
    rw [hquote] at h
    cases h
  · rintro rfl
    rw [htick] at h
    cases h

theorem ne_of_isSpace {c : Char} (h : isSpace c = true) : c ≠ '"' ∧ c ≠ '`' :=
  ne_of_class (by decide) (by decide) h

theorem ne_of_isNumeralChar {c : Char} (h : isNumeralChar c = true) : c ≠ '"' ∧ c ≠ '`' :=
  ne_of_class (by decide) (by decide) h

theorem WellQuoted.of_skipSpace {cs : List Char} (h : WellQuoted (skipSpace cs)) :
    WellQuoted cs := by
  have hblank : ∀ c ∈ cs.takeWhile isSpace, c ≠ '"' ∧ c ≠ '`' := fun c hc =>
    ne_of_isSpace (List.all_eq_true.mp List.all_takeWhile c hc)
  have happend := WellQuoted.append _ hblank h
  rwa [skipSpace, List.takeWhile_append_dropWhile] at happend

theorem WellQuoted.of_string? {cs rest : List Char} {s : Option String}
    (h : string? cs = some (s, rest)) (hrest : WellQuoted rest) : WellQuoted ('"' :: cs) := by
  obtain ⟨body, hbody, rfl⟩ := string?_body h
  exact .literal hbody hrest

theorem WellQuoted.of_numeral? {cs rest : List Char} {n : Numeral}
    (h : numeral? cs = some (n, rest)) (hrest : WellQuoted rest) : WellQuoted cs := by
  obtain ⟨c, tail, rfl, hc, used, rfl, hused⟩ := numeral?_used h
  have hfirst : isNumeralChar c = true := by
    rcases hc with rfl | hdigit
    · decide
    · exact isNumeralChar_of_isDigit hdigit
  have hne := ne_of_isNumeralChar hfirst
  exact .outer c hne.1 hne.2 (.append used (fun d hd => ne_of_isNumeralChar (hused d hd)) hrest)

/-- A mark of the grammar after blanks. -/
theorem WellQuoted.of_mark {cs rest : List Char} {c : Char} (h : skipSpace cs = c :: rest)
    (hquote : c ≠ '"') (htick : c ≠ '`') (hrest : WellQuoted rest) : WellQuoted cs := by
  apply WellQuoted.of_skipSpace
  rw [h]
  exact .outer c hquote htick hrest

/-- What the grammar takes off the head of a text keeps the quotes in pairs. -/
theorem Reads.wellQuoted {part : Part} {cs rest : List Char} (h : Reads part cs rest)
    (hrest : WellQuoted rest) : WellQuoted cs := by
  induction h with
  | blank c hc _ ih => exact .outer c (ne_of_isSpace hc).1 (ne_of_isSpace hc).2 (ih hrest)
  | nullWord rest => exact .append ['n', 'u', 'l', 'l'] (by simp) hrest
  | trueWord rest => exact .append ['t', 'r', 'u', 'e'] (by simp) hrest
  | falseWord rest => exact .append ['f', 'a', 'l', 's', 'e'] (by simp) hrest
  | number h => exact .of_numeral? h hrest
  | string h => exact .of_string? h hrest
  | emptyArray h =>
      exact .append ['['] (by simp) (.of_mark h (by decide) (by decide) hrest)
  | array _ ih => exact .append ['['] (by simp) (ih hrest)
  | emptyObject h =>
      exact .append ['\x7b'] (by simp) (.of_mark h (by decide) (by decide) hrest)
  | object _ ih => exact .append ['\x7b'] (by simp) (ih hrest)
  | lastItem _ hend ih => exact ih (.of_mark hend (by decide) (by decide) hrest)
  | moreItems _ hcomma _ ih ihnext =>
      exact ih (.of_mark hcomma (by decide) (by decide) (ihnext hrest))
  | lastField hname hcolon _ hend ih =>
      have hvalue := ih (.of_mark hend (by decide) (by decide) hrest)
      exact .of_string? hname (.of_mark hcolon (by decide) (by decide) hvalue)
  | moreFields hname hcolon _ hcomma _ ih ihnext =>
      have hvalue := ih (.of_mark hcomma (by decide) (by decide) (ihnext hrest))
      exact .of_string? hname (.of_mark hcolon (by decide) (by decide) hvalue)

theorem wellQuoted_of_outline {cs : List Char} {v : Outline} (h : Outline.read? cs = some v) :
    WellQuoted cs := by
  obtain ⟨rest, hreads, hblank⟩ := Outline.read?_eq_some_iff.mp h
  refine hreads.wellQuoted (.of_skipSpace ?_)
  rw [hblank]
  exact .nil

/-- A text with a value has its quotes in pairs. -/
theorem wellQuoted_of_read? {cs : List Char} {j : Json} (h : read? cs = some j) :
    WellQuoted cs := by
  obtain ⟨v, houtline, -⟩ := Option.bind_eq_some_iff.mp h
  exact wellQuoted_of_outline houtline

/-! ## Arrays -/

theorem Reads.skipSpace_array {vs : List Outline} {cs rest : List Char}
    (h : Reads (.value (.array vs)) cs rest) : ∃ tail, skipSpace cs = '[' :: tail := by
  generalize hpart : Part.value (.array vs) = part at h
  induction h with
  | blank c hc _ ih =>
      rw [skipSpace_cons_of_isSpace hc]
      exact ih hpart
  | emptyArray h => exact ⟨_, skipSpace_cons_of_not_isSpace (by decide) _⟩
  | array _ _ => exact ⟨_, skipSpace_cons_of_not_isSpace (by decide) _⟩
  | _ => cases hpart

/-- The text of an array begins with its bracket. -/
theorem skipSpace_of_read?_array {cs : List Char} {items : List Json}
    (h : read? cs = some (.array items)) : ∃ tail, skipSpace cs = '[' :: tail := by
  obtain ⟨v, houtline, hvalue⟩ := Option.bind_eq_some_iff.mp h
  obtain ⟨rest, hreads, -⟩ := Outline.read?_eq_some_iff.mp houtline
  cases v with
  | array vs => exact hreads.skipSpace_array
  | null => simp [Outline.value?] at hvalue
  | bool b => simp [Outline.value?] at hvalue
  | number n => simp [Outline.value?] at hvalue
  | string s => simp [Outline.value?] at hvalue
  | object fs => simp [Outline.value?] at hvalue

end DocTransfer.Json
