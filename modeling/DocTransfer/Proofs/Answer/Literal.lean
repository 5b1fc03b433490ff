import DocTransfer.Proofs.Json.Quoting
import DocTransfer.Transfer.Answer

/-! # Raw control characters in string literals

A loosened text has some of its line feeds, tabs and carriage returns raw inside its literals, where
strict text has escapes. Mending finds the same literals in both and gives the strict text back. -/

namespace DocTransfer.Transfer

open Json

/-! ## Loosened text -/

/-- A place in a text: outside its string literals or inside one. -/
inductive Place where
  | outside
  | inside

/-- The second text is the first with any of the escapes of line feed, tab and carriage return that
stand inside string literals written as the raw character. -/
inductive Loosened : Place → List Char → List Char → Prop where
  | done : Loosened .outside [] []
  | outer {strict loose} (c : Char) (hquote : c ≠ '"') (h : Loosened .outside strict loose) :
      Loosened .outside (c :: strict) (c :: loose)
  | opening {strict loose} (h : Loosened .inside strict loose) :
      Loosened .outside ('"' :: strict) ('"' :: loose)
  | closing {strict loose} (h : Loosened .outside strict loose) :
      Loosened .inside ('"' :: strict) ('"' :: loose)
  | inner {strict loose} (c : Char) (hquote : c ≠ '"') (hslash : c ≠ '\\')
      (h : Loosened .inside strict loose) : Loosened .inside (c :: strict) (c :: loose)
  | escape {strict loose} (c : Char) (h : Loosened .inside strict loose) :
      Loosened .inside ('\\' :: c :: strict) ('\\' :: c :: loose)
  | raw {strict loose} (c e : Char) (hc : c = '\n' ∨ c = '\t' ∨ c = '\r')
      (he : shortEscape? e = some c) (h : Loosened .inside strict loose) :
      Loosened .inside ('\\' :: e :: strict) (c :: loose)

theorem Loosened.skipSpace {strict loose : List Char} (h : Loosened .outside strict loose) :
    Loosened .outside (Json.skipSpace strict) (Json.skipSpace loose) := by
  generalize hplace : Place.outside = place at h
  induction h with
  | done => exact .done
  | outer c hquote h ih =>
      cases hc : isSpace c with
      | true =>
          rw [skipSpace_cons_of_isSpace hc, skipSpace_cons_of_isSpace hc]
          exact ih hplace
      | false =>
          rw [skipSpace_cons_of_not_isSpace hc, skipSpace_cons_of_not_isSpace hc]
          exact .outer c hquote h
  | opening h =>
      rw [skipSpace_cons_of_not_isSpace (by decide), skipSpace_cons_of_not_isSpace (by decide)]
      exact .opening h
  | _ => cases hplace

/-! ## Literals -/

theorem literal?_of_plain {c : Char} (hquote : c ≠ '"') (hslash : c ≠ '\\') (cs : List Char) :
    literal? (c :: cs) = (literal? cs).map fun (body, rest) => (c :: body, rest) := by
  rw [literal?]
  · simp [hslash]
  · exact hquote
  · intro d rest hc
    exact absurd hc hslash

theorem literal?_of_escape {c : Char} (hc : c ≠ '\n') (cs : List Char) :
    literal? ('\\' :: c :: cs) =
      (literal? cs).map fun (body, rest) => ('\\' :: c :: body, rest) :=
  if_neg hc

/-- What a literal takes off the head of a text ends with its closing quote. -/
theorem literal?_eq_append {cs body rest : List Char} (h : literal? cs = some (body, rest)) :
    ∃ inner, body = inner ++ ['"'] ∧ cs = inner ++ '"' :: rest := by
  fun_induction literal? cs generalizing body rest with
  | case1 => cases h
  | case2 cs =>
      cases h
      exact ⟨[], rfl, rfl⟩
  | case3 => cases h
  | case4 c cs hc ih =>
      obtain ⟨⟨body', rest'⟩, hliteral, heq⟩ := Option.map_eq_some_iff.mp h
      cases heq
      obtain ⟨inner, rfl, rfl⟩ := ih hliteral
      exact ⟨'\\' :: c :: inner, rfl, rfl⟩
  | case5 => cases h
  | case6 c cs _ _ hc ih =>
      obtain ⟨⟨body', rest'⟩, hliteral, heq⟩ := Option.map_eq_some_iff.mp h
      cases heq
      obtain ⟨inner, rfl, rfl⟩ := ih hliteral
      exact ⟨c :: inner, rfl, rfl⟩

theorem escapeControl_of_le {c : Char} (h : 0x20 ≤ c.toNat) : escapeControl c = [c] := by
  have hne : ∀ d : Char, d.toNat < 0x20 → c ≠ d := by
    rintro d hd rfl
    omega
  simp [escapeControl, hne '\t' (by decide), hne '\n' (by decide), hne '\r' (by decide)]

/-- A raw control character is mended to the escape that stands for it. -/
theorem escapeControl_of_shortEscape? {c e : Char} (hc : c = '\n' ∨ c = '\t' ∨ c = '\r')
    (he : shortEscape? e = some c) : escapeControl c = ['\\', e] := by
  unfold shortEscape? at he
  split at he
  case h_6 | h_7 | h_8 =>
    cases he
    rfl
  case h_9 => cases he
  all_goals
    cases he
    exact absurd hc (by decide)

/-- A loosened literal is found whole, and mending it gives the strict one. -/
theorem literal?_of_loosened {body cs loose : List Char} (hbody : LiteralBody body)
    (h : Loosened .inside (body ++ '"' :: cs) loose) :
    ∃ found rest, literal? loose = some (found, rest) ∧
      found.flatMap escapeControl = body ++ ['"'] ∧ Loosened .outside cs rest := by
  induction hbody generalizing loose with
  | nil =>
      cases h with
      | closing h => exact ⟨['"'], _, rfl, rfl, h⟩
      | inner c hquote => exact absurd rfl hquote
  | @plain tail c hquote hslash hcontrol _ ih =>
      -- the text after `c` has to be a variable for the rules to be told apart
      rw [List.cons_append] at h
      generalize hstrict : tail ++ '"' :: cs = strict at h ih
      cases h with
      | closing => exact absurd rfl hquote
      | escape => exact absurd rfl hslash
      | raw => exact absurd rfl hslash
      | inner _ _ _ h =>
          obtain ⟨found, rest, hfound, hmended, hrest⟩ := ih h
          refine ⟨c :: found, rest, ?_, ?_, hrest⟩
          · rw [literal?_of_plain hquote hslash, hfound]
            rfl
          · rw [List.flatMap_cons, escapeControl_of_le hcontrol, hmended]
            rfl
  | escape c hcontrol _ ih =>
      have hbackslash : escapeControl '\\' = ['\\'] := by decide
      cases h with
      | inner _ _ hslash => exact absurd rfl hslash
      | escape _ h =>
          obtain ⟨found, rest, hfound, hmended, hrest⟩ := ih h
          have hline : c ≠ '\n' := by
            rintro rfl
            exact absurd hcontrol (by decide)
          refine ⟨'\\' :: c :: found, rest, ?_, ?_, hrest⟩
          · rw [literal?_of_escape hline, hfound]
            rfl
          · rw [List.flatMap_cons, List.flatMap_cons, hbackslash, escapeControl_of_le hcontrol,
              hmended]
            rfl
      | raw d _ hd he h =>
          obtain ⟨found, rest, hfound, hmended, hrest⟩ := ih h
          have hplain : d ≠ '"' ∧ d ≠ '\\' := by
            rcases hd with rfl | rfl | rfl <;> decide
          refine ⟨d :: found, rest, ?_, ?_, hrest⟩
          · rw [literal?_of_plain hplain.1 hplain.2, hfound]
            rfl
          · rw [List.flatMap_cons, escapeControl_of_shortEscape? hd he, hmended]
            rfl

/-! ## Parts of a loosened text -/

theorem Loosened.outer_inv {c : Char} {cs loose : List Char} (hquote : c ≠ '"')
    (h : Loosened .outside (c :: cs) loose) :
    ∃ rest, loose = c :: rest ∧ Loosened .outside cs rest := by
  cases h with
  | outer _ _ h => exact ⟨_, rfl, h⟩
  | opening => exact absurd rfl hquote

theorem Loosened.literal_inv {body cs loose : List Char} (hbody : LiteralBody body)
    (h : Loosened .outside ('"' :: (body ++ '"' :: cs)) loose) :
    ∃ tail found rest, loose = '"' :: tail ∧ literal? tail = some (found, rest) ∧
      found.flatMap escapeControl = body ++ ['"'] ∧ Loosened .outside cs rest := by
  cases h with
  | outer _ hquote => exact absurd rfl hquote
  | opening h =>
      obtain ⟨found, rest, hfound, hmended, hrest⟩ := literal?_of_loosened hbody h
      exact ⟨_, found, rest, rfl, hfound, hmended, hrest⟩

/-! ## Mending -/

theorem escapeLiterals_nil : escapeLiterals [] = [] := by
  rw [escapeLiterals]

/-- One step of mending. -/
theorem escapeLiterals_cons (c : Char) (cs : List Char) :
    escapeLiterals (c :: cs) =
      if c = '"' then
        match literal? cs with
        | some (body, rest) => '"' :: body.flatMap escapeControl ++ escapeLiterals rest
        | none => '"' :: escapeLiterals cs
      else c :: escapeLiterals cs := by
  rw [escapeLiterals]
  congr 1
  split
  next body rest h => simp only [h]
  next h => simp only [h]

theorem escapeLiterals_of_outer {c : Char} (hc : c ≠ '"') (cs : List Char) :
    escapeLiterals (c :: cs) = c :: escapeLiterals cs := by
  rw [escapeLiterals_cons, if_neg hc]

theorem escapeLiterals_of_literal? {cs body rest : List Char}
    (h : literal? cs = some (body, rest)) :
    escapeLiterals ('"' :: cs) = '"' :: body.flatMap escapeControl ++ escapeLiterals rest := by
  rw [escapeLiterals_cons, if_pos rfl, h]

/-- Mending a loosened text gives the strict one back. -/
theorem escapeLiterals_of_loosened {strict loose : List Char} (hstrict : WellQuoted strict)
    (h : Loosened .outside strict loose) : escapeLiterals loose = strict := by
  induction hstrict generalizing loose with
  | nil =>
      cases h
      exact escapeLiterals_nil
  | outer c hquote htick _ ih =>
      obtain ⟨rest, rfl, hrest⟩ := h.outer_inv hquote
      rw [escapeLiterals_of_outer hquote, ih hrest]
  | literal hbody _ ih =>
      obtain ⟨tail, found, rest, rfl, hfound, hmended, hrest⟩ := h.literal_inv hbody
      rw [escapeLiterals_of_literal? hfound, hmended, ih hrest]
      simp

theorem getLast?_cons_ne {c d : Char} {cs : List Char} (hc : c ≠ d) (h : cs.getLast? ≠ some d) :
    (c :: cs).getLast? ≠ some d := by
  cases hlast : cs.getLast? with
  | none => simp [List.getLast?_cons, hlast, hc]
  | some e => simpa [List.getLast?_cons, hlast] using h

/-- A loosened text does not end with a backtick. -/
theorem getLast?_ne_of_loosened {strict loose : List Char} (hstrict : WellQuoted strict)
    (h : Loosened .outside strict loose) : loose.getLast? ≠ some '`' := by
  induction hstrict generalizing loose with
  | nil =>
      cases h
      simp
  | outer c hquote htick _ ih =>
      obtain ⟨rest, rfl, hrest⟩ := h.outer_inv hquote
      exact getLast?_cons_ne htick (ih hrest)
  | literal hbody _ ih =>
      obtain ⟨tail, found, rest, rfl, hfound, -, hrest⟩ := h.literal_inv hbody
      obtain ⟨inner, -, rfl⟩ := literal?_eq_append hfound
      have hlast := getLast?_cons_ne (show '"' ≠ '`' by decide) (ih hrest)
      simpa [List.getLast?_cons] using hlast

end DocTransfer.Transfer
