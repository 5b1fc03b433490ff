import DocTransfer.Proofs.Answer.Literal
import Mathlib.Data.List.Infix

/-! # Escaping is local

Whatever a text holds, its string literals from left to right cut it into pieces. Escaping keeps
what stands between the literals, and the literals of the escaped text are those of the text, each
with its raw control characters escaped. -/

namespace DocTransfer.Transfer

/-! ## The form of a literal -/

/-- What follows the opening quote of a literal: characters that are no quote and no backslash,
backslashes with a character that is no line feed after each, and the closing quote. -/
inductive LiteralEnd : List Char → Prop where
  | close : LiteralEnd ['"']
  | plain {cs} (c : Char) (hquote : c ≠ '"') (hslash : c ≠ '\\') (h : LiteralEnd cs) :
      LiteralEnd (c :: cs)
  | pair {cs} (c : Char) (hline : c ≠ '\n') (h : LiteralEnd cs) : LiteralEnd ('\\' :: c :: cs)

/-- A string literal with its quotes. -/
def IsLiteral (cs : List Char) : Prop :=
  ∃ body, cs = '"' :: body ∧ LiteralEnd body

theorem LiteralEnd.literal? {body : List Char} (h : LiteralEnd body) (rest : List Char) :
    literal? (body ++ rest) = some (body, rest) := by
  induction h with
  | close => rfl
  | plain c hquote hslash _ ih =>
      rw [List.cons_append, literal?_of_plain hquote hslash, ih]
      rfl
  | pair c hline _ ih =>
      rw [List.cons_append, List.cons_append, literal?_of_escape hline, ih]
      rfl

/-- The search for the end of a literal finds exactly what has the form of one. -/
theorem literal?_eq_some_iff {cs body rest : List Char} :
    literal? cs = some (body, rest) ↔ LiteralEnd body ∧ cs = body ++ rest := by
  constructor
  · intro h
    fun_induction literal? cs generalizing body rest with
    | case1 => cases h
    | case2 cs =>
        cases h
        exact ⟨.close, rfl⟩
    | case3 => cases h
    | case4 c cs hc ih =>
        obtain ⟨⟨body', rest'⟩, hliteral, heq⟩ := Option.map_eq_some_iff.mp h
        cases heq
        obtain ⟨hbody, rfl⟩ := ih hliteral
        exact ⟨.pair c hc hbody, rfl⟩
    | case5 => cases h
    | case6 c cs hquote _ hslash ih =>
        obtain ⟨⟨body', rest'⟩, hliteral, heq⟩ := Option.map_eq_some_iff.mp h
        cases heq
        obtain ⟨hbody, rfl⟩ := ih hliteral
        exact ⟨.plain c hquote hslash hbody, rfl⟩
  · rintro ⟨hbody, rfl⟩
    exact hbody.literal? rest

/-- At one place at most one literal begins. -/
theorem IsLiteral.append_inj {cs ds rest rest' : List Char} (hcs : IsLiteral cs)
    (hds : IsLiteral ds) (h : cs ++ rest = ds ++ rest') : cs = ds ∧ rest = rest' := by
  obtain ⟨body, rfl, hbody⟩ := hcs
  obtain ⟨body', rfl, hbody'⟩ := hds
  rw [List.cons_append, List.cons_append, List.cons.injEq] at h
  have heq := hbody.literal? rest
  rw [h.2, hbody'.literal?] at heq
  cases heq
  exact ⟨rfl, rfl⟩

theorem not_prefix_of_ne {c : Char} (hc : c ≠ '"') (cs : List Char) {literal : List Char}
    (h : IsLiteral literal) : ¬ literal <+: c :: cs := by
  obtain ⟨body, rfl, -⟩ := h
  rintro ⟨rest, heq⟩
  exact hc (List.cons.inj heq).1.symm

theorem not_prefix_of_literal?_eq_none {cs literal : List Char} (hnone : literal? cs = none)
    (h : IsLiteral literal) : ¬ literal <+: '"' :: cs := by
  obtain ⟨body, rfl, hbody⟩ := h
  rintro ⟨rest, heq⟩
  rw [List.cons_append, List.cons.injEq] at heq
  rw [← heq.2, hbody.literal?] at hnone
  cases hnone

/-! ## Cuts -/

/-- A text cut at its literals: each of them after what stands before it, and what stands after the
last. -/
structure Cut where
  literals : List (List Char × List Char)
  tail : List Char

namespace Cut

/-- The text that is cut. -/
def text (cut : Cut) : List Char :=
  cut.literals.flatMap (fun (gap, literal) => gap ++ literal) ++ cut.tail

/-- The cut with the raw control characters of its literals escaped. -/
def escaped (cut : Cut) : Cut where
  literals := cut.literals.map fun (gap, literal) => (gap, literal.flatMap escapeControl)
  tail := cut.tail

/-- The cut with one more literal in front. -/
def add (gap literal : List Char) (cut : Cut) : Cut :=
  { cut with literals := (gap, literal) :: cut.literals }

/-- The cut with one more character in front that is in no literal. -/
def push (c : Char) (cut : Cut) : Cut :=
  match cut.literals with
  | [] => { cut with tail := c :: cut.tail }
  | (gap, literal) :: more => { cut with literals := (c :: gap, literal) :: more }

@[simp] theorem text_add (gap literal : List Char) (cut : Cut) :
    (cut.add gap literal).text = gap ++ (literal ++ cut.text) := by
  simp [text, add]

@[simp] theorem text_push (c : Char) (cut : Cut) : (cut.push c).text = c :: cut.text := by
  obtain ⟨_ | ⟨gap, more⟩, tail⟩ := cut <;> simp [text, push]

@[simp] theorem escaped_add (gap literal : List Char) (cut : Cut) :
    (cut.add gap literal).escaped = cut.escaped.add gap (literal.flatMap escapeControl) :=
  rfl

@[simp] theorem escaped_push (c : Char) (cut : Cut) :
    (cut.push c).escaped = cut.escaped.push c := by
  obtain ⟨_ | ⟨gap, more⟩, tail⟩ := cut <;> rfl

end Cut

/-- A cut at the literals from left to right: the first literal is the one that begins first, and
what follows it is cut in the same way. -/
inductive LeftmostCut : List Char → Cut → Prop where
  | none {text} (h : ∀ literal, IsLiteral literal → ¬ literal <:+: text) :
      LeftmostCut text ⟨[], text⟩
  | next {text gap literal rest cut} (htext : text = gap ++ (literal ++ rest))
      (hliteral : IsLiteral literal)
      (hfirst : ∀ before other after, IsLiteral other → text = before ++ (other ++ after) →
        gap.length ≤ before.length)
      (hrest : LeftmostCut rest cut) : LeftmostCut text (cut.add gap literal)

theorem LeftmostCut.text_eq {text : List Char} {cut : Cut} (h : LeftmostCut text cut) :
    cut.text = text := by
  induction h with
  | none => simp [Cut.text]
  | next htext _ _ _ ih => rw [Cut.text_add, ih, htext]

/-- There is only one such cut of a text. -/
theorem LeftmostCut.unique {text : List Char} {cut cut' : Cut} (h : LeftmostCut text cut)
    (h' : LeftmostCut text cut') : cut = cut' := by
  induction h generalizing cut' with
  | none hnone =>
      cases h' with
      | none => rfl
      | @next _ gap literal rest _ htext hliteral =>
          exact absurd ⟨gap, rest, by simp [htext]⟩ (hnone literal hliteral)
  | @next text gap literal rest cut htext hliteral hfirst _ ih =>
      cases h' with
      | none hnone => exact absurd ⟨gap, rest, by simp [htext]⟩ (hnone literal hliteral)
      | @next _ gap' literal' rest' cut' htext' hliteral' hfirst' hrest' =>
          have hlength : gap.length = gap'.length :=
            Nat.le_antisymm (hfirst _ _ _ hliteral' htext') (hfirst' _ _ _ hliteral htext)
          obtain ⟨rfl, heq⟩ := List.append_inj (htext.symm.trans htext') hlength
          obtain ⟨rfl, rfl⟩ := hliteral.append_inj hliteral' heq
          rw [ih hrest']

/-- A character where no literal begins is put before the cut of what follows. -/
theorem LeftmostCut.push {c : Char} {text : List Char} {cut : Cut} (h : LeftmostCut text cut)
    (hc : ∀ literal, IsLiteral literal → ¬ literal <+: c :: text) :
    LeftmostCut (c :: text) (cut.push c) := by
  cases h with
  | none hnone =>
      refine .none ?_
      intro literal hliteral hinfix
      rcases List.infix_cons_iff.mp hinfix with hprefix | hinfix
      · exact hc literal hliteral hprefix
      · exact hnone literal hliteral hinfix
  | @next _ gap literal rest cut htext hliteral hfirst hrest =>
      have hpushed : c :: text = (c :: gap) ++ (literal ++ rest) := by rw [htext, List.cons_append]
      refine .next hpushed hliteral ?_ hrest
      intro before other after hother heq
      cases before with
      | nil => exact absurd ⟨after, heq.symm⟩ (hc other hother)
      | cons d before =>
          have hbefore := hfirst before other after hother (List.cons.inj heq).2
          simpa using hbefore

/-! ## Escaped texts -/

theorem escapeLiterals_of_literal?_eq_none {cs : List Char} (h : literal? cs = none) :
    escapeLiterals ('"' :: cs) = '"' :: escapeLiterals cs := by
  rw [escapeLiterals_cons, if_pos rfl, h]

/-- Where a quote opens no literal, it opens none in the escaped text. -/
theorem literal?_escapeLiterals_eq_none {cs : List Char} (h : literal? cs = none) :
    literal? (escapeLiterals cs) = none := by
  -- what hinders the literal is the end of the text or a backslash before a line feed; no literal
  -- begins before it, not even at a quote after a backslash
  fun_induction literal? cs with
  | case1 =>
      rw [escapeLiterals_nil]
      rfl
  | case2 => cases h
  | case3 cs =>
      rw [escapeLiterals_of_outer (by decide), escapeLiterals_of_outer (by decide)]
      rfl
  | case4 c cs hc ih =>
      have hrest := Option.map_eq_none_iff.mp h
      have hc' : escapeLiterals (c :: cs) = c :: escapeLiterals cs := by
        by_cases hquote : c = '"'
        · rw [hquote, escapeLiterals_of_literal?_eq_none hrest]
        · exact escapeLiterals_of_outer hquote cs
      rw [escapeLiterals_of_outer (by decide), hc', literal?_of_escape hc, ih hrest]
      rfl
  | case5 cs _ hlast =>
      cases cs with
      | nil =>
          rw [escapeLiterals_of_outer (by decide), escapeLiterals_nil]
          rfl
      | cons d cs => exact absurd rfl (hlast d cs rfl)
  | case6 c cs hquote _ hslash ih =>
      rw [escapeLiterals_of_outer hquote, literal?_of_plain hquote hslash,
        ih (Option.map_eq_none_iff.mp h)]
      rfl

/-- The characters that are escaped inside literals. -/
def IsRaw (c : Char) : Prop :=
  c = '\t' ∨ c = '\n' ∨ c = '\r'

/-- The letters of their escapes. -/
def IsEscapeLetter (e : Char) : Prop :=
  e = 't' ∨ e = 'n' ∨ e = 'r'

theorem escapeControl_cases (c : Char) :
    ¬ IsRaw c ∧ escapeControl c = [c] ∨
      ∃ e, IsEscapeLetter e ∧ escapeControl c = ['\\', e] := by
  unfold escapeControl IsRaw IsEscapeLetter
  grind

theorem IsEscapeLetter.plain {e : Char} (h : IsEscapeLetter e) :
    e ≠ '"' ∧ e ≠ '\\' ∧ ¬ IsRaw e := by
  rcases h with rfl | rfl | rfl <;> simp [IsRaw]

theorem IsEscapeLetter.ne_lineFeed {e : Char} (h : IsEscapeLetter e) : e ≠ '\n' :=
  fun heq => h.plain.2.2 (.inr (.inl heq))

/-- An escaped literal is a literal. -/
theorem LiteralEnd.escaped {body : List Char} (h : LiteralEnd body) :
    LiteralEnd (body.flatMap escapeControl) := by
  induction h with
  | close => exact .close
  | plain c hquote hslash _ ih =>
      rw [List.flatMap_cons]
      obtain ⟨-, hc⟩ | ⟨e, he, hc⟩ := escapeControl_cases c
      · rw [hc]
        exact .plain c hquote hslash ih
      · rw [hc]
        exact .pair e he.ne_lineFeed ih
  | pair c hline _ ih =>
      rw [List.flatMap_cons, List.flatMap_cons]
      obtain ⟨-, hc⟩ | ⟨e, he, hc⟩ := escapeControl_cases c
      · rw [hc]
        exact .pair c hline ih
      · -- the backslash before the raw character now goes with the one of its escape
        obtain ⟨hquote, hslash, -⟩ := he.plain
        rw [hc]
        exact .pair '\\' (by decide) (.plain e hquote hslash ih)

theorem IsLiteral.escaped {literal : List Char} (h : IsLiteral literal) :
    IsLiteral (literal.flatMap escapeControl) := by
  obtain ⟨body, rfl, hbody⟩ := h
  exact ⟨body.flatMap escapeControl, rfl, hbody.escaped⟩

theorem LeftmostCut.literal {literal rest : List Char} {cut : Cut} (hliteral : IsLiteral literal)
    (h : LeftmostCut rest cut) : LeftmostCut (literal ++ rest) (cut.add [] literal) :=
  .next rfl hliteral (fun _ _ _ _ _ => Nat.zero_le _) h

/-- Escaping goes by the literals from left to right, and the literals of the result are these,
escaped. -/
theorem exists_leftmostCut (text : List Char) :
    ∃ cut, LeftmostCut text cut ∧ escapeLiterals text = cut.escaped.text ∧
      LeftmostCut (escapeLiterals text) cut.escaped := by
  fun_induction escapeLiterals text with
  | case1 =>
      have hnone : ∀ literal, IsLiteral literal → ¬ literal <:+: [] := by
        rintro literal ⟨body, rfl, -⟩ hinfix
        simp at hinfix
      exact ⟨⟨[], []⟩, .none hnone, rfl, .none hnone⟩
  | case2 cs body rest hliteral _ ih =>
      obtain ⟨cut, hcut, htext, hescaped⟩ := ih
      obtain ⟨hbody, rfl⟩ := literal?_eq_some_iff.mp hliteral
      have hquoted : IsLiteral ('"' :: body) := ⟨body, rfl, hbody⟩
      refine ⟨cut.add [] ('"' :: body), .literal hquoted hcut, ?_,
        .literal hquoted.escaped hescaped⟩
      rw [htext]
      simp [escapeControl]
  | case3 cs hnone ih =>
      obtain ⟨cut, hcut, htext, hescaped⟩ := ih
      refine ⟨cut.push '"', hcut.push fun _ => not_prefix_of_literal?_eq_none hnone, ?_, ?_⟩
      · rw [Cut.escaped_push, Cut.text_push, htext]
      · rw [Cut.escaped_push]
        exact hescaped.push fun _ =>
          not_prefix_of_literal?_eq_none (literal?_escapeLiterals_eq_none hnone)
  | case4 c cs hc ih =>
      obtain ⟨cut, hcut, htext, hescaped⟩ := ih
      refine ⟨cut.push c, hcut.push fun _ => not_prefix_of_ne hc cs, ?_, ?_⟩
      · rw [Cut.escaped_push, Cut.text_push, htext]
      · rw [Cut.escaped_push]
        exact hescaped.push fun _ => not_prefix_of_ne hc _

/-! ## No raw control characters are left -/

theorem not_isRaw_of_mem_escapeControl {c d : Char} (h : c ∈ escapeControl d) : ¬ IsRaw c := by
  obtain ⟨hd, hsame⟩ | ⟨e, he, hpair⟩ := escapeControl_cases d
  · rw [hsame, List.mem_singleton] at h
    exact h ▸ hd
  · rw [hpair, List.mem_pair] at h
    rcases h with rfl | rfl
    · simp [IsRaw]
    · exact he.plain.2.2

theorem escapeControl_of_not_isRaw {c : Char} (h : ¬ IsRaw c) : escapeControl c = [c] := by
  simp only [IsRaw, not_or] at h
  simp [escapeControl, h]

theorem flatMap_escapeControl_idem (cs : List Char) :
    (cs.flatMap escapeControl).flatMap escapeControl = cs.flatMap escapeControl := by
  have hraw : ∀ c ∈ cs.flatMap escapeControl, escapeControl c = [c] := by
    intro c hc
    obtain ⟨d, -, hd⟩ := List.mem_flatMap.mp hc
    exact escapeControl_of_not_isRaw (not_isRaw_of_mem_escapeControl hd)
  rw [List.flatMap_congr hraw, List.flatMap_singleton']

theorem Cut.escaped_escaped (cut : Cut) : cut.escaped.escaped = cut.escaped := by
  simp [Cut.escaped, flatMap_escapeControl_idem]

/-- A text has one cut at its literals from left to right. Escaping keeps what this has between the
literals and escapes the raw tabs, line feeds and carriage returns in them. The cut of the result is
the one of the text with the literals so escaped, these hold no such character any more, and
escaping once more changes nothing. -/
theorem escapeLiterals_local (text : List Char) :
    ∃ cut, (∀ cut', LeftmostCut text cut' ↔ cut' = cut) ∧ cut.text = text ∧
      escapeLiterals text = cut.escaped.text ∧
      LeftmostCut (escapeLiterals text) cut.escaped ∧
      (∀ p ∈ cut.escaped.literals, ∀ c ∈ p.2, ¬ IsRaw c) ∧
      escapeLiterals (escapeLiterals text) = escapeLiterals text := by
  obtain ⟨cut, hcut, htext, hescaped⟩ := exists_leftmostCut text
  refine ⟨cut, ?_, hcut.text_eq, htext, hescaped, ?_, ?_⟩
  · intro cut'
    exact ⟨fun h => h.unique hcut, fun h => h ▸ hcut⟩
  · intro p hp c hc
    obtain ⟨q, -, rfl⟩ := List.mem_map.mp hp
    obtain ⟨d, -, hd⟩ := List.mem_flatMap.mp hc
    exact not_isRaw_of_mem_escapeControl hd
  · obtain ⟨again, hagain, htext', -⟩ := exists_leftmostCut (escapeLiterals text)
    rw [htext', hagain.unique hescaped, Cut.escaped_escaped, ← htext]

-- A backslash may stand before a raw tab, and before a line feed it hinders a literal.
example : escapeLiterals "\"a\\\t\" \"\\\nb\t\"\t\"".toList =
    "\"a\\\\t\" \"\\\nb\t\"\\t\"".toList := by
  cbv

end DocTransfer.Transfer
