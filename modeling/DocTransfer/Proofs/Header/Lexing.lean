import DocTransfer.Header.Reader
import DocTransfer.Proofs.Source.Lexing
import DocTransfer.Proofs.Text.Words
import Mathlib.Data.List.TakeWhile

/-! # Words and marks of a header -/

namespace DocTransfer.Header

open Source

/-- The kinds and texts of a header's tokens. -/
abbrev headerLexemes : List Char → List (TokenKind × List Char) :=
  lexemes isAsciiGap step

/-- No quoted text stands at the front where no quote follows a letter that may stand before one. -/
theorem textLength?_eq_none {cs : List Char}
    (h : ∀ e ∈ encodings, ∀ q rest, cs = e.toList ++ q :: rest → q ≠ '"' ∧ q ≠ '\x27') :
    textLength? cs = none := by
  rw [textLength?, List.findSome?_eq_none_iff]
  intro e he
  split
  · next hprefix =>
      obtain ⟨tail, htail⟩ := List.isPrefixOf_iff_prefix.mp hprefix
      have hdrop : cs.drop e.length = tail := by
        rw [← htail, ← String.length_toList, List.drop_left]
      simp only [hdrop]
      cases tail with
      | nil => rfl
      | cons q rest =>
          obtain ⟨hdouble, hsingle⟩ := h e he q rest htail.symm
          simp [hdouble, hsingle]
  · rfl

theorem ne_of_opensName {c d : Char} (hc : opensName c = true) (hd : opensName d = false) :
    c ≠ d := by
  rintro rfl
  simp [hc] at hd

theorem isNamePart_of_mem_encodings {e : String} (he : e ∈ encodings) :
    ∀ c ∈ e.toList, isNamePart c = true := by
  have hall : ∀ e ∈ encodings, ∀ c ∈ e.toList, isNamePart c = true := by decide
  exact hall e he

/-- A text goes on after a word with nothing that could be part of it, nor with a quote. -/
def EndsWord (rest : List Char) : Prop :=
  ∀ c ∈ rest.head?, isNamePart c = false ∧ c ≠ '"' ∧ c ≠ '\x27'

theorem step_word {c : Char} {cs rest : List Char} (hopens : opensName c = true)
    (hparts : ∀ d ∈ c :: cs, isNamePart d = true) (hrest : EndsWord rest) :
    step (c :: (cs ++ rest)) = (.word, cs.length + 1) := by
  have hquote : ∀ d, isNamePart d = true → d ≠ '"' ∧ d ≠ '\x27' := by
    intro d hd
    constructor
    · rintro rfl
      exact absurd hd (by decide)
    · rintro rfl
      exact absurd hd (by decide)
  have htext : textLength? (c :: (cs ++ rest)) = none := by
    apply textLength?_eq_none
    intro e he q tail heq
    rw [← List.cons_append] at heq
    obtain ⟨middle, hencoding, hmiddle⟩ | ⟨middle, hword, hmiddle⟩ :=
      List.append_eq_append_iff.mp heq
    · cases middle with
      | nil => exact (hrest q (by rw [hmiddle]; rfl)).2
      | cons d middle =>
          have hd : isNamePart d = true := by
            apply isNamePart_of_mem_encodings he
            simp [hencoding]
          have hnot := (hrest d (by rw [hmiddle]; rfl)).1
          simp [hd] at hnot
    · cases middle with
      | nil =>
          rw [List.nil_append] at hmiddle
          exact (hrest q (by rw [← hmiddle]; rfl)).2
      | cons d middle =>
          obtain ⟨rfl, -⟩ := List.cons.inj hmiddle
          exact hquote q (hparts q (by simp [hword]))
  have hcomment : commentLength? (c :: (cs ++ rest)) = none := by
    unfold commentLength?
    split
    · next heq => exact absurd (List.cons.inj heq).1 (ne_of_opensName hopens (by decide))
    · next heq => exact absurd (List.cons.inj heq).1 (ne_of_opensName hopens (by decide))
    · rfl
  have hmarks : longMarks.find? (fun m => m.toList.isPrefixOf (c :: (cs ++ rest))) = none := by
    rw [List.find?_eq_none]
    have hcolon : ':' ≠ c := (ne_of_opensName hopens (by decide)).symm
    have hdash : '-' ≠ c := (ne_of_opensName hopens (by decide)).symm
    simp [longMarks, hcolon, hdash]
  have hspan : spanLength isNamePart (c :: (cs ++ rest)) = cs.length + 1 := by
    have htake : (c :: cs ++ rest).takeWhile isNamePart = c :: cs := by
      rw [List.takeWhile_append_of_pos hparts]
      cases rest with
      | nil => simp
      | cons d rest => simp [(hrest d rfl).1]
    rw [spanLength, ← List.cons_append, htake, List.length_cons]
  unfold step
  split
  · next heq => exact absurd (List.cons.inj heq).1 (ne_of_opensName hopens (by decide))
  · next heq => exact absurd (List.cons.inj heq).1 (ne_of_opensName hopens (by decide))
  · next heq => exact absurd (List.cons.inj heq).1 (ne_of_opensName hopens (by decide))
  · next heq => exact absurd (List.cons.inj heq).1 (ne_of_opensName hopens (by decide))
  · simp [hcomment, htext, hmarks, hopens, hspan]

/-- The marks of a class before and after its body. -/
def headMarks : List Char :=
  [':', ',', ';', '\x7b', '\x7d']

theorem step_mark {c : Char} {rest : List Char} (hc : c ∈ headMarks)
    (hrest : rest.head? ≠ some ':') : step (c :: rest) = (.mark, 1) := by
  have hmark : ∀ d ∈ headMarks, d ≠ '/' ∧ d ≠ '\\' ∧ d ≠ '#' ∧ d ≠ '-' ∧ d ≠ '"' ∧ d ≠ '\x27' ∧
      opensName d = false ∧ d.isDigit = false ∧ isNamePart d = false := by decide
  obtain ⟨hslash, hback, hdirective, hdash, hdouble, hsingle, hopens, hdigit, hpart⟩ := hmark c hc
  have htext : textLength? (c :: rest) = none := by
    apply textLength?_eq_none
    intro e he q tail heq
    cases hletters : e.toList with
    | nil =>
        rw [hletters, List.nil_append] at heq
        cases heq
        exact ⟨hdouble, hsingle⟩
    | cons d letters =>
        rw [hletters] at heq
        have hd := isNamePart_of_mem_encodings he d (by simp [hletters])
        rw [← (List.cons.inj heq).1, hpart] at hd
        cases hd
  have hcomment : commentLength? (c :: rest) = none := by
    unfold commentLength?
    split
    · next heq => exact absurd (List.cons.inj heq).1 hslash
    · next heq => exact absurd (List.cons.inj heq).1 hslash
    · rfl
  have hmarks : longMarks.find? (fun m => m.toList.isPrefixOf (c :: rest)) = none := by
    rw [List.find?_eq_none]
    have hcolon : ¬ [':'] <+: rest := by
      rintro ⟨tail, rfl⟩
      exact hrest rfl
    simp [longMarks, hcolon, hdash.symm]
  unfold step
  split
  · next heq => exact absurd (List.cons.inj heq).1 hslash
  · next heq => exact absurd (List.cons.inj heq).1 hback
  · next heq => exact absurd (List.cons.inj heq).1 hback
  · next heq => exact absurd (List.cons.inj heq).1 hdirective
  · simp [hcomment, htext, hmarks, hopens, hdigit]

/-! ## Part by part -/

/-- A blank of the ASCII range. -/
def isSpacing (c : Char) : Bool :=
  c == ' ' || (9 ≤ c.toNat && c.toNat ≤ 13)

theorem isAsciiGap_of_isSpacing {c : Char} (h : isSpacing c = true) : isAsciiGap c = true := by
  rw [isAsciiGap, ← isSpacing, h, Bool.true_or]

theorem opensName_of_isAsciiGap {c : Char} (h : isAsciiGap c = true) : opensName c = false := by
  have hgaps : ∀ n ∈ [9, 10, 11, 12, 13, 32, 0xFEFF], opensName (Char.ofNat n) = false := by
    decide +kernel
  rw [← Char.ofNat_toNat c]
  apply hgaps
  simp only [isAsciiGap, Bool.or_eq_true, Bool.and_eq_true, beq_iff_eq, decide_eq_true_eq] at h
  simp only [List.mem_cons, List.not_mem_nil, or_false]
  rcases h with (rfl | h) | h
  · decide
  · omega
  · omega

theorem headerLexemes_gap {gap : List Char} (hgap : ∀ c ∈ gap, isSpacing c = true)
    (rest : List Char) : headerLexemes (gap ++ rest) = headerLexemes rest :=
  lexemes_append_gap (fun c hc => isAsciiGap_of_isSpacing (hgap c hc)) rest

theorem headerLexemes_word {word rest : List Char} (hopens : ∃ c ∈ word.head?, opensName c = true)
    (hparts : ∀ c ∈ word, isNamePart c = true) (hrest : EndsWord rest) :
    headerLexemes (word ++ rest) = (.word, word) :: headerLexemes rest := by
  obtain ⟨c, hc, hopens⟩ := hopens
  obtain ⟨cs, rfl⟩ := List.head?_eq_some_iff.mp hc
  have hgap : isAsciiGap c = false := by
    cases hgap : isAsciiGap c with
    | false => rfl
    | true =>
        rw [opensName_of_isAsciiGap hgap] at hopens
        cases hopens
  exact lexemes_append_token hgap (step_word hopens hparts hrest)

theorem headerLexemes_mark {c : Char} {rest : List Char} (hc : c ∈ headMarks)
    (hrest : rest.head? ≠ some ':') :
    headerLexemes (c :: rest) = (.mark, [c]) :: headerLexemes rest := by
  have hgap : ∀ d ∈ headMarks, isAsciiGap d = false := by decide
  have hstep : step (c :: ([] ++ rest)) = (.mark, 1) := step_mark hc hrest
  exact lexemes_append_token (hgap c hc) hstep

end DocTransfer.Header
