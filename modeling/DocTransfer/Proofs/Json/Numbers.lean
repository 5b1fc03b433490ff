import DocTransfer.Json.Decode
import DocTransfer.Proofs.Json.Pretty
import Mathlib.Data.List.Basic

/-! # Numbers are read as they were written

The text of a count is its decimal digits, and these give the count back as long as it fits in eight
bytes. A number with a fraction stands in its own text: if that text alone reads back, it does so
inside a larger one. -/

namespace DocTransfer.Json

open Number

/-! ## Numerals at the head of a text -/

theorem digitRun?_eq_some_iff {cs ds rest : List Char} :
    digitRun? cs = some (ds, rest) ↔
      cs = ds ++ rest ∧ ds ≠ [] ∧ (∀ d ∈ ds, d.isDigit = true) ∧
        ∀ c ∈ rest.head?, c.isDigit = false := by
  constructor
  · intro h
    obtain ⟨hcs, hne, hdigits⟩ := digitRun?_used h
    refine ⟨hcs, hne, hdigits, ?_⟩
    have hrest : rest = cs.dropWhile Char.isDigit := by
      unfold digitRun? at h
      split at h
      · cases h
      · exact (congrArg Prod.snd (Option.some.inj h)).symm
    intro c hc
    have hstop := List.head?_dropWhile_not Char.isDigit cs
    rw [← hrest, hc] at hstop
    exact hstop
  · rintro ⟨rfl, hne, hdigits, hrest⟩
    have hstop : rest.takeWhile Char.isDigit = [] ∧ rest.dropWhile Char.isDigit = rest := by
      cases rest with
      | nil => simp
      | cons c rest => simp [hrest c rfl]
    have hrun : digitRun (ds ++ rest) = (ds, rest) := by
      rw [digitRun, List.takeWhile_append_of_pos hdigits, List.dropWhile_append_of_pos hdigits,
        hstop.1, hstop.2, List.append_nil]
    obtain ⟨d, ds, rfl⟩ := List.exists_cons_of_ne_nil hne
    rw [digitRun?, hrun]

/-- The sign, the digits before the point, the fraction and the exponent, one after the other. -/
theorem numeral?_eq_some_iff {cs rest : List Char} {n : Numeral} :
    numeral? cs = some (n, rest) ↔
      ∃ body afterWhole afterFraction, cs = (if n.negative then ['-'] else []) ++ body ∧
        digitRun? body = some (n.whole, afterWhole) ∧
        ¬ (n.whole.head? = some '0' ∧ n.whole.length ≠ 1) ∧
        fraction? afterWhole = some (n.fraction, afterFraction) ∧
        exponent? afterFraction = some (n.exponent, rest) := by
  constructor
  · intro h
    unfold numeral? at h
    split at h
    next negative body hsign =>
    simp only [Option.bind_eq_bind, Option.bind_eq_some_iff] at h
    obtain ⟨⟨whole, afterWhole⟩, hwhole, h⟩ := h
    split at h
    · cases h
    · next hzero =>
        simp only [Option.bind_eq_some_iff] at h
        obtain ⟨⟨f, afterFraction⟩, hfraction, ⟨e, afterExponent⟩, hexponent, heq⟩ := h
        cases heq
        refine ⟨body, afterWhole, afterFraction, ?_, hwhole, hzero, hfraction, hexponent⟩
        split at hsign <;> cases hsign <;> rfl
  · rintro ⟨body, afterWhole, afterFraction, rfl, hwhole, hzero, hfraction, hexponent⟩
    obtain ⟨negative, whole, fraction, exponent⟩ := n
    cases negative with
    | true =>
        simp [numeral?, hwhole, hzero, hfraction, hexponent]
    | false =>
        obtain ⟨c, tail, rfl, hdigit, -⟩ := digit_of_digitRun? hwhole (.refl _)
        have hsign : c ≠ '-' := by
          rintro rfl
          cases hdigit
        simp [numeral?, hwhole, hzero, hfraction, hexponent, hsign]

theorem exponent?_of_mark {c : Char} (h : c = 'e' ∨ c = 'E') (cs : List Char) :
    exponent? (c :: cs) =
      match cs with
      | '+' :: cs => exponentDigits? false cs
      | '-' :: cs => exponentDigits? true cs
      | cs => exponentDigits? false cs :=
  if_pos h

theorem exponent?_of_no_mark {c : Char} (h : ¬ (c = 'e' ∨ c = 'E')) (cs : List Char) :
    exponent? (c :: cs) = some (none, c :: cs) :=
  if_neg h

section

variable {cs rest more : List Char} (hmore : EndsNumeral more)

include hmore

theorem not_isDigit_of_endsNumeral {c : Char} (hc : c ∈ more.head?) : c.isDigit = false := by
  have hnumeral := hmore c hc
  simp only [isNumeralChar, Bool.or_eq_false_iff] at hnumeral
  exact hnumeral.1.1.1.1.1

theorem digitRun?_append {ds : List Char} (h : digitRun? cs = some (ds, rest)) :
    digitRun? (cs ++ more) = some (ds, rest ++ more) := by
  rw [digitRun?_eq_some_iff] at h ⊢
  obtain ⟨rfl, hne, hdigits, hrest⟩ := h
  refine ⟨by simp, hne, hdigits, ?_⟩
  intro c hc
  cases rest with
  | nil => exact not_isDigit_of_endsNumeral hmore hc
  | cons d rest => exact hrest c hc

theorem fraction?_append {f : Option (List Char)} (h : fraction? cs = some (f, rest)) :
    fraction? (cs ++ more) = some (f, rest ++ more) := by
  unfold fraction? at h
  split at h
  · obtain ⟨⟨ds, rest'⟩, hrun, heq⟩ := Option.map_eq_some_iff.mp h
    cases heq
    simp [fraction?, digitRun?_append hmore hrun]
  · next hpoint =>
      cases h
      unfold fraction?
      split
      · next cs' heq =>
          cases cs with
          | nil =>
              rw [List.nil_append] at heq
              exact absurd (hmore '.' (by rw [heq]; rfl)) (by decide)
          | cons c cs =>
              obtain ⟨rfl, -⟩ := List.cons.inj heq
              exact (hpoint _ rfl).elim
      · rfl

theorem exponentDigits?_append {negative : Bool} {e : Option (Bool × List Char)}
    (h : exponentDigits? negative cs = some (e, rest)) :
    exponentDigits? negative (cs ++ more) = some (e, rest ++ more) := by
  obtain ⟨⟨ds, rest'⟩, hrun, heq⟩ := Option.map_eq_some_iff.mp h
  cases heq
  simp [exponentDigits?, digitRun?_append hmore hrun]

theorem exponent?_append {e : Option (Bool × List Char)} (h : exponent? cs = some (e, rest)) :
    exponent? (cs ++ more) = some (e, rest ++ more) := by
  cases cs with
  | nil =>
      cases h
      cases more with
      | nil => rfl
      | cons c more =>
          have hc := hmore c rfl
          have hmark : ¬ (c = 'e' ∨ c = 'E') := by
            rintro (rfl | rfl) <;> cases hc
          exact exponent?_of_no_mark hmark more
  | cons c cs =>
      rw [List.cons_append]
      by_cases hmark : c = 'e' ∨ c = 'E'
      · rw [exponent?_of_mark hmark] at h ⊢
        split at h
        · exact exponentDigits?_append hmore h
        · exact exponentDigits?_append hmore h
        · obtain ⟨ds, hrun, -⟩ := Option.map_eq_some_iff.mp h
          obtain ⟨d, tail, rfl, hdigit, -⟩ := digit_of_digitRun? hrun (.refl _)
          have happend := exponentDigits?_append hmore h
          rw [List.cons_append] at happend ⊢
          split
          · next heq => cases heq; cases hdigit
          · next heq => cases heq; cases hdigit
          · exact happend
      · rw [exponent?_of_no_mark hmark] at h ⊢
        cases h
        rfl

/-- A numeral stays what it is when something else follows it. -/
theorem numeral?_append {n : Numeral} (h : numeral? cs = some (n, rest)) :
    numeral? (cs ++ more) = some (n, rest ++ more) := by
  rw [numeral?_eq_some_iff] at h ⊢
  obtain ⟨body, afterWhole, afterFraction, rfl, hwhole, hzero, hfraction, hexponent⟩ := h
  exact ⟨body ++ more, afterWhole ++ more, afterFraction ++ more, by simp,
    digitRun?_append hmore hwhole, hzero, fraction?_append hmore hfraction,
    exponent?_append hmore hexponent⟩

end

/-- A number whose text is a numeral is read in full. -/
theorem legible_of_numeral? {n : JsonNumber} {numeral : Numeral}
    (h : numeral? (numberText n) = some (numeral, [])) :
    Legible n ∧ numberOutline n = .number numeral := by
  have houtline : numberOutline n = .number numeral := by
    rw [numberOutline, h]
  refine ⟨?_, houtline⟩
  intro rest hrest
  rw [houtline]
  exact .number (numeral?_append hrest h)

/-! ## Counts -/

/-- No count but zero is written with a zero in front. -/
theorem head?_toDigits {n : Nat} (h : 0 < n) : (Nat.toDigits 10 n).head? ≠ some '0' := by
  induction n using Nat.strongRecOn with
  | ind n ih =>
      by_cases hsmall : n < 10
      · have hall : ∀ k : Nat, k < 10 → 0 < k → k.digitChar ≠ '0' := by decide
        rw [Nat.toDigits_of_lt_base hsmall]
        simpa using hall n hsmall h
      · rw [Nat.toDigits_of_base_le (by decide) (by omega),
          List.head?_append_of_ne_nil _ Nat.toDigits_ne_nil]
        exact ih (n / 10) (by omega) (by omega)

/-- The numeral of a count. -/
def countNumeral (n : Nat) : Numeral :=
  ⟨false, Nat.toDigits 10 n, none, none⟩

theorem numeral?_toDigits (n : Nat) : numeral? (Nat.toDigits 10 n) = some (countNumeral n, []) := by
  rw [numeral?_eq_some_iff]
  refine ⟨Nat.toDigits 10 n, [], [], rfl, ?_, ?_, rfl, rfl⟩
  · rw [digitRun?_eq_some_iff]
    refine ⟨by simp [countNumeral], Nat.toDigits_ne_nil, ?_, by simp⟩
    intro d hd
    exact Nat.isDigit_of_mem_toDigits (by decide) (by decide) hd
  · rintro ⟨hzero, hlength⟩
    cases n with
    | zero => exact hlength rfl
    | succ n => exact head?_toDigits (Nat.succ_pos n) hzero

theorem le_foldl_digits (ds : List Char) (start : Nat) :
    start ≤ ds.foldl (fun n d => n * 10 + (d.toNat - '0'.toNat)) start := by
  induction ds generalizing start with
  | nil => exact Nat.le_refl start
  | cons d ds ih =>
      have hnext := ih (start * 10 + (d.toNat - '0'.toNat))
      rw [List.foldl_cons]
      omega

/-- Digits are taken one by one as long as their value fits. -/
theorem accumulate_of_le {start : Nat} {ds : List Char}
    (h : ds.foldl (fun n d => n * 10 + (d.toNat - '0'.toNat)) start ≤ maxCount) :
    accumulate start ds = (ds.foldl (fun n d => n * 10 + (d.toNat - '0'.toNat)) start, 0) := by
  induction ds generalizing start with
  | nil => rfl
  | cons d ds ih =>
      rw [List.foldl_cons] at h ⊢
      have hfits := Nat.le_trans (le_foldl_digits ds _) h
      exact (if_neg (Nat.not_lt.mpr hfits)).trans (ih h)

theorem digitsValue_toDigits (n : Nat) : digitsValue (Nat.toDigits 10 n) = n := by
  have hvalue := Nat.ofDigitChars_ten_toDigits (n := n)
  simp only [Nat.ofDigitChars_eq_foldl, Nat.mul_comm 10] at hvalue
  exact hvalue

theorem numberText_int (n : Nat) : numberText (.int n) = Nat.toDigits 10 n := by
  have htext : numberText (.int n) = (toString n).toList := rfl
  rw [htext, Nat.toString_eq_ofList_toDigits, String.toList_ofList]

theorem numeral?_int (n : Nat) : numeral? (numberText (.int n)) = some (countNumeral n, []) := by
  rw [numberText_int, numeral?_toDigits]

theorem legible_int (n : Nat) : Legible (.int n) :=
  (legible_of_numeral? (numeral?_int n)).1

theorem value?_countNumeral {n : Nat} (h : n ≤ maxCount) :
    (countNumeral n).value? = some (.int n) := by
  have hvalue := digitsValue_toDigits n
  rw [digitsValue] at hvalue
  have hall : accumulate 0 (Nat.toDigits 10 n) = (n, 0) := by
    rw [accumulate_of_le (by rwa [hvalue]), hvalue]
  simp [Numeral.value?, countNumeral, hall]

theorem outline_nat (n : Nat) : (Json.nat n).outline = .number (countNumeral n) :=
  (legible_of_numeral? (numeral?_int n)).2

/-- A count is read back within any bound that it keeps and that fits in eight bytes. -/
theorem natural_outline {n top : Nat} (h : n ≤ top) (htop : top ≤ maxCount) (limit : Nat) :
    Decode.natural top limit (Json.nat n).outline = some n := by
  rw [outline_nat]
  simp [Decode.natural, value?_countNumeral (Nat.le_trans h htop), h]

theorem nullable_natural_outline {n top : Nat} (h : n ≤ top) (htop : top ≤ maxCount) (limit : Nat) :
    Decode.nullable (Decode.natural top) limit (Json.nat n).outline = some (some n) := by
  have hread := natural_outline h htop limit
  rw [outline_nat] at hread ⊢
  rw [Decode.nullable, hread, Option.map_some]
  exact fun heq => nomatch heq

theorem le_of_natural {n top limit : Nat} {o : Outline} (h : Decode.natural top limit o = some n) :
    n ≤ top := by
  unfold Decode.natural at h
  split at h
  · split at h
    · split at h
      · next hfits =>
          cases h
          exact hfits.2
      · cases h
    · cases h
  · cases h

/-! ## Four-byte numbers -/

/-- A text of characters that numerals are made of. -/
def NumeralText (s : String) : Prop :=
  ∀ c ∈ s.toList, isNumeralChar c = true

instance (s : String) : Decidable (NumeralText s) :=
  List.decidableBAll (fun c => isNumeralChar c = true) s.toList

theorem NumeralText.append {s t : String} (hs : NumeralText s) (ht : NumeralText t) :
    NumeralText (s ++ t) := by
  intro c hc
  rw [String.toList_append, List.mem_append] at hc
  exact hc.elim (hs c) (ht c)

theorem numeralText_ofList {ds : List Char} (h : ∀ d ∈ ds, d.isDigit = true) :
    NumeralText (String.ofList ds) := by
  intro c hc
  rw [String.toList_ofList] at hc
  exact isNumeralChar_of_isDigit (h c hc)

theorem numeralText_zeros (n : Nat) : NumeralText (zeros n) := by
  apply numeralText_ofList
  intro d hd
  rw [List.eq_of_mem_replicate hd]
  rfl

theorem numeralText_digitsOf (n : Nat) : NumeralText (digitsOf n) :=
  numeralText_ofList fun _ hd => Nat.isDigit_of_mem_toDigits (by decide) (by decide) hd

theorem numeralText_positional (l : Layout) {digits : List Char} (before : Int)
    (h : ∀ d ∈ digits, d.isDigit = true) : NumeralText (l.positional digits before) := by
  have hdigits := numeralText_ofList h
  unfold Layout.positional
  dsimp only
  split
  · refine (hdigits.append (numeralText_zeros _)).append ?_
    split <;> decide
  · split
    · refine (NumeralText.append (numeralText_ofList ?_) (by decide)).append (numeralText_ofList ?_)
      · exact fun d hd => h d (List.mem_of_mem_take hd)
      · exact fun d hd => h d (List.mem_of_mem_drop hd)
    · exact (NumeralText.append (by decide) (numeralText_zeros _)).append hdigits

theorem numeralText_scientific {digits : List Char} (before : Int)
    (h : ∀ d ∈ digits, d.isDigit = true) : NumeralText (scientific digits before) := by
  unfold scientific
  dsimp only
  refine (NumeralText.append ?_ ?_).append (numeralText_digitsOf _)
  · split
    · decide
    · exact numeralText_ofList h
    · next d ds _ =>
        intro c hc
        rw [String.toList_ofList, List.mem_cons, List.mem_cons] at hc
        rcases hc with rfl | rfl | hc
        · exact isNumeralChar_of_isDigit (h c (by simp))
        · decide
        · exact isNumeralChar_of_isDigit (h c (by simp [hc]))
  · split <;> decide

/-- Whatever its layout, a finite number is written with the characters of numerals. -/
theorem numeralText_write (f : Format) (l : Layout) (negative : Bool) (m : Nat) (e : Int) :
    NumeralText ((Binary.finite negative m e).write f l) := by
  rw [Binary.write]
  refine NumeralText.append ?_ ?_
  · split <;> decide
  · split
    · split <;> decide
    · have hdigits : ∀ d ∈ Nat.toDigits 10 (f.shortest m e).digits, d.isDigit = true :=
        fun _ hd => Nat.isDigit_of_mem_toDigits (by decide) (by decide) hd
      unfold Layout.write
      dsimp only
      split
      · exact numeralText_positional l _ hdigits
      · exact numeralText_scientific _ hdigits

/-- The text of a four-byte number, read alone, gives the number back. -/
def ReadsBack (b : Binary) : Prop :=
  (Outline.read? (numberText (.single b))).bind (Decode.single maxDepth) = some b

instance (b : Binary) : Decidable (ReadsBack b) :=
  inferInstanceAs (Decidable (_ = _))

theorem exists_numeral_of_single {limit : Nat} {o : Outline} {b : Binary}
    (h : Decode.single limit o = some b) : ∃ numeral, o = .number numeral := by
  cases o with
  | number numeral => exact ⟨numeral, rfl⟩
  | _ => cases h

theorem not_isSpace_of_isNumeralChar {c : Char} (h : isNumeralChar c = true) :
    isSpace c = false := by
  apply Bool.eq_false_iff.mpr
  intro hspace
  simp only [isSpace, Bool.or_eq_true, beq_iff_eq] at hspace
  rcases hspace with ((rfl | rfl) | rfl) | rfl <;> cases h

/-- A text without blanks that holds a number and nothing more is a numeral. -/
theorem numeral?_of_read? {cs : List Char} {numeral : Numeral}
    (h : Outline.read? cs = some (.number numeral)) (hcs : ∀ c ∈ cs, isSpace c = false) :
    numeral? cs = some (numeral, []) := by
  obtain ⟨rest, hreads, hend⟩ := Outline.read?_eq_some_iff.mp h
  cases hreads with
  | blank c hc =>
      rw [hcs c (by simp)] at hc
      cases hc
  | number hnumeral =>
      obtain ⟨c, tail, rfl, -, used, rfl, -⟩ := numeral?_used hnumeral
      have hrest : rest = [] := by
        cases rest with
        | nil => rfl
        | cons d rest =>
            rw [skipSpace_cons_of_not_isSpace (hcs d (by simp))] at hend
            cases hend
      rw [hrest] at hnumeral ⊢
      exact hnumeral

/-- A number that reads back alone is also read back inside a larger text. -/
theorem ReadsBack.legible {b : Binary} (h : ReadsBack b) :
    Legible (.single b) ∧ ∀ limit, Decode.single limit (numberOutline (.single b)) = some b := by
  obtain ⟨o, hread, hsingle⟩ := Option.bind_eq_some_iff.mp h
  obtain ⟨numeral, rfl⟩ := exists_numeral_of_single hsingle
  cases b with
  | finite negative m e =>
      have hnumeral := numeral?_of_read? hread fun c hc =>
        not_isSpace_of_isNumeralChar (numeralText_write .single .jsonSingle negative m e c hc)
      obtain ⟨hlegible, houtline⟩ := legible_of_numeral? hnumeral
      rw [houtline]
      exact ⟨hlegible, fun _ => hsingle⟩
  | _ => cases hread

end DocTransfer.Json
