import DocTransfer.Json.Outline

/-! # Blanks, strings and numerals of JSON text

What the reader takes off the head of a text when it skips blanks, reads a string or reads a
numeral. -/

namespace DocTransfer.Json

/-! ## Blanks -/

theorem skipSpace_cons_of_isSpace {c : Char} (hc : isSpace c = true) (cs : List Char) :
    skipSpace (c :: cs) = skipSpace cs := by
  simp [skipSpace, hc]

theorem skipSpace_cons_of_not_isSpace {c : Char} (hc : isSpace c = false) (cs : List Char) :
    skipSpace (c :: cs) = c :: cs := by
  simp [skipSpace, hc]

/-- A text is empty, or begins with a blank, or is where skipping stops. -/
theorem skipSpace_induction {motive : List Char → Prop} (nil : motive [])
    (blank : ∀ c cs, isSpace c = true → motive cs → motive (c :: cs))
    (other : ∀ c cs, isSpace c = false → motive (c :: cs)) (cs : List Char) : motive cs := by
  induction cs with
  | nil => exact nil
  | cons c cs ih =>
      cases hc : isSpace c with
      | true => exact blank c cs hc ih
      | false => exact other c cs hc

@[simp] theorem skipSpace_skipSpace (cs : List Char) : skipSpace (skipSpace cs) = skipSpace cs := by
  induction cs using skipSpace_induction with
  | nil => rfl
  | blank c cs hc ih => rw [skipSpace_cons_of_isSpace hc, ih]
  | other c cs hc => rw [skipSpace_cons_of_not_isSpace hc, skipSpace_cons_of_not_isSpace hc]

theorem skipSpace_append {cs rest : List Char} {c : Char} (h : skipSpace cs = c :: rest)
    (more : List Char) : skipSpace (cs ++ more) = c :: (rest ++ more) := by
  unfold skipSpace at h ⊢
  rw [List.dropWhile_append, h]
  rfl

theorem length_skipSpace_le (cs : List Char) : (skipSpace cs).length ≤ cs.length :=
  (List.dropWhile_suffix isSpace).length_le

/-! ## Strings -/

/-- What may stand between the quotes of a string: no quote and no control character, except that a
backslash takes the next character along. -/
inductive LiteralBody : List Char → Prop where
  | nil : LiteralBody []
  | plain {cs : List Char} (c : Char) (hquote : c ≠ '"') (hslash : c ≠ '\\')
      (hcontrol : 0x20 ≤ c.toNat) (rest : LiteralBody cs) : LiteralBody (c :: cs)
  | escape {cs : List Char} (c : Char) (hcontrol : 0x20 ≤ c.toNat) (rest : LiteralBody cs) :
      LiteralBody ('\\' :: c :: cs)

theorem toNat_of_hexDigit? {c : Char} {n : Nat} (h : hexDigit? c = some n) : 0x30 ≤ c.toNat := by
  have hle : ∀ d : Char, d ≤ c → d.toNat ≤ c.toNat := fun d hd => hd
  unfold hexDigit? at h
  split at h
  · next hc => exact hle '0' hc.1
  · split at h
    · next hc => exact Nat.le_trans (by decide) (hle 'a' hc.1)
    · split at h
      · next hc => exact Nat.le_trans (by decide) (hle 'A' hc.1)
      · cases h

/-- A hexadecimal digit may stand in a string. -/
theorem LiteralBody.hexDigit {c : Char} {cs : List Char} {n : Nat} (hc : hexDigit? c = some n)
    (rest : LiteralBody cs) : LiteralBody (c :: cs) := by
  have hdigit := toNat_of_hexDigit? hc
  refine .plain c ?_ ?_ (by omega) rest
  · rintro rfl
    exact absurd hdigit (by decide)
  · rintro rfl
    simp [show hexDigit? '\\' = none by decide] at hc

theorem toNat_of_shortEscape? {e c : Char} (h : shortEscape? e = some c) : 0x20 ≤ e.toNat := by
  unfold shortEscape? at h
  split at h
  case h_9 => cases h
  all_goals decide

/-- A string that the reader accepts ends at its first quote that is not escaped. -/
theorem pieces?_body {cs rest : List Char} {ps : List Piece} (h : pieces? cs = some (ps, rest)) :
    ∃ body, LiteralBody body ∧ cs = body ++ '"' :: rest := by
  fun_induction pieces? cs generalizing ps rest with
  | case1 => cases h
  | case2 cs =>
      cases h
      exact ⟨[], .nil, rfl⟩
  | case3 a b c d cs ih =>
      simp only [hexUnit?, Option.bind_eq_bind, Option.bind_eq_some_iff] at h
      obtain ⟨n, ⟨a', ha, b', hb, c', hc, d', hd, -⟩, ⟨qs, rest'⟩, hpieces, heq⟩ := h
      cases heq
      obtain ⟨body, hbody, rfl⟩ := ih hpieces
      have hdigits : LiteralBody (a :: b :: c :: d :: body) :=
        .hexDigit ha (.hexDigit hb (.hexDigit hc (.hexDigit hd hbody)))
      exact ⟨_, .escape 'u' (by decide) hdigits, rfl⟩
  | case4 e cs hunit ih =>
      simp only [Option.bind_eq_bind, Option.bind_eq_some_iff] at h
      obtain ⟨c, hescape, ⟨qs, rest'⟩, hpieces, heq⟩ := h
      cases heq
      obtain ⟨body, hbody, rfl⟩ := ih hpieces
      exact ⟨_, .escape e (toNat_of_shortEscape? hescape) hbody, rfl⟩
  | case5 => cases h
  | case6 c cs hquote _ _ hplain ih =>
      simp only [Option.bind_eq_bind, Option.bind_eq_some_iff] at h
      obtain ⟨⟨qs, rest'⟩, hpieces, heq⟩ := h
      cases heq
      obtain ⟨body, hbody, rfl⟩ := ih hpieces
      simp only [not_or, Nat.not_lt] at hplain
      exact ⟨_, .plain c hquote hplain.2 hplain.1 hbody, rfl⟩

theorem string?_body {cs rest : List Char} {s : Option String} (h : string? cs = some (s, rest)) :
    ∃ body, LiteralBody body ∧ cs = body ++ '"' :: rest := by
  obtain ⟨⟨ps, rest'⟩, hpieces, heq⟩ := Option.map_eq_some_iff.mp h
  cases heq
  exact pieces?_body hpieces

/-! ## Numerals -/

/-- The characters of numerals. -/
def isNumeralChar (c : Char) : Bool :=
  c.isDigit || c == '-' || c == '+' || c == '.' || c == 'e' || c == 'E'

theorem isNumeralChar_of_isDigit {c : Char} (h : c.isDigit = true) : isNumeralChar c = true := by
  simp [isNumeralChar, h]

theorem digitRun?_used {cs ds rest : List Char} (h : digitRun? cs = some (ds, rest)) :
    cs = ds ++ rest ∧ ds ≠ [] ∧ ∀ d ∈ ds, d.isDigit = true := by
  unfold digitRun? at h
  split at h
  · cases h
  · next hrun =>
      have heq : digitRun cs = (ds, rest) := Option.some.inj h
      have hds : cs.takeWhile Char.isDigit = ds := congrArg Prod.fst heq
      have hrest : cs.dropWhile Char.isDigit = rest := congrArg Prod.snd heq
      refine ⟨?_, ?_, ?_⟩
      · rw [← hds, ← hrest, List.takeWhile_append_dropWhile]
      · rintro rfl
        exact hrun rest heq
      · rw [← hds]
        exact List.all_eq_true.mp List.all_takeWhile

/-- A text that begins with characters of a numeral and goes on with the rest. -/
def NumeralPart (cs rest : List Char) : Prop :=
  ∃ used, cs = used ++ rest ∧ ∀ c ∈ used, isNumeralChar c = true

theorem NumeralPart.refl (cs : List Char) : NumeralPart cs cs :=
  ⟨[], rfl, by simp⟩

theorem NumeralPart.trans {xs ys zs : List Char} (hxy : NumeralPart xs ys)
    (hyz : NumeralPart ys zs) : NumeralPart xs zs := by
  obtain ⟨used, rfl, hused⟩ := hxy
  obtain ⟨used', rfl, hused'⟩ := hyz
  refine ⟨used ++ used', by simp, ?_⟩
  intro c hc
  rcases List.mem_append.mp hc with hc | hc
  · exact hused c hc
  · exact hused' c hc

theorem NumeralPart.cons {c : Char} {cs rest : List Char} (hc : isNumeralChar c = true)
    (h : NumeralPart cs rest) : NumeralPart (c :: cs) rest :=
  NumeralPart.trans ⟨[c], rfl, by simpa using hc⟩ h

theorem numeralPart_of_digitRun? {cs ds rest : List Char} (h : digitRun? cs = some (ds, rest)) :
    NumeralPart cs rest := by
  obtain ⟨hcs, -, hdigits⟩ := digitRun?_used h
  exact ⟨ds, hcs, fun d hd => isNumeralChar_of_isDigit (hdigits d hd)⟩

theorem numeralPart_of_fraction? {cs rest : List Char} {f : Option (List Char)}
    (h : fraction? cs = some (f, rest)) : NumeralPart cs rest := by
  unfold fraction? at h
  split at h
  · obtain ⟨⟨ds, rest'⟩, hrun, heq⟩ := Option.map_eq_some_iff.mp h
    cases heq
    exact .cons (by decide) (numeralPart_of_digitRun? hrun)
  · cases h
    exact .refl _

theorem numeralPart_of_exponentDigits? {negative : Bool} {cs rest : List Char}
    {e : Option (Bool × List Char)} (h : exponentDigits? negative cs = some (e, rest)) :
    NumeralPart cs rest := by
  obtain ⟨⟨ds, rest'⟩, hrun, heq⟩ := Option.map_eq_some_iff.mp h
  cases heq
  exact numeralPart_of_digitRun? hrun

theorem numeralPart_of_exponent? {cs rest : List Char} {e : Option (Bool × List Char)}
    (h : exponent? cs = some (e, rest)) : NumeralPart cs rest := by
  unfold exponent? at h
  split at h
  · next c cs =>
      split at h
      · next hmark =>
          have hc : isNumeralChar c = true := by
            rcases hmark with rfl | rfl <;> decide
          split at h
          · exact .cons hc (.cons (by decide) (numeralPart_of_exponentDigits? h))
          · exact .cons hc (.cons (by decide) (numeralPart_of_exponentDigits? h))
          · exact .cons hc (numeralPart_of_exponentDigits? h)
      · cases h
        exact .refl _
  · cases h
    exact .refl _

/-- A numeral without its sign begins with a digit. -/
theorem digit_of_digitRun? {cs ds rest rest' : List Char} (h : digitRun? cs = some (ds, rest))
    (hrest : NumeralPart rest rest') :
    ∃ c tail, cs = c :: tail ∧ c.isDigit = true ∧ NumeralPart tail rest' := by
  obtain ⟨rfl, hne, hdigits⟩ := digitRun?_used h
  obtain ⟨c, ds, rfl⟩ := List.exists_cons_of_ne_nil hne
  refine ⟨c, ds ++ rest, rfl, hdigits c (by simp), .trans ⟨ds, rfl, ?_⟩ hrest⟩
  intro d hd
  exact isNumeralChar_of_isDigit (hdigits d (by simp [hd]))

/-- A numeral that the reader accepts begins with a digit or a minus sign. -/
theorem numeral?_used {cs rest : List Char} {n : Numeral} (h : numeral? cs = some (n, rest)) :
    ∃ c tail, cs = c :: tail ∧ (c = '-' ∨ c.isDigit = true) ∧ NumeralPart tail rest := by
  unfold numeral? at h
  split at h
  next negative unsigned hsign =>
  simp only [Option.bind_eq_bind, Option.bind_eq_some_iff] at h
  obtain ⟨⟨whole, afterWhole⟩, hwhole, h⟩ := h
  split at h
  · cases h
  · simp only [Option.bind_eq_some_iff] at h
    obtain ⟨⟨f, afterFraction⟩, hfraction, ⟨e, afterExponent⟩, hexponent, heq⟩ := h
    cases heq
    have htail : NumeralPart afterWhole afterExponent :=
      (numeralPart_of_fraction? hfraction).trans (numeralPart_of_exponent? hexponent)
    obtain ⟨c, tail, rfl, hdigit, hpart⟩ := digit_of_digitRun? hwhole htail
    split at hsign
    · cases hsign
      exact ⟨'-', _, rfl, .inl rfl, .cons (isNumeralChar_of_isDigit hdigit) hpart⟩
    · cases hsign
      exact ⟨c, tail, rfl, .inr hdigit, hpart⟩

/-! ## Lengths -/

theorem length_of_skipSpace {cs rest : List Char} {c : Char} (h : skipSpace cs = c :: rest) :
    rest.length < cs.length := by
  have hle := length_skipSpace_le cs
  simp only [h, List.length_cons] at hle
  omega

theorem length_of_string? {cs rest : List Char} {s : Option String}
    (h : string? cs = some (s, rest)) : rest.length < cs.length := by
  obtain ⟨body, -, rfl⟩ := string?_body h
  simp only [List.length_append, List.length_cons]
  omega

theorem length_of_numeral? {cs rest : List Char} {n : Numeral}
    (h : numeral? cs = some (n, rest)) : rest.length < cs.length := by
  obtain ⟨c, tail, rfl, -, used, rfl, -⟩ := numeral?_used h
  simp only [List.length_cons, List.length_append]
  omega

end DocTransfer.Json
