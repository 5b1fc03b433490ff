import DocTransfer.Json.Printer
import DocTransfer.Proofs.Json.Quoting
import DocTransfer.Proofs.Text.Find

/-! # Strings are read as they were written

A written string comes back whole. Texts that are made of written strings, with neither quotes nor
backticks between them, can therefore be taken apart at their strings, and a text that breaks off
inside one of them is no JSON. -/

namespace DocTransfer.Json

/-! ## One character -/

theorem hexDigit?_hexChar {n : Nat} (h : n < 16) : hexDigit? (hexChar n) = some n := by
  have hall : ∀ k < 16, hexDigit? (hexChar k) = some k := by decide
  exact hall n h

theorem spell?_char (c : Char) (ps : List Piece) :
    spell? (.char c :: ps) = (spell? ps).map (c :: ·) := rfl

/-- A unit that is no half of a pair is a character of its own. -/
theorem spell?_unit {c : Char} (h : c.toNat < 0x20) (ps : List Piece) :
    spell? (.unit c.toNat :: ps) = (spell? ps).map (c :: ·) := by
  have hhigh : isHighUnit c.toNat = false := by
    simp only [isHighUnit, Bool.and_eq_false_iff, decide_eq_false_iff_not]
    omega
  have hlow : isLowUnit c.toNat = false := by
    simp only [isLowUnit, Bool.and_eq_false_iff, decide_eq_false_iff_not]
    omega
  have hnone : ¬ (isHighUnit c.toNat || isLowUnit c.toNat) = true := by simp [hhigh, hlow]
  have hchar : (spell? ps).map (Char.ofNat c.toNat :: ·) = (spell? ps).map (c :: ·) := by
    rw [Char.ofNat_toNat]
  cases ps with
  | nil => exact (if_neg hnone).trans hchar
  | cons p ps =>
      cases p with
      | char d => exact (if_neg hnone).trans hchar
      | unit n => exact (if_neg (by simp [hhigh])).trans ((if_neg (by simp [hlow])).trans hchar)

/-- The characters that have a short escape, each with the letter after its backslash. -/
def shortEscapes : List (Char × Char) :=
  [('"', '"'), ('\\', '\\'), ('\n', 'n'), ('\r', 'r'), ('\t', 't'), (Char.ofNat 8, 'b'),
   (Char.ofNat 12, 'f')]

theorem escapeChar_short : ∀ p ∈ shortEscapes,
    escapeChar p.1 = ['\\', p.2] ∧ shortEscape? p.2 = some p.1 := by
  decide

theorem escapeChar_of_not_short {c : Char} (h : ∀ p ∈ shortEscapes, c ≠ p.1) :
    escapeChar c =
      if c.toNat < 0x20 then ['\\', 'u', '0', '0', hexChar (c.toNat / 16), hexChar (c.toNat % 16)]
      else [c] := by
  have hnumber (n : Nat) (hn : c ≠ Char.ofNat n) : c.toNat ≠ n := by
    rintro rfl
    exact hn (Char.ofNat_toNat c).symm
  have hback := hnumber 8 (h (Char.ofNat 8, 'b') (by decide))
  have hfeed := hnumber 12 (h (Char.ofNat 12, 'f') (by decide))
  rw [escapeChar, if_neg (h ('"', '"') (by decide)), if_neg (h ('\\', '\\') (by decide)),
    if_neg (h ('\n', 'n') (by decide)), if_neg (h ('\r', 'r') (by decide)),
    if_neg (h ('\t', 't') (by decide)), if_neg hback, if_neg hfeed]

/-- A character is written as itself, by a short escape or by its number. -/
theorem escapeChar_cases (c : Char) :
    (escapeChar c = [c] ∧ c ≠ '"' ∧ c ≠ '\\' ∧ 0x20 ≤ c.toNat) ∨
    (∃ e, escapeChar c = ['\\', e] ∧ shortEscape? e = some c) ∨
    (escapeChar c = ['\\', 'u', '0', '0', hexChar (c.toNat / 16), hexChar (c.toNat % 16)] ∧
      c.toNat < 0x20) := by
  by_cases hshort : ∃ e, (c, e) ∈ shortEscapes
  · obtain ⟨e, he⟩ := hshort
    exact .inr (.inl ⟨e, escapeChar_short (c, e) he⟩)
  · have hother : ∀ p ∈ shortEscapes, c ≠ p.1 := fun p hp heq => hshort ⟨p.2, heq ▸ hp⟩
    rw [escapeChar_of_not_short hother]
    by_cases hcontrol : c.toNat < 0x20
    · exact .inr (.inr ⟨if_pos hcontrol, hcontrol⟩)
    · exact .inl ⟨if_neg hcontrol, hother ('"', '"') (by decide), hother ('\\', '\\') (by decide),
        Nat.le_of_not_lt hcontrol⟩

theorem pieces?_plain {c : Char} (hquote : c ≠ '"') (hslash : c ≠ '\\') (hcontrol : 0x20 ≤ c.toNat)
    (cs : List Char) :
    pieces? (c :: cs) = (pieces? cs).map fun (ps, rest) => (.char c :: ps, rest) := by
  have hplain : ¬ (c.toNat < 0x20 ∨ c = '\\') := by
    simp only [hslash, or_false]
    omega
  rw [pieces?]
  · rw [if_neg hplain]
    cases pieces? cs <;> rfl
  all_goals simp [hquote, hslash]

theorem pieces?_short {e c : Char} (h : shortEscape? e = some c) (cs : List Char) :
    pieces? ('\\' :: e :: cs) = (pieces? cs).map fun (ps, rest) => (.char c :: ps, rest) := by
  have hunit : e ≠ 'u' := by
    rintro rfl
    simp [show shortEscape? 'u' = none from rfl] at h
  rw [pieces?]
  · rw [h]
    cases pieces? cs <;> rfl
  · simp [hunit]

theorem pieces?_unit {n : Nat} (h : n < 0x20) (cs : List Char) :
    pieces? ('\\' :: 'u' :: '0' :: '0' :: hexChar (n / 16) :: hexChar (n % 16) :: cs) =
      (pieces? cs).map fun (ps, rest) => (.unit n :: ps, rest) := by
  have hhigh := hexDigit?_hexChar (n := n / 16) (by omega)
  have hlow := hexDigit?_hexChar (n := n % 16) (by omega)
  have hzero : hexDigit? '0' = some 0 := by decide
  have hvalue : hexUnit? '0' '0' (hexChar (n / 16)) (hexChar (n % 16)) = some n := by
    simp only [hexUnit?, hzero, hhigh, hlow, Option.bind_eq_bind, Option.bind_some]
    exact congrArg some (by omega)
  change (hexUnit? '0' '0' (hexChar (n / 16)) (hexChar (n % 16))).bind _ = _
  rw [hvalue]
  cases pieces? cs <;> rfl

/-- A written character is read as one piece, which spells it. -/
theorem pieces?_escapeChar (c : Char) :
    ∃ p, (∀ ps, spell? (p :: ps) = (spell? ps).map (c :: ·)) ∧
      ∀ cs, pieces? (escapeChar c ++ cs) =
        (pieces? cs).map fun (ps, rest) => (p :: ps, rest) := by
  obtain ⟨hc, hquote, hslash, hcontrol⟩ | ⟨e, hc, he⟩ | ⟨hc, hcontrol⟩ := escapeChar_cases c
  · rw [hc]
    exact ⟨.char c, spell?_char c, pieces?_plain hquote hslash hcontrol⟩
  · rw [hc]
    exact ⟨.char c, spell?_char c, pieces?_short he⟩
  · rw [hc]
    exact ⟨.unit c.toNat, spell?_unit hcontrol, pieces?_unit hcontrol⟩

/-! ## Strings -/

/-- A written string is read as the string it was. -/
theorem string?_escaped (s rest : List Char) :
    string? (s.flatMap escapeChar ++ '"' :: rest) = some (some (String.ofList s), rest) := by
  have hpieces : ∃ ps, pieces? (s.flatMap escapeChar ++ '"' :: rest) = some (ps, rest) ∧
      spell? ps = some s := by
    induction s with
    | nil => exact ⟨[], rfl, rfl⟩
    | cons c s ih =>
        obtain ⟨ps, hps, hspell⟩ := ih
        obtain ⟨p, hp, hread⟩ := pieces?_escapeChar c
        refine ⟨p :: ps, ?_, ?_⟩
        · rw [List.flatMap_cons, List.append_assoc, hread, hps]
          rfl
        · rw [hp, hspell]
          rfl
  obtain ⟨ps, hps, hspell⟩ := hpieces
  simp [string?, hps, hspell]

theorem quoted_append (s : String) (rest : List Char) :
    quoted s ++ rest = '"' :: (s.toList.flatMap escapeChar ++ '"' :: rest) := by
  simp [quoted]

theorem string?_of_quoted (s : String) (rest : List Char) :
    string? (s.toList.flatMap escapeChar ++ '"' :: rest) = some (some s, rest) := by
  rw [string?_escaped, String.ofList_toList]

theorem literalBody_escaped (s : List Char) : LiteralBody (s.flatMap escapeChar) := by
  obtain ⟨body, hbody, heq⟩ := string?_body (string?_escaped s [])
  rwa [List.append_cancel_right heq]

theorem escapeChar_ne_nil (c : Char) : escapeChar c ≠ [] := by
  obtain ⟨hc, -⟩ | ⟨e, hc, -⟩ | ⟨hc, -⟩ := escapeChar_cases c <;> simp [hc]

theorem tick_not_mem_escapeChar {c : Char} (h : c ≠ '`') : '`' ∉ escapeChar c := by
  obtain ⟨hc, -⟩ | ⟨e, hc, he⟩ | ⟨hc, hcontrol⟩ := escapeChar_cases c
  · simpa [hc] using h.symm
  · have htick : '`' ≠ e := by
      rintro rfl
      simp [show shortEscape? '`' = none from rfl] at he
    simp [hc, htick]
  · have hdigit : ∀ n < 16, '`' ≠ hexChar n := by decide
    simp [hc, hdigit (c.toNat / 16) (by omega), hdigit (c.toNat % 16) (by omega)]

/-- A backtick in a written string is a backtick of the string. -/
theorem escaped_eq_append_tick {s before rest : List Char}
    (h : s.flatMap escapeChar = before ++ '`' :: rest) :
    ∃ s₁ s₂, s = s₁ ++ '`' :: s₂ ∧ before = s₁.flatMap escapeChar ∧
      rest = s₂.flatMap escapeChar := by
  induction s generalizing before with
  | nil => simp at h
  | cons c s ih =>
      rw [List.flatMap_cons] at h
      by_cases hc : c = '`' ∧ before = []
      · obtain ⟨rfl, rfl⟩ := hc
        exact ⟨[], s, rfl, rfl, (List.cons.inj h).2.symm⟩
      · have hpast : ∃ before', before = escapeChar c ++ before' ∧
            s.flatMap escapeChar = before' ++ '`' :: rest := by
          by_cases htick : c = '`'
          · subst htick
            obtain ⟨d, before, rfl⟩ := List.exists_cons_of_ne_nil (fun hnil => hc ⟨rfl, hnil⟩)
            obtain ⟨hd, htail⟩ := List.cons.inj h
            exact ⟨before, by rw [← hd]; rfl, htail⟩
          · exact Text.append_eq_append_cons_of_not_mem (tick_not_mem_escapeChar htick) h
        obtain ⟨before', rfl, hrest⟩ := hpast
        obtain ⟨s₁, s₂, rfl, rfl, hs₂⟩ := ih hrest
        exact ⟨c :: s₁, s₂, rfl, rfl, hs₂⟩

theorem escaped_eq_tick_cons {s rest : List Char} (h : s.flatMap escapeChar = '`' :: rest) :
    ∃ s', s = '`' :: s' ∧ rest = s'.flatMap escapeChar := by
  rw [← List.nil_append ('`' :: rest)] at h
  obtain ⟨s₁, s₂, rfl, hnil, hrest⟩ := escaped_eq_append_tick h
  cases s₁ with
  | nil => exact ⟨s₂, rfl, hrest⟩
  | cons c s₁ => simp [escapeChar_ne_nil] at hnil

/-! ## Texts around strings -/

/-- A text in which these strings are written one after the other. What stands between them is
neither quote nor backtick nor control character. -/
inductive Written : List String → List Char → Prop where
  | nil : Written [] []
  | outer {ss : List String} {cs : List Char} (c : Char) (hquote : c ≠ '"') (htick : c ≠ '`')
      (hcontrol : 0x20 ≤ c.toNat) (rest : Written ss cs) : Written ss (c :: cs)
  | string {ss : List String} {cs : List Char} (s : String) (rest : Written ss cs) :
      Written (s :: ss) ('"' :: (s.toList.flatMap escapeChar ++ '"' :: cs))

theorem Written.append {ss ss' : List String} {cs cs' : List Char} (h : Written ss cs)
    (h' : Written ss' cs') : Written (ss ++ ss') (cs ++ cs') := by
  induction h with
  | nil => exact h'
  | outer c hquote htick hcontrol _ ih => exact .outer c hquote htick hcontrol ih
  | string s _ ih => simpa using Written.string s ih

theorem LiteralBody.le_toNat {body : List Char} (h : LiteralBody body) {c : Char}
    (hc : c ∈ body) : 0x20 ≤ c.toNat := by
  induction h with
  | nil => cases hc
  | plain d hquote hslash hcontrol _ ih =>
      rcases List.mem_cons.mp hc with rfl | hc
      · exact hcontrol
      · exact ih hc
  | escape d hcontrol _ ih =>
      rcases List.mem_cons.mp hc with rfl | hc
      · decide
      rcases List.mem_cons.mp hc with rfl | hc
      · exact hcontrol
      · exact ih hc

theorem Written.le_toNat {ss : List String} {cs : List Char} (h : Written ss cs) {c : Char}
    (hc : c ∈ cs) : 0x20 ≤ c.toNat := by
  induction h with
  | nil => cases hc
  | outer d hquote htick hcontrol _ ih =>
      rcases List.mem_cons.mp hc with rfl | hc
      · exact hcontrol
      · exact ih hc
  | string s _ ih =>
      simp only [List.mem_cons, List.mem_append] at hc
      rcases hc with rfl | hc | rfl | hc
      · decide
      · exact (literalBody_escaped s.toList).le_toNat hc
      · decide
      · exact ih hc

/-! ## Texts that break off -/

/-- A text that ends inside a string. -/
inductive BreaksOff : List Char → Prop where
  | inside {body : List Char} (hbody : LiteralBody body) : BreaksOff ('"' :: body)
  | outer {cs : List Char} (c : Char) (hquote : c ≠ '"') (rest : BreaksOff cs) : BreaksOff (c :: cs)
  | literal {body cs : List Char} (hbody : LiteralBody body) (rest : BreaksOff cs) :
      BreaksOff ('"' :: (body ++ '"' :: cs))

/-- What may stand in a string does not reach past its closing quote. -/
theorem LiteralBody.prefix_of_append {body body' rest rest' : List Char} (h : LiteralBody body)
    (h' : LiteralBody body') (heq : body ++ rest = body' ++ '"' :: rest') :
    ∃ more, body' = body ++ more ∧ rest = more ++ '"' :: rest' := by
  induction h generalizing body' with
  | nil => exact ⟨body', rfl, heq⟩
  | plain c hquote hslash _ _ ih =>
      cases h' with
      | nil => exact absurd (List.cons.inj heq).1 hquote
      | plain d _ _ _ h' =>
          obtain ⟨rfl, htail⟩ := List.cons.inj heq
          obtain ⟨more, rfl, hrest⟩ := ih h' htail
          exact ⟨more, rfl, hrest⟩
      | escape d _ h' => exact absurd (List.cons.inj heq).1 hslash
  | escape c _ _ ih =>
      cases h' with
      | nil => exact absurd (List.cons.inj heq).1 (by decide)
      | plain d _ hslash _ h' => exact absurd (List.cons.inj heq).1.symm hslash
      | escape d _ h' =>
          obtain ⟨rfl, htail⟩ := List.cons.inj (List.cons.inj heq).2
          obtain ⟨more, rfl, hrest⟩ := ih h' htail
          exact ⟨more, rfl, hrest⟩

theorem LiteralBody.ends_at_quote {body body' rest rest' : List Char} (h : LiteralBody body)
    (h' : LiteralBody body') (heq : body ++ '"' :: rest = body' ++ '"' :: rest') : rest = rest' := by
  obtain ⟨more, hbody', hrest⟩ := h.prefix_of_append h' heq
  obtain ⟨more', hbody, -⟩ := h'.prefix_of_append h heq.symm
  have hnil : more = [] := by
    have hlength := congrArg List.length hbody
    rw [hbody'] at hlength
    simp only [List.length_append] at hlength
    exact List.length_eq_zero_iff.mp (by omega)
  subst hnil
  exact (List.cons.inj hrest).2

/-- The quotes of a text that breaks off do not pair up. -/
theorem BreaksOff.not_wellQuoted {cs : List Char} (h : BreaksOff cs) : ¬ WellQuoted cs := by
  induction h with
  | @inside body hbody =>
      intro hquoted
      generalize htext : '"' :: body = text at hquoted
      cases hquoted with
      | nil => cases htext
      | outer c hquote => exact absurd (List.cons.inj htext).1.symm hquote
      | @literal body' cs' hbody' =>
          have heq : body ++ [] = body' ++ '"' :: cs' := by simpa using (List.cons.inj htext).2
          obtain ⟨more, -, hnil⟩ := hbody.prefix_of_append hbody' heq
          simp at hnil
  | outer c hquote _ ih =>
      intro hquoted
      cases hquoted with
      | outer _ _ _ hrest => exact ih hrest
      | literal => exact absurd rfl hquote
  | @literal body cs hbody _ ih =>
      intro hquoted
      generalize htext : '"' :: (body ++ '"' :: cs) = text at hquoted
      cases hquoted with
      | nil => cases htext
      | outer c hquote => exact absurd (List.cons.inj htext).1.symm hquote
      | literal hbody' hrest =>
          rw [hbody.ends_at_quote hbody' (List.cons.inj htext).2] at ih
          exact ih hrest

/-- A written text that is cut before a backtick breaks off. -/
theorem Written.breaksOff {ss : List String} {cs before rest : List Char} (h : Written ss cs)
    (hcut : cs = before ++ '`' :: rest) : BreaksOff before := by
  induction h generalizing before with
  | nil => simp at hcut
  | outer c hquote htick _ _ ih =>
      cases before with
      | nil => exact absurd (List.cons.inj hcut).1 htick
      | cons d before =>
          obtain ⟨rfl, htail⟩ := List.cons.inj hcut
          exact .outer c hquote (ih htail)
  | string s _ ih =>
      cases before with
      | nil => exact absurd (List.cons.inj hcut).1 (by decide)
      | cons d before =>
          obtain ⟨rfl, htail⟩ := List.cons.inj hcut
          obtain ⟨past, rfl, hpast⟩ | ⟨inner, hinner, hrest⟩ := List.append_eq_append_iff.mp htail
          · cases past with
            | nil => exact absurd (List.cons.inj hpast).1 (by decide)
            | cons d past =>
                obtain ⟨rfl, hcs⟩ := List.cons.inj hpast
                exact .literal (literalBody_escaped s.toList) (ih hcs)
          · cases inner with
            | nil => exact absurd (List.cons.inj hrest).1 (by decide)
            | cons d inner =>
                obtain ⟨rfl, -⟩ := List.cons.inj hrest
                obtain ⟨s₁, s₂, -, rfl, -⟩ := escaped_eq_append_tick hinner
                exact .inside (literalBody_escaped s₁)

end DocTransfer.Json
