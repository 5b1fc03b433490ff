import DocTransfer.Proofs.Json.Lexeme

/-! # The grammar of JSON text

The reader works with a supply of steps that its caller computes from the length of the text. The
grammar below has none. A text has an outline by the grammar exactly when the reader finds it, so
that facts about accepted texts are proved by induction on derivations. -/

namespace DocTransfer.Json

/-! ## The reader step by step

Blanks at the head of a text are passed over, and at each opening character the reader does what
the grammar has a rule for. -/

theorem value?_skipSpace (fuel : Nat) (cs : List Char) :
    value? fuel (skipSpace cs) = value? fuel cs := by
  cases fuel with
  | zero => rfl
  | succ fuel => rw [value?, value?, skipSpace_skipSpace]

theorem fields?_skipSpace (fuel : Nat) (cs : List Char) :
    fields? fuel (skipSpace cs) = fields? fuel cs := by
  cases fuel with
  | zero => rfl
  | succ fuel => rw [fields?, fields?, skipSpace_skipSpace]

theorem value?_quote (fuel : Nat) (cs : List Char) :
    value? (fuel + 1) ('"' :: cs) = (string? cs).map fun (s, rest) => (.string s, rest) := rfl

theorem value?_bracket (fuel : Nat) (cs : List Char) :
    value? (fuel + 1) ('[' :: cs) =
      match skipSpace cs with
      | ']' :: rest => some (.array [], rest)
      | rest => (items? fuel rest).map fun (vs, rest) => (.array vs, rest) := rfl

theorem value?_brace (fuel : Nat) (cs : List Char) :
    value? (fuel + 1) ('\x7b' :: cs) =
      match skipSpace cs with
      | '\x7d' :: rest => some (.object [], rest)
      | rest => (fields? fuel rest).map fun (fs, rest) => (.object fs, rest) := rfl

theorem items?_succ (fuel : Nat) (cs : List Char) :
    items? (fuel + 1) cs =
      (value? fuel cs).bind fun (v, rest) =>
        match skipSpace rest with
        | ']' :: rest => some ([v], rest)
        | ',' :: rest => (items? fuel rest).bind fun (vs, rest) => some (v :: vs, rest)
        | _ => none := rfl

theorem fields?_quote (fuel : Nat) (cs : List Char) :
    fields? (fuel + 1) ('"' :: cs) =
      (string? cs).bind fun (name, rest) =>
        match skipSpace rest with
        | ':' :: rest =>
          (value? fuel rest).bind fun (v, rest) =>
            match skipSpace rest with
            | '\x7d' :: rest => some ([(name, v)], rest)
            | ',' :: rest =>
              (fields? fuel rest).bind fun (fs, rest) => some ((name, v) :: fs, rest)
            | _ => none
        | _ => none := rfl

theorem items?_skipSpace (fuel : Nat) (cs : List Char) :
    items? fuel (skipSpace cs) = items? fuel cs := by
  cases fuel with
  | zero => rfl
  | succ fuel => rw [items?_succ, items?_succ, value?_skipSpace]

theorem value?_closing (fuel : Nat) (cs : List Char) : value? fuel (']' :: cs) = none := by
  cases fuel with
  | zero => rfl
  | succ fuel => rfl

/-- No item begins with the closing bracket. -/
theorem items?_closing (fuel : Nat) (cs : List Char) : items? fuel (']' :: cs) = none := by
  cases fuel with
  | zero => rfl
  | succ fuel => rw [items?_succ, value?_closing, Option.bind_none]

/-- No field begins with the closing brace. -/
theorem fields?_closing (fuel : Nat) (cs : List Char) : fields? fuel ('\x7d' :: cs) = none := by
  cases fuel with
  | zero => rfl
  | succ fuel => rfl

/-! ## Derivations -/

/-- What a derivation is about: a value, the items of an array, or the fields of an object. -/
inductive Part where
  | value (v : Outline)
  | items (vs : List Outline)
  | fields (fs : List (Option String × Outline))

/-- A part stands at the head of a text, and this is the rest. Items and fields take their closing
bracket along. -/
inductive Reads : Part → List Char → List Char → Prop where
  | blank {part cs rest} (c : Char) (hc : isSpace c = true) (h : Reads part cs rest) :
      Reads part (c :: cs) rest
  | nullWord (rest) : Reads (.value .null) ('n' :: 'u' :: 'l' :: 'l' :: rest) rest
  | trueWord (rest) : Reads (.value (.bool true)) ('t' :: 'r' :: 'u' :: 'e' :: rest) rest
  | falseWord (rest) : Reads (.value (.bool false)) ('f' :: 'a' :: 'l' :: 's' :: 'e' :: rest) rest
  | number {n cs rest} (h : numeral? cs = some (n, rest)) : Reads (.value (.number n)) cs rest
  | string {s cs rest} (h : string? cs = some (s, rest)) :
      Reads (.value (.string s)) ('"' :: cs) rest
  | emptyArray {cs rest} (h : skipSpace cs = ']' :: rest) :
      Reads (.value (.array [])) ('[' :: cs) rest
  | array {vs cs rest} (h : Reads (.items vs) cs rest) : Reads (.value (.array vs)) ('[' :: cs) rest
  | emptyObject {cs rest} (h : skipSpace cs = '\x7d' :: rest) :
      Reads (.value (.object [])) ('\x7b' :: cs) rest
  | object {fs cs rest} (h : Reads (.fields fs) cs rest) :
      Reads (.value (.object fs)) ('\x7b' :: cs) rest
  | lastItem {v cs afterValue rest} (hvalue : Reads (.value v) cs afterValue)
      (hend : skipSpace afterValue = ']' :: rest) : Reads (.items [v]) cs rest
  | moreItems {v vs cs afterValue next rest} (hvalue : Reads (.value v) cs afterValue)
      (hcomma : skipSpace afterValue = ',' :: next) (hnext : Reads (.items vs) next rest) :
      Reads (.items (v :: vs)) cs rest
  | lastField {name v cs afterName colon afterValue rest}
      (hname : string? cs = some (name, afterName)) (hcolon : skipSpace afterName = ':' :: colon)
      (hvalue : Reads (.value v) colon afterValue) (hend : skipSpace afterValue = '\x7d' :: rest) :
      Reads (.fields [(name, v)]) ('"' :: cs) rest
  | moreFields {name v fs cs afterName colon afterValue next rest}
      (hname : string? cs = some (name, afterName)) (hcolon : skipSpace afterName = ':' :: colon)
      (hvalue : Reads (.value v) colon afterValue) (hcomma : skipSpace afterValue = ',' :: next)
      (hnext : Reads (.fields fs) next rest) : Reads (.fields ((name, v) :: fs)) ('"' :: cs) rest

theorem Reads.of_skipSpace {part : Part} {cs rest : List Char}
    (h : Reads part (skipSpace cs) rest) : Reads part cs rest := by
  induction cs using skipSpace_induction with
  | nil => exact h
  | blank c cs hc ih =>
      rw [skipSpace_cons_of_isSpace hc] at h
      exact .blank c hc (ih h)
  | other c cs hc => rwa [skipSpace_cons_of_not_isSpace hc] at h

/-! ## The reader follows the grammar -/

/-- With so many steps the reader finds only what the grammar allows. -/
structure FollowsGrammar (fuel : Nat) : Prop where
  value : ∀ {cs v rest}, value? fuel cs = some (v, rest) → Reads (.value v) cs rest
  items : ∀ {cs vs rest}, items? fuel cs = some (vs, rest) → Reads (.items vs) cs rest
  fields : ∀ {cs fs rest}, fields? fuel cs = some (fs, rest) → Reads (.fields fs) cs rest

theorem FollowsGrammar.value_succ {fuel : Nat} (sound : FollowsGrammar fuel)
    {cs rest : List Char} {v : Outline} (h : value? (fuel + 1) cs = some (v, rest)) :
    Reads (.value v) cs rest := by
  apply Reads.of_skipSpace
  rw [value?] at h
  split at h
  next cs' hcs =>
    cases h
    rw [hcs]
    exact .nullWord _
  next cs' hcs =>
    cases h
    rw [hcs]
    exact .trueWord _
  next cs' hcs =>
    cases h
    rw [hcs]
    exact .falseWord _
  next cs' hcs =>
    obtain ⟨⟨s, rest'⟩, hstring, heq⟩ := Option.map_eq_some_iff.mp h
    cases heq
    rw [hcs]
    exact .string hstring
  next cs' hcs =>
    rw [hcs]
    split at h
    next hend =>
      cases h
      exact .emptyArray hend
    next =>
      obtain ⟨⟨vs, rest'⟩, hitems, heq⟩ := Option.map_eq_some_iff.mp h
      cases heq
      exact .array (sound.items hitems).of_skipSpace
  next cs' hcs =>
    rw [hcs]
    split at h
    next hend =>
      cases h
      exact .emptyObject hend
    next =>
      obtain ⟨⟨fs, rest'⟩, hfields, heq⟩ := Option.map_eq_some_iff.mp h
      cases heq
      exact .object (sound.fields hfields).of_skipSpace
  next =>
    obtain ⟨⟨n, rest'⟩, hnumeral, heq⟩ := Option.map_eq_some_iff.mp h
    cases heq
    exact .number hnumeral

theorem FollowsGrammar.items_succ {fuel : Nat} (sound : FollowsGrammar fuel) {cs rest : List Char}
    {vs : List Outline} (h : items? (fuel + 1) cs = some (vs, rest)) :
    Reads (.items vs) cs rest := by
  simp only [items?_succ, Option.bind_eq_some_iff] at h
  obtain ⟨⟨v, afterValue⟩, hvalue, h⟩ := h
  split at h
  next hend =>
    cases h
    exact .lastItem (sound.value hvalue) hend
  next next hcomma =>
    obtain ⟨⟨vs', rest'⟩, hnext, heq⟩ := Option.bind_eq_some_iff.mp h
    cases heq
    exact .moreItems (sound.value hvalue) hcomma (sound.items hnext)
  next => cases h

theorem FollowsGrammar.fields_succ {fuel : Nat} (sound : FollowsGrammar fuel) {cs rest : List Char}
    {fs : List (Option String × Outline)} (h : fields? (fuel + 1) cs = some (fs, rest)) :
    Reads (.fields fs) cs rest := by
  apply Reads.of_skipSpace
  rw [fields?] at h
  split at h
  next cs' hcs =>
    rw [hcs]
    simp only [Option.bind_eq_bind, Option.bind_eq_some_iff] at h
    obtain ⟨⟨name, afterName⟩, hname, h⟩ := h
    split at h
    next colon hcolon =>
      simp only [Option.bind_eq_some_iff] at h
      obtain ⟨⟨v, afterValue⟩, hvalue, h⟩ := h
      split at h
      next hend =>
        cases h
        exact .lastField hname hcolon (sound.value hvalue) hend
      next next hcomma =>
        obtain ⟨⟨fs', rest'⟩, hnext, heq⟩ := Option.bind_eq_some_iff.mp h
        cases heq
        exact .moreFields hname hcolon (sound.value hvalue) hcomma (sound.fields hnext)
      next => cases h
    next => cases h
  next => cases h

theorem reader_followsGrammar (fuel : Nat) : FollowsGrammar fuel := by
  induction fuel with
  | zero => exact ⟨nofun, nofun, nofun⟩
  | succ fuel ih => exact ⟨ih.value_succ, ih.items_succ, ih.fields_succ⟩

/-! ## Every derivation is found -/

theorem Reads.length_lt {part : Part} {cs rest : List Char} (h : Reads part cs rest) :
    rest.length < cs.length := by
  induction h with
  | blank c hc _ ih => exact Nat.lt_succ_of_lt ih
  | nullWord rest => simp only [List.length_cons]; omega
  | trueWord rest => simp only [List.length_cons]; omega
  | falseWord rest => simp only [List.length_cons]; omega
  | number h => exact length_of_numeral? h
  | string h => exact Nat.lt_succ_of_lt (length_of_string? h)
  | emptyArray h => exact Nat.lt_succ_of_lt (length_of_skipSpace h)
  | array _ ih => exact Nat.lt_succ_of_lt ih
  | emptyObject h => exact Nat.lt_succ_of_lt (length_of_skipSpace h)
  | object _ ih => exact Nat.lt_succ_of_lt ih
  | lastItem _ hend ih =>
      have hbracket := length_of_skipSpace hend
      omega
  | moreItems _ hcomma _ ih ihnext =>
      have hnext := length_of_skipSpace hcomma
      omega
  | lastField hname hcolon _ hend ih =>
      have hafter := length_of_string? hname
      have hvalue := length_of_skipSpace hcolon
      have hbrace := length_of_skipSpace hend
      simp only [List.length_cons]
      omega
  | moreFields hname hcolon _ hcomma _ ih ihnext =>
      have hafter := length_of_string? hname
      have hvalue := length_of_skipSpace hcolon
      have hnext := length_of_skipSpace hcomma
      simp only [List.length_cons]
      omega

/-- With so many steps the reader finds a part at the head of a text. -/
def Finds (fuel : Nat) (cs rest : List Char) : Part → Prop
  | .value v => value? fuel cs = some (v, rest)
  | .items vs => items? fuel cs = some (vs, rest)
  | .fields fs => fields? fuel cs = some (fs, rest)

theorem finds_skipSpace (fuel : Nat) (cs rest : List Char) (part : Part) :
    Finds fuel (skipSpace cs) rest part ↔ Finds fuel cs rest part := by
  cases part with
  | value v => simp [Finds, value?_skipSpace]
  | items vs => simp [Finds, items?_skipSpace]
  | fields fs => simp [Finds, fields?_skipSpace]

/-- A numeral is no other kind of value. -/
theorem value?_of_numeral? {cs rest : List Char} {n : Numeral} (h : numeral? cs = some (n, rest))
    (fuel : Nat) : value? (fuel + 1) cs = some (.number n, rest) := by
  obtain ⟨c, tail, rfl, hc, -⟩ := numeral?_used h
  have hspace : isSpace c = false := by
    apply Bool.eq_false_iff.mpr
    intro hspace
    simp only [isSpace, Bool.or_eq_true, beq_iff_eq] at hspace
    rcases hspace with ((rfl | rfl) | rfl) | rfl <;> exact absurd hc (by decide)
  rw [value?, skipSpace_cons_of_not_isSpace hspace]
  split
  case h_7 => simp [h]
  all_goals
    next heq =>
      cases heq
      exact absurd hc (by decide)

theorem value?_array {fuel : Nat} {cs rest : List Char} {vs : List Outline}
    (h : items? fuel cs = some (vs, rest)) :
    value? (fuel + 1) ('[' :: cs) = some (.array vs, rest) := by
  rw [← items?_skipSpace] at h
  rw [value?_bracket]
  split
  next hend =>
    rw [hend, items?_closing] at h
    cases h
  next => simp [h]

theorem value?_object {fuel : Nat} {cs rest : List Char} {fs : List (Option String × Outline)}
    (h : fields? fuel cs = some (fs, rest)) :
    value? (fuel + 1) ('\x7b' :: cs) = some (.object fs, rest) := by
  rw [← fields?_skipSpace] at h
  rw [value?_brace]
  split
  next hend =>
    rw [hend, fields?_closing] at h
    cases h
  next => simp [h]

theorem exists_succ_of_reads {part : Part} {cs rest : List Char} (h : Reads part cs rest)
    {fuel : Nat} (hfuel : 2 * cs.length ≤ fuel + 2 * rest.length) :
    ∃ k, fuel = k + 1 := by
  have hlt := h.length_lt
  exact ⟨fuel - 1, by omega⟩

/-- Two steps for each character are enough to find what a derivation says. -/
theorem Reads.finds {part : Part} {cs rest : List Char} (h : Reads part cs rest) {fuel : Nat}
    (hfuel : 2 * cs.length ≤ fuel + 2 * rest.length) : Finds fuel cs rest part := by
  induction h generalizing fuel with
  | blank c hc _ ih =>
      rw [← finds_skipSpace, skipSpace_cons_of_isSpace hc, finds_skipSpace]
      simp only [List.length_cons] at hfuel
      exact ih (by omega)
  | nullWord rest =>
      obtain ⟨fuel, rfl⟩ := exists_succ_of_reads (.nullWord rest) hfuel
      rfl
  | trueWord rest =>
      obtain ⟨fuel, rfl⟩ := exists_succ_of_reads (.trueWord rest) hfuel
      rfl
  | falseWord rest =>
      obtain ⟨fuel, rfl⟩ := exists_succ_of_reads (.falseWord rest) hfuel
      rfl
  | number h =>
      obtain ⟨fuel, rfl⟩ := exists_succ_of_reads (.number h) hfuel
      exact value?_of_numeral? h fuel
  | string h =>
      obtain ⟨fuel, rfl⟩ := exists_succ_of_reads (.string h) hfuel
      rw [Finds, value?_quote, h, Option.map_some]
  | emptyArray h =>
      obtain ⟨fuel, rfl⟩ := exists_succ_of_reads (.emptyArray h) hfuel
      simp [Finds, value?_bracket, h]
  | array h ih =>
      obtain ⟨fuel, rfl⟩ := exists_succ_of_reads (.array h) hfuel
      simp only [List.length_cons] at hfuel
      exact value?_array (ih (by omega))
  | emptyObject h =>
      obtain ⟨fuel, rfl⟩ := exists_succ_of_reads (.emptyObject h) hfuel
      simp [Finds, value?_brace, h]
  | object h ih =>
      obtain ⟨fuel, rfl⟩ := exists_succ_of_reads (.object h) hfuel
      simp only [List.length_cons] at hfuel
      exact value?_object (ih (by omega))
  | @lastItem v cs afterValue rest hvalue hend ih =>
      obtain ⟨fuel, rfl⟩ := exists_succ_of_reads (.lastItem hvalue hend) hfuel
      have hbracket := length_of_skipSpace hend
      have hfound : value? fuel cs = some (v, afterValue) := ih (by omega)
      simp [Finds, items?_succ, hfound, hend]
  | @moreItems v vs cs afterValue next rest hvalue hcomma hnext ih ihnext =>
      obtain ⟨fuel, rfl⟩ := exists_succ_of_reads (.moreItems hvalue hcomma hnext) hfuel
      have hafter := hvalue.length_lt
      have hlength := length_of_skipSpace hcomma
      have hrest := hnext.length_lt
      have hfound : value? fuel cs = some (v, afterValue) := ih (by omega)
      have hitems : items? fuel next = some (vs, rest) := ihnext (by omega)
      simp [Finds, items?_succ, hfound, hcomma, hitems]
  | @lastField name v cs afterName colon afterValue rest hname hcolon hvalue hend ih =>
      obtain ⟨fuel, rfl⟩ := exists_succ_of_reads (.lastField hname hcolon hvalue hend) hfuel
      have hquote := length_of_string? hname
      have hlength := length_of_skipSpace hcolon
      have hbrace := length_of_skipSpace hend
      simp only [List.length_cons] at hfuel
      have hfound : value? fuel colon = some (v, afterValue) := ih (by omega)
      simp [Finds, fields?_quote, hname, hcolon, hfound, hend]
  | @moreFields name v fs cs afterName colon afterValue next rest hname hcolon hvalue hcomma hnext
      ih ihnext =>
      obtain ⟨fuel, rfl⟩ :=
        exists_succ_of_reads (.moreFields hname hcolon hvalue hcomma hnext) hfuel
      have hquote := length_of_string? hname
      have hlength := length_of_skipSpace hcolon
      have hafter := hvalue.length_lt
      have hcount := length_of_skipSpace hcomma
      have hrest := hnext.length_lt
      simp only [List.length_cons] at hfuel
      have hfound : value? fuel colon = some (v, afterValue) := ih (by omega)
      have hfields : fields? fuel next = some (fs, rest) := ihnext (by omega)
      simp [Finds, fields?_quote, hname, hcolon, hfound, hcomma, hfields]

/-- A text has an outline exactly when the grammar gives it one and only blanks follow. -/
theorem Outline.read?_eq_some_iff {cs : List Char} {v : Outline} :
    Outline.read? cs = some v ↔ ∃ rest, Reads (.value v) cs rest ∧ skipSpace rest = [] := by
  constructor
  · intro h
    unfold Outline.read? at h
    split at h
    next value rest hvalue =>
      split at h
      next hblank =>
        cases h
        exact ⟨rest, (reader_followsGrammar _).value hvalue, hblank⟩
      next => cases h
    next => cases h
  · rintro ⟨rest, hreads, hblank⟩
    have hvalue : Json.value? (2 * cs.length + 2) cs = some (v, rest) := hreads.finds (by omega)
    simp [Outline.read?, hvalue, hblank]

/-- Leading blanks do not matter to a value. -/
theorem reads_value_skipSpace {v : Outline} {cs rest : List Char} :
    Reads (.value v) (skipSpace cs) rest ↔ Reads (.value v) cs rest := by
  refine ⟨Reads.of_skipSpace, ?_⟩
  intro h
  have hvalue : value? (2 * cs.length) cs = some (v, rest) := h.finds (by omega)
  rw [← value?_skipSpace] at hvalue
  exact (reader_followsGrammar _).value hvalue

theorem Outline.read?_skipSpace (cs : List Char) :
    Outline.read? (skipSpace cs) = Outline.read? cs := by
  apply Option.ext
  intro v
  simp only [Outline.read?_eq_some_iff, reads_value_skipSpace]

/-- Leading blanks do not matter to a text. -/
theorem read?_skipSpace (cs : List Char) : read? (skipSpace cs) = read? cs := by
  simp only [read?, Outline.read?_skipSpace]

end DocTransfer.Json
