import DocTransfer.Proofs.Json.Written

/-! # Indented text has the outline of its value

Whatever the indentation, the reader finds in a written value its structure, its names and its
strings. Numbers are up to their own text. -/

namespace DocTransfer.Json

/-! ## The outline of a value -/

/-- The outline that the text of a number has; what is no finite number is written as null. -/
def numberOutline (n : JsonNumber) : Outline :=
  match numeral? (numberText n) with
  | some (numeral, _) => .number numeral
  | none => .null

mutual

/-- The outline of a value. -/
def outline : Json → Outline
  | .null => .null
  | .bool b => .bool b
  | .number n => numberOutline n
  | .string s => .string (some s)
  | .array items => .array (outlineItems items)
  | .object fields => .object (outlineFields fields)

def outlineItems : List Json → List Outline
  | [] => []
  | x :: xs => outline x :: outlineItems xs

def outlineFields : List (String × Json) → List (Option String × Outline)
  | [] => []
  | (name, x) :: xs => (some name, outline x) :: outlineFields xs

end

mutual

/-- The numbers in a value. -/
def numbers : Json → List JsonNumber
  | .number n => [n]
  | .array items => numbersOfItems items
  | .object fields => numbersOfFields fields
  | _ => []

def numbersOfItems : List Json → List JsonNumber
  | [] => []
  | x :: xs => numbers x ++ numbersOfItems xs

def numbersOfFields : List (String × Json) → List JsonNumber
  | [] => []
  | (_, x) :: xs => numbers x ++ numbersOfFields xs

end

/-! ## Reading indented text -/

/-- A text that does not go on with a character of a numeral. -/
def EndsNumeral (rest : List Char) : Prop :=
  ∀ c ∈ rest.head?, isNumeralChar c = false

/-- The text of a number is read in full. -/
def Legible (n : JsonNumber) : Prop :=
  ∀ rest, EndsNumeral rest → Reads (.value (numberOutline n)) (numberText n ++ rest) rest

theorem isSpace_of_mem_lineBreak {level : Nat} {c : Char} (h : c ∈ lineBreak level) :
    isSpace c = true := by
  rcases List.mem_cons.mp h with rfl | h
  · decide
  · rw [List.eq_of_mem_replicate h]
    decide

theorem Reads.of_blanks {part : Part} {cs rest : List Char} (blanks : List Char)
    (hblanks : ∀ c ∈ blanks, isSpace c = true) (h : Reads part cs rest) :
    Reads part (blanks ++ cs) rest := by
  induction blanks with
  | nil => exact h
  | cons c blanks ih =>
      have hc := hblanks c (by simp)
      exact .blank c hc (ih fun d hd => hblanks d (by simp [hd]))

theorem Reads.of_lineBreak {part : Part} {cs rest : List Char} (level : Nat)
    (h : Reads part cs rest) : Reads part (lineBreak level ++ cs) rest :=
  h.of_blanks _ fun _ => isSpace_of_mem_lineBreak

theorem skipSpace_lineBreak (level : Nat) {c : Char} (hc : isSpace c = false) (rest : List Char) :
    skipSpace (lineBreak level ++ c :: rest) = c :: rest := by
  rw [skipSpace, List.dropWhile_append_of_pos fun _ => isSpace_of_mem_lineBreak]
  exact skipSpace_cons_of_not_isSpace hc rest

theorem endsNumeral_lineBreak (level : Nat) (rest : List Char) :
    EndsNumeral (lineBreak level ++ rest) := by
  rintro c ⟨⟩
  decide

theorem endsNumeral_comma (rest : List Char) : EndsNumeral (',' :: rest) := by
  rintro c ⟨⟩
  decide

theorem reads_string (s : String) (rest : List Char) :
    Reads (.value (.string (some s))) (quoted s ++ rest) rest := by
  rw [quoted_append]
  exact .string (string?_of_quoted s rest)

mutual

/-- The text of a value at any level of indentation, whatever follows it. -/
theorem reads_prettyAt (level : Nat) : (j : Json) → (∀ n ∈ j.numbers, Legible n) →
    ∀ {rest}, EndsNumeral rest → Reads (.value j.outline) (prettyAt level j ++ rest) rest
  | .null, _, rest, _ => .nullWord rest
  | .bool true, _, rest, _ => .trueWord rest
  | .bool false, _, rest, _ => .falseWord rest
  | .number n, hnumbers, rest, hrest => hnumbers n (by simp [numbers]) rest hrest
  | .string s, _, rest, _ => reads_string s rest
  | .array [], _, rest, _ => .emptyArray (skipSpace_cons_of_not_isSpace rfl rest)
  | .array (x :: xs), hnumbers, rest, _ => by
      have hitems := reads_prettyItems (level + 1) level (x :: xs) (by simp) hnumbers rest
      simpa [prettyAt, outline] using Reads.array (hitems.of_lineBreak (level + 1))
  | .object [], _, rest, _ => .emptyObject (skipSpace_cons_of_not_isSpace rfl rest)
  | .object ((name, x) :: xs), hnumbers, rest, _ => by
      have hfields := reads_prettyFields (level + 1) level ((name, x) :: xs) (by simp) hnumbers
        rest
      simpa [prettyAt, outline] using Reads.object (hfields.of_lineBreak (level + 1))

/-- Items at one level, with the closing bracket at another. -/
theorem reads_prettyItems (level last : Nat) : (xs : List Json) → xs ≠ [] →
    (∀ n ∈ numbersOfItems xs, Legible n) → ∀ rest,
    Reads (.items (outlineItems xs)) (prettyItems level xs ++ (lineBreak last ++ ']' :: rest)) rest
  | [x], _, hnumbers, rest => by
      have hvalue := reads_prettyAt level x (by simpa [numbersOfItems] using hnumbers)
        (endsNumeral_lineBreak last (']' :: rest))
      exact .lastItem hvalue (skipSpace_lineBreak last rfl rest)
  | x :: y :: ys, _, hnumbers, rest => by
      rw [numbersOfItems, List.forall_mem_append] at hnumbers
      have hnext := reads_prettyItems level last (y :: ys) (by simp) hnumbers.2 rest
      have hvalue := reads_prettyAt level x hnumbers.1 (endsNumeral_comma
        (lineBreak level ++ (prettyItems level (y :: ys) ++ (lineBreak last ++ ']' :: rest))))
      have htext : prettyItems level (x :: y :: ys) ++ (lineBreak last ++ ']' :: rest) =
          prettyAt level x ++ ',' :: (lineBreak level ++
            (prettyItems level (y :: ys) ++ (lineBreak last ++ ']' :: rest))) := by
        simp [prettyItems]
      rw [htext]
      exact .moreItems hvalue (skipSpace_cons_of_not_isSpace rfl _) (hnext.of_lineBreak level)

/-- Fields at one level, with the closing brace at another. -/
theorem reads_prettyFields (level last : Nat) : (fs : List (String × Json)) → fs ≠ [] →
    (∀ n ∈ numbersOfFields fs, Legible n) → ∀ rest,
    Reads (.fields (outlineFields fs))
      (prettyFields level fs ++ (lineBreak last ++ '\x7d' :: rest)) rest
  | [(name, x)], _, hnumbers, rest => by
      have hvalue := reads_prettyAt level x (by simpa [numbersOfFields] using hnumbers)
        (endsNumeral_lineBreak last ('\x7d' :: rest))
      have htext : prettyFields level [(name, x)] ++ (lineBreak last ++ '\x7d' :: rest) =
          quoted name ++ ':' :: ' ' :: (prettyAt level x ++ (lineBreak last ++ '\x7d' :: rest)) := by
        simp [prettyFields]
      rw [htext, quoted_append]
      exact .lastField (string?_of_quoted _ _) (skipSpace_cons_of_not_isSpace rfl _)
        (.blank ' ' rfl hvalue) (skipSpace_lineBreak last rfl rest)
  | (name, x) :: (other, y) :: ys, _, hnumbers, rest => by
      rw [numbersOfFields, List.forall_mem_append] at hnumbers
      have hnext := reads_prettyFields level last ((other, y) :: ys) (by simp) hnumbers.2 rest
      have hvalue := reads_prettyAt level x hnumbers.1 (endsNumeral_comma (lineBreak level ++
        (prettyFields level ((other, y) :: ys) ++ (lineBreak last ++ '\x7d' :: rest))))
      have htext : prettyFields level ((name, x) :: (other, y) :: ys) ++
          (lineBreak last ++ '\x7d' :: rest) =
          quoted name ++ ':' :: ' ' :: (prettyAt level x ++ ',' :: (lineBreak level ++
            (prettyFields level ((other, y) :: ys) ++ (lineBreak last ++ '\x7d' :: rest)))) := by
        simp [prettyFields]
      rw [htext, quoted_append]
      exact .moreFields (string?_of_quoted _ _) (skipSpace_cons_of_not_isSpace rfl _)
        (.blank ' ' rfl hvalue) (skipSpace_cons_of_not_isSpace rfl _) (hnext.of_lineBreak level)

end

/-- The indented text of a value has the outline of the value. -/
theorem read?_pretty {j : Json} (h : ∀ n ∈ j.numbers, Legible n) :
    Outline.read? (pretty j).toList = some j.outline := by
  rw [pretty, String.toList_ofList, Outline.read?_eq_some_iff]
  refine ⟨[], ?_, rfl⟩
  simpa using @reads_prettyAt 0 j h [] (by simp [EndsNumeral])

end DocTransfer.Json
