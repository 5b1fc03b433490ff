import DocTransfer.Proofs.Path.Join
import DocTransfer.Text.Blank
import DocTransfer.Text.Letter
import Mathlib.Data.List.TakeWhile

/-! # Words of a text

A text is words and what stands between them. Where something that is no word character stands
between two parts, the words of the whole are those of the parts. -/

namespace DocTransfer.Text

/-- The words of a text: its longest runs of word characters. -/
def words (cs : List Char) : List (List Char) :=
  (splitWhere (fun c => !isWord c) cs).filter fun piece => !piece.isEmpty

/-- The characters of a text that are no blanks. -/
def unblank (cs : List Char) : List Char :=
  cs.filter fun c => !isBlank c

/-! ## Deciding

What is said of the characters of a text is decided by going through the text, and not by going
through all characters there are. -/

instance (priority := 2000) decidableForallChars (p : Char → Prop) [DecidablePred p]
    (cs : List Char) : Decidable (∀ c ∈ cs, p c) :=
  List.decidableBAll p cs

instance (priority := 2000) decidableForallChar? (p : Char → Prop) [DecidablePred p]
    (c? : Option Char) : Decidable (∀ c ∈ c?, p c) :=
  Option.decidableForallMem c?

instance (priority := 2000) decidableExistsChar? (p : Char → Prop) [DecidablePred p]
    (c? : Option Char) : Decidable (∃ c ∈ c?, p c) :=
  Option.decidableExistsMem c?

/-! ## Blanks -/

/-- The code points of the blanks. -/
def blankPoints : List Nat :=
  [9, 10, 11, 12, 13, 0x20, 0x85, 0xA0, 0x1680, 0x2000, 0x2001, 0x2002, 0x2003, 0x2004, 0x2005,
   0x2006, 0x2007, 0x2008, 0x2009, 0x200A, 0x2028, 0x2029, 0x202F, 0x205F, 0x3000]

/-- What no blank is, by looking at each of them. -/
theorem eq_false_of_isBlank {p : Char → Bool} (hp : ∀ n ∈ blankPoints, p (Char.ofNat n) = false)
    {c : Char} (h : isBlank c = true) : p c = false := by
  rw [← Char.ofNat_toNat c]
  apply hp
  simp only [isBlank, Bool.or_eq_true, Bool.and_eq_true, decide_eq_true_eq, beq_iff_eq] at h
  simp only [blankPoints, List.mem_cons, List.not_mem_nil, or_false]
  omega

theorem isWord_of_isBlank {c : Char} : isBlank c = true → isWord c = false :=
  eq_false_of_isBlank (by decide +kernel)

@[simp] theorem unblank_append (xs ys : List Char) :
    unblank (xs ++ ys) = unblank xs ++ unblank ys :=
  List.filter_append xs ys

@[simp] theorem unblank_of_blank {gap : List Char} (h : ∀ c ∈ gap, isBlank c = true) :
    unblank gap = [] := by
  apply List.filter_eq_nil_iff.mpr
  intro c hc
  simp [h c hc]

/-! ## Words of parts -/

theorem words_append_cons {c : Char} (hc : isWord c = false) (xs ys : List Char) :
    words (xs ++ c :: ys) = words xs ++ words ys := by
  rw [words, splitWhere_append_cons (by simp [hc]), List.filter_append]
  rfl

theorem ne_nil_of_mem_words {cs word : List Char} (h : word ∈ words cs) : word ≠ [] := by
  have hne := (List.mem_filter.mp h).2
  simpa using hne

theorem words_of_forall {word : List Char} (h : ∀ c ∈ word, isWord c = true) :
    words word = if word = [] then [] else [word] := by
  have hsplit : splitWhere (fun c => !isWord c) word = [word] := by
    apply splitWhere_of_forall_not
    intro c hc
    simp [h c hc]
  cases word with
  | nil => rfl
  | cons c cs => simp [words, hsplit]

theorem words_append_gap {gap : List Char} (hne : gap ≠ []) (h : ∀ c ∈ gap, isWord c = false)
    (xs ys : List Char) : words (xs ++ (gap ++ ys)) = words xs ++ words ys := by
  induction gap generalizing xs with
  | nil => exact absurd rfl hne
  | cons c gap ih =>
      obtain ⟨hc, hgap⟩ := List.forall_mem_cons.mp h
      rw [List.cons_append, words_append_cons hc]
      cases gap with
      | nil => rfl
      | cons d gap => exact congrArg (words xs ++ ·) (ih (by simp) hgap [])

/-- A text is a word, maybe an empty one, or such a word with something after it that is no word
character. -/
@[elab_as_elim]
theorem wordwise {motive : List Char → Prop}
    (last : ∀ word, (∀ c ∈ word, isWord c = true) → motive word)
    (more : ∀ word c rest, (∀ d ∈ word, isWord d = true) → isWord c = false → motive rest →
      motive (word ++ c :: rest)) (cs : List Char) : motive cs := by
  have hword : ∀ c ∈ cs.takeWhile isWord, isWord c = true := fun c hc => List.mem_takeWhile_imp hc
  have hsplit : cs.takeWhile isWord ++ cs.dropWhile isWord = cs := List.takeWhile_append_dropWhile
  cases hrest : cs.dropWhile isWord with
  | nil =>
      rw [hrest, List.append_nil] at hsplit
      rw [← hsplit]
      exact last _ hword
  | cons c rest =>
      have hc : isWord c = false := by
        have hstop := List.head?_dropWhile_not isWord cs
        simpa [hrest] using hstop
      rw [← hsplit, hrest]
      exact more _ c rest hword hc (wordwise last more rest)
termination_by cs.length
decreasing_by
  have hlength := congrArg List.length hsplit
  rw [hrest] at hlength
  simp only [List.length_append, List.length_cons] at hlength
  omega

end DocTransfer.Text
