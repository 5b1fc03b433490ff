import DocTransfer.Matching.Similarity
import Mathlib.Order.Bounds.Basic

/-! # Changes of single characters

A script is a list of changes, each of which puts in, takes out or replaces one character at any
place of the text that the changes before have left. A recursion over two texts gives the length of
a shortest script from one to the other: some script is that long, and a single change brings a text
closer to another one by one at most. -/

namespace DocTransfer.Matching

/-- A change of one character at a place, which is the number of characters before it. -/
inductive Change where
  | insert (place : Nat) (c : Char)
  | delete (place : Nat)
  | substitute (place : Nat) (c : Char)
  deriving DecidableEq, Repr

/-- The text after a change, if there is such a place in it. -/
def Change.result? : Change → List Char → Option (List Char)
  | .insert place c, cs =>
    if place ≤ cs.length then some (cs.take place ++ c :: cs.drop place) else none
  | .delete place, cs =>
    if place < cs.length then some (cs.take place ++ cs.drop (place + 1)) else none
  | .substitute place c, cs =>
    if place < cs.length then some (cs.take place ++ c :: cs.drop (place + 1)) else none

/-- The text after a script, if each of its changes finds its place. -/
def scriptResult? : List Change → List Char → Option (List Char)
  | [], cs => some cs
  | change :: script, cs => (change.result? cs).bind (scriptResult? script)

/-! ## One change -/

/-- Two texts are the same but for one character, which is missing in one of them or replaced. -/
inductive OneChange : List Char → List Char → Prop where
  | insert (before : List Char) (c : Char) (after : List Char) :
      OneChange (before ++ after) (before ++ c :: after)
  | delete (before : List Char) (c : Char) (after : List Char) :
      OneChange (before ++ c :: after) (before ++ after)
  | substitute (before : List Char) (c d : Char) (after : List Char) :
      OneChange (before ++ c :: after) (before ++ d :: after)

namespace OneChange

variable {xs ys : List Char}

theorem symm (h : OneChange xs ys) : OneChange ys xs := by
  cases h with
  | insert before c after => exact .delete before c after
  | delete before c after => exact .insert before c after
  | substitute before c d after => exact .substitute before d c after

theorem cons (x : Char) (h : OneChange xs ys) : OneChange (x :: xs) (x :: ys) := by
  cases h with
  | insert before c after => exact .insert (x :: before) c after
  | delete before c after => exact .delete (x :: before) c after
  | substitute before c d after => exact .substitute (x :: before) c d after

theorem reverse (h : OneChange xs ys) : OneChange xs.reverse ys.reverse := by
  cases h with
  | insert before c after => simpa using insert after.reverse c before.reverse
  | delete before c after => simpa using delete after.reverse c before.reverse
  | substitute before c d after => simpa using substitute after.reverse c d before.reverse

end OneChange

theorem oneChange_iff {xs ys : List Char} :
    OneChange xs ys ↔ ∃ change : Change, change.result? xs = some ys := by
  constructor
  · rintro (⟨before, c, after⟩ | ⟨before, c, after⟩ | ⟨before, c, d, after⟩)
    · exact ⟨.insert before.length c, by simp [Change.result?]⟩
    · exact ⟨.delete before.length, by simp [Change.result?]⟩
    · exact ⟨.substitute before.length d, by simp [Change.result?]⟩
  · rintro ⟨⟨place, c⟩ | place | ⟨place, c⟩, h⟩
    · obtain ⟨-, ⟨⟩⟩ := Option.ite_none_right_eq_some.mp h
      simpa using OneChange.insert (xs.take place) c (xs.drop place)
    · obtain ⟨hplace, ⟨⟩⟩ := Option.ite_none_right_eq_some.mp h
      have hdelete := OneChange.delete (xs.take place) xs[place] (xs.drop (place + 1))
      rwa [List.getElem_cons_drop, List.take_append_drop] at hdelete
    · obtain ⟨hplace, ⟨⟩⟩ := Option.ite_none_right_eq_some.mp h
      have hsubstitute :=
        OneChange.substitute (xs.take place) xs[place] c (xs.drop (place + 1))
      rwa [List.getElem_cons_drop, List.take_append_drop] at hsubstitute

/-! ## Scripts -/

/-- A script of so many changes turns one text into the other. -/
def Turns (n : Nat) (xs ys : List Char) : Prop :=
  ∃ script : List Change, script.length = n ∧ scriptResult? script xs = some ys

theorem turns_zero_iff {xs ys : List Char} : Turns 0 xs ys ↔ xs = ys := by
  simp [Turns, scriptResult?]

theorem turns_succ_iff {n : Nat} {xs ys : List Char} :
    Turns (n + 1) xs ys ↔ ∃ next, OneChange xs next ∧ Turns n next ys := by
  simp only [oneChange_iff]
  constructor
  · rintro ⟨_ | ⟨change, script⟩, hlength, hresult⟩
    · simp at hlength
    · obtain ⟨next, hnext, hrest⟩ := Option.bind_eq_some_iff.mp hresult
      exact ⟨next, ⟨change, hnext⟩, script, by simpa using hlength, hrest⟩
  · rintro ⟨next, ⟨change, hnext⟩, script, rfl, hrest⟩
    exact ⟨change :: script, rfl, Option.bind_eq_some_iff.mpr ⟨next, hnext, hrest⟩⟩

namespace Turns

variable {m n : Nat} {xs ys zs : List Char}

theorem refl (xs : List Char) : Turns 0 xs xs :=
  ⟨[], rfl, rfl⟩

theorem head (h : OneChange xs ys) (hrest : Turns n ys zs) : Turns (n + 1) xs zs := by
  rw [turns_succ_iff]
  exact ⟨ys, h, hrest⟩

/-- A script is empty, or a change and a script behind it. -/
theorem scriptInduction {motive : ∀ {n xs}, Turns n xs ys → Prop} (refl : motive (refl ys))
    (head : ∀ {n xs next} (hchange : OneChange xs next) (hmore : Turns n next ys),
      motive hmore → motive (head hchange hmore)) (h : Turns n xs ys) : motive h := by
  induction n generalizing xs with
  | zero =>
      obtain rfl := turns_zero_iff.mp h
      exact refl
  | succ n ih =>
      obtain ⟨next, hchange, hmore⟩ := turns_succ_iff.mp h
      exact head hchange hmore (ih hmore)

theorem trans (h : Turns m xs ys) (hrest : Turns n ys zs) : Turns (m + n) xs zs := by
  induction h using scriptInduction with
  | refl => rwa [Nat.zero_add]
  | head hchange _ ih =>
      rw [Nat.succ_add]
      exact .head hchange ih

/-- What takes single changes to single changes takes scripts to scripts of the same length. -/
theorem map {f : List Char → List Char}
    (hf : ∀ {xs ys}, OneChange xs ys → OneChange (f xs) (f ys)) (h : Turns n xs ys) :
    Turns n (f xs) (f ys) := by
  induction h using scriptInduction with
  | refl => exact .refl (f ys)
  | head hchange _ ih => exact .head (hf hchange) ih

theorem cons (x : Char) (h : Turns n xs ys) : Turns n (x :: xs) (x :: ys) :=
  h.map (f := (x :: ·)) (.cons x)

theorem reverse (h : Turns n xs ys) : Turns n xs.reverse ys.reverse :=
  h.map .reverse

theorem symm (h : Turns n xs ys) : Turns n ys xs := by
  induction h using scriptInduction with
  | refl => exact .refl ys
  | @head _ xs _ hchange _ ih => exact ih.trans (.head hchange.symm (.refl xs))

end Turns

/-! ## The length of a shortest script -/

/-- How many changes it takes to turn one text into the other, going through both from the front. -/
def leastChanges : List Char → List Char → Nat
  | [], ys => ys.length
  | _ :: xs, [] => xs.length + 1
  | x :: xs, y :: ys =>
    min (min (leastChanges xs (y :: ys) + 1) (leastChanges (x :: xs) ys + 1))
      (leastChanges xs ys + if x = y then 0 else 1)
termination_by xs ys => xs.length + ys.length

@[simp] theorem leastChanges_nil_left (ys : List Char) : leastChanges [] ys = ys.length := by
  rw [leastChanges]

@[simp] theorem leastChanges_nil_right (xs : List Char) : leastChanges xs [] = xs.length := by
  cases xs <;> simp [leastChanges]

theorem leastChanges_cons_cons (x y : Char) (xs ys : List Char) :
    leastChanges (x :: xs) (y :: ys) =
      min (min (leastChanges xs (y :: ys) + 1) (leastChanges (x :: xs) ys + 1))
        (leastChanges xs ys + if x = y then 0 else 1) := by
  rw [leastChanges]

theorem leastChanges_self (xs : List Char) : leastChanges xs xs = 0 := by
  induction xs with
  | nil => simp
  | cons x xs ih => simp [leastChanges_cons_cons, ih]

theorem leastChanges_cons_left_le (x : Char) (xs ys : List Char) :
    leastChanges (x :: xs) ys ≤ leastChanges xs ys + 1 := by
  cases ys with
  | nil => simp
  | cons y ys =>
      rw [leastChanges_cons_cons]
      omega

theorem leastChanges_cons_right_le (y : Char) (xs ys : List Char) :
    leastChanges xs (y :: ys) ≤ leastChanges xs ys + 1 := by
  cases xs with
  | nil => simp
  | cons x xs =>
      rw [leastChanges_cons_cons]
      omega

/-- A text is put in one character after the other. -/
theorem turns_length (ys : List Char) : Turns ys.length [] ys := by
  induction ys with
  | nil => exact .refl []
  | cons y ys ih => exact .head (.insert [] y []) (ih.cons y)

/-- Some script is that long. -/
theorem turns_leastChanges (xs ys : List Char) : Turns (leastChanges xs ys) xs ys := by
  fun_induction leastChanges xs ys with
  | case1 ys => exact turns_length ys
  | case2 x xs => exact (turns_length (x :: xs)).symm
  | case3 x xs y ys hdelete hinsert hboth =>
      have hdeleted : Turns (leastChanges xs (y :: ys) + 1) (x :: xs) (y :: ys) :=
        .head (.delete [] x xs) hdelete
      have hinserted : Turns (leastChanges (x :: xs) ys + 1) (x :: xs) (y :: ys) :=
        .head (.insert [] y (x :: xs)) (hinsert.cons y)
      have hreplaced : Turns (leastChanges xs ys + if x = y then 0 else 1) (x :: xs) (y :: ys) := by
        split
        · next hsame =>
            subst hsame
            exact hboth.cons x
        · exact .head (.substitute [] x y xs) (hboth.cons y)
      let reached := fun n => Turns n (x :: xs) (y :: ys)
      exact min_rec' reached (min_rec' reached hdeleted hinserted) hreplaced

/-! ## One change brings a text closer by one at most -/

/-- A bound between what is left of two texts holds with one more character before both. -/
theorem leastChanges_cons_le_of_forall {xs xs' : List Char}
    (h : ∀ ys, leastChanges xs ys ≤ leastChanges xs' ys + 1) (x : Char) (ys : List Char) :
    leastChanges (x :: xs) ys ≤ leastChanges (x :: xs') ys + 1 := by
  -- each of the three neighbours of an entry moves by one at most, and so does their least
  induction ys with
  | nil =>
      have hnil := h []
      simp only [leastChanges_nil_right, List.length_cons] at hnil ⊢
      omega
  | cons y ys ih =>
      have hdelete := h (y :: ys)
      have hboth := h ys
      rw [leastChanges_cons_cons, leastChanges_cons_cons]
      omega

theorem leastChanges_le_cons_left (x : Char) (xs ys : List Char) :
    leastChanges xs ys ≤ leastChanges (x :: xs) ys + 1 := by
  induction ys with
  | nil =>
      simp only [leastChanges_nil_right, List.length_cons]
      omega
  | cons y ys ih =>
      have hinsert := leastChanges_cons_right_le y xs ys
      rw [leastChanges_cons_cons]
      omega

theorem leastChanges_substitute_le (c d : Char) (xs ys : List Char) :
    leastChanges (c :: xs) ys ≤ leastChanges (d :: xs) ys + 1 := by
  induction ys with
  | nil => simp
  | cons y ys ih =>
      rw [leastChanges_cons_cons, leastChanges_cons_cons]
      split <;> split <;> omega

theorem OneChange.leastChanges_le {xs xs' : List Char} (h : OneChange xs xs') (ys : List Char) :
    leastChanges xs ys ≤ leastChanges xs' ys + 1 := by
  have hbefore (before : List Char) {rest rest' : List Char}
      (hrest : ∀ ys, leastChanges rest ys ≤ leastChanges rest' ys + 1) (ys : List Char) :
      leastChanges (before ++ rest) ys ≤ leastChanges (before ++ rest') ys + 1 := by
    induction before generalizing ys with
    | nil => exact hrest ys
    | cons x before ih => exact leastChanges_cons_le_of_forall ih x ys
  cases h with
  | insert before c after => exact hbefore before (leastChanges_le_cons_left c after) ys
  | delete before c after => exact hbefore before (leastChanges_cons_left_le c after) ys
  | substitute before c d after =>
      exact hbefore before (leastChanges_substitute_le c d after) ys

/-- No script is shorter. -/
theorem Turns.leastChanges_le {n : Nat} {xs ys : List Char} (h : Turns n xs ys) :
    leastChanges xs ys ≤ n := by
  induction h using scriptInduction with
  | refl => exact (leastChanges_self ys).le
  | head hchange _ ih => exact (hchange.leastChanges_le ys).trans (Nat.succ_le_succ ih)

end DocTransfer.Matching
