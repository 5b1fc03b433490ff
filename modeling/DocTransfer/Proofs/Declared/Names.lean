import DocTransfer.Declared.Names
import DocTransfer.Proofs.Matching.Selection
import Mathlib.Data.List.DropRight

/-! # Names that turn up, each once

Names are added one after the other. What has been added in the end are the names that turned up,
trimmed, without blank ones and without repetitions, in the order in which they turned up first. -/

namespace DocTransfer

/-! ## Trimming -/

namespace Text

theorem dropWhile_rdropWhile {α : Type} {p : α → Bool} {xs : List α} (h : xs.dropWhile p = xs) :
    (xs.rdropWhile p).dropWhile p = xs.rdropWhile p := by
  cases hdrop : xs.rdropWhile p with
  | nil => rfl
  | cons x rest =>
      obtain ⟨more, hxs⟩ := hdrop ▸ List.rdropWhile_prefix p xs
      have hx : ¬ p x = true := by
        intro hx
        have hlength := congrArg List.length h
        rw [← hxs, List.cons_append, List.dropWhile_cons_of_pos hx] at hlength
        have hle := (List.dropWhile_suffix (l := rest ++ more) p).length_le
        rw [hlength, List.length_cons] at hle
        omega
      rw [List.dropWhile_cons_of_neg hx]

theorem trim_trim (cs : List Char) : trim (trim cs) = trim cs := by
  have hstart : (trimStart cs).dropWhile isBlank = trimStart cs :=
    List.dropWhile_idempotent isBlank cs
  have hend : trimStart (trim cs) = trim cs := dropWhile_rdropWhile hstart
  rw [trim, hend]
  exact List.rdropWhile_idempotent isBlank (trimStart cs)

theorem trimmed_ofList_trim (cs : List Char) :
    trimmed (String.ofList (trim cs)) = String.ofList (trim cs) := by
  rw [trimmed, String.toList_ofList, trim_trim]

end Text

namespace Declared

open Text

/-- The names that candidates stand for: without blanks at their ends, and without empty ones. -/
def named (candidates : List (List Char)) : List String :=
  (candidates.map fun c => String.ofList (trim c)).filter (· != "")

/-- Names are the set of those that candidates stand for, in the order of their first places. -/
structure OrderedSetOf (candidates : List (List Char)) (names : List String) : Prop where
  eq : names = (named candidates).eraseDups
  nodup : names.Nodup
  trimmed : ∀ name ∈ names, name ≠ "" ∧ Text.trimmed name = name
  complete : ∀ c ∈ candidates, trim c ≠ [] → String.ofList (trim c) ∈ names
  ordered : names.Pairwise fun name later =>
    (named candidates).idxOf name < (named candidates).idxOf later

theorem foldl_add (candidates : List (List Char)) :
    candidates.foldl add [] = (named candidates).eraseDups := by
  induction candidates using List.reverseRecOn with
  | nil => rfl
  | append_singleton candidates c ih =>
      have happend : named (candidates ++ [c]) = named candidates ++ named [c] := by simp [named]
      rw [List.foldl_append, ih, List.foldl_cons, List.foldl_nil, add, happend,
        List.eraseDups_append]
      by_cases hempty : String.ofList (trim c) = ""
      · simp [named, hempty, List.removeAll]
      · have hone : named [c] = [String.ofList (trim c)] := by simp [named, hempty]
        rw [hone]
        by_cases hmem : String.ofList (trim c) ∈ named candidates
        · simp [hmem, List.removeAll]
        · simp [hmem, hempty, List.removeAll, List.eraseDups_cons]

theorem mem_named {candidates : List (List Char)} {name : String} :
    name ∈ named candidates ↔ name ≠ "" ∧ ∃ c ∈ candidates, String.ofList (trim c) = name := by
  simp [named, and_comm]

/-- Adding candidates one after the other makes the set of them, in order. -/
theorem orderedSetOf_foldl_add (candidates : List (List Char)) :
    OrderedSetOf candidates (candidates.foldl add []) := by
  have hmem (name : String) : name ∈ candidates.foldl add [] ↔
      name ≠ "" ∧ ∃ c ∈ candidates, String.ofList (trim c) = name := by
    rw [foldl_add, List.mem_eraseDups, mem_named]
  have hordered := Matching.pairwise_idxOf_eraseDups (named candidates)
  rw [← foldl_add] at hordered
  refine ⟨foldl_add candidates, ?_, ?_, ?_, hordered⟩
  · refine hordered.imp ?_
    rintro name _ hlt rfl
    exact Nat.lt_irrefl _ hlt
  · intro name hname
    obtain ⟨hne, c, -, rfl⟩ := (hmem name).mp hname
    exact ⟨hne, trimmed_ofList_trim c⟩
  · intro c hc hne
    exact (hmem _).mpr ⟨by simpa using hne, c, hc, rfl⟩

end Declared

end DocTransfer
