import DocTransfer.Transfer.Dump
import DocTransfer.Proofs.Path.Below

/-! # The paths of dumps

A dump is named by the file that it is about, a dot and a label, and both may have dots inside. All
the same its path tells both: read from the end, a label shows where it begins. -/

namespace DocTransfer

open DocTransfer.Path

/-! ## Labels -/

namespace Text

/-- Of a separator, the last one is the same however a list is written. -/
theorem append_cons_inj {c : Char} {front front' back back' : List Char} (hback : c ∉ back)
    (hback' : c ∉ back') (h : front ++ c :: back = front' ++ c :: back') :
    front = front' ∧ back = back' := by
  have hlast {xs : List Char} (hxs : c ∉ xs) : splitWhere (· == c) xs = [xs] := by
    apply splitWhere_of_forall_not
    intro x hx
    have hne : x ≠ c := by
      rintro rfl
      exact hxs hx
    simpa using hne
  have hsplit := congrArg (splitWhere (· == c)) h
  rw [splitWhere_append_cons (by simp), splitWhere_append_cons (by simp), hlast hback,
    hlast hback'] at hsplit
  obtain ⟨-, hsame⟩ := List.append_inj' hsplit rfl
  cases hsame
  exact ⟨List.append_cancel_right h, rfl⟩

end Text

namespace Transfer

/-- What a request is about. The requests of an edit loop have the number of their pass. -/
inductive Topic where
  | mapping
  | documentation (pass : Nat)
  | correction (pass : Nat)
  deriving DecidableEq

namespace Topic

/-- The label of a request. -/
def label : Topic → String
  | .mapping => "type-mapping"
  | .documentation pass => "pass" ++ toString pass ++ ".doc"
  | .correction pass => "pass" ++ toString pass ++ ".correction"

/-- The part of a label behind its last dot. -/
def word : Topic → List Char
  | .mapping => "type-mapping".toList
  | .documentation _ => "doc".toList
  | .correction _ => "correction".toList

def pass? : Topic → Option Nat
  | .mapping => none
  | .documentation pass | .correction pass => some pass

/-- The part of a label up to its last dot, with a dot in front. -/
def stem : Option Nat → List Char
  | none => []
  | some pass => '.' :: ("pass".toList ++ Nat.toDigits 10 pass)

theorem cons_label (t : Topic) : '.' :: t.label.toList = stem t.pass? ++ '.' :: t.word := by
  have hpass (pass : Nat) (rest : String) : ("pass" ++ toString pass ++ rest).toList =
      "pass".toList ++ Nat.toDigits 10 pass ++ rest.toList := by
    have hnumber : (toString pass).toList = Nat.toDigits 10 pass := by
      rw [Nat.toString_eq_ofList_toDigits, String.toList_ofList]
    rw [String.toList_append, String.toList_append, hnumber]
  cases t with
  | mapping => rfl
  | documentation pass => exact congrArg (List.cons '.') (hpass pass ".doc")
  | correction pass => exact congrArg (List.cons '.') (hpass pass ".correction")

theorem eq_of_word_of_pass? {t t' : Topic} (hword : t.word = t'.word)
    (hpass : t.pass? = t'.pass?) : t = t' := by
  have hne : ¬ "doc".toList = "correction".toList := by decide
  cases t with
  | mapping =>
      cases t' with
      | mapping => rfl
      | documentation pass' => cases hpass
      | correction pass' => cases hpass
  | documentation pass =>
      cases t' with
      | mapping => cases hpass
      | documentation pass' =>
          cases hpass
          rfl
      | correction pass' => exact absurd hword hne
  | correction pass =>
      cases t' with
      | mapping => cases hpass
      | documentation pass' => exact absurd hword.symm hne
      | correction pass' =>
          cases hpass
          rfl

theorem word_eq_mapping_iff {t : Topic} : t.word = mapping.word ↔ t.pass? = none := by
  have hdoc : ¬ "doc".toList = "type-mapping".toList := by decide
  have hcorrection : ¬ "correction".toList = "type-mapping".toList := by decide
  cases t with
  | mapping => exact ⟨fun _ => rfl, fun _ => rfl⟩
  | documentation pass => exact ⟨fun h => absurd h hdoc, nofun⟩
  | correction pass => exact ⟨fun h => absurd h hcorrection, nofun⟩

theorem not_mem_word (t : Topic) : '.' ∉ t.word ∧ '/' ∉ t.word := by
  cases t with
  | mapping => exact (by decide : '.' ∉ "type-mapping".toList ∧ '/' ∉ "type-mapping".toList)
  | documentation pass => exact (by decide : '.' ∉ "doc".toList ∧ '/' ∉ "doc".toList)
  | correction pass => exact (by decide : '.' ∉ "correction".toList ∧ '/' ∉ "correction".toList)

end Topic

theorem toDigits_inj {m n : Nat} (h : Nat.toDigits 10 m = Nat.toDigits 10 n) : m = n := by
  rw [← Nat.ofDigitChars_ten_toDigits (n := m), h, Nat.ofDigitChars_ten_toDigits]

theorem not_mem_pass {c : Char} (hc : c.isDigit = false) (hpass : c ∉ "pass".toList) (pass : Nat) :
    c ∉ "pass".toList ++ Nat.toDigits 10 pass := by
  intro hmem
  rcases List.mem_append.mp hmem with hmem | hmem
  · exact hpass hmem
  · rw [Nat.isDigit_of_mem_toDigits (by decide) (by decide) hmem] at hc
    cases hc

/-- Two names with a number of a pass behind them, or without. -/
theorem append_stem_inj {name name' : List Char} {pass pass' : Option Nat}
    (hsome : pass = none ↔ pass' = none) (h : name ++ Topic.stem pass = name' ++ Topic.stem pass') :
    name = name' ∧ pass = pass' := by
  cases pass with
  | none =>
      cases hsome.mp rfl
      exact ⟨List.append_cancel_right h, rfl⟩
  | some pass =>
      cases pass' with
      | none => cases hsome.mpr rfl
      | some pass' =>
          have hdot (k : Nat) : '.' ∉ "pass".toList ++ Nat.toDigits 10 k :=
            not_mem_pass rfl (by decide) k
          obtain ⟨hname, hdigits⟩ := Text.append_cons_inj (hdot pass) (hdot pass') h
          exact ⟨hname, congrArg some (toDigits_inj (List.append_cancel_left hdigits))⟩

/-- The dump of a request's prompt or of its answer. -/
@[ext] structure Slip where
  topic : Topic
  answer : Bool
  deriving DecidableEq

namespace Slip

/-- What stands behind the label of the request. -/
def ending (answer : Bool) : String :=
  if answer then "-response" else "-prompt"

def label (s : Slip) : String :=
  s.topic.label ++ ending s.answer

/-- The part of a label behind its last dot. -/
def word (s : Slip) : List Char :=
  s.topic.word ++ (ending s.answer).toList

theorem cons_label (s : Slip) :
    '.' :: s.label.toList = Topic.stem s.topic.pass? ++ '.' :: s.word := by
  rw [label, String.toList_append, ← List.cons_append, Topic.cons_label, List.append_assoc,
    List.cons_append]
  rfl

theorem not_mem_word (s : Slip) : '.' ∉ s.word ∧ '/' ∉ s.word := by
  have htopic := s.topic.not_mem_word
  have hending : '.' ∉ (ending s.answer).toList ∧ '/' ∉ (ending s.answer).toList := by
    cases s.answer <;> decide
  simp only [word, List.mem_append, not_or]
  exact ⟨⟨htopic.1, hending.1⟩, htopic.2, hending.2⟩

theorem getLast?_word (s : Slip) : s.word.getLast? = some (if s.answer then 'e' else 't') := by
  obtain ⟨topic, answer⟩ := s
  cases answer with
  | false =>
      have hsplit : (ending false).toList = "-promp".toList ++ ['t'] := by decide
      rw [word, hsplit, ← List.append_assoc, List.getLast?_concat]
      rfl
  | true =>
      have hsplit : (ending true).toList = "-respons".toList ++ ['e'] := by decide
      rw [word, hsplit, ← List.append_assoc, List.getLast?_concat]
      rfl

theorem word_inj {s s' : Slip} (h : s.word = s'.word) :
    s.topic.word = s'.topic.word ∧ s.answer = s'.answer := by
  have hanswer : s.answer = s'.answer := by
    have hlast := congrArg List.getLast? h
    rw [getLast?_word, getLast?_word] at hlast
    cases hs : s.answer <;> cases hs' : s'.answer <;> simp_all
  rw [word, word, hanswer] at h
  exact ⟨List.append_cancel_right h, hanswer⟩

/-- A name, a dot and a label: read from the end, only one way to take them apart. -/
theorem append_label_inj {name name' : List Char} {s s' : Slip}
    (h : name ++ '.' :: s.label.toList = name' ++ '.' :: s'.label.toList) :
    name = name' ∧ s = s' := by
  rw [cons_label, cons_label, ← List.append_assoc, ← List.append_assoc] at h
  obtain ⟨hfront, hword⟩ := Text.append_cons_inj s.not_mem_word.1 s'.not_mem_word.1 h
  obtain ⟨htopic, hanswer⟩ := word_inj hword
  have hsome : s.topic.pass? = none ↔ s'.topic.pass? = none := by
    rw [← Topic.word_eq_mapping_iff, ← Topic.word_eq_mapping_iff, htopic]
  obtain ⟨hname, hpass⟩ := append_stem_inj hsome hfront
  exact ⟨hname, Slip.ext (Topic.eq_of_word_of_pass? htopic hpass) hanswer⟩

theorem no_slash_label (s : Slip) : '/' ∉ s.label.toList := by
  intro hslash
  have hcons : '/' ∈ Topic.stem s.topic.pass? ++ '.' :: s.word := by
    rw [← cons_label]
    exact List.mem_cons_of_mem _ hslash
  rcases List.mem_append.mp hcons with hstem | hword
  · cases hpass : s.topic.pass? with
    | none =>
        rw [hpass] at hstem
        cases hstem
    | some pass =>
        rw [hpass] at hstem
        rcases List.mem_cons.mp hstem with heq | hstem
        · cases heq
        · exact not_mem_pass rfl (by decide) pass hstem
  · rcases List.mem_cons.mp hword with heq | hword
    · cases heq
    · exact s.not_mem_word.2 hword

end Slip

/-! ## Paths -/

namespace Dump

/-- The name of the dump of a label for a file. -/
def nameFor (name : List Char) (label : String) : List Char :=
  name ++ '.' :: label.toList ++ ".txt".toList

theorem isName_nameFor {name : List Char} (hname : IsName name) {label : String}
    (hlabel : '/' ∉ label.toList) : IsName (nameFor name label) := by
  have hlength : 4 < (nameFor name label).length := by
    have htxt : ".txt".toList.length = 4 := by decide
    simp only [nameFor, List.length_append, List.length_cons, htxt]
    omega
  constructor
  · intro heq
    simp [heq] at hlength
  · have htxt : '/' ∉ ".txt".toList := by decide
    intro hslash
    simp only [nameFor, List.mem_append, List.mem_cons] at hslash
    rcases hslash with (hslash | heq | hslash) | hslash
    · exact hname.no_slash hslash
    · cases heq
    · exact hlabel hslash
    · exact htxt hslash
  · intro heq
    simp [heq] at hlength
  · intro heq
    simp [heq] at hlength

/-- A path that leads from a folder further down, by names alone. -/
def LiesBelow (root path : List Char) : Prop :=
  ∃ names, names ≠ [] ∧ components path = components root ++ names.map .name

/-- The dumps of a file lie below the dump folder as the file does below the root. -/
theorem components_pathFor {d : Dump} {root file : String} (hroot : d.root = some root)
    {names : List (List Char)} {name : List Char}
    (h : components file.toList = components root.toList ++ (names ++ [name]).map .name)
    {label : String} (hlabel : '/' ∉ label.toList) :
    components (d.pathFor file label).toList =
      components d.dir.toList ++ (names ++ [nameFor name label]).map .name := by
  obtain ⟨rel, hrel, hplain⟩ := plain_below? h
  obtain ⟨folder, hfolder, hfront⟩ := hplain.parent?
  have hname : IsName name := by
    have hmem : .name name ∈ components rel := by simp [hplain.components]
    exact isName_of_mem_components hmem
  have hplace : d.place file.toList = (some folder, name) := by
    simp [place, relative?, hroot, hrel, hplain.fileName?, hfolder]
  have hpath : d.pathFor file label =
      String.ofList (join (join d.dir.toList folder) (nameFor name label)) := by
    rw [pathFor, hplace]
    rfl
  rw [hpath, String.toList_ofList, (isName_nameFor hname hlabel).plain.components_join,
    hfront.components_join, List.append_assoc, List.map_append, List.map_singleton]

theorem components_inj {names names' : List (List Char)}
    (h : names.map Component.name = names'.map .name) : names = names' :=
  List.map_injective_iff.mpr (fun _ _ heq => Component.name.inj heq) h

/-- The path of a dump tells the file that it is about, and the request. -/
theorem pathFor_inj {d : Dump} {root file file' : String} (hroot : d.root = some root)
    (hfile : LiesBelow root.toList file.toList) (hfile' : LiesBelow root.toList file'.toList)
    {s s' : Slip} (h : components (d.pathFor file s.label).toList =
      components (d.pathFor file' s'.label).toList) :
    components file.toList = components file'.toList ∧ s = s' := by
  obtain ⟨names, hne, hnames⟩ := hfile
  obtain ⟨names', hne', hnames'⟩ := hfile'
  rcases List.eq_nil_or_concat' names with hnil | ⟨front, name, rfl⟩
  · exact absurd hnil hne
  rcases List.eq_nil_or_concat' names' with hnil | ⟨front', name', rfl⟩
  · exact absurd hnil hne'
  rw [components_pathFor hroot hnames s.no_slash_label,
    components_pathFor hroot hnames' s'.no_slash_label] at h
  -- The folders agree name by name, so the names of the two dumps are what is left.
  obtain ⟨hfront, hlast⟩ := List.append_inj' (components_inj (List.append_cancel_left h)) rfl
  obtain ⟨hname, hslip⟩ :=
    Slip.append_label_inj (List.append_cancel_right (List.singleton_inj.mp hlast))
  rw [hnames, hnames', hfront, hname]
  exact ⟨rfl, hslip⟩

end Dump

end Transfer

end DocTransfer
