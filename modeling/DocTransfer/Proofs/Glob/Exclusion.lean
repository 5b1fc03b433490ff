import DocTransfer.Config
import DocTransfer.Proofs.FileTree.Collection
import DocTransfer.Proofs.Text.Find
import DocTransfer.Proofs.Text.Words

/-! # What the default patterns rule out

A double star before a name begins at the path itself or after any slash, and one after the name
takes all that is left, so such a pattern asks for a folder of exactly this name, at any depth. A
star before an ending may go across slashes and asks for nothing but the ending. -/

namespace DocTransfer.Glob

open Text

/-! ## Signs -/

theorem isMatch_char_iff {d : Char} {ss : List Sign} {cs : List Char} :
    isMatch (.char d :: ss) cs = true ↔ ∃ rest, cs = d :: rest ∧ isMatch ss rest = true := by
  cases cs with
  | nil =>
      have hnone : isMatch (.char d :: ss) [] = false := rfl
      simp [hnone]
  | cons c cs =>
      have hcons : isMatch (.char d :: ss) (c :: cs) = (c == d && isMatch ss cs) := rfl
      simp [hcons]

/-- Characters match themselves. -/
theorem isMatch_literal_iff {text cs : List Char} {ss : List Sign} :
    isMatch (text.map .char ++ ss) cs = true ↔
      ∃ rest, cs = text ++ rest ∧ isMatch ss rest = true := by
  induction text generalizing cs with
  | nil => simp
  | cons d text ih =>
      rw [List.map_cons, List.cons_append, isMatch_char_iff]
      constructor
      · rintro ⟨rest, rfl, h⟩
        obtain ⟨more, rfl, hmore⟩ := ih.mp h
        exact ⟨more, rfl, hmore⟩
      · rintro ⟨rest, rfl, h⟩
        exact ⟨text ++ rest, rfl, ih.mpr ⟨rest, rfl, h⟩⟩

/-- A star stands for any text. -/
theorem isMatch_star_iff {ss : List Sign} {cs : List Char} :
    isMatch (.star :: ss) cs = true ↔ ∃ rest, rest <:+ cs ∧ isMatch ss rest = true := by
  change matchesEnd (isMatch ss) cs = true ↔ _
  induction cs with
  | nil => simp [matchesEnd]
  | cons c cs ih => simp [matchesEnd, ih, List.suffix_cons_iff, or_and_right, exists_or]

theorem matchesAfterComponents_iff {rest : List Char → Bool} {cs : List Char} :
    matchesAfterComponents rest cs = true ↔
      rest [] = true ∨ ∃ front back, cs = front ++ '/' :: back ∧ rest back = true := by
  induction cs with
  | nil => simp [matchesAfterComponents]
  | cons c cs ih =>
      rw [matchesAfterComponents, Bool.or_eq_true, ih, Bool.and_eq_true, beq_iff_eq]
      constructor
      · rintro (⟨rfl, h⟩ | h | ⟨front, back, rfl, h⟩)
        · exact .inr ⟨[], cs, rfl, h⟩
        · exact .inl h
        · exact .inr ⟨c :: front, back, rfl, h⟩
      · rintro (h | ⟨front, back, hcs, h⟩)
        · exact .inr (.inl h)
        · cases front with
          | nil =>
              cases hcs
              exact .inl ⟨rfl, h⟩
          | cons d front =>
              cases hcs
              exact .inr (.inr ⟨front, back, rfl, h⟩)

/-- A double star stands for any number of components that come first, or for all of them. -/
theorem isMatch_doubleStar_iff {ss : List Sign} {cs : List Char} :
    isMatch (.doubleStar :: ss) cs = true ↔
      isMatch ss cs = true ∨ isMatch ss [] = true ∨
        ∃ front back, cs = front ++ '/' :: back ∧ isMatch ss back = true := by
  change (isMatch ss cs || matchesAfterComponents (isMatch ss) cs) = true ↔ _
  rw [Bool.or_eq_true, matchesAfterComponents_iff]

/-! ## Reading patterns -/

/-- The characters that are no signs of their own. -/
def IsPlain (c : Char) : Prop :=
  c ≠ '?' ∧ c ≠ '*' ∧ c ≠ '['

instance (c : Char) : Decidable (IsPlain c) :=
  inferInstanceAs (Decidable (_ ∧ _))

theorem signs_plain {c : Char} (hc : IsPlain c) {fuel position : Nat} {opens : Bool}
    {rest : List Char} {ss : List Sign} (h : signs fuel (position + 1) (c == '/') rest = .ok ss) :
    signs (fuel + 1) position opens (c :: rest) = .ok (.char c :: ss) := by
  obtain ⟨hany, hstar, hbracket⟩ := hc
  rw [signs, h]
  · rfl
  · exact hany
  · exact hstar
  · exact hbracket

/-- Plain characters are read as they are; what follows begins a component if they end with a
slash. -/
theorem signs_append_plain {text : List Char} (htext : ∀ c ∈ text, IsPlain c)
    {fuel position : Nat} {opens : Bool} {rest : List Char} {ss : List Sign}
    (h : signs fuel (position + text.length) (text.foldl (fun _ c => c == '/') opens) rest =
      .ok ss) :
    signs (text.length + fuel) position opens (text ++ rest) = .ok (text.map .char ++ ss) := by
  induction text generalizing position opens with
  | nil => simpa using h
  | cons c text ih =>
      obtain ⟨hc, htext⟩ := List.forall_mem_cons.mp htext
      rw [List.length_cons, Nat.add_right_comm, List.cons_append]
      refine signs_plain hc (ih htext ?_)
      rw [List.foldl_cons, List.length_cons, ← Nat.add_assoc, Nat.add_right_comm] at h
      exact h

theorem signs_doubleStar {fuel position : Nat} {rest : List Char} {ss : List Sign}
    (h : signs fuel (position + 3) true rest = .ok ss) :
    signs (fuel + 1) position true ('*' :: '*' :: '/' :: rest) = .ok (.doubleStar :: ss) := by
  change (signs fuel (position + 3) true rest).bind _ = _
  rw [h]
  rfl

theorem signs_star {fuel position : Nat} {opens : Bool} {rest : List Char} {ss : List Sign}
    (hrest : rest.head? ≠ some '*') (h : signs fuel (position + 1) false rest = .ok ss) :
    signs (fuel + 1) position opens ('*' :: rest) = .ok (.star :: ss) := by
  have hone : rest.takeWhile (· == '*') = [] := by
    cases rest with
    | nil => rfl
    | cons c rest => simpa using hrest
  change (if (rest.takeWhile (· == '*')).length = 0 then
    (signs fuel (position + 1) false (rest.drop (rest.takeWhile (· == '*')).length)).bind _
    else _) = _
  rw [hone, if_pos List.length_nil, List.length_nil, List.drop_zero, h]
  rfl

/-! ## Folders -/

/-- The pattern of all that lies in a folder of a name, at any depth. -/
def folderPattern (name : String) : String :=
  "**/" ++ name ++ "/**"

/-- The signs of the pattern of a folder. -/
def folderSigns (name : List Char) : List Sign :=
  .doubleStar :: ((name ++ ['/']).map .char ++ [.doubleStar])

theorem parse_folderPattern {name : String} (hname : ∀ c ∈ name.toList, IsPlain c) :
    parse (folderPattern name) = .ok (folderSigns name.toList) := by
  have htext : (folderPattern name).toList =
      '*' :: '*' :: '/' :: ((name.toList ++ ['/']) ++ ['*', '*']) := by
    simp [folderPattern]
  have hlength : (folderPattern name).length = (name.toList ++ ['/']).length + 4 + 1 := by
    rw [← String.length_toList, htext]
    simp
  have hplain : ∀ c ∈ name.toList ++ ['/'], IsPlain c := by
    rw [List.forall_mem_append, List.forall_mem_singleton]
    exact ⟨hname, by decide⟩
  rw [parse, hlength, htext]
  refine signs_doubleStar (signs_append_plain hplain ?_)
  rw [List.foldl_append]
  rfl

/-- A folder's pattern finds its name, between slashes, with something after it. -/
theorem isMatch_folderSigns_iff {name path : List Char} :
    isMatch (folderSigns name) path = true ↔
      (∃ rest, path = name ++ '/' :: rest) ∨
        ∃ front rest, path = front ++ '/' :: (name ++ '/' :: rest) := by
  have hall (rest : List Char) : isMatch [.doubleStar] rest = true := by
    rw [isMatch_doubleStar_iff]
    exact .inr (.inl rfl)
  have hname (cs : List Char) :
      isMatch ((name ++ ['/']).map .char ++ [Sign.doubleStar]) cs = true ↔
        ∃ rest, cs = name ++ '/' :: rest := by
    rw [isMatch_literal_iff]
    simp [hall]
  rw [folderSigns, isMatch_doubleStar_iff]
  simp only [hname]
  constructor
  · rintro (h | ⟨rest, h⟩ | ⟨front, back, hpath, rest, rfl⟩)
    · exact .inl h
    · simp at h
    · exact .inr ⟨front, rest, hpath⟩
  · rintro (h | ⟨front, rest, hpath⟩)
    · exact .inl h
    · exact .inr (.inr ⟨front, _, hpath, rest, rfl⟩)

theorem not_isMatch_folderSigns {name path : List Char} (hpath : '/' ∉ path) :
    ¬ isMatch (folderSigns name) path = true := by
  rw [isMatch_folderSigns_iff]
  rintro (⟨rest, rfl⟩ | ⟨front, rest, rfl⟩) <;> simp at hpath

/-- The first folder of a path has the name, or the pattern finds it in what follows. -/
theorem isMatch_folderSigns_append_iff {name first rest : List Char} (hname : '/' ∉ name)
    (hfirst : '/' ∉ first) :
    isMatch (folderSigns name) (first ++ '/' :: rest) = true ↔
      name = first ∨ isMatch (folderSigns name) rest = true := by
  have hstart : (∃ back, first ++ '/' :: rest = name ++ '/' :: back) ↔ name = first := by
    constructor
    · rintro ⟨back, h⟩
      obtain ⟨more, rfl, hmore⟩ := append_eq_append_cons_of_not_mem hfirst h
      cases more with
      | nil => simp
      | cons c more =>
          cases hmore
          simp at hname
    · rintro rfl
      exact ⟨rest, rfl⟩
  rw [isMatch_folderSigns_iff, isMatch_folderSigns_iff, hstart]
  refine or_congr_right ?_
  constructor
  · rintro ⟨front, back, h⟩
    obtain ⟨more, -, hmore⟩ := append_eq_append_cons_of_not_mem hfirst h
    cases more with
    | nil =>
        cases hmore
        exact .inl ⟨back, rfl⟩
    | cons c more =>
        cases hmore
        exact .inr ⟨more, back, rfl⟩
  · rintro (⟨back, rfl⟩ | ⟨front, back, rfl⟩)
    · exact ⟨first, back, rfl⟩
    · exact ⟨first ++ '/' :: front, back, by simp⟩

/-- A folder's pattern matches exactly the paths that lead through such a folder. -/
theorem isMatch_folderSigns_iff_mem {name : List Char} (hname : '/' ∉ name) (path : List Char) :
    isMatch (folderSigns name) path = true ↔ name ∈ (splitWhere (· == '/') path).dropLast := by
  by_cases hslash : '/' ∈ path
  · obtain ⟨first, rest, rfl, hfirst⟩ := List.eq_append_cons_of_mem hslash
    rw [isMatch_folderSigns_append_iff hname hfirst, isMatch_folderSigns_iff_mem hname rest,
      splitWhere_append_cons (by simp), Path.splitWhere_of_no_slash hfirst, List.singleton_append,
      List.dropLast_cons_of_ne_nil (splitWhere_ne_nil _ rest), List.mem_cons]
  · rw [Path.splitWhere_of_no_slash hslash]
    simp [not_isMatch_folderSigns hslash]
termination_by path.length
decreasing_by
  subst_vars
  simp
  omega

/-! ## Endings -/

/-- The pattern of all files whose path has an ending. -/
def endingPattern (ending : String) : String :=
  "**/*" ++ ending

theorem parse_endingPattern {ending : String} (h : ∀ c ∈ ending.toList, IsPlain c) :
    parse (endingPattern ending) = .ok (.doubleStar :: .star :: ending.toList.map .char) := by
  have htext : (endingPattern ending).toList = '*' :: '*' :: '/' :: '*' :: ending.toList := by
    simp [endingPattern]
  have hlength : (endingPattern ending).length = ending.toList.length + 2 + 1 + 1 := by
    rw [← String.length_toList, htext]
    simp
  have hhead : ending.toList.head? ≠ some '*' := fun hstar =>
    (h '*' (List.mem_of_mem_head? hstar)).2.1 rfl
  have hending : signs (ending.toList.length + 2) 4 false ending.toList =
      .ok (ending.toList.map .char) := by
    have hend : signs 2 (4 + ending.toList.length)
        (ending.toList.foldl (fun _ c => c == '/') false) [] = .ok [] := rfl
    simpa using signs_append_plain h hend
  rw [parse, hlength, htext]
  exact signs_doubleStar (signs_star hhead hending)

theorem isMatch_ending_iff {ending path : List Char} :
    isMatch (.doubleStar :: .star :: ending.map .char) path = true ↔ ending <:+ path := by
  have hstar (cs : List Char) : isMatch (.star :: ending.map .char) cs = true ↔ ending <:+ cs := by
    have hliteral (rest : List Char) : isMatch (ending.map .char) rest = true ↔ rest = ending := by
      have happend : isMatch (ending.map .char ++ []) rest = true ↔
          ∃ more, rest = ending ++ more ∧ more.isEmpty = true := isMatch_literal_iff
      simpa using happend
    rw [isMatch_star_iff]
    simp [hliteral]
  rw [isMatch_doubleStar_iff]
  simp only [hstar]
  constructor
  · rintro (h | h | ⟨front, back, rfl, h⟩)
    · exact h
    · exact h.trans List.nil_suffix
    · exact h.trans ((List.suffix_cons '/' back).trans (List.suffix_append front _))
  · exact .inl

end DocTransfer.Glob

namespace DocTransfer.Transfer

open Glob Text

/-! ## The default patterns -/

/-- The folders whose files are left alone. -/
def guardedFolders : List String :=
  ["node_modules", "build", "dist", ".git"]

/-- A path leads through a folder whose files are left alone, or it has the ending of files that
only declare. -/
def IsGuarded (path : List Char) : Prop :=
  (∃ name ∈ guardedFolders, name.toList ∈ (splitWhere (· == '/') path).dropLast) ∨
    ".d.ts".toList <:+ path

instance (path : List Char) : Decidable (IsGuarded path) :=
  inferInstanceAs (Decidable (_ ∨ _))

theorem mem_defaultExclude_iff {pattern : String} :
    pattern ∈ defaultExclude ↔
      (∃ name ∈ guardedFolders, pattern = folderPattern name) ∨
        pattern = endingPattern ".d.ts" := by
  have heq : defaultExclude = [folderPattern "node_modules", folderPattern "build",
      folderPattern "dist", endingPattern ".d.ts", folderPattern ".git"] := by
    decide
  rw [heq, guardedFolders]
  simp only [List.mem_cons, List.not_mem_nil, or_false, or_and_right, exists_or, exists_eq_left]
  tauto

theorem plain_of_mem_guardedFolders :
    ∀ name ∈ guardedFolders, (∀ c ∈ name.toList, IsPlain c) ∧ '/' ∉ name.toList := by
  decide

/-- Some well-formed pattern of a list matches a path. -/
def SomeMatches (patterns : List String) (path : List Char) : Prop :=
  ∃ pattern ∈ patterns, ∃ signs, parse pattern = .ok signs ∧ isMatch signs path = true

theorem someMatches_defaultExclude_iff (path : List Char) :
    SomeMatches defaultExclude path ↔ IsGuarded path := by
  have hfolder : ∀ name ∈ guardedFolders,
      (∃ signs, parse (folderPattern name) = .ok signs ∧ isMatch signs path = true) ↔
        name.toList ∈ (splitWhere (· == '/') path).dropLast := by
    intro name hname
    obtain ⟨hplain, hslash⟩ := plain_of_mem_guardedFolders name hname
    rw [parse_folderPattern hplain]
    simp only [Except.ok.injEq, exists_eq_left', isMatch_folderSigns_iff_mem hslash]
  have hending : (∃ signs, parse (endingPattern ".d.ts") = .ok signs ∧ isMatch signs path = true) ↔
      ".d.ts".toList <:+ path := by
    rw [parse_endingPattern (by decide)]
    simp only [Except.ok.injEq, exists_eq_left', isMatch_ending_iff]
  constructor
  · rintro ⟨pattern, hpattern, hmatch⟩
    rw [mem_defaultExclude_iff] at hpattern
    obtain ⟨name, hname, rfl⟩ | rfl := hpattern
    · exact .inl ⟨name, hname, (hfolder name hname).mp hmatch⟩
    · exact .inr (hending.mp hmatch)
  · rintro (⟨name, hname, hmem⟩ | hsuffix)
    · have hpattern : folderPattern name ∈ defaultExclude := by
        rw [mem_defaultExclude_iff]
        exact .inl ⟨name, hname, rfl⟩
      exact ⟨_, hpattern, (hfolder name hname).mpr hmem⟩
    · have hpattern : endingPattern ".d.ts" ∈ defaultExclude := by
        rw [mem_defaultExclude_iff]
        exact .inr rfl
      exact ⟨_, hpattern, hending.mpr hsuffix⟩

theorem any_validPatterns_iff {patterns : List String} {path : List Char} :
    ((validPatterns patterns).any fun signs => isMatch signs path) = true ↔
      SomeMatches patterns path := by
  rw [List.any_eq_true, SomeMatches]
  simp only [FileTree.mem_validPatterns]
  constructor
  · rintro ⟨signs, ⟨pattern, hpattern, hparse⟩, hmatch⟩
    exact ⟨pattern, hpattern, signs, hparse, hmatch⟩
  · rintro ⟨pattern, hpattern, signs, hparse, hmatch⟩
    exact ⟨signs, ⟨pattern, hpattern, hparse⟩, hmatch⟩

/-- Some default pattern matches a path exactly where a folder on it has one of the guarded names,
or the path ends as files of declarations do. So these are all that the default patterns take from
the files collected, and a folder whose name only contains a guarded one is not among them. -/
theorem defaultExclude_exactly :
    (∀ path, SomeMatches defaultExclude path ↔ IsGuarded path) ∧
    ∀ (t : FileTree) (root : String) (extensions : List String),
      collect t root extensions defaultExclude =
        (collect t root extensions []).filter fun path =>
          ¬ IsGuarded (relativeTo root.toList path.toList) := by
  refine ⟨someMatches_defaultExclude_iff, ?_⟩
  intro t root extensions
  have hkept (p : List Char) : (!(validPatterns defaultExclude).any fun signs =>
      isMatch signs (relativeTo root.toList p)) =
        decide (¬ IsGuarded (relativeTo root.toList p)) := by
    rw [Bool.eq_iff_iff, Bool.not_eq_true', decide_eq_true_eq, ← someMatches_defaultExclude_iff,
      ← any_validPatterns_iff, Bool.not_eq_true]
  simp only [collect, hkept]
  simp [validPatterns, List.filter_map, Function.comp_def]

example :
    let file : FileTree := .file (.text "")
    collect (.folder [("rebuild", .folder [("build.ts", file)]), ("dist", .folder [("a.ts", file)]),
      ("web", .folder [(".git", .folder [("b.ts", file)]), (".d.ts", file), ("c.ts", file)])])
      "." [".ts"] defaultExclude = ["./rebuild/build.ts", "./web/c.ts"] := by
  decide +kernel

end DocTransfer.Transfer
