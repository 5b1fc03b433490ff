import DocTransfer.Proofs.FileTree.Walk
import DocTransfer.Proofs.Path.Order

/-! # The files collected below a folder

A walk sorts the entries of each folder by their names and stays below one entry until that is done,
so its paths come in the order of their components. Of these paths the ones with a wanted extension
are kept, unless a pattern rules them out. -/

namespace DocTransfer.FileTree

open DocTransfer.Path Text

/-! ## Sorting -/

theorem insertEntry_sorted {α : Type} (entry : String × α) {entries : List (String × α)}
    (h : entries.Pairwise fun e e' => e.1 ≤ e'.1) :
    (insertEntry entry entries).Pairwise fun e e' => e.1 ≤ e'.1 := by
  induction entries with
  | nil => exact List.pairwise_singleton _ _
  | cons e rest ih =>
      obtain ⟨hfirst, hrest⟩ := List.pairwise_cons.mp h
      rw [insertEntry]
      split
      · next hle =>
          refine List.pairwise_cons.mpr ⟨?_, h⟩
          intro e' he'
          rcases List.mem_cons.mp he' with rfl | he'
          · exact hle
          · exact String.le_trans hle (hfirst e' he')
      · next hnot =>
          have hle : e.1 ≤ entry.1 := (String.le_total e.1 entry.1).resolve_right hnot
          refine List.pairwise_cons.mpr ⟨?_, ih hrest⟩
          intro e' he'
          rcases List.mem_cons.mp ((insertEntry_perm entry rest).mem_iff.mp he') with rfl | he'
          · exact hle
          · exact hfirst e' he'

theorem sortEntries_sorted {α : Type} (entries : List (String × α)) :
    (sortEntries entries).Pairwise fun e e' => e.1 ≤ e'.1 := by
  induction entries with
  | nil => exact .nil
  | cons e entries ih => exact insertEntry_sorted e ih

theorem bytes_lt_of_le {m n : String} (hle : m ≤ n) (hne : m ≠ n) :
    bytes m.toList < bytes n.toList := by
  apply bytes_lt
  have hlt : m < n := by
    rw [← String.not_le]
    exact fun hge => hne (String.le_antisymm hle hge)
  exact String.lt_iff.mp hlt

/-- Entries with different names are sorted by the bytes of these. -/
theorem sortEntries_strict {α : Type} {entries : List (String × α)}
    (hnodup : (entries.map (·.1)).Nodup) :
    (sortEntries entries).Pairwise fun e e' => bytes e.1.toList < bytes e'.1.toList := by
  have hdistinct : (sortEntries entries).Pairwise fun e e' => e.1 ≠ e'.1 :=
    List.pairwise_map.mp (((sortEntries_perm entries).map _).nodup_iff.mpr hnodup)
  exact (sortEntries_sorted entries).imp₂ (fun _ _ hle hne => bytes_lt_of_le hle hne) hdistinct

/-! ## Paths of a walk -/

theorem getLast?_join {name : List Char} (hname : IsName name) (base : List Char) :
    (join base name).getLast? = name.getLast? := by
  obtain ⟨c, cs, hcs⟩ := List.exists_cons_of_ne_nil hname.ne_nil
  rw [join, if_neg hname.relative]
  split <;> simp [List.getLast?_append, List.getLast?_cons, hcs]

theorem pieces_join_join {base name more : List Char} (hname : IsName name) (hmore : IsName more) :
    pieces (join (join base name) more) = pieces (join base name) ++ [namePiece more] := by
  have hlast : (join base name).getLast? ≠ some '/' := by
    rw [getLast?_join hname]
    exact fun hslash => hname.no_slash (List.mem_of_getLast? hslash)
  have hne : join base name ≠ [] := by
    intro hempty
    have hnone := getLast?_join hname base
    rw [hempty] at hnone
    exact hname.ne_nil (List.getLast?_eq_none_iff.mp hnone.symm)
  have hjoin : join (join base name) more = join base name ++ '/' :: more := by
    rw [join, if_neg hmore.relative, if_neg (by simp [hne, hlast])]
  rw [hjoin, pieces_append_slash_name hne hmore]
  rfl

/-- Names joined to a path are its last pieces. -/
theorem pieces_joinAll {base : List Char} (hbase : Relative base) {names : List String}
    (hnames : ∀ n ∈ names, IsName n.toList) (hne : names ≠ []) :
    ∃ front, pieces (joinAll base names) = front ++ (names.map String.toList).map namePiece ∧
      front.filterMap (·.2) = components base := by
  have hmore : ∀ (name : List Char) (names : List String) (base : List Char), IsName name →
      (∀ n ∈ names, IsName n.toList) → pieces (joinAll (join base name) names) =
        pieces (join base name) ++ (names.map String.toList).map namePiece := by
    intro name names
    induction names generalizing name with
    | nil => simp
    | cons m names ih =>
        intro base hname hnames
        obtain ⟨hm, hnames⟩ := List.forall_mem_cons.mp hnames
        rw [joinAll_cons, ih _ _ hm hnames, pieces_join_join hname hm]
        simp
  obtain ⟨n, ns, rfl⟩ := List.exists_cons_of_ne_nil hne
  obtain ⟨hn, hns⟩ := List.forall_mem_cons.mp hnames
  obtain ⟨front, hpieces, hfront⟩ := pieces_join hbase hn
  refine ⟨front, ?_, hfront⟩
  rw [joinAll_cons, hmore _ _ _ hn hns, hpieces]
  simp [namePiece]

theorem components_joinAll {base : List Char} (hbase : Relative base) {names : List String}
    (hnames : ∀ n ∈ names, IsName n.toList) :
    components (joinAll base names) = components base ++ names.map fun n => .name n.toList := by
  induction names generalizing base with
  | nil => simp
  | cons n names ih =>
      obtain ⟨hn, hnames⟩ := List.forall_mem_cons.mp hnames
      rw [joinAll_cons, ih (relative_join hbase hn) hnames, components_join hbase hn]
      simp

theorem mem_filesAt_iff {base path : List Char} {t : FileTree} :
    path ∈ (filesAt base t).map (·.1) ↔ ∃ names ∈ places t, joinAll base names = path := by
  rw [(filesAt_perm base t).mem_iff, List.mem_map]

theorem WellNamed.mem_places_iff {t : FileTree} (h : t.WellNamed) {names : List String} :
    names ∈ places t ↔ ∃ c, t.get? names = some (.file c) := by
  constructor
  · intro hmem
    obtain ⟨⟨c, hc⟩, -⟩ := h.of_mem_places hmem
    obtain ⟨u, hget, hu⟩ := Option.map_eq_some_iff.mp hc
    cases u with
    | file content => exact ⟨content, hget⟩
    | folder entries => cases hu
  · rintro ⟨c, hget⟩
    induction h generalizing names with
    | file content =>
        cases names with
        | nil => simp [places]
        | cons n ns => cases hget
    | @folder entries hnodup hproper hbelow ih =>
        cases names with
        | nil => cases hget
        | cons n ns =>
            obtain ⟨u, hu, hrest⟩ := Option.bind_eq_some_iff.mp hget
            obtain ⟨before, after, rfl, -⟩ := List.lookup_eq_some_iff.mp hu
            have hentry : (n, u) ∈ before ++ (n, u) :: after := by simp
            rw [places_folder, List.mem_flatMap]
            exact ⟨(n, u), hentry, List.mem_map_of_mem (ih (n, u) hentry hrest)⟩

/-- A walk comes to files in the order of their paths. -/
theorem WellNamed.filesAt_sorted {t : FileTree} (h : t.WellNamed) {base : List Char}
    (hbase : Relative base) : ((filesAt base t).map (·.1)).Pairwise Before := by
  induction h generalizing base with
  | file c => exact List.pairwise_singleton _ _
  | @folder entries hnodup hproper hbelow ih =>
      rw [filesAt_folder, List.map_flatMap, List.pairwise_flatMap]
      have hentry : ∀ a ∈ sortEntries (entries.map fun e =>
          (e.1, filesAt (Path.join base e.1.toList) e.2)),
          ∃ e ∈ entries, a = (e.1, filesAt (Path.join base e.1.toList) e.2) := by
        intro a ha
        obtain ⟨e, he, rfl⟩ := List.mem_map.mp ((sortEntries_perm _).mem_iff.mp ha)
        exact ⟨e, he, rfl⟩
      constructor
      · intro a ha
        obtain ⟨e, he, rfl⟩ := hentry a ha
        exact ih e he (relative_join hbase (hproper e he))
      · -- Below two entries the names of these decide.
        have hcomponents : ∀ e ∈ entries, ∀ path ∈
            (filesAt (Path.join base e.1.toList) e.2).map (·.1),
            ∃ back, components path = components base ++ Component.name e.1.toList :: back := by
          intro e he path hpath
          obtain ⟨names, hnames, rfl⟩ := mem_filesAt_iff.mp hpath
          have hbelow' := ((hbelow e he).of_mem_places hnames).2
          rw [components_joinAll (relative_join hbase (hproper e he)) hbelow',
            components_join hbase (hproper e he), List.append_assoc]
          exact ⟨_, rfl⟩
        have hnames : ((entries.map fun e =>
            (e.1, filesAt (Path.join base e.1.toList) e.2)).map (·.1)).Nodup := by
          simpa [Function.comp_def] using hnodup
        refine (sortEntries_strict hnames).imp_of_mem ?_
        intro a a' ha ha' hlt path hpath path' hpath'
        obtain ⟨e, he, rfl⟩ := hentry a ha
        obtain ⟨e', he', rfl⟩ := hentry a' ha'
        obtain ⟨back, hback⟩ := hcomponents e he path hpath
        obtain ⟨back', hback'⟩ := hcomponents e' he' path' hpath'
        exact before_of_components hback hback' hlt

/-! ## Wanted files -/

theorem mem_validPatterns {patterns : List String} {signs : List Glob.Sign} :
    signs ∈ Transfer.validPatterns patterns ↔ ∃ p ∈ patterns, Glob.parse p = .ok signs := by
  rw [Transfer.validPatterns, List.mem_filterMap]
  refine exists_congr fun p => and_congr_right fun _ => ?_
  cases Glob.parse p <;> simp [Except.toOption]

theorem not_mem_joinWith {c : Char} {sep : List Char} {texts : List (List Char)} (hsep : c ∉ sep)
    (h : ∀ t ∈ texts, c ∉ t) : c ∉ joinWith sep texts := by
  induction texts with
  | nil => simp [joinWith]
  | cons t texts ih =>
      obtain ⟨ht, htexts⟩ := List.forall_mem_cons.mp h
      cases texts with
      | nil => exact ht
      | cons u texts => simp [joinWith, ht, hsep, ih htexts]

section

variable {base : List Char} {names : List String} (hbase : Relative base)
  (hnames : ∀ n ∈ names, IsName n.toList) (hne : names ≠ [])

include hbase hnames hne

theorem fileName?_joinAll :
    fileName? (joinAll base names) = some ((names.getLast hne).toList) := by
  rw [fileName?, components_joinAll hbase hnames, List.getLast?_append, List.getLast?_map,
    List.getLast?_eq_some_getLast hne]
  rfl

theorem relativeTo_joinAll (hplain : ∀ n ∈ names, '\\' ∉ n.toList) :
    Transfer.relativeTo base (joinAll base names) = joinWith ['/'] (names.map String.toList) := by
  obtain ⟨front, hpieces, hfront⟩ := pieces_joinAll hbase hnames hne
  rw [Transfer.relativeTo, below?_of_pieces (by simpa using hne) hpieces hfront, Option.getD_some]
  have hslash : '\\' ∉ joinWith ['/'] (names.map String.toList) := by
    apply not_mem_joinWith (by decide)
    simpa using hplain
  rw [List.map_congr_left (g := id), List.map_id]
  intro c hc
  have hne : c ≠ '\\' := by
    rintro rfl
    exact hslash hc
  simp [hne]

theorem wanted_joinAll_iff (extensions : List String) :
    Transfer.endsWithOne extensions ((fileName? (joinAll base names)).getD (joinAll base names)) =
        true ↔
      ∃ name, names.getLast? = some name ∧ ∃ ext ∈ extensions, ext.toList <:+ name.toList := by
  rw [fileName?_joinAll hbase hnames hne, List.getLast?_eq_some_getLast hne]
  simp [Transfer.endsWithOne]

theorem kept_joinAll_iff (hplain : ∀ n ∈ names, '\\' ∉ n.toList) (exclude : List String) :
    (!((Transfer.validPatterns exclude).any fun signs =>
        Glob.isMatch signs (Transfer.relativeTo base (joinAll base names)))) = true ↔
      ∀ pattern ∈ exclude, ∀ signs, Glob.parse pattern = .ok signs →
        Glob.isMatch signs (joinWith ['/'] (names.map String.toList)) = false := by
  rw [relativeTo_joinAll hbase hnames hne hplain]
  simp only [Bool.not_eq_true', List.any_eq_false, mem_validPatterns, Bool.not_eq_true]
  constructor
  · intro h pattern hpattern signs hparse
    exact h signs ⟨pattern, hpattern, hparse⟩
  · rintro h signs ⟨pattern, hpattern, hparse⟩
    exact h pattern hpattern signs hparse

end

/-- A file whose whole name comes before a folder's as text, and after it among the entries. -/
def dottedEntries : List (String × FileTree) :=
  [("a.cs", .file (.text "")),
   ("a", .folder [("x.d.ts", .file (.text "")), ("x.cs", .file (.text ""))]),
   ("A.java", .file (.text ""))]

example : Transfer.collect (.folder [("rt", .folder dottedEntries)]) "./rt/" [".cs", ".ts"]
    ["**/*.d.ts", "a**"] = ["./rt/a/x.cs", "./rt/a.cs"] := by decide +kernel

end DocTransfer.FileTree
