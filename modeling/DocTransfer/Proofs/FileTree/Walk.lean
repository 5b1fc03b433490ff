import DocTransfer.Proofs.FileTree.Overwrite
import DocTransfer.Proofs.Path.Join
import DocTransfer.Transfer.Collect
import Mathlib.Data.List.Nodup
import Mathlib.Data.List.Perm.Basic

/-! # What a walk finds

In a tree where folders hold proper names, each of them once, a walk comes to every file below its
start by a path of its own, and each of these paths leads back to the file. -/

namespace DocTransfer.FileTree

open DocTransfer.Path

/-- Folders hold proper names, each of them once. -/
inductive WellNamed : FileTree → Prop where
  | file (c : Content) : WellNamed (.file c)
  | folder {entries : List (String × FileTree)} (nodup : (entries.map (·.1)).Nodup)
      (names : ∀ e ∈ entries, IsName e.1.toList) (below : ∀ e ∈ entries, e.2.WellNamed) :
      WellNamed (.folder entries)

mutual

/-- The names that lead to the files of a tree. -/
def places : FileTree → List (List String)
  | .file _ => [[]]
  | .folder entries => placesOfEntries entries

/-- The names that lead to the files of entries. -/
def placesOfEntries : List (String × FileTree) → List (List String)
  | [] => []
  | (name, t) :: rest => (places t).map (name :: ·) ++ placesOfEntries rest

end

theorem places_folder (entries : List (String × FileTree)) :
    places (.folder entries) = entries.flatMap fun e => (places e.2).map (e.1 :: ·) := by
  rw [places]
  induction entries with
  | nil => rfl
  | cons e entries ih => rw [placesOfEntries, ih, List.flatMap_cons]

theorem filesAt_folder (base : List Char) (entries : List (String × FileTree)) :
    filesAt base (.folder entries) =
      (sortEntries (entries.map fun e =>
        (e.1, filesAt (Path.join base e.1.toList) e.2))).flatMap (·.2) := by
  have hentries : filesOfEntries base entries =
      entries.map fun e => (e.1, filesAt (Path.join base e.1.toList) e.2) := by
    induction entries with
    | nil => rfl
    | cons e entries ih => rw [filesOfEntries, ih, List.map_cons]
  rw [filesAt, hentries]

/-- What holds of files, and of folders when it holds of what is in them, holds of all trees. -/
@[elab_as_elim]
theorem folderwise {motive : FileTree → Prop} (file : ∀ c, motive (.file c))
    (folder : ∀ entries, (∀ e ∈ entries, motive e.2) → motive (.folder entries)) :
    ∀ t, motive t
  | .file c => file c
  | .folder entries => folder entries fun e _ => folderwise file folder e.2
termination_by t => t
decreasing_by
  have hsize := List.sizeOf_lt_of_mem ‹e ∈ entries›
  obtain ⟨name, t⟩ := e
  simp only [Prod.mk.sizeOf_spec] at hsize
  simp only [FileTree.folder.sizeOf_spec]
  omega

/-! ## Sorting -/

theorem insertEntry_perm {α : Type} (entry : String × α) (entries : List (String × α)) :
    (insertEntry entry entries).Perm (entry :: entries) := by
  induction entries with
  | nil => exact .refl _
  | cons e rest ih =>
      rw [insertEntry]
      split
      · exact .refl _
      · exact (ih.cons e).trans (.swap entry e rest)

theorem sortEntries_perm {α : Type} (entries : List (String × α)) :
    (sortEntries entries).Perm entries := by
  induction entries with
  | nil => exact .refl _
  | cons e entries ih => exact (insertEntry_perm e _).trans (ih.cons e)

/-- A path with names joined to it, one after the other. -/
def joinAll (base : List Char) (names : List String) : List Char :=
  names.foldl (fun path name => Path.join path name.toList) base

@[simp] theorem joinAll_nil (base : List Char) : joinAll base [] = base := rfl

@[simp] theorem joinAll_cons (base : List Char) (name : String) (names : List String) :
    joinAll base (name :: names) = joinAll (Path.join base name.toList) names := rfl

theorem filesAt_perm (base : List Char) (t : FileTree) :
    ((filesAt base t).map (·.1)).Perm ((places t).map (joinAll base)) := by
  induction t using folderwise generalizing base with
  | file c => exact .refl _
  | folder entries ih =>
      rw [filesAt_folder, places_folder, List.map_flatMap, List.map_flatMap]
      refine ((sortEntries_perm _).flatMap_right _).trans ?_
      rw [List.flatMap_map]
      apply List.Perm.flatMap_left
      intro e he
      rw [List.map_map]
      exact ih e he (Path.join base e.1.toList)

/-! ## Places -/

theorem lookup_of_mem {entries : List (String × FileTree)} (hnodup : (entries.map (·.1)).Nodup)
    {e : String × FileTree} (he : e ∈ entries) : entries.lookup e.1 = some e.2 := by
  induction entries with
  | nil => cases he
  | cons first rest ih =>
      obtain ⟨hfirst, hrest⟩ := List.nodup_cons.mp hnodup
      obtain rfl | he := List.mem_cons.mp he
      · exact List.lookup_cons_self
      · have hne : e.1 ≠ first.1 := by
          intro heq
          exact hfirst (List.mem_map.mpr ⟨e, he, heq⟩)
        rw [lookup_cons_of_ne hne, ih hrest he]

theorem WellNamed.nodup_places {t : FileTree} (h : t.WellNamed) : (places t).Nodup := by
  induction h with
  | file c => simp [places]
  | @folder entries hnodup hnames hbelow ih =>
      rw [places_folder, List.nodup_flatMap]
      constructor
      · intro e he
        exact (ih e he).map (List.cons_injective)
      · -- Places below different entries begin with different names.
        have hpairs : entries.Pairwise fun e e' => e.1 ≠ e'.1 := List.pairwise_map.mp hnodup
        refine hpairs.imp ?_
        intro e e' hne names hnames hnames'
        obtain ⟨ns, -, rfl⟩ := List.mem_map.mp hnames
        obtain ⟨ns', -, heq⟩ := List.mem_map.mp hnames'
        exact hne (List.cons.inj heq).1.symm

theorem WellNamed.of_mem_places {t : FileTree} (h : t.WellNamed) {names : List String}
    (hnames : names ∈ places t) :
    (∃ c, t.node? names = some (some c)) ∧ ∀ name ∈ names, IsName name.toList := by
  induction h generalizing names with
  | file c =>
      obtain rfl := List.mem_singleton.mp hnames
      exact ⟨⟨c, rfl⟩, by simp⟩
  | @folder entries hnodup hproper hbelow ih =>
      rw [places_folder] at hnames
      obtain ⟨e, he, hmem⟩ := List.mem_flatMap.mp hnames
      obtain ⟨ns, hns, rfl⟩ := List.mem_map.mp hmem
      obtain ⟨⟨c, hc⟩, hrest⟩ := ih e he hns
      refine ⟨⟨c, ?_⟩, List.forall_mem_cons.mpr ⟨hproper e he, hrest⟩⟩
      rw [node?_cons_folder, lookup_of_mem hnodup he]
      exact hc

theorem WellNamed.get? {t u : FileTree} (h : t.WellNamed) {names : List String}
    (hget : t.get? names = some u) : u.WellNamed := by
  induction names generalizing t with
  | nil =>
      cases hget
      exact h
  | cons n ns ih =>
      obtain ⟨v, hv, hrest⟩ := Option.bind_eq_some_iff.mp hget
      cases h with
      | file c => cases hv
      | folder hnodup hnames hbelow =>
          obtain ⟨before, after, rfl, -⟩ := List.lookup_eq_some_iff.mp hv
          exact ih (hbelow (n, v) (by simp)) hrest

/-! ## Paths to places -/

theorem follow_append (t : FileTree) (names : List String) (cs ds : List Component) :
    t.follow names (cs ++ ds) =
      match t.follow names cs with
      | .ok found => t.follow found.reverse ds
      | .error e => .error e := by
  induction cs generalizing names with
  | nil => simp [follow]
  | cons c cs ih =>
      rw [List.cons_append, follow_cons, follow_cons]
      split
      · rfl
      · rfl
      · cases c with
        | root => rfl
        | here => exact ih names
        | up =>
            cases names with
            | nil => rfl
            | cons _ rest => exact ih rest
        | name n => exact ih _

theorem relative_of_resolve {t : FileTree} {path : List Char} {names : List String}
    (h : t.resolve path = .ok names) : Relative path := by
  intro hhead
  obtain ⟨rest, rfl⟩ := List.head?_eq_some_iff.mp hhead
  cases h

theorem resolve_join {t : FileTree} {base name : List Char} {root : List String}
    (hname : IsName name) (h : t.resolve base = .ok root) :
    t.resolve (Path.join base name) = t.follow root.reverse [.name name] := by
  have hcomponents := components_join (relative_of_resolve h) hname
  unfold resolve at h ⊢
  rw [hcomponents]
  split at h
  · cases h
  · cases h
  · next cs hne hroot =>
      have hfollow : t.follow [] (components base ++ [Component.name name]) =
          t.follow root.reverse [.name name] := by
        rw [follow_append, h]
      rw [← hfollow]
      cases hcs : components base with
      | nil => exact absurd hcs hne
      | cons c cs =>
          cases c with
          | root => exact absurd hcs (hroot cs)
          | here => rfl
          | up => rfl
          | name n => rfl

/-- Names that lead to something below a place lead there from any path to the place. -/
theorem resolve_joinAll {t : FileTree} {base : List Char} {root names : List String}
    {v : Option Content} (h : t.resolve base = .ok root)
    (hnames : ∀ name ∈ names, IsName name.toList) (hnode : t.node? (root ++ names) = some v) :
    t.resolve (joinAll base names) = .ok (root ++ names) := by
  induction names generalizing base root with
  | nil => simpa using h
  | cons n ns ih =>
      obtain ⟨hn, hns⟩ := List.forall_mem_cons.mp hnames
      have hfolder : t.node? root = some none := node?_of_append hnode (by simp)
      have hnext : t.resolve (Path.join base n.toList) = .ok (root ++ [n]) := by
        rw [resolve_join hn h, follow_cons]
        simp [hfolder, follow]
      rw [joinAll_cons, ih hnext hns (by simpa using hnode)]
      simp

theorem wantsFolder_joinAll {base : List Char} {names : List String} (hbase : Relative base)
    (hnames : ∀ name ∈ names, IsName name.toList) (hne : names ≠ []) :
    wantsFolder (joinAll base names) = false := by
  induction names generalizing base with
  | nil => exact absurd rfl hne
  | cons n ns ih =>
      obtain ⟨hn, hns⟩ := List.forall_mem_cons.mp hnames
      rw [joinAll_cons]
      cases ns with
      | nil => exact wantsFolder_join hbase hn
      | cons m ms => exact ih (relative_join hbase hn) hns (by simp)

theorem resolve_of_isFolder {t : FileTree} {path : List Char} (h : t.isFolder path = true) :
    ∃ names entries, t.resolve path = .ok names ∧ t.get? names = some (.folder entries) ∧
      t.at? path = .ok (.folder entries) := by
  unfold isFolder at h
  cases hat : t.at? path with
  | error e => simp [hat] at h
  | ok u =>
      cases u with
      | file c => simp [hat] at h
      | folder entries =>
          unfold at? at hat
          cases hresolve : t.resolve path with
          | error e =>
              rw [hresolve] at hat
              cases hat
          | ok names =>
              rw [hresolve] at hat
              simp only [bind, Except.bind] at hat
              refine ⟨names, entries, rfl, ?_, rfl⟩
              split at hat
              · cases hat
              · split at hat <;> cases hat
              · next hget =>
                  cases hat
                  exact hget

/-! ## The walk -/

/-- A walk comes to no file twice, and each of its paths leads to a file. -/
theorem walk_files {t : FileTree} (ht : t.WellNamed) {path : List Char}
    (hfolder : t.isFolder path = true) :
    ∃ files : List (List String), files.Nodup ∧
      (((t.walk path).map (·.1)).map t.fileAt?).Perm (files.map some) := by
  obtain ⟨root, entries, hresolve, hget, hat⟩ := resolve_of_isFolder hfolder
  have hsub : (folder entries).WellNamed := ht.get? hget
  refine ⟨(places (.folder entries)).map (root ++ ·), ?_, ?_⟩
  · exact hsub.nodup_places.map fun _ _ => List.append_cancel_left
  · -- In whatever order the walk goes, its paths are those of the places below the start.
    rw [walk, hat]
    refine ((filesAt_perm path (.folder entries)).map t.fileAt?).trans (.of_eq ?_)
    rw [List.map_map, List.map_map]
    apply List.map_congr_left
    intro names hnames
    obtain ⟨⟨c, hc⟩, hproper⟩ := hsub.of_mem_places hnames
    have hnode : t.node? (root ++ names) = some (some c) := by
      rw [node?_append, hget]
      exact hc
    have hne : names ≠ [] := by
      rintro rfl
      cases hc
    exact fileAt?_eq_some_iff.mpr ⟨resolve_joinAll hresolve hproper hnode, ⟨c, hnode⟩,
      wantsFolder_joinAll (relative_of_resolve hresolve) hproper hne⟩

/-- The files collected below a folder are files, and no two of them the same. -/
theorem collect_files {t : FileTree} (ht : t.WellNamed) {root : String}
    (hfolder : t.isFolder root.toList = true) (extensions exclude : List String) :
    (fileSystem fun _ => none).Distinct t (Transfer.collect t root extensions exclude) ∧
      ∀ path ∈ Transfer.collect t root extensions exclude,
        ∃ names, t.fileAt? path.toList = some names := by
  obtain ⟨files, hnodup, hperm⟩ := walk_files ht hfolder
  have hpaths : ((Transfer.collect t root extensions exclude).map String.toList).Sublist
      ((t.walk root.toList).map (·.1)) := by
    simp only [Transfer.collect, List.map_map, Function.comp_def, String.toList_ofList,
      List.map_id']
    exact List.filter_sublist.trans List.filter_sublist
  constructor
  · have hfound : ((Transfer.collect t root extensions exclude).map String.toList).filterMap
        t.fileAt? |>.Nodup := by
      apply (hpaths.filterMap t.fileAt?).nodup
      have hfiles : ((t.walk root.toList).map (·.1)).filterMap t.fileAt? |>.Perm files := by
        simpa [List.filterMap_map] using hperm.filterMap id
      exact hfiles.nodup_iff.mpr hnodup
    rwa [List.filterMap_map] at hfound
  · intro path hpath
    have hmem := hperm.mem_iff.mp
      (List.mem_map_of_mem (hpaths.subset (List.mem_map_of_mem hpath)))
    obtain ⟨names, -, hnames⟩ := List.mem_map.mp hmem
    exact ⟨names, hnames.symm⟩

end DocTransfer.FileTree
