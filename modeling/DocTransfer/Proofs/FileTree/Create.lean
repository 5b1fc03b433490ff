import DocTransfer.Proofs.FileTree.Overwrite

/-! # Trees that grow

A file or a folder that is new in a tree leaves all that was there in its place, so paths that led
somewhere lead there still. -/

namespace DocTransfer.FileTree

/-- A tree with more in it: what stood somewhere still stands there, but for what the file at one
place holds. -/
structure Grows (place : List String) (t u : FileTree) : Prop where
  kind {names isFile} : (t.node? names).map Option.isSome = some isFile →
    (u.node? names).map Option.isSome = some isFile
  kept {names v} : names ≠ place → t.node? names = some v → u.node? names = some v

theorem Grows.refl (place : List String) (t : FileTree) : Grows place t t :=
  ⟨fun h => h, fun _ h => h⟩

theorem Grows.trans {place : List String} {t u v : FileTree} (h : Grows place t u)
    (h' : Grows place u v) : Grows place t v where
  kind hkind := h'.kind (h.kind hkind)
  kept hne hnode := h'.kept hne (h.kept hne hnode)

/-! ## Paths -/

theorem at?_of_fileAt? {t : FileTree} {path : List Char} {names : List String} {c : Content}
    (hfile : t.fileAt? path = some names) (hcontent : t.contentAt? names = some c) :
    t.at? path = .ok (.file c) := by
  obtain ⟨hresolve, -, hwants⟩ := fileAt?_eq_some_iff.mp hfile
  rw [contentAt?, node?] at hcontent
  cases hget : t.get? names with
  | none => simp [hget] at hcontent
  | some u =>
      cases u with
      | folder entries => simp [hget] at hcontent
      | file d =>
          obtain rfl : d = c := by simpa [hget] using hcontent
          simp [at?, hresolve, hget, hwants, bind, Except.bind]

section

variable {place : List String} {t u : FileTree} (h : Grows place t u)

include h

theorem Grows.follow {names found : List String} {cs : List Path.Component}
    (hfollow : t.follow names cs = .ok found) : u.follow names cs = .ok found := by
  induction cs generalizing names with
  | nil => exact hfollow
  | cons c cs ih =>
      rw [follow_cons] at hfollow ⊢
      split at hfollow
      · cases hfollow
      · cases hfollow
      · next hfolder =>
          rw [h.kind hfolder]
          cases c with
          | root => cases hfollow
          | here => exact ih hfollow
          | up =>
              cases names with
              | nil => cases hfollow
              | cons _ rest => exact ih hfollow
          | name n => exact ih hfollow

theorem Grows.resolve {path : List Char} {names : List String}
    (hresolve : t.resolve path = .ok names) : u.resolve path = .ok names := by
  unfold FileTree.resolve at hresolve ⊢
  split at hresolve
  · cases hresolve
  · cases hresolve
  · exact h.follow hresolve

theorem Grows.fileAt? {path : List Char} {names : List String}
    (hfile : t.fileAt? path = some names) : u.fileAt? path = some names := by
  obtain ⟨hresolve, ⟨c, hnode⟩, hwants⟩ := fileAt?_eq_some_iff.mp hfile
  have hkind : (u.node? names).map Option.isSome = some true := h.kind (by simp [hnode])
  obtain ⟨v, hv, hsome⟩ := Option.map_eq_some_iff.mp hkind
  obtain ⟨d, rfl⟩ := Option.isSome_iff_exists.mp hsome
  exact fileAt?_eq_some_iff.mpr ⟨h.resolve hresolve, ⟨d, hv⟩, hwants⟩

/-- A path to a file at another place sees what it saw before. -/
theorem Grows.sameAt {path : String} {names : List String}
    (hfile : t.fileAt? path.toList = some names) (hne : names ≠ place)
    (refusal : String → Option IoError) : (fileSystem refusal).SameAt path u t where
  read := by
    obtain ⟨hresolve, ⟨c, hnode⟩, -⟩ := fileAt?_eq_some_iff.mp hfile
    change u.read path.toList = t.read path.toList
    rw [read_eq, read_eq, hresolve, h.resolve hresolve]
    dsimp only
    rw [hnode, h.kept hne hnode]
  fileAt := (h.fileAt? hfile).trans hfile.symm
  content names' hnames' := by
    obtain ⟨-, ⟨c, hnode⟩, -⟩ := fileAt?_eq_some_iff.mp hfile
    obtain rfl : names = names' := Option.some.inj (hfile.symm.trans hnames')
    change u.contentAt? names = t.contentAt? names
    rw [contentAt?, contentAt?, hnode, h.kept hne hnode]

end

/-! ## Something new -/

/-- What is put in a folder where nothing stood stands there, and all else stays. -/
theorem node?_put_of_none {t new : FileTree} {names : List String} {v : Option Content}
    (hparent : t.node? names.dropLast = some none) (hnone : t.node? names = none)
    (hnew : ∀ ns, new.node? ns = if ns = [] then some v else none) (others : List String) :
    (t.put names new).node? others = if others = names then some v else t.node? others := by
  induction names generalizing t others with
  | nil =>
      rw [List.dropLast_nil, hnone] at hparent
      cases hparent
  | cons n ns ih =>
      cases t with
      | file c => cases ns <;> simp at hparent
      | folder entries =>
          cases others with
          | nil => simp [put]
          | cons m ms =>
              rw [put, node?_cons_folder, node?_cons_folder, lookup_putEntry]
              by_cases hm : m = n
              · subst hm
                cases ns with
                | nil =>
                    have hlookup : entries.lookup m = none := by
                      cases hentry : entries.lookup m with
                      | none => rfl
                      | some u => cases u <;> simp [node?_cons_folder, hentry] at hnone
                    simp [put, hlookup, hnew]
                | cons k ks =>
                    rw [List.dropLast_cons_cons, node?_cons_folder] at hparent
                    obtain ⟨u, hu, hfolder⟩ := Option.bind_eq_some_iff.mp hparent
                    have hbelow : u.node? (k :: ks) = none := by
                      simpa [node?_cons_folder, hu] using hnone
                    simp [hu, ih hfolder hbelow]
              · simp [hm]

/-- A text that is written stands where the path leads, and all else stays. -/
theorem node?_of_write {t u : FileTree} {path : List Char} {text : String}
    (h : t.write path text = .ok u) :
    ∃ place, t.resolve path = .ok place ∧ wantsFolder path = false ∧
      t.node? place ≠ some none ∧
      ∀ names, u.node? names =
        if names = place then some (some (.text text)) else t.node? names := by
  have hleaf (ns : List String) :
      (file (.text text)).node? ns = if ns = [] then some (some (.text text)) else none := by
    cases ns <;> simp
  unfold write at h
  cases hresolve : t.resolve path with
  | error e =>
      rw [hresolve] at h
      cases h
  | ok place =>
      rw [hresolve] at h
      simp only [bind, Except.bind] at h
      cases hget : t.get? place with
      | none =>
          have hnode : t.node? place = none := by simp [node?, hget]
          simp only [hget] at h
          split at h
          · next entries hparent =>
              cases hwants : wantsFolder path with
              | true => simp [hwants] at h
              | false =>
                  simp only [hwants, Bool.false_eq_true, if_false, Except.ok.injEq] at h
                  subst h
                  refine ⟨place, rfl, rfl, by simp [hnode], ?_⟩
                  exact node?_put_of_none (by simp [node?, hparent]) hnode hleaf
          · cases h
          · cases h
      | some v =>
          cases v with
          | folder entries => simp [hget] at h
          | file c =>
              have hnode : t.node? place = some (some c) := by simp [node?, hget]
              simp only [hget] at h
              cases hwants : wantsFolder path with
              | true => simp [hwants] at h
              | false =>
                  simp only [hwants, Bool.false_eq_true, if_false, Except.ok.injEq] at h
                  subst h
                  exact ⟨place, rfl, rfl, by simp [hnode], node?_put hnode _⟩

/-- What is written can be read, and a tree grows by it. A file that is overwritten is the one that
the path led to. -/
theorem grows_of_write {t u : FileTree} {path : List Char} {text : String}
    (h : t.write path text = .ok u) :
    ∃ place, Grows place t u ∧ u.fileAt? path = some place ∧ u.read path = .ok text ∧
      ∀ c, t.node? place = some (some c) → t.fileAt? path = some place := by
  obtain ⟨place, hresolve, hwants, hplace, hnode⟩ := node?_of_write h
  have hgrows : Grows place t u := by
    constructor
    · intro names isFile hkind
      rw [hnode]
      split
      · next heq =>
          subst heq
          obtain ⟨v, hv, rfl⟩ := Option.map_eq_some_iff.mp hkind
          cases v with
          | none => exact absurd hv hplace
          | some c => rfl
      · exact hkind
    · intro names v hne hv
      rw [hnode, if_neg hne, hv]
  have hwritten : u.node? place = some (some (.text text)) := by rw [hnode, if_pos rfl]
  have hfile : u.fileAt? path = some place :=
    fileAt?_eq_some_iff.mpr ⟨hgrows.resolve hresolve, ⟨_, hwritten⟩, hwants⟩
  refine ⟨place, hgrows, hfile, ?_, ?_⟩
  · rw [read_eq, hgrows.resolve hresolve]
    simp [hwritten, hwants]
  · intro c hc
    exact fileAt?_eq_some_iff.mpr ⟨hresolve, ⟨c, hc⟩, hwants⟩

section

variable {t : FileTree} {names : List String} {name : String}

theorem node?_put_folder (hparent : t.node? names = some none)
    (hnone : t.node? (names ++ [name]) = none) (others : List String) :
    (t.put (names ++ [name]) (.folder [])).node? others =
      if others = names ++ [name] then some none else t.node? others := by
  have hleaf (ns : List String) :
      (folder []).node? ns = if ns = [] then some none else none := by
    cases ns with
    | nil => rfl
    | cons n ns => rfl
  exact node?_put_of_none (by simpa using hparent) hnone hleaf others

theorem grows_put_folder (hparent : t.node? names = some none)
    (hnone : t.node? (names ++ [name]) = none) (place : List String) :
    Grows place t (t.put (names ++ [name]) (.folder [])) := by
  have hkept {others : List String} {v : Option Content} (hv : t.node? others = some v) :
      (t.put (names ++ [name]) (.folder [])).node? others = some v := by
    have hne : others ≠ names ++ [name] := by
      rintro rfl
      rw [hnone] at hv
      cases hv
    rw [node?_put_folder hparent hnone, if_neg hne, hv]
  constructor
  · intro others isFile hkind
    obtain ⟨v, hv, rfl⟩ := Option.map_eq_some_iff.mp hkind
    rw [hkept hv, Option.map_some]
  · intro others v _ hv
    exact hkept hv

end

/-- Folders that are made leave all that was there as it was. -/
theorem makeAlong_grows {t u : FileTree} {names : List String} {cs : List Path.Component}
    (hfolder : t.node? names.reverse = some none) (h : makeAlong names cs t = .ok u)
    (place : List String) : Grows place t u := by
  -- The place reached so far stays a folder, so what is made next is new in a folder.
  induction cs generalizing names t with
  | nil =>
      cases h
      exact .refl place _
  | cons c cs ih =>
      rw [makeAlong.eq_def] at h
      cases c with
      | root => cases h
      | here => exact ih hfolder h
      | up =>
          cases names with
          | nil => cases h
          | cons name rest =>
              rw [List.reverse_cons] at hfolder
              exact ih (node?_of_append hfolder (by simp)) h
      | name n =>
          have hnext : (String.ofList n :: names).reverse = names.reverse ++ [String.ofList n] :=
            List.reverse_cons
          dsimp only at h
          rw [hnext] at h
          cases hget : t.get? (names.reverse ++ [String.ofList n]) with
          | none =>
              have hnone : t.node? (names.reverse ++ [String.ofList n]) = none := by
                rw [node?, hget, Option.map_none]
              rw [hget] at h
              refine (grows_put_folder hfolder hnone place).trans (ih ?_ h)
              rw [hnext, node?_put_folder hfolder hnone, if_pos rfl]
          | some v =>
              rw [hget] at h
              cases v with
              | file d => cases h
              | folder entries =>
                  apply ih _ h
                  rw [hnext, node?, hget, Option.map_some]

/-- The top of a tree where a path leads somewhere is a folder. -/
theorem node?_nil_of_resolve {t : FileTree} {path : List Char} {names : List String}
    (h : t.resolve path = .ok names) : t.node? [] = some none := by
  unfold resolve at h
  split at h
  · cases h
  · cases h
  · cases hcs : Path.components path with
    | nil => contradiction
    | cons c cs =>
        rw [hcs, follow_cons] at h
        split at h
        · cases h
        · cases h
        · next hfolder =>
            obtain ⟨v, hv, hkind⟩ := Option.map_eq_some_iff.mp hfolder
            cases v with
            | none => exact hv
            | some c => cases hkind

theorem makeFolders_grows {t u : FileTree} {path : List Char} (htop : t.node? [] = some none)
    (h : t.makeFolders path = .ok u) (place : List String) : Grows place t u :=
  makeAlong_grows htop h place

end DocTransfer.FileTree
