import DocTransfer.Proofs.Storage.FileSystem

/-! # Overwriting a file of a tree

A tree is seen through what stands at each list of names: nothing, a folder, or a file with its
content. Overwriting a file changes that at the names of the file only, and paths lead where they
led before. So a tree is a file system, also when some paths refuse to be written to. -/

namespace DocTransfer.FileTree

/-- What stands at a list of names: a file has a content, a folder has none. -/
def node? (t : FileTree) (names : List String) : Option (Option Content) :=
  (t.get? names).map fun
    | .file c => some c
    | .folder _ => none

/-- What the file at a list of names holds. -/
def contentAt? (t : FileTree) (names : List String) : Option Content :=
  (t.node? names).join

@[simp] theorem node?_nil_file (c : Content) : (file c).node? [] = some (some c) := rfl

@[simp] theorem node?_nil_folder (entries : List (String × FileTree)) :
    (folder entries).node? [] = some none := rfl

@[simp] theorem node?_cons_file (c : Content) (n : String) (ns : List String) :
    (file c).node? (n :: ns) = none := rfl

theorem node?_cons_folder (entries : List (String × FileTree)) (n : String) (ns : List String) :
    (folder entries).node? (n :: ns) = (entries.lookup n).bind (·.node? ns) := by
  simp only [node?, get?, entry?]
  cases entries.lookup n <;> rfl

/-! ## Names in a row -/

theorem get?_append (t : FileTree) (names more : List String) :
    t.get? (names ++ more) = (t.get? names).bind (get? more) := by
  induction names generalizing t with
  | nil => rfl
  | cons n ns ih =>
      rw [List.cons_append, get?, get?]
      cases t.entry? n with
      | none => rfl
      | some u => exact ih u

theorem node?_append (t : FileTree) (names more : List String) :
    t.node? (names ++ more) = (t.get? names).bind (·.node? more) := by
  rw [node?, get?_append]
  cases t.get? names <;> rfl

/-- What stands below something stands in a folder. -/
theorem node?_of_append {t : FileTree} {names more : List String} {v : Option Content}
    (h : t.node? (names ++ more) = some v) (hmore : more ≠ []) : t.node? names = some none := by
  rw [node?_append] at h
  obtain ⟨u, hu, hnode⟩ := Option.bind_eq_some_iff.mp h
  cases more with
  | nil => exact absurd rfl hmore
  | cons m ms =>
      cases u with
      | file c => cases hnode
      | folder entries => simp [node?, hu]

/-! ## One entry -/

theorem lookup_cons_of_ne {m n : String} (h : m ≠ n) (t : FileTree)
    (entries : List (String × FileTree)) : ((n, t) :: entries).lookup m = entries.lookup m := by
  rw [List.lookup_cons, beq_false_of_ne h]

theorem lookup_putEntry (m n : String) (t : FileTree) (entries : List (String × FileTree)) :
    (putEntry n t entries).lookup m = if m = n then some t else entries.lookup m := by
  induction entries with
  | nil =>
      by_cases h : m = n
      · simp [putEntry, h]
      · rw [putEntry, lookup_cons_of_ne h, if_neg h]
  | cons entry entries ih =>
      obtain ⟨k, u⟩ := entry
      by_cases hk : k = n
      · subst hk
        by_cases h : m = k
        · simp [putEntry, h]
        · rw [putEntry, if_pos rfl, if_neg h, lookup_cons_of_ne h, lookup_cons_of_ne h]
      · rw [putEntry, if_neg hk]
        by_cases h : m = k
        · simp [h, hk]
        · rw [lookup_cons_of_ne h, lookup_cons_of_ne h, ih]

/-! ## A file somewhere below -/

/-- A file that is put where a file stands takes its place, and all else stays. -/
theorem node?_put {t : FileTree} {names : List String} {c : Content}
    (h : t.node? names = some (some c)) (new : Content) (others : List String) :
    (t.put names (.file new)).node? others =
      if others = names then some (some new) else t.node? others := by
  induction names generalizing t others with
  | nil =>
      cases t with
      | folder entries => simp at h
      | file d =>
          cases others with
          | nil => simp [put]
          | cons m ms => simp [put]
  | cons n ns ih =>
      cases t with
      | file d => simp at h
      | folder entries =>
          rw [node?_cons_folder] at h
          obtain ⟨u, hu, hnode⟩ := Option.bind_eq_some_iff.mp h
          cases others with
          | nil => simp [put]
          | cons m ms =>
              -- Only the entry on the way to the file is put anew.
              rw [put, hu, Option.getD_some, node?_cons_folder, node?_cons_folder, lookup_putEntry]
              by_cases hm : m = n
              · subst hm
                simp [hu, ih hnode]
              · simp [hm]

/-! ## Paths -/

/-- Two trees with files and folders at the same places. -/
def SameShape (t u : FileTree) : Prop :=
  ∀ names, (t.node? names).map Option.isSome = (u.node? names).map Option.isSome

theorem follow_cons (t : FileTree) (names : List String) (c : Path.Component)
    (cs : List Path.Component) :
    t.follow names (c :: cs) =
      match (t.node? names.reverse).map Option.isSome with
      | none => .error .notFound
      | some true => .error .notFolder
      | some false =>
        match c with
        | .root => .error .notFound
        | .here => t.follow names cs
        | .up =>
          match names with
          | [] => .error .notFound
          | _ :: rest => t.follow rest cs
        | .name n => t.follow (String.ofList n :: names) cs := by
  rw [follow.eq_def, node?]
  dsimp only
  cases t.get? names.reverse with
  | none => rfl
  | some u =>
      cases u with
      | file d => rfl
      | folder entries => cases c <;> rfl

theorem follow_of_sameShape {t u : FileTree} (h : SameShape t u) (names : List String)
    (cs : List Path.Component) : t.follow names cs = u.follow names cs := by
  induction cs generalizing names with
  | nil => rfl
  | cons c cs ih =>
      rw [follow_cons, follow_cons, h]
      simp only [ih]

theorem resolve_of_sameShape {t u : FileTree} (h : SameShape t u) (path : List Char) :
    t.resolve path = u.resolve path := by
  unfold resolve
  split
  · rfl
  · rfl
  · exact follow_of_sameShape h [] _

theorem sameShape_put {t : FileTree} {names : List String} {c : Content}
    (h : t.node? names = some (some c)) (new : Content) : SameShape (t.put names (.file new)) t := by
  intro others
  rw [node?_put h]
  split
  · next heq => simp [heq, h]
  · rfl

/-! ## Reading and writing -/

/-- The names of the file that a path leads to. -/
def fileAt? (t : FileTree) (path : List Char) : Option (List String) :=
  match t.resolve path with
  | .ok names => if (t.contentAt? names).isSome ∧ wantsFolder path = false then some names else none
  | .error _ => none

theorem fileAt?_eq_some_iff {t : FileTree} {path : List Char} {names : List String} :
    t.fileAt? path = some names ↔ t.resolve path = .ok names ∧
      (∃ c, t.node? names = some (some c)) ∧ wantsFolder path = false := by
  have hfile (found : List String) :
      (t.contentAt? found).isSome = true ↔ ∃ c, t.node? found = some (some c) := by
    simp [contentAt?, Option.isSome_iff_exists, Option.join_eq_some_iff]
  unfold fileAt?
  cases t.resolve path with
  | error e => simp
  | ok found =>
      simp only [Option.ite_none_right_eq_some, Option.some.injEq, Except.ok.injEq, hfile]
      constructor
      · rintro ⟨hfound, rfl⟩
        exact ⟨rfl, hfound⟩
      · rintro ⟨rfl, hfound⟩
        exact ⟨hfound, rfl⟩

/-- A path that leads to a file leads to something with a content. -/
theorem node?_of_fileAt? {t : FileTree} {path : List Char} {names : List String}
    (h : t.fileAt? path = some names) : ∃ c, t.node? names = some (some c) := by
  rw [fileAt?_eq_some_iff] at h
  exact h.2.1

/-- What reading a path gives, by what stands where the path leads. -/
theorem read_eq (t : FileTree) (path : List Char) :
    t.read path =
      match t.resolve path with
      | .error e => .error e
      | .ok names =>
        match t.node? names with
        | none => .error .notFound
        | some none => .error .isFolder
        | some (some c) =>
          if wantsFolder path then .error .notFolder
          else
            match c with
            | .text s => .ok s
            | .bytes _ => .error .notText := by
  unfold read at? node?
  cases t.resolve path with
  | error e => rfl
  | ok names =>
      simp only [bind, Except.bind]
      cases t.get? names with
      | none => rfl
      | some u =>
          cases u with
          | folder entries => rfl
          | file c =>
              cases hfolder : wantsFolder path with
              | true => simp
              | false => cases c <;> simp

/-- Writing to a file that is there puts the text in its place. -/
theorem write_of_fileAt? {t : FileTree} {path : List Char} {names : List String}
    (h : t.fileAt? path = some names) (text : String) :
    t.write path text = .ok (t.put names (.file (.text text))) := by
  rw [fileAt?_eq_some_iff] at h
  obtain ⟨hresolve, ⟨c, hnode⟩, hfolder⟩ := h
  unfold node? at hnode
  cases hget : t.get? names with
  | none => simp [hget] at hnode
  | some u =>
      cases u with
      | folder entries => simp [hget] at hnode
      | file d => simp [write, hresolve, hget, hfolder, bind, Except.bind]

/-! ## Files after a write -/

section

variable {t : FileTree} {path : List Char} {names : List String}

theorem fileAt?_put (h : t.fileAt? path = some names) (new : Content) (other : List Char) :
    (t.put names (.file new)).fileAt? other = t.fileAt? other := by
  obtain ⟨c, hnode⟩ := node?_of_fileAt? h
  apply Option.ext
  intro found
  rw [fileAt?_eq_some_iff, fileAt?_eq_some_iff, resolve_of_sameShape (sameShape_put hnode new),
    node?_put hnode]
  by_cases hfound : found = names
  · simp [hfound, hnode]
  · simp [hfound]

theorem contentAt?_put (h : t.fileAt? path = some names) (new : Content) (others : List String) :
    (t.put names (.file new)).contentAt? others =
      if others = names then some new else t.contentAt? others := by
  obtain ⟨c, hnode⟩ := node?_of_fileAt? h
  rw [contentAt?, contentAt?, node?_put hnode]
  split <;> rfl

/-- A path that does not lead to the file reads as before. -/
theorem read_put (h : t.fileAt? path = some names) (new : Content) {other : List Char}
    (hother : t.fileAt? other ≠ some names) :
    (t.put names (.file new)).read other = t.read other := by
  obtain ⟨c, hnode⟩ := node?_of_fileAt? h
  rw [read_eq, read_eq, resolve_of_sameShape (sameShape_put hnode new)]
  cases hresolve : t.resolve other with
  | error e => rfl
  | ok found =>
      simp only [node?_put hnode]
      by_cases hfound : found = names
      · subst hfound
        have hfolder : wantsFolder other = true := by
          rw [ne_eq, fileAt?_eq_some_iff] at hother
          cases hwants : wantsFolder other with
          | true => rfl
          | false => exact absurd ⟨hresolve, ⟨c, hnode⟩, hwants⟩ hother
        simp [hnode, hfolder]
      · simp [hfound]

/-- A path that reads leads to a file with the text. -/
theorem fileAt?_of_read {source : String} (h : t.read path = .ok source) :
    ∃ names, t.fileAt? path = some names ∧ t.contentAt? names = some (.text source) := by
  rw [read_eq] at h
  cases hresolve : t.resolve path with
  | error e => simp [hresolve] at h
  | ok names =>
      simp only [hresolve] at h
      split at h
      · cases h
      · cases h
      · next c hnode =>
          split at h
          · cases h
          · next hfolder =>
              cases c with
              | bytes value => cases h
              | text value =>
                  cases h
                  refine ⟨names, ?_, by simp [contentAt?, hnode]⟩
                  rw [fileAt?_eq_some_iff]
                  exact ⟨hresolve, ⟨_, hnode⟩, by simpa using hfolder⟩

end

/-! ## A tree as a file system -/

theorem storage_write_of_fileAt? {t : FileTree} {path : String} {names : List String}
    (h : t.fileAt? path.toList = some names) (text : String) :
    storage.write t path text = (.ok (), t.put names (.file (.text text))) := by
  simp [storage, write_of_fileAt? h, settle]

/-- A tree where writing through certain paths is refused. -/
def guarded (refusal : String → Option IoError) : Storage FileTree :=
  { storage with
    write := fun t path text =>
      match refusal path with
      | some e => (.error e, t)
      | none => storage.write t path text }

theorem guarded_write (refusal : String → Option IoError) {t : FileTree} {path : String}
    {names : List String} (h : t.fileAt? path.toList = some names) (text : String) :
    (guarded refusal).write t path text =
      match refusal path with
      | some e => (.error e, t)
      | none => (.ok (), t.put names (.file (.text text))) := by
  simp only [guarded, storage_write_of_fileAt? h]

def fileSystem (refusal : String → Option IoError) : FileSystem FileTree (List String) where
  toStorage := guarded refusal
  fileAt? t path := t.fileAt? path.toList
  content? := contentAt?
  file_of_read := fileAt?_of_read
  content_of_write {t path names text} hfile := by
    rw [guarded_write refusal hfile]
    cases refusal path with
    | some e => exact fun hok => by cases hok
    | none => exact fun _ => by rw [contentAt?_put hfile, if_pos rfl]
  fileAt_write {t path names} text other hfile := by
    rw [guarded_write refusal hfile]
    cases refusal path with
    | some e => rfl
    | none => exact fileAt?_put hfile _ _
  content_write {t path names others} text hfile hne := by
    rw [guarded_write refusal hfile]
    cases refusal path with
    | some e => rfl
    | none => rw [contentAt?_put hfile, if_neg hne]
  read_write {t path names other} text hfile hother := by
    rw [guarded_write refusal hfile]
    cases refusal path with
    | some e => rfl
    | none => exact read_put hfile _ hother

/-- The storage of a tree is a file system where nothing is refused. -/
theorem fileSystem_toStorage : (fileSystem fun _ => none).toStorage = storage := rfl

theorem writable_fileSystem (path : String) : (fileSystem fun _ => none).Writable path := by
  intro t names text hfile
  simp only [fileSystem, guarded_write _ hfile]

theorem writesByPath_fileSystem (refusal : String → Option IoError) (path : String) :
    (fileSystem refusal).WritesByPath path where
  verdict {t t' names names'} text text' hfile hfile' := by
    simp only [fileSystem, guarded_write refusal hfile, guarded_write refusal hfile']
    cases refusal path <;> rfl
  content {t t' names} text hfile hfile' hcontent := by
    simp only [fileSystem, guarded_write refusal hfile, guarded_write refusal hfile']
    cases refusal path with
    | some e => exact hcontent
    | none => rw [contentAt?_put hfile, contentAt?_put hfile', if_pos rfl, if_pos rfl]

end DocTransfer.FileTree
