import DocTransfer.Storage

/-! # File systems

Wherever files are kept, a path leads to one of them or to none, and several paths may lead to the
same. What is read is what the file holds, and writing changes one file only, also when it fails. -/

namespace DocTransfer

/-- A place where files are kept, with what can be relied on. `ι` tells its files apart. -/
structure FileSystem (φ ι : Type) extends Storage φ where
  /-- The file that a path leads to. -/
  fileAt? : φ → String → Option ι
  /-- What a file holds. -/
  content? : φ → ι → Option Content
  file_of_read {files path source} : read files path = .ok source →
    ∃ i, fileAt? files path = some i ∧ content? files i = some (.text source)
  content_of_write {files path i text} : fileAt? files path = some i →
    (write files path text).1 = .ok () → content? (write files path text).2 i = some (.text text)
  fileAt_write {files path i} (text other) : fileAt? files path = some i →
    fileAt? (write files path text).2 other = fileAt? files other
  content_write {files path i j} (text) : fileAt? files path = some i → j ≠ i →
    content? (write files path text).2 j = content? files j
  read_write {files path i other} (text) : fileAt? files path = some i →
    fileAt? files other ≠ some i → read (write files path text).2 other = read files other

namespace FileSystem

variable {φ ι : Type} (fs : FileSystem φ ι)

/-- No two of the paths lead to the same file. -/
def Distinct (files : φ) (paths : List String) : Prop :=
  (paths.filterMap (fs.fileAt? files)).Nodup

instance [DecidableEq ι] (files : φ) (paths : List String) : Decidable (fs.Distinct files paths) :=
  inferInstanceAs (Decidable (List.Nodup _))

/-- Writing to the file of a path succeeds. -/
def Writable (path : String) : Prop :=
  ∀ files i text, fs.fileAt? files path = some i → (fs.write files path text).1 = .ok ()

/-- Whether writing succeeds is up to the path, and what the file holds then is up to what it held
before, to the path and to the text. -/
structure WritesByPath (path : String) : Prop where
  verdict {files files' i i'} (text text' : String) : fs.fileAt? files path = some i →
    fs.fileAt? files' path = some i' →
    (fs.write files path text).1 = (fs.write files' path text').1
  content {files files' i} (text : String) : fs.fileAt? files path = some i →
    fs.fileAt? files' path = some i → fs.content? files i = fs.content? files' i →
    fs.content? (fs.write files path text).2 i = fs.content? (fs.write files' path text).2 i

section

variable {fs} {files : φ} {path : String} {paths paths' : List String}

theorem distinct_cons :
    fs.Distinct files (path :: paths) ↔
      (∀ i, fs.fileAt? files path = some i → ∀ other ∈ paths, fs.fileAt? files other ≠ some i) ∧
        fs.Distinct files paths := by
  cases hfile : fs.fileAt? files path with
  | none => simp [Distinct, hfile]
  | some i => simp [Distinct, hfile]

theorem Distinct.perm (h : fs.Distinct files paths) (hperm : paths.Perm paths') :
    fs.Distinct files paths' :=
  (hperm.filterMap _).nodup_iff.mp h

end

/-! ## What stays -/

/-- Only what certain files hold has changed. -/
structure Frame (touched : ι → Prop) (files files' : φ) : Prop where
  fileAt path : fs.fileAt? files' path = fs.fileAt? files path
  content i : ¬ touched i → fs.content? files' i = fs.content? files i
  read path : (∀ i, fs.fileAt? files path = some i → ¬ touched i) →
    fs.read files' path = fs.read files path

variable {fs} {touched : ι → Prop} {files files' files'' : φ}

theorem Frame.refl : fs.Frame touched files files :=
  ⟨fun _ => rfl, fun _ _ => rfl, fun _ _ => rfl⟩

theorem Frame.trans (h : fs.Frame touched files files') (h' : fs.Frame touched files' files'') :
    fs.Frame touched files files'' where
  fileAt path := (h'.fileAt path).trans (h.fileAt path)
  content i hi := (h'.content i hi).trans (h.content i hi)
  read path hpath := by
    rw [h'.read path (by rwa [h.fileAt]), h.read path hpath]

theorem Frame.mono (h : fs.Frame touched files files') {more : ι → Prop}
    (hmore : ∀ i, touched i → more i) : fs.Frame more files files' where
  fileAt := h.fileAt
  content i hi := h.content i fun ht => hi (hmore i ht)
  read path hpath := h.read path fun i hi ht => hpath i hi (hmore i ht)

theorem frame_write {path : String} {i : ι} (h : fs.fileAt? files path = some i) (hi : touched i)
    (text : String) : fs.Frame touched files (fs.write files path text).2 where
  fileAt other := fs.fileAt_write text other h
  content _ hj := fs.content_write text h fun heq => hj (heq ▸ hi)
  read _ hother := fs.read_write text h fun hsame => hother i hsame hi

/-- A path sees the same in two states. -/
structure SameAt (fs : FileSystem φ ι) (path : String) (files files' : φ) : Prop where
  read : fs.read files path = fs.read files' path
  fileAt : fs.fileAt? files path = fs.fileAt? files' path
  content i : fs.fileAt? files' path = some i → fs.content? files i = fs.content? files' i

theorem SameAt.trans {path : String} (h : fs.SameAt path files files')
    (h' : fs.SameAt path files' files'') : fs.SameAt path files files'' where
  read := h.read.trans h'.read
  fileAt := h.fileAt.trans h'.fileAt
  content i hi := (h.content i (h'.fileAt.trans hi)).trans (h'.content i hi)

theorem Frame.sameAt (h : fs.Frame touched files files') {path : String}
    (hpath : ∀ i, fs.fileAt? files path = some i → ¬ touched i) :
    fs.SameAt path files' files where
  read := h.read path hpath
  fileAt := h.fileAt path
  content i hi := h.content i (hpath i hi)

theorem Frame.distinct (h : fs.Frame touched files files') {paths : List String}
    (hpaths : fs.Distinct files paths) : fs.Distinct files' paths := by
  have hfiles : fs.fileAt? files' = fs.fileAt? files := funext h.fileAt
  rwa [Distinct, hfiles]

end FileSystem

end DocTransfer
