import DocTransfer.FileTree

/-! # Where files are kept

Work on files reads them, writes them and makes folders for them. A file tree can do this, and so
can anything else that keeps files, with failures of its own. -/

namespace DocTransfer

/-- What can be done to files. `φ` is what keeps them; an operation that fails may change it too. -/
structure Storage (φ : Type) where
  read : φ → String → Except IoError String
  write : φ → String → String → Except IoError Unit × φ
  makeFolders : φ → String → Except IoError Unit × φ

namespace FileTree

/-- The outcome of a change to a tree: all of it, or a failure that leaves the tree alone. -/
def settle (t : FileTree) : Except IoError FileTree → Except IoError Unit × FileTree
  | .ok changed => (.ok (), changed)
  | .error e => (.error e, t)

/-- A tree as a place where files are kept. -/
def storage : Storage FileTree where
  read t path := t.read path.toList
  write t path text := t.settle (t.write path.toList text)
  makeFolders t path := t.settle (t.makeFolders path.toList)

end FileTree

end DocTransfer
