import DocTransfer.Storage

/-! # Dumps of prompts and answers

With a root set, the dumps of a file lie as the file does below the root, so that files of one name
in different folders stay apart. -/

namespace DocTransfer.Transfer

/-- Where dumps go. -/
structure Dump where
  dir : String
  root : Option String := none

namespace Dump

/-- The path of a file below the root, if it has a name there. -/
def relative? (d : Dump) (file : List Char) : Option (List Char) := do
  let rel ← Path.below? (← d.root).toList file
  if (Path.fileName? rel).isSome then some rel else none

/-- The folder below the dump folder, and the name of the file that dumps are about. -/
def place (d : Dump) (file : List Char) : Option (List Char) × List Char :=
  match d.relative? file with
  | some rel => (Path.parent? rel, (Path.fileName? rel).getD "unknown".toList)
  | none => (none, (Path.fileName? file).getD "unknown".toList)

/-- The path of the dump of a label for a file. -/
def pathFor (d : Dump) (file label : String) : String :=
  let (folder, name) := d.place file.toList
  let name := name ++ '.' :: label.toList ++ ".txt".toList
  String.ofList (match folder with
    | some folder => Path.join (Path.join d.dir.toList folder) name
    | none => Path.join d.dir.toList name)

/-- The files with a dump written. A dump that cannot be written is left out. -/
def write {φ : Type} (d : Dump) (storage : Storage φ) (files : φ) (file label text : String) : φ :=
  let path := d.pathFor file label
  let folder := ((Path.parent? path.toList).map String.ofList).getD d.dir
  match storage.makeFolders files folder with
  | (.error _, files) => files
  | (.ok (), files) => (storage.write files path text).2

end Dump

end DocTransfer.Transfer
