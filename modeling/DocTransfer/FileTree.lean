import DocTransfer.Path

/-! # File trees

A folder with everything below it, as a value. Paths are resolved from the tree's top folder;
what lies above it does not exist. -/

namespace DocTransfer

/-- Why an operation on files failed. -/
inductive IoError where
  | notFound
  | notFolder
  | isFolder
  | alreadyThere
  | notText
  | other (message : String)
  deriving DecidableEq, Repr

/-- The wording of a failure. -/
def IoError.message : IoError → String
  | .notFound => "No such file or directory (os error 2)"
  | .notFolder => "Not a directory (os error 20)"
  | .isFolder => "Is a directory (os error 21)"
  | .alreadyThere => "File exists (os error 17)"
  | .notText => "stream did not contain valid UTF-8"
  | .other message => message

/-- What a file holds: a text, or bytes that are no text. -/
inductive Content where
  | text (value : String)
  | bytes (value : List UInt8)
  deriving DecidableEq

/-- A file, or a folder with its entries. -/
inductive FileTree where
  | file (content : Content)
  | folder (entries : List (String × FileTree))

namespace FileTree

/-- Entries with one replaced, or added at the end. -/
def putEntry (name : String) (tree : FileTree) :
    List (String × FileTree) → List (String × FileTree)
  | [] => [(name, tree)]
  | (n, t) :: rest => if n = name then (n, tree) :: rest else (n, t) :: putEntry name tree rest

/-- The entry of a name. -/
def entry? (name : String) : FileTree → Option FileTree
  | .file _ => none
  | .folder entries => entries.lookup name

/-- What stands below a list of names. -/
def get? : List String → FileTree → Option FileTree
  | [], t => some t
  | n :: ns, t => (t.entry? n).bind (get? ns)

/-- The tree with something put below a list of names; folders on the way are made. -/
def put : FileTree → List String → FileTree → FileTree
  | _, [], new => new
  | .folder entries, n :: ns, new =>
    .folder (putEntry n (put ((entries.lookup n).getD (.folder [])) ns new) entries)
  | .file _, n :: ns, new => .folder [(n, put (.folder []) ns new)]

/-- The names that components lead to, from a place given by its names in reverse. Every place on
the way has to be a folder. -/
def follow (t : FileTree) : List String → List Path.Component → Except IoError (List String)
  | at_, [] => .ok at_.reverse
  | at_, c :: cs =>
    match t.get? at_.reverse with
    | none => .error .notFound
    | some (.file _) => .error .notFolder
    | some (.folder _) =>
      match c with
      | .root => .error .notFound
      | .here => follow t at_ cs
      | .up =>
        match at_ with
        | [] => .error .notFound
        | _ :: rest => follow t rest cs
      | .name n => follow t (String.ofList n :: at_) cs

/-- Whether a path can only name a folder: it ends in a slash or a dot. -/
def wantsFolder (path : List Char) : Bool :=
  ((Path.pieces path).getLast?.map (·.2.isNone)).getD false

/-- The names that a path leads to. -/
def resolve (t : FileTree) (path : List Char) : Except IoError (List String) :=
  match Path.components path with
  | [] => .error .notFound
  | .root :: _ => .error .notFound
  | cs => t.follow [] cs

/-- What a path leads to. -/
def at? (t : FileTree) (path : List Char) : Except IoError FileTree := do
  let names ← t.resolve path
  match t.get? names with
  | none => .error .notFound
  | some (.file c) => if wantsFolder path then .error .notFolder else .ok (.file c)
  | some t => .ok t

/-- Whether a path leads to something. -/
def holds (t : FileTree) (path : List Char) : Bool :=
  (t.at? path).isOk

/-- Whether a path leads to a file. -/
def isFile (t : FileTree) (path : List Char) : Bool :=
  match t.at? path with
  | .ok (.file _) => true
  | _ => false

/-- Whether a path leads to a folder. -/
def isFolder (t : FileTree) (path : List Char) : Bool :=
  match t.at? path with
  | .ok (.folder _) => true
  | _ => false

/-- The text of a file. -/
def read (t : FileTree) (path : List Char) : Except IoError String := do
  match ← t.at? path with
  | .file (.text s) => .ok s
  | .file (.bytes _) => .error .notText
  | .folder _ => .error .isFolder

/-- The tree with a text written to a file. The folder has to be there, the file need not. -/
def write (t : FileTree) (path : List Char) (text : String) : Except IoError FileTree := do
  let names ← t.resolve path
  match t.get? names with
  | some (.folder _) => .error .isFolder
  | some (.file _) =>
    if wantsFolder path then .error .notFolder else .ok (t.put names (.file (.text text)))
  | none =>
    match t.get? names.dropLast with
    | some (.folder _) =>
      if wantsFolder path then .error .isFolder else .ok (t.put names (.file (.text text)))
    | some (.file _) => .error .notFolder
    | none => .error .notFound

/-- The tree with a folder made at every step of the way that is not there yet, from a place given
by its names in reverse. -/
def makeAlong : List String → List Path.Component → FileTree → Except IoError FileTree
  | _, [], t => .ok t
  | at_, c :: cs, t =>
    match c with
    | .root => .error .notFound
    | .here => makeAlong at_ cs t
    | .up =>
      match at_ with
      | [] => .error .notFound
      | _ :: rest => makeAlong rest cs t
    | .name n =>
      let next := String.ofList n :: at_
      match t.get? next.reverse with
      | none => makeAlong next cs (t.put next.reverse (.folder []))
      | some (.folder _) => makeAlong next cs t
      | some (.file _) => .error (if cs.isEmpty then .alreadyThere else .notFolder)

/-- The tree with a folder at a path, made with the folders above it if need be. -/
def makeFolders (t : FileTree) (path : List Char) : Except IoError FileTree :=
  makeAlong [] (Path.components path) t

/-! ## Walking -/

/-- Sorted entries with one more, which goes before those of the same name. -/
def insertEntry {α : Type} (entry : String × α) : List (String × α) → List (String × α)
  | [] => [entry]
  | e :: rest => if entry.1 ≤ e.1 then entry :: e :: rest else e :: insertEntry entry rest

/-- Entries in the order of their names. -/
def sortEntries {α : Type} (entries : List (String × α)) : List (String × α) :=
  entries.foldr insertEntry []

mutual

/-- The files at and below a path with their contents: names in order, and what a folder holds in
its place. -/
def filesAt (path : List Char) : FileTree → List (List Char × Content)
  | .file c => [(path, c)]
  | .folder entries => (sortEntries (filesOfEntries path entries)).flatMap (·.2)

/-- The files of each entry of a folder, beside the entry's name. -/
def filesOfEntries (path : List Char) :
    List (String × FileTree) → List (String × List (List Char × Content))
  | [] => []
  | (name, t) :: rest =>
    (name, filesAt (Path.join path name.toList) t) :: filesOfEntries path rest

end

/-- The files at and below a path; none when nothing is there. -/
def walk (t : FileTree) (path : List Char) : List (List Char × Content) :=
  match t.at? path with
  | .ok found => filesAt path found
  | .error _ => []

end FileTree

end DocTransfer
