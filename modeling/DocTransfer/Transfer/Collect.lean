import DocTransfer.FileTree
import DocTransfer.Glob

/-! # The files to document -/

namespace DocTransfer.Transfer

/-- The patterns of a list that are well formed. -/
def validPatterns (patterns : List String) : List (List Glob.Sign) :=
  patterns.filterMap fun p => (Glob.parse p).toOption

/-- Whether a name ends with one of the extensions. -/
def endsWithOne (extensions : List String) (name : List Char) : Bool :=
  extensions.any fun ext => ext.toList.isSuffixOf name

/-- The path of a file below a root, as patterns see it. -/
def relativeTo (root path : List Char) : List Char :=
  ((Path.below? root path).getD []).map fun c => if c = '\\' then '/' else c

/-- Every file at or below a root whose name ends with one of the extensions, without those whose
path below the root matches an exclude pattern; in the order of a walk. -/
def collect (t : FileTree) (root : String) (extensions exclude : List String) : List String :=
  let patterns := validPatterns exclude
  let paths := (t.walk root.toList).map (·.1)
  let named := paths.filter fun p => endsWithOne extensions ((Path.fileName? p).getD p)
  let kept := named.filter fun p =>
    !(patterns.any fun signs => Glob.isMatch signs (relativeTo root.toList p))
  kept.map String.ofList

end DocTransfer.Transfer
