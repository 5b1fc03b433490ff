import DocTransfer.FileTree
import DocTransfer.Javadoc.Extract

/-! # Documentation in a folder of Java sources -/

namespace DocTransfer.Javadoc

/-- The documentation trees of every Java source at or below a path, in the order of a walk. A file
that holds no text is left out. -/
def extractFolder (t : FileTree) (root : String) : List JavaType :=
  (t.walk root.toList).flatMap fun (path, content) =>
    match Path.extension? path, content with
    | some ext, .text source =>
      if ext == "java".toList then extract source (String.ofList path) else []
    | _, _ => []

end DocTransfer.Javadoc
