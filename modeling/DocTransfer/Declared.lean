import DocTransfer.FileTree
import DocTransfer.Header.ExportWord
import DocTransfer.Header.Reader
import DocTransfer.Language
import DocTransfer.Script.Reader
import DocTransfer.Sharp.Reader

/-! # The types that a file declares -/

namespace DocTransfer

/-- The names of the types that a source text declares, read by a grammar. `words` are the export
words of headers. -/
def Grammar.declaredTypes (words : List (List Char)) (source : List Char) : Grammar → List String
  | .csharp => Sharp.types source (Sharp.read source)
  | .typescript => Script.types source (Script.read true false source)
  | .tsx => Script.types source (Script.read true true source)
  | .javascript => Script.types source (Script.read false true source)
  | .cppHeader =>
    let stripped := Header.strip words source
    Header.types stripped (Header.read stripped)

/-- The names of the types that a source text declares. The path selects the grammar; a file that
no grammar reads declares none. -/
def declaredTypes (words : List String) (source path : String) : List String :=
  match (Language.ofPath? path.toList).bind Language.grammar? with
  | some g => g.declaredTypes (words.map String.toList) source.toList
  | none => []

/-- The declared types of every file at or below a path that some grammar reads, in the order of a
walk. A file that holds no text is left out. -/
def declaredTypesIn (words : List String) (t : FileTree) (root : String) :
    List (String × List String) :=
  (t.walk root.toList).filterMap fun (path, content) =>
    match (Language.ofPath? path).bind Language.grammar?, content with
    | some g, .text source =>
      some (String.ofList path, g.declaredTypes (words.map String.toList) source.toList)
    | _, _ => none

end DocTransfer
