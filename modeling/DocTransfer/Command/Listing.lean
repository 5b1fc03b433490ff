import DocTransfer.Command.Console
import DocTransfer.Config
import DocTransfer.Declared
import DocTransfer.Javadoc.Folder
import DocTransfer.Javadoc.Json

/-! # Commands that ask no model -/

namespace DocTransfer.Command

open Json

variable {σ : Type}

/-- Makes the folder that a file goes into, if the path names one that is not there. -/
def makeParent (around : Surroundings σ) (path : String) : Action σ Unit := do
  match Path.parent? path.toList with
  | some parent =>
    if parent.isEmpty || (← files).holds parent then pure ()
    else
      match ← change (around.storage.makeFolders · (String.ofList parent)) with
      | .ok () => pure ()
      | .error e => throw e.message
  | none => pure ()

/-- Saves the documentation of a folder of Java sources. -/
def extract (around : Surroundings σ) (javaDir : String) (output : Option String)
    (config : Config) : Action σ Unit := do
  require ((← files).isFolder javaDir.toList) ("Java source directory not found: " ++ javaDir)
  say ("→ Extracting Javadocs from " ++ javaDir ++ "...")
  let forest := Javadoc.extractFolder (← files) javaDir
  let output := output.getD config.javadocs
  makeParent around output
  match ← change (around.storage.write · output (JavaType.save forest)) with
  | .ok () => pure ()
  | .error e => throw (chain (.io e))
  say "✓ Javadocs extracted"
  say ("  Types:        " ++ toString (JavaType.count forest))
  say ("  Source files: " ++ toString (JavaType.countFiles forest))
  say ("  Output:       " ++ output)

/-- A file and the types it declares, as JSON. -/
def infoJson (info : String × List String) : Json :=
  .object [("file", .string info.1), ("types", .strings info.2)]

/-- Lists the types that the files of a folder declare. -/
def types (root : String) (json : Bool) (config : Config) : Action σ Unit := do
  require ((← files).isFolder root.toList) ("Directory not found: " ++ root)
  let infos := (declaredTypesIn config.exportWords (← files) root).filter fun i => !i.2.isEmpty
  if json then say (Json.pretty (.array (infos.map infoJson)))
  else
    infos.forM fun (file, names) => do
      say file
      names.forM fun name => say ("  " ++ name)
    let total := infos.foldl (fun n info => n + info.2.length) 0
    say ""
    say ("✓ " ++ toString total ++ " types in " ++ toString infos.length ++ " files")

/-- A text filled up with blanks. -/
def padTo (width : Nat) (s : String) : String :=
  s ++ String.ofList (List.replicate (width - s.length) ' ')

/-- Lists the models of every provider. -/
def models : Action σ Unit :=
  [Model.Provider.anthropic, .openai, .gemini].forM fun provider => do
    say (provider.displayName ++ " ($" ++ provider.keyVariable ++ ")")
    (Model.table.filter (·.provider == provider)).forM fun info =>
      say ("  " ++ padTo 32 info.id ++ " " ++ info.name ++ "  max output " ++
        toString info.maxOutput ++ (if info.id == Model.defaultId then " (default)" else ""))
    say ""

end DocTransfer.Command
