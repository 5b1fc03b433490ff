import DocTransfer.Command

/-! # The program

The files below the working folder are read, the command runs on them, and what it changed is
written back. There is no transport here, so every request comes back as a failure to get there. -/

namespace DocTransfer

/-- Everything below a folder. -/
partial def loadTree (entries : Array IO.FS.DirEntry) : IO FileTree := do
  let mut found := #[]
  for entry in entries do
    if ← entry.path.isDir then
      found := found.push (entry.fileName, ← loadTree (← entry.path.readDir))
    else
      let bytes ← IO.FS.readBinFile entry.path
      let content := match String.fromUTF8? bytes with
        | some text => Content.text text
        | none => Content.bytes bytes.toList
      found := found.push (entry.fileName, .file content)
  return .folder found.toList

/-- Writes the files that are not as they were. -/
def storeChanges (before after : FileTree) : IO Unit := do
  let was := FileTree.filesAt [] before
  for (path, content) in FileTree.filesAt [] after do
    if was.lookup path != some content then
      let name := String.ofList path
      match Path.parent? path with
      | some folder => if folder.isEmpty then pure () else IO.FS.createDirAll (String.ofList folder)
      | none => pure ()
      match content with
      | .text text => IO.FS.writeFile name text
      | .bytes _ => pure ()

/-- A network that nothing gets through. -/
def noNetwork : Model.Network Unit := fun s _ => (.transport "no transport available", s)

/-- The environment variables that commands look at. -/
def readEnvironment : IO Model.Environment := do
  let names := [Command.keyVariable, Model.Provider.anthropic.keyVariable,
    Model.Provider.openai.keyVariable, Model.Provider.gemini.keyVariable]
  let found ← names.filterMapM fun name => do return (← IO.getEnv name).map (name, ·)
  return found

/-- Runs a command line and gives its status. -/
def runProgram (args : List String) : IO UInt32 := do
  let tree ← loadTree (← (← IO.currentDir).readDir)
  let around : Command.Surroundings Unit := { env := ← readEnvironment, network := noNetwork }
  let (result, after, ()) := Command.run around args tree ()
  (← IO.getStdout).putStr result.printed
  (← IO.getStderr).putStr result.failure
  storeChanges tree after
  return result.status.toUInt32

end DocTransfer

/-- The program. -/
def main (args : List String) : IO UInt32 :=
  DocTransfer.runProgram args
