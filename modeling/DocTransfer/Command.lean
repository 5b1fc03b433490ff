import DocTransfer.Command.Listing
import DocTransfer.Command.Transfer

/-! # The command line -/

namespace DocTransfer.Command

variable {σ : Type}

/-- What a command line comes to: a status, what is printed, and what is said of a failure. -/
structure Result where
  status : Nat
  printed : String := ""
  failure : String := ""

/-- What is printed for the version. -/
def versionText : String := "docport 1.0.0\n"

/-- What is printed for help. -/
def helpText : String :=
  "Usage: docport [OPTIONS] <COMMAND>\n\nCommands:\n" ++
  "  extract   Extract Javadocs from a Java source tree into JSON\n" ++
  "  types     List the types declared in each runtime file\n" ++
  "  transfer  Transfer Javadocs onto every file of a runtime\n" ++
  "  file      Transfer Javadocs onto a single file\n" ++
  "  models    List supported models\n"

/-- Runs a command under its configuration. -/
def perform (around : Surroundings σ) (i : Invocation) : Action σ Unit := do
  let config ← orFail (Config.loadIfThere (← files) i.config)
  match i.request with
  | .extract javaDir output => extract around javaDir output config
  | .types root json => types root json config
  | .transfer javadocs runtime settings report =>
    transfer around javadocs runtime settings report config
  | .file path javadocsJson settings => file around path javadocsJson settings config
  | .models => models

/-- Runs a command line on files and a network. -/
def run (around : Surroundings σ) (args : List String) (tree : FileTree) (wire : σ) :
    Result × FileTree × σ :=
  match parse around.env args with
  | .error .usage => ({ status := 2, failure := helpText }, tree, wire)
  | .error .help => ({ status := 0, printed := helpText }, tree, wire)
  | .error .version => ({ status := 0, printed := versionText }, tree, wire)
  | .ok i =>
    match (perform around i).run.run { files := tree, wire } with
    | (.ok (), w) => ({ status := 0, printed := w.printed }, w.files, w.wire)
    | (.error message, w) =>
      ({ status := 1, printed := w.printed, failure := "✗ " ++ message ++ "\n" }, w.files, w.wire)

end DocTransfer.Command
