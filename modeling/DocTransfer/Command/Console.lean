import DocTransfer.Error
import DocTransfer.Model.Client
import DocTransfer.Storage

/-! # What commands act on

A command prints, changes files and sends requests. It may fail with a message, and what it did
before stays done. -/

namespace DocTransfer.Command

/-- What the surroundings provide: environment variables, a network, a way to keep files and the
readings of a clock. -/
structure Surroundings (σ : Type) where
  env : Model.Environment
  network : Model.Network σ
  storage : Storage FileTree := FileTree.storage
  startedAt : String := ""
  finishedAt : String := ""
  elapsedMillis : Nat := 0

/-- Files, the state of the network, and what has been printed. -/
structure World (σ : Type) where
  files : FileTree
  wire : σ
  printed : String := ""

/-- A step of a command. -/
abbrev Action (σ : Type) := ExceptT String (StateM (World σ))

variable {σ : Type}

/-- Prints a text as it is. -/
def printText (text : String) : Action σ Unit :=
  modify fun w => { w with printed := w.printed ++ text }

/-- Prints a line. -/
def say (line : String) : Action σ Unit :=
  printText (line ++ "\n")

/-- Fails with a message unless a condition holds. -/
def require (condition : Bool) (message : String) : Action σ Unit :=
  if condition then pure () else throw message

/-- The wording of a failure together with its cause. -/
def chain (e : Error) : String :=
  match e with
  | .io cause => e.message ++ ": " ++ cause.message
  | e => e.message

/-- The outcome of a computation, as a step. -/
def orFail {α : Type} (result : Except Error α) : Action σ α :=
  match result with
  | .ok a => pure a
  | .error e => throw (chain e)

/-- The files. -/
def files : Action σ FileTree :=
  return (← get).files

/-- Changes the files, and gives how that went. -/
def change (work : FileTree → Except IoError Unit × FileTree) : Action σ (Except IoError Unit) := do
  let w ← get
  let (result, files) := work w.files
  set { w with files }
  return result

end DocTransfer.Command
