import DocTransfer.Matching.Basic
import DocTransfer.Model.Client
import DocTransfer.Number.Read

/-! # Arguments of the command line

Options may be written with one or two dashes, with the value attached or after them, and those of
one letter may share a dash. Each may be given once. What every command understands may also stand
before the name of the command, and counts less there. -/

namespace DocTransfer.Command

open Number Matching

/-- Why a command line runs no command. -/
inductive Stop where
  | usage
  | help
  | version
  deriving DecidableEq, Repr

/-- An option: its names, whether it has a value and which values it accepts. -/
structure Switch where
  long : String
  short : Option Char := none
  hasValue : Bool := false
  accepts : String → Bool := fun _ => true

/-- An option whose value is a path. -/
def pathSwitch (long : String) (short : Option Char) : Switch :=
  { long, short, hasValue := true, accepts := fun v => !v.isEmpty }

/-- Options of every command. -/
def commonSwitches : List Switch :=
  [pathSwitch "config" (some 'c'), { long := "verbose", short := some 'v' },
   { long := "help", short := some 'h' }]

/-- Options before the name of a command. -/
def topSwitches : List Switch :=
  { long := "version", short := some 'V' } :: commonSwitches

/-- Options of the commands that put prompts to a model. -/
def runSwitches : List Switch :=
  [{ long := "model", short := some 'm', hasValue := true },
   { long := "temperature", short := some 't', hasValue := true,
     accepts := fun v => (read? .single v.toList).isSome },
   { long := "key", short := some 'k', hasValue := true },
   { long := "matcher", hasValue := true, accepts := fun v => v == "llm" || v == "heuristic" },
   { long := "max-passes", hasValue := true, accepts := fun v => (count? v.toList).isSome },
   { long := "dry-run" }, { long := "debug" }]

/-- What stood on a command line: options by their long names, and the other arguments. -/
structure Given where
  options : List (String × String) := []
  rest : List String := []

/-- The value of an option. -/
def Given.value? (g : Given) (long : String) : Option String :=
  g.options.lookup long

/-- Whether an option was given. -/
def Given.has (g : Given) (long : String) : Bool :=
  (g.value? long).isSome

/-- Takes note of an option. Asking for help or the version ends the reading. -/
def Given.note (g : Given) (s : Switch) (value : String) : Except Stop Given :=
  if s.long == "help" then .error .help
  else if s.long == "version" then .error .version
  else if g.has s.long || !s.accepts value then .error .usage
  else .ok { g with options := g.options ++ [(s.long, value)] }

/-- Reads letters that share a dash: what they set, and an option that still lacks its value. -/
def letters (switches : List Switch) (g : Given) :
    List Char → Except Stop (Given × Option Switch)
  | [] => .ok (g, none)
  | c :: cs =>
    match switches.find? (·.short == some c) with
    | none => .error .usage
    | some s =>
      if s.hasValue then
        match cs with
        | [] => .ok (g, some s)
        | '=' :: v => (g.note s (String.ofList v)).map (·, none)
        | v => (g.note s (String.ofList v)).map (·, none)
      else do letters switches (← g.note s "") cs

/-- Reads an option with two dashes, without these. -/
def word (switches : List Switch) (g : Given) (cs : List Char) :
    Except Stop (Given × Option Switch) :=
  let name := String.ofList (cs.takeWhile (· != '='))
  let attached := (cs.dropWhile (· != '=')).tail?.map String.ofList
  match switches.find? (·.long == name) with
  | none => .error .usage
  | some s =>
    match s.hasValue, attached with
    | true, some v => (g.note s v).map (·, none)
    | true, none => .ok (g, some s)
    | false, none => (g.note s "").map (·, none)
    | false, some _ => .error .usage

/-- Reads an argument that opens with a dash. -/
def option (switches : List Switch) (g : Given) (arg : List Char) :
    Except Stop (Given × Option Switch) :=
  match arg with
  | '-' :: '-' :: cs => word switches g cs
  | '-' :: cs => letters switches g cs
  | _ => .error .usage

/-- Whether an argument is an option. A lone dash is a value. -/
def isOption (arg : String) : Bool :=
  match arg.toList with
  | '-' :: _ :: _ => true
  | _ => false

/-- Takes note of an argument that is no option. -/
def Given.noteRest (g : Given) (limit : Nat) (arg : String) : Except Stop Given :=
  if limit ≤ g.rest.length || arg.isEmpty then .error .usage
  else .ok { g with rest := g.rest ++ [arg] }

/-- Takes note of arguments that are no options. -/
def Given.noteAll (g : Given) (limit : Nat) (args : List String) : Except Stop Given :=
  args.foldlM (fun g arg => g.noteRest limit arg) g

/-- Reads the arguments of a command that takes at most `limit` arguments besides its options. An
option whose value is to come is kept in `lacking`. -/
def readArguments (switches : List Switch) (limit : Nat) :
    Given → Option Switch → List String → Except Stop Given
  | g, none, [] => .ok g
  | _, some _, [] => .error .usage
  | g, some s, arg :: args =>
    if isOption arg then .error .usage
    else do readArguments switches limit (← g.note s arg) none args
  | g, none, arg :: args =>
    if arg == "--" then g.noteAll limit args
    else if isOption arg then do
      let (g, lacking) ← option switches g arg.toList
      readArguments switches limit g lacking args
    else do readArguments switches limit (← g.noteRest limit arg) none args

/-- Reads the options before the name of a command, the name, and what comes after it. -/
def readTop : Given → Option Switch → List String → Except Stop (Given × String × List String)
  | _, _, [] => .error .usage
  | g, some s, arg :: args =>
    if isOption arg then .error .usage else do readTop (← g.note s arg) none args
  | g, none, arg :: args =>
    if arg == "--" then .error .usage
    else if isOption arg then do
      let (g, lacking) ← option topSwitches g arg.toList
      readTop g lacking args
    else .ok (g, arg, args)

/-- Settings of a run; those left out come from the configuration. -/
structure RunSettings where
  model : Option String := none
  temperature : Option Binary := none
  key : Option String := none
  matcher : Option Strategy := none
  maxPasses : Option Nat := none
  dryRun : Bool := false
  debug : Bool := false

/-- The commands. -/
inductive Request where
  | extract (javaDir : String) (output : Option String)
  | types (root : String) (json : Bool)
  | transfer (javadocs runtime : String) (settings : RunSettings) (report : Option String)
  | file (path : String) (javadocsJson : Option String) (settings : RunSettings)
  | models

/-- A command and the configuration file it goes by. -/
structure Invocation where
  request : Request
  config : String

/-- The configuration file that is looked for when none is named. -/
def defaultConfig : String := ".docport.config.json"

/-- The environment variable that holds a key for any provider. -/
def keyVariable : String := "DOCPORT_API_KEY"

/-- The strategy of a name. -/
def strategy? (name : String) : Option Strategy :=
  match name with
  | "llm" => some .llm
  | "heuristic" => some .heuristic
  | _ => none

/-- The settings of a run out of its options. The environment may hold the key. -/
def RunSettings.ofGiven (env : Model.Environment) (g : Given) : RunSettings :=
  { model := g.value? "model",
    temperature := (g.value? "temperature").bind fun v => read? .single v.toList,
    key := (g.value? "key").or (env.lookup keyVariable),
    matcher := (g.value? "matcher").bind strategy?,
    maxPasses := (g.value? "max-passes").bind fun v => count? v.toList,
    dryRun := g.has "dry-run", debug := g.has "debug" }

/-- The options of a command and how many arguments it takes besides. -/
def shape? : String → Option (List Switch × Nat)
  | "extract" => some ([pathSwitch "output" (some 'o')], 1)
  | "types" => some ([{ long := "json" }], 1)
  | "transfer" =>
    some ([pathSwitch "javadocs" none, pathSwitch "runtime" none, pathSwitch "report" none] ++
      runSwitches, 0)
  | "file" => some (pathSwitch "javadocs-json" none :: runSwitches, 1)
  | "models" => some ([], 0)
  | _ => none

/-- The request of a command out of its options and arguments. -/
def request? (env : Model.Environment) (name : String) (g : Given) : Option Request :=
  match name, g.rest with
  | "extract", [dir] => some (.extract dir (g.value? "output"))
  | "types", [] => some (.types "." (g.has "json"))
  | "types", [root] => some (.types root (g.has "json"))
  | "transfer", [] => do
    return .transfer (← g.value? "javadocs") (← g.value? "runtime") (.ofGiven env g)
      (g.value? "report")
  | "file", [path] => some (.file path (g.value? "javadocs-json") (.ofGiven env g))
  | "models", [] => some .models
  | _, _ => none

/-- What a command line asks for. -/
def parse (env : Model.Environment) (args : List String) : Except Stop Invocation := do
  let (top, name, args) ← readTop {} none args
  match shape? name with
  | none =>
    if name == "help" && args.all fun a => (shape? a).isSome || a == "help" then .error .help
    else .error .usage
  | some (switches, limit) =>
    let g ← readArguments (switches ++ commonSwitches) limit {} none args
    let config := ((g.value? "config").or (top.value? "config")).getD defaultConfig
    match request? env name g with
    | some request => return { request, config }
    | none => .error .usage

end DocTransfer.Command
