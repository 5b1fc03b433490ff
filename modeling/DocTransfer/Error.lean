import DocTransfer.FileTree

/-! # Failures -/

namespace DocTransfer

/-- Why a configuration was refused. -/
inductive ConfigError where
  | temperature (written : String)
  | noPasses
  | exclude (pattern detail : String)
  deriving DecidableEq, Repr

/-- Failures that end an operation. -/
inductive Error where
  | io (cause : IoError)
  | json
  | config (cause : ConfigError)
  | unsupportedModel (id : String)
  | missingKey (provider variable_ : String)
  | model (provider message : String)
  deriving DecidableEq, Repr

/-- The wording of a refusal. -/
def ConfigError.message : ConfigError → String
  | .temperature written => "llm.temperature must be between 0 and 2, got " ++ written
  | .noPasses => "transfer.maxPasses must be at least 1"
  | .exclude pattern detail => "invalid exclude pattern '" ++ pattern ++ "': " ++ detail

/-- The wording of a failure. What is wrong with a JSON text is not told. -/
def Error.message : Error → String
  | .io cause => "IO error: " ++ cause.message
  | .json => "JSON error: "
  | .config cause => "Configuration error: " ++ cause.message
  | .unsupportedModel id => "Unsupported LLM model: " ++ id
  | .missingKey provider name =>
    "No API key provided for " ++ provider ++ "; pass --key or set " ++ name
  | .model provider message => provider ++ " LLM error: " ++ message

end DocTransfer
