/-! # Supported models -/

namespace DocTransfer.Model

/-- A completion service. -/
inductive Provider where
  | anthropic
  | openai
  | gemini
  deriving DecidableEq, Repr

/-- The identifier of a provider. -/
def Provider.id : Provider → String
  | .anthropic => "anthropic"
  | .openai => "openai"
  | .gemini => "gemini"

/-- What a provider calls itself. -/
def Provider.displayName : Provider → String
  | .anthropic => "Anthropic"
  | .openai => "OpenAI"
  | .gemini => "Google Gemini"

/-- The environment variable that holds a provider's key. -/
def Provider.keyVariable : Provider → String
  | .anthropic => "ANTHROPIC_API_KEY"
  | .openai => "OPENAI_API_KEY"
  | .gemini => "GEMINI_API_KEY"

/-- A model with its limits in tokens. -/
structure Info where
  id : String
  name : String
  provider : Provider
  maxOutput : Nat
  maxInput : Nat
  deriving Repr

/-- The models, provider by provider. -/
def table : List Info :=
  [⟨"claude-2.0", "Claude 2.0", .anthropic, 4096, 200000⟩,
   ⟨"claude-2.1", "Claude 2.1", .anthropic, 4096, 200000⟩,
   ⟨"claude-3-5-haiku-20241022", "Claude 3.5 Haiku", .anthropic, 8192, 200000⟩,
   ⟨"claude-3-5-haiku-latest", "Claude 3.5 Haiku", .anthropic, 8192, 200000⟩,
   ⟨"claude-3-5-sonnet-20240620", "Claude 3.5 Sonnet (Old)", .anthropic, 8192, 200000⟩,
   ⟨"claude-3-5-sonnet-20241022", "Claude 3.5 Sonnet (New)", .anthropic, 8192, 200000⟩,
   ⟨"claude-3-7-sonnet-20250219", "Claude 3.7 Sonnet", .anthropic, 64000, 200000⟩,
   ⟨"claude-3-7-sonnet-latest", "Claude 3.7 Sonnet", .anthropic, 64000, 200000⟩,
   ⟨"claude-3-haiku-20240307", "Claude 3 Haiku", .anthropic, 4096, 200000⟩,
   ⟨"claude-3-opus-20240229", "Claude 3 Opus", .anthropic, 4096, 200000⟩,
   ⟨"claude-3-opus-latest", "Claude 3 Opus", .anthropic, 4096, 200000⟩,
   ⟨"claude-3-sonnet-20240229", "Claude 3 Sonnet", .anthropic, 4096, 200000⟩,
   ⟨"gemini-1.5-flash", "Gemini 1.5 Flash", .gemini, 8192, 1048576⟩,
   ⟨"gemini-1.5-flash-8b", "Gemini 1.5 Flash-8B", .gemini, 8192, 1048576⟩,
   ⟨"gemini-1.5-pro", "Gemini 1.5 Pro", .gemini, 8192, 2097152⟩,
   ⟨"gemini-2.0-flash", "Gemini 2.0 Flash", .gemini, 8192, 1048576⟩,
   ⟨"gemini-2.0-flash-001", "Gemini 2.0 Flash", .gemini, 8192, 1048576⟩,
   ⟨"gemini-2.0-flash-lite", "Gemini 2.0 Flash-Lite", .gemini, 8192, 1048576⟩,
   ⟨"gemini-2.0-pro-exp", "Gemini 2.0 Pro Experimental", .gemini, 65536, 1048576⟩,
   ⟨"gemini-2.5-flash-preview-04-17", "Gemini 2.5 Flash Preview 04-17", .gemini, 65536, 1048576⟩,
   ⟨"gemini-2.5-flash-preview-05-20", "Gemini 2.5 Flash Preview 05-20", .gemini, 65536, 1048576⟩,
   ⟨"gemini-2.5-pro-exp-03-25", "Gemini 2.5 Pro Experimental 03-25", .gemini, 65536, 1048576⟩,
   ⟨"gemini-2.5-pro-preview-03-25", "Gemini 2.5 Pro Preview 03-25", .gemini, 65536, 1048576⟩,
   ⟨"gemini-2.5-pro-preview-05-06", "Gemini 2.5 Pro Preview", .gemini, 65536, 1048576⟩,
   ⟨"chatgpt-4o-latest", "ChatGPT-4o", .openai, 16384, 128000⟩,
   ⟨"gpt-3.5-turbo", "GPT-3.5 Turbo", .openai, 4096, 16385⟩,
   ⟨"gpt-4", "GPT-4", .openai, 8192, 8192⟩,
   ⟨"gpt-4-turbo", "GPT-4 Turbo", .openai, 4096, 128000⟩,
   ⟨"gpt-4.1", "GPT-4.1", .openai, 32768, 1047576⟩,
   ⟨"gpt-4.1-mini", "GPT-4.1 mini", .openai, 32768, 1047576⟩,
   ⟨"gpt-4.1-nano", "GPT-4.1 nano", .openai, 32768, 1047576⟩,
   ⟨"gpt-4.5-preview", "GPT-4.5 Preview", .openai, 4096, 128000⟩,
   ⟨"gpt-4o", "GPT-4o", .openai, 16384, 128000⟩,
   ⟨"gpt-4o-2024-11-20", "GPT-4o 20241120", .openai, 16384, 128000⟩,
   ⟨"gpt-4o-mini", "GPT-4o mini", .openai, 16384, 128000⟩,
   ⟨"o1", "o1", .openai, 100000, 200000⟩,
   ⟨"o1-mini", "o1-mini", .openai, 65536, 128000⟩,
   ⟨"o1-pro", "o1-pro", .openai, 100000, 200000⟩,
   ⟨"o3", "o3", .openai, 100000, 200000⟩,
   ⟨"o3-mini", "o3-mini", .openai, 100000, 200000⟩,
   ⟨"o4-mini", "o4-mini", .openai, 100000, 200000⟩]

/-- The model used when none is asked for. -/
def defaultId : String := "claude-3-7-sonnet-latest"

/-- The model of an identifier. -/
def find? (id : String) : Option Info :=
  table.find? (·.id == id)

end DocTransfer.Model
