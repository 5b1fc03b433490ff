import DocTransfer.Json.Decode
import DocTransfer.Json.Fault
import DocTransfer.Model.Service
import DocTransfer.Model.Table
import DocTransfer.Text.Blank

/-! # Completion services over HTTP

What is sent to each provider and how its answers are read. The network itself is a parameter. -/

namespace DocTransfer.Model

open Json Number

/-- A request with a JSON body. -/
structure Request where
  url : String
  timeoutSecs : Nat
  headers : List (String × String)
  query : List (String × String)
  body : Json

/-- What the network brings back: a status with a body, or a failure to get there. -/
inductive Reply where
  | status (code : Nat) (body : String)
  | transport (message : String)

/-- The network, with what it carries from one request to the next. -/
abbrev Network (σ : Type) := σ → Request → Reply × σ

/-- What requests to a model have in common. -/
structure Account where
  key : String
  model : String
  temperature : Binary
  maxOutputTokens : Nat
  timeoutSecs : Nat

/-- A number of four bytes as a value of eight. -/
def widened (b : Binary) : Json :=
  match b.to .double with
  | .finite negative m e => .number (.float (.finite negative m e))
  | _ => .null

/-- A list with one message of the user. -/
def userMessage (prompt : String) : Json :=
  .array [.object [("role", .string "user"), ("content", .string prompt)]]

/-- What Anthropic's models are told to be. -/
def systemPrompt (json : Bool) : String :=
  if json then
    "You are a helpful assistant that responds in JSON format only. No other text should be included."
  else "You are a helpful assistant."

/-- The request for a completion. -/
def Account.request (a : Account) (p : Provider) (prompt : String) (json : Bool) : Request :=
  match p with
  | .anthropic =>
    { url := "https://api.anthropic.com/v1/messages", timeoutSecs := a.timeoutSecs,
      headers := [("x-api-key", a.key), ("anthropic-version", "2023-06-01"),
        ("content-type", "application/json")],
      query := [],
      body := .object [("model", .string a.model), ("max_tokens", .nat a.maxOutputTokens),
        ("temperature", widened a.temperature), ("system", .string (systemPrompt json)),
        ("messages", userMessage prompt)] }
  | .openai =>
    { url := "https://api.openai.com/v1/chat/completions", timeoutSecs := a.timeoutSecs,
      headers := [("Authorization", "Bearer " ++ a.key)],
      query := [],
      body := .object [("model", .string a.model), ("messages", userMessage prompt),
        ("temperature", widened a.temperature), ("max_completion_tokens", .nat a.maxOutputTokens),
        ("response_format",
          .object [("type", .string (if json then "json_object" else "text"))])] }
  | .gemini =>
    { url := "https://generativelanguage.googleapis.com/v1beta/models/" ++ a.model ++
        ":generateContent",
      timeoutSecs := a.timeoutSecs,
      headers := [],
      query := [("key", a.key)],
      body := .object [
        ("contents", .array [.object [("role", .string "user"),
          ("parts", .array [.object [("text", .string prompt)]])]]),
        ("generationConfig", .object [("temperature", widened a.temperature),
          ("maxOutputTokens", .nat a.maxOutputTokens),
          ("responseMimeType", .string (if json then "application/json" else "text/plain"))])] }

/-! ## Answers -/

/-- Counts of tokens by name; those left out are zero. -/
def countsDecoder (names : List String) : Decoder (List Nat) := fun limit o => do
  let s ← Decode.slots (names.map ([·])) limit o
  (List.range names.length).mapM fun i => s.withDefault i 0 (Decode.natural Number.maxCount limit)

/-- A block of an Anthropic answer: its type and text. -/
def blockDecoder : Decoder (String × String) := fun limit o => do
  let s ← Decode.slots [["type"], ["text"]] limit o
  return (← s.required 0 (Decode.text limit), ← s.withDefault 1 "" (Decode.text limit))

/-- An Anthropic answer: the text blocks, one after the other. -/
def anthropicDecoder : Decoder Completion := fun limit o => do
  let s ← Decode.slots [["content"], ["usage"]] limit o
  let blocks ← s.withDefault 0 [] (Decode.list blockDecoder (limit - 1))
  let counts ← s.withDefault 1 [0, 0] (countsDecoder ["input_tokens", "output_tokens"] (limit - 1))
  let text := String.join ((blocks.filter (·.1 == "text")).map (·.2))
  match counts with
  | [input, output] => return ⟨text, ⟨input, output, input + output⟩⟩
  | _ => none

/-- The content of an OpenAI message. -/
def messageDecoder : Decoder (Option String) := fun limit o => do
  let s ← Decode.slots [["content"]] limit o
  s.withDefault 0 none (Decode.nullable Decode.text limit)

/-- A choice of an OpenAI answer. -/
def choiceDecoder : Decoder (Option String) := fun limit o => do
  let s ← Decode.slots [["message"]] limit o
  s.required 0 (messageDecoder (limit - 1))

/-- An OpenAI answer: the content of the first choice. -/
def openaiDecoder : Decoder Completion := fun limit o => do
  let s ← Decode.slots [["choices"], ["usage"]] limit o
  let choices ← s.withDefault 0 [] (Decode.list choiceDecoder (limit - 1))
  let counts ← s.withDefault 1 [0, 0, 0]
    (countsDecoder ["prompt_tokens", "completion_tokens", "total_tokens"] (limit - 1))
  let text := ((choices.head?).join).getD ""
  match counts with
  | [input, output, total] => return ⟨text, ⟨input, output, total⟩⟩
  | _ => none

/-- A part of a Gemini answer. -/
def partDecoder : Decoder String := fun limit o => do
  let s ← Decode.slots [["text"]] limit o
  s.withDefault 0 "" (Decode.text limit)

/-- The content of a Gemini candidate: its parts, one after the other. -/
def contentDecoder : Decoder String := fun limit o => do
  let s ← Decode.slots [["parts"]] limit o
  return String.join (← s.withDefault 0 [] (Decode.list partDecoder (limit - 1)))

/-- A candidate of a Gemini answer. -/
def candidateDecoder : Decoder (Option String) := fun limit o => do
  let s ← Decode.slots [["content"]] limit o
  s.optional 0 (Decode.nullable contentDecoder (limit - 1))

/-- A rough count of the tokens of a text: one for every four bytes, rounded up. -/
def estimateTokens (text : String) : Nat :=
  (text.utf8ByteSize + 3) / 4

/-- A Gemini answer: the content of the first candidate. Without counts the tokens are estimated. -/
def geminiDecoder (prompt : String) : Decoder Completion := fun limit o => do
  let s ← Decode.slots [["candidates"], ["usageMetadata"]] limit o
  let candidates ← s.withDefault 0 [] (Decode.list candidateDecoder (limit - 1))
  let counts ← s.optional 1 (Decode.nullable
    (countsDecoder ["promptTokenCount", "candidatesTokenCount", "totalTokenCount"]) (limit - 1))
  let text := ((candidates.head?).join).getD ""
  match counts with
  | some [input, output, total] => return ⟨text, ⟨input, output, total⟩⟩
  | some _ => none
  | none =>
    let input := estimateTokens prompt
    let output := estimateTokens text
    return ⟨text, ⟨input, output, input + output⟩⟩

/-- The answer of a provider to a prompt. -/
def answerDecoder (p : Provider) (prompt : String) : Decoder Completion :=
  match p with
  | .anthropic => anthropicDecoder
  | .openai => openaiDecoder
  | .gemini => geminiDecoder prompt

/-- What a reply means. Statuses from 400 on are failures that quote the body. -/
def Reply.completion (r : Reply) (p : Provider) (prompt : String) : Except Error Completion :=
  match r with
  | .transport message => .error (.model p.displayName message)
  | .status code body =>
    if 400 ≤ code then
      .error (.model p.displayName ("HTTP " ++ toString code ++ ": " ++ Text.trimmed body))
    else
      match (Outline.read? body.toList).bind (answerDecoder p prompt maxDepth) with
      | some completion => .ok completion
      | none =>
        .error (.model p.displayName
          ("invalid response body: Failed to read JSON: " ++ faultMessage body.toList))

/-- A model reached over the network. -/
def Account.service {σ : Type} (a : Account) (p : Provider) (network : Network σ) : Service σ where
  provider := p.displayName
  model := a.model
  complete s prompt json :=
    let (reply, s) := network s (a.request p prompt json)
    (reply.completion p prompt, s)

/-- Environment variables. -/
abbrev Environment := List (String × String)

/-- The first of two texts that is there and not empty. -/
def firstNonEmpty (a b : Option String) : Option String :=
  match a.filter (· != "") with
  | some s => some s
  | none => b.filter (· != "")

/-- The provider and account for a model. The key is the given one or, failing that, the one in the
provider's environment variable. -/
def connect (env : Environment) (id : String) (key : Option String) (temperature : Binary)
    (maxOutputTokens : Option Nat) (timeoutSecs : Nat) : Except Error (Provider × Account) :=
  match find? id with
  | none => .error (.unsupportedModel id)
  | some info =>
    match firstNonEmpty key (env.lookup info.provider.keyVariable) with
    | none => .error (.missingKey info.provider.displayName info.provider.keyVariable)
    | some key =>
      .ok (info.provider,
        { key, model := info.id, temperature,
          maxOutputTokens := maxOutputTokens.getD info.maxOutput, timeoutSecs })

end DocTransfer.Model
