import DocTransfer.Error
import DocTransfer.Usage

/-! # Models that answer prompts -/

namespace DocTransfer.Model

/-- An answer and what it cost. -/
structure Completion where
  text : String
  usage : Usage := {}
  deriving DecidableEq, Repr

/-- A model that answers prompts, or fails to. `σ` is what it carries from one request to the next;
the flag of a request asks for an answer in JSON only. -/
structure Service (σ : Type) where
  provider : String
  model : String
  complete : σ → String → Bool → Except Error Completion × σ

end DocTransfer.Model
