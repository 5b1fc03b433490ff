import DocTransfer.Model.Service
import DocTransfer.Transfer.Answer

/-! # Work on one file, seen from outside

A session carries the state of the model and of the place where texts go, the tokens spent, and a
record of everything that was asked, answered and stored, failures included. -/

namespace DocTransfer.Transfer

/-- Where texts go: the changed file, and dumps of prompts and answers by label. `φ` is what the
place carries along. -/
structure Sink (φ : Type) where
  store : φ → String → Except Error Unit × φ
  dump : φ → String → String → φ

/-- What can be seen of the work on a file. A request is answered or refused; a text handed over
may be lost. -/
inductive Event where
  | asked (prompt : String)
  | answered (answer : Model.Completion)
  | refused (cause : Error)
  | stored (text : String)
  | lost (cause : Error)
  deriving DecidableEq, Repr

/-- What changes while a file is worked on. -/
structure Session (σ φ : Type) where
  model : σ
  sink : φ
  usage : Usage := {}
  events : List Event := []

variable {σ φ : Type}

/-- Puts a prompt to the model. Prompt and answer are dumped, and an answer is paid for. -/
def ask (service : Model.Service σ) (sink : Sink φ) (label prompt : String) (s : Session σ φ) :
    Except Error String × Session σ φ :=
  let before := sink.dump s.sink (label ++ "-prompt") prompt
  match service.complete s.model prompt false with
  | (.error e, model) =>
    (.error e, { s with model, sink := before, events := s.events ++ [.asked prompt, .refused e] })
  | (.ok answer, model) =>
    (.ok answer.text,
      { model, sink := sink.dump before (label ++ "-response") answer.text,
        usage := s.usage + answer.usage,
        events := s.events ++ [.asked prompt, .answered answer] })

/-- Hands a text to the sink. -/
def store (sink : Sink φ) (text : String) (s : Session σ φ) : Except Error Unit × Session σ φ :=
  match sink.store s.sink text with
  | (.ok (), after) => (.ok (), { s with sink := after, events := s.events ++ [.stored text] })
  | (.error e, after) =>
    (.error e, { s with sink := after, events := s.events ++ [.stored text, .lost e] })

end DocTransfer.Transfer
