import DocTransfer.Transfer.Prompt
import DocTransfer.Transfer.Session

/-! # The edit loop

A pass asks for documentation edits and then for corrections. The loop ends with the first batch
that changes nothing, or when the allowed passes are spent. A text that a batch has changed is
stored before the next prompt goes out. -/

namespace DocTransfer.Transfer

open Matching

/-- How a loop ended. -/
inductive LoopEnd where
  | converged
  | capReached
  deriving DecidableEq, Repr

/-- The name of an end. -/
def LoopEnd.word : LoopEnd → String
  | .converged => "converged"
  | .capReached => "capReached"

/-- How far a loop has come. -/
structure Progress where
  code : List Char
  passes : Nat := 0
  requests : Nat := 0
  applied : Nat := 0
  skipped : Nat := 0
  deriving DecidableEq

/-- What a loop leaves behind. -/
structure Outcome extends Progress where
  ending : LoopEnd
  deriving DecidableEq

variable {σ φ : Type}

/-- Applies a batch of edits and stores the text if the batch changed it. -/
def absorb (sink : Sink φ) (edits : List Edit) (p : Progress) (s : Session σ φ) :
    Except Error Progress × Session σ φ :=
  let patched := patch edits p.code
  let p := { p with applied := p.applied + patched.applied, skipped := p.skipped + patched.skipped }
  if patched.applied = 0 then (.ok p, s)
  else
    match store sink (String.ofList patched.code) s with
    | (.ok (), s) => (.ok { p with code := patched.code }, s)
    | (.error e, s) => (.error e, s)

/-- One request: asks, reads the edits in the answer and absorbs them. -/
def exchange (service : Model.Service σ) (sink : Sink φ) (label prompt : String) (p : Progress)
    (s : Session σ φ) : Except Error (Progress × List Edit) × Session σ φ :=
  match ask service sink label prompt s with
  | (.error e, s) => (.error e, s)
  | (.ok text, s) =>
    let edits := answerEdits text.toList
    match absorb sink edits { p with requests := p.requests + 1 } s with
    | (.error e, s) => (.error e, s)
    | (.ok p, s) => (.ok (p, edits), s)

/-- What the passes of a loop have in common. -/
structure Brief where
  docs : List TypeDocs
  path : String

/-- The request for documentation edits of the current pass. -/
def generate (service : Model.Service σ) (sink : Sink φ) (b : Brief) (p : Progress)
    (s : Session σ φ) : Except Error (Progress × List Edit) × Session σ φ :=
  exchange service sink ("pass" ++ toString p.passes ++ ".doc")
    (Prompt.documentation (String.ofList p.code) b.docs b.path) p s

/-- The request for corrections of the current pass. -/
def correct (service : Model.Service σ) (sink : Sink φ) (b : Brief) (p : Progress)
    (s : Session σ φ) : Except Error (Progress × List Edit) × Session σ φ :=
  exchange service sink ("pass" ++ toString p.passes ++ ".correction")
    (Prompt.correction (String.ofList p.code) b.path) p s

/-- Passes over a text, with `left` more of them allowed after the first. -/
def passes (service : Model.Service σ) (sink : Sink φ) (b : Brief) :
    Nat → Progress → Session σ φ → Except Error Outcome × Session σ φ
  | left, p, s =>
    match generate service sink b { p with passes := p.passes + 1 } s with
    | (.error e, s) => (.error e, s)
    | (.ok (p, edits), s) =>
      if isConverged edits then (.ok { p with ending := .converged }, s)
      else
        match correct service sink b p s with
        | (.error e, s) => (.error e, s)
        | (.ok (p, edits), s) =>
          if isConverged edits then (.ok { p with ending := .converged }, s)
          else
            match left with
            | 0 => (.ok { p with ending := .capReached }, s)
            | left + 1 => passes service sink b left p s

/-- The edit loop on a text. At least one pass is made. -/
def editLoop (service : Model.Service σ) (sink : Sink φ) (maxPasses : Nat) (b : Brief)
    (code : String) (s : Session σ φ) : Except Error Outcome × Session σ φ :=
  passes service sink b (maxPasses - 1) { code := code.toList } s

end DocTransfer.Transfer
