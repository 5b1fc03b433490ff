import DocTransfer.Command

/-! # Steps of a command

A step is seen through its outcome: what it gives, or the message it fails with, and the world after
it. Most steps only look around and print. -/

namespace DocTransfer.Command

variable {σ α β : Type}

/-- What a step comes to, and the world after it. -/
def outcome (a : Action σ α) (w : World σ) : Except String α × World σ :=
  a.run.run w

theorem outcome_change (work : FileTree → Except IoError Unit × FileTree) (w : World σ) :
    outcome (change work : Action σ (Except IoError Unit)) w =
      (.ok (work w.files).1, { w with files := (work w.files).2 }) := rfl

theorem outcome_bind (a : Action σ α) (f : α → Action σ β) (w : World σ) :
    outcome (a >>= f) w =
      match outcome a w with
      | (.ok x, after) => outcome (f x) after
      | (.error message, after) => (.error message, after) := by
  simp only [outcome, ExceptT.run_bind, StateT.run_bind]
  obtain ⟨result, after⟩ := a.run.run w
  cases result <;> rfl

theorem outcome_files_bind (f : FileTree → Action σ α) (w : World σ) :
    outcome (files >>= f) w = outcome (f w.files) w := rfl

theorem outcome_say_bind (line : String) (f : Unit → Action σ α) (w : World σ) :
    outcome (say line >>= f) w =
      outcome (f ()) { w with printed := w.printed ++ (line ++ "\n") } := rfl

theorem outcome_require_bind (condition : Bool) (message : String) (f : Unit → Action σ α)
    (w : World σ) :
    outcome (require condition message >>= f) w =
      if condition then outcome (f ()) w else (.error message, w) := by
  cases condition <;> rfl

theorem outcome_bind_eq_ok {a : Action σ α} {f : α → Action σ β} {w after : World σ} {y : β}
    (h : outcome (a >>= f) w = (.ok y, after)) :
    ∃ x midway, outcome a w = (.ok x, midway) ∧ outcome (f x) midway = (.ok y, after) := by
  rw [outcome_bind] at h
  cases hfirst : outcome a w with
  | mk result midway =>
      rw [hfirst] at h
      cases result with
      | error message => cases h
      | ok x => exact ⟨x, midway, rfl, h⟩

/-! ## Steps that only look around and print -/

/-- A step changes nothing but what is printed, and what it comes to satisfies a condition. -/
def OnlyPrints (a : Action σ α) (w : World σ) (post : Except String α → Prop) : Prop :=
  ∃ result printed, outcome a w = (result, { w with printed }) ∧ post result

section

variable {w : World σ} {post : Except String α → Prop}

theorem onlyPrints_pure {x : α} (h : post (.ok x)) : OnlyPrints (pure x : Action σ α) w post :=
  ⟨.ok x, w.printed, rfl, h⟩

theorem onlyPrints_throw {message : String} (h : post (.error message)) :
    OnlyPrints (throw message : Action σ α) w post :=
  ⟨.error message, w.printed, rfl, h⟩

/-- What comes after a step has to be shown of what the step gives, whatever it printed. -/
theorem OnlyPrints.bind {a : Action σ β} {f : β → Action σ α}
    (h : OnlyPrints a w fun
      | .ok x => ∀ printed, OnlyPrints (f x) { w with printed } post
      | .error message => post (.error message)) :
    OnlyPrints (a >>= f) w post := by
  obtain ⟨result, printed, houtcome, hpost⟩ := h
  cases result with
  | error message =>
      refine ⟨.error message, printed, ?_, hpost⟩
      rw [outcome_bind, houtcome]
  | ok x =>
      obtain ⟨result, printed', houtcome', hpost'⟩ := hpost printed
      refine ⟨result, printed', ?_, hpost'⟩
      rw [outcome_bind, houtcome]
      exact houtcome'

theorem onlyPrints_say {line : String} {f : Unit → Action σ α}
    (h : ∀ printed, OnlyPrints (f ()) { w with printed } post) :
    OnlyPrints (say line >>= f) w post :=
  OnlyPrints.bind ⟨.ok (), _, rfl, h⟩

theorem onlyPrints_files {f : FileTree → Action σ α} (h : OnlyPrints (f w.files) w post) :
    OnlyPrints (files >>= f) w post :=
  h

theorem onlyPrints_require {condition : Bool} {message : String} {f : Unit → Action σ α}
    (hok : condition = true → OnlyPrints (f ()) w post)
    (herror : condition = false → post (.error message)) :
    OnlyPrints (require condition message >>= f) w post := by
  cases condition with
  | true => exact hok rfl
  | false => exact onlyPrints_throw (herror rfl)

theorem onlyPrints_orFail {result : Except Error β} {f : β → Action σ α}
    (hok : ∀ x, result = .ok x → OnlyPrints (f x) w post)
    (herror : ∀ e, result = .error e → post (.error (chain e))) :
    OnlyPrints (orFail result >>= f) w post := by
  cases result with
  | ok x => exact hok x rfl
  | error e => exact onlyPrints_throw (herror e rfl)

end

end DocTransfer.Command
