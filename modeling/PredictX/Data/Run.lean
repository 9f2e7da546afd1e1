import Mathlib.Data.List.Basic

namespace PredictX.Data

/-! Runs of guarded actions.

A run is the list of the actions taken and the states they lead through.  The guard is
what a theorem assumes of each action in the state it is taken in; `replay` computes the
run of an executable system.
-/

section Run

variable {σ α : Type}

/-- `actions` lead from one state to another and each meets the guard when its turn comes. -/
inductive Run (step : σ → α → σ → Prop) (guard : σ → α → Prop) : σ → List α → σ → Prop
  | stop (state : σ) : Run step guard state [] state
  | act {state middle final : σ} {action : α} {rest : List α} (guarded : guard state action)
      (acts : step state action middle) (later : Run step guard middle rest final) :
      Run step guard state (action :: rest) final

namespace Run

variable {step : σ → α → σ → Prop} {guard : σ → α → Prop} {start final : σ} {actions : List α}

/-- What every guarded step preserves, every run preserves. -/
theorem invariant (invariant : σ → Prop)
    (preserves : ∀ state action after, guard state action → step state action after →
      invariant state → invariant after)
    (run : Run step guard start actions final) (initially : invariant start) :
    invariant final := by
  induction run with
  | stop => exact initially
  | act guarded acts _ ih => exact ih (preserves _ _ _ guarded acts initially)

theorem weaken {guard' : σ → α → Prop} (run : Run step guard start actions final)
    (weaker : ∀ state action, guard state action → guard' state action) :
    Run step guard' start actions final := by
  induction run with
  | stop => exact .stop _
  | act guarded acts _ ih => exact .act (weaker _ _ guarded) acts ih

theorem append {middle : σ} {more : List α} (left : Run step guard start actions middle)
    (right : Run step guard middle more final) :
    Run step guard start (actions ++ more) final := by
  induction left with
  | stop => exact right
  | act guarded acts _ ih => exact .act guarded acts (ih right)

end Run

/-- The state a list of actions leads to, if none fails and each meets the guard. -/
def replay {ε : Type} (perform : σ → α → Except ε σ) (guard : σ → α → Prop)
    [∀ state action, Decidable (guard state action)] : List α → σ → Option σ
  | [], state => some state
  | action :: rest, state =>
      if guard state action then
        match perform state action with
        | .error _ => none
        | .ok after => replay perform guard rest after
      else none

theorem run_of_replay {ε : Type} {perform : σ → α → Except ε σ} {guard : σ → α → Prop}
    [∀ state action, Decidable (guard state action)] {actions : List α} {start final : σ}
    (played : replay perform guard actions start = some final) :
    Run (fun state action after => perform state action = .ok after) guard start actions final := by
  induction actions generalizing start with
  | nil =>
      cases played
      exact .stop _
  | cons action rest ih =>
      unfold replay at played
      split at played
      · rename_i guarded
        split at played
        · contradiction
        · rename_i after performed
          exact .act guarded performed (ih played)
      · contradiction

end Run

end PredictX.Data
