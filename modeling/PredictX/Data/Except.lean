import Mathlib

namespace PredictX.Data

/-! Peeling a successful computation apart, one step at a time. -/

universe u v

variable {ε : Type u} {α β : Type v}

theorem bind_eq_ok {x : Except ε α} {f : α → Except ε β} {b : β} :
    (x >>= f) = .ok b ↔ ∃ a, x = .ok a ∧ f a = .ok b := by
  cases x with
  | error reason => simp [bind, Except.bind]
  | ok a => simp [bind, Except.bind]

theorem map_eq_ok {x : Except ε α} {f : α → β} {b : β} :
    x.map f = .ok b ↔ ∃ a, x = .ok a ∧ f a = b := by
  cases x with
  | error reason => simp [Except.map]
  | ok a => simp [Except.map]

/-- A computation succeeds with a value that passes `test`. -/
def succeedsWith (x : Except ε α) (test : α → Bool) : Bool :=
  match x with
  | .ok a => test a
  | .error _ => false

theorem succeedsWith_iff {x : Except ε α} {test : α → Bool} :
    succeedsWith x test = true ↔ ∃ a, x = .ok a ∧ test a = true := by
  cases x with
  | error reason => simp [succeedsWith]
  | ok a => simp [succeedsWith]

end PredictX.Data
