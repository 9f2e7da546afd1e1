import PredictX.Data.Run
import Mathlib

namespace PredictX.RateLimitService

open PredictX.Data

/-! Sliding windows and progressive friction, for one account and address.

Each script runs atomically in Redis.  What a script returns reaches Python as integers, so
a remaining delay loses its fraction on the way.  A sorted set stands for the time stamps in
it; its `EXPIRE` removes nothing the window would count, and is left out.  The friction hash
does expire, `lockoutSeconds` after it was last written.
-/

inductive LimitType where
  | general
  | authDecision
  | authFast
  | authRefresh
  | strict
  | accountAuth
deriving DecidableEq, Repr

/-- `_LIMITS`: how many requests in how many seconds. -/
def LimitType.limits : LimitType → ℕ × ℕ
  | .general => (60, 60)
  | .authDecision => (5, 60)
  | .authFast => (3, 60)
  | .authRefresh => (30, 60)
  | .strict => (10, 60)
  | .accountAuth => (20, 3600)

/-- `rate_limit_auth_max_attempts`. -/
def maxAttempts : ℕ := 5

/-- `rate_limit_auth_lockout_seconds`. -/
def lockoutSeconds : ℚ := 900

structure RateLimitResult where
  allowed : Bool
  limit : ℕ
  remaining : ℕ
  retryAfter : Option ℤ
  isSlowdown : Bool
deriving DecidableEq, Repr

/-- The hash under the friction key. -/
structure Friction where
  attempts : ℕ
  unlockAt : ℚ
  expiresAt : ℚ
deriving DecidableEq, Repr

/-- What Redis holds for the account and the address. -/
structure Keys where
  friction : Option Friction
  windows : LimitType → List ℚ

def Keys.empty : Keys := ⟨none, fun _ => []⟩

/-- What a script that runs at `now` finds. -/
def Keys.frictionAt (keys : Keys) (now : ℚ) : Option Friction :=
  keys.friction.filter fun friction => now ≤ friction.expiresAt

/-- What `PROGRESSIVE_FRICTION_SCRIPT` returns. -/
structure Verdict where
  attempts : ℕ
  delay : ℤ
  isLocked : Bool
deriving DecidableEq, Repr

/-- `math.min(2 ^ (attempts - max_attempts), 16)`. -/
def backoff (attempts : ℕ) : ℕ := min (2 ^ (attempts - maxAttempts)) 16

/-- `PROGRESSIVE_FRICTION_SCRIPT`. -/
def progressiveFriction (now : ℚ) (keys : Keys) : Keys × Verdict :=
  let attempts := ((keys.frictionAt now).map Friction.attempts).getD 0
  let unlockAt := ((keys.frictionAt now).map Friction.unlockAt).getD 0
  if now < unlockAt then (keys, ⟨0, ⌊unlockAt - now⌋, true⟩)
  else if maxAttempts ≤ attempts then
    ({ keys with
        friction := some ⟨attempts + 1, now + backoff attempts, now + lockoutSeconds⟩ },
      ⟨attempts + 1, backoff attempts, true⟩)
  else
    ({ keys with friction := some ⟨attempts + 1, unlockAt, now + lockoutSeconds⟩ },
      ⟨attempts + 1, 0, false⟩)

/-- `SLIDING_WINDOW_SCRIPT` and what `check` makes of it. -/
def check (now : ℚ) (keys : Keys) (limitType : LimitType) : Keys × RateLimitResult :=
  let limit := limitType.limits.1
  let window := limitType.limits.2
  let counted := (keys.windows limitType).filter fun stamp => now - window < stamp
  let store := fun stamps => { keys with windows := Function.update keys.windows limitType stamps }
  if limit ≤ counted.length then (store counted, ⟨false, limit, 0, some window, false⟩)
  else
    (store (counted ++ [now]), ⟨true, limit, limit - counted.length - 1, none, false⟩)

/-- `check_with_friction`; the flag is `was_slowed`. -/
def checkWithFriction (now : ℚ) (keys : Keys) (limitType : LimitType) :
    Keys × RateLimitResult × Bool :=
  let (slowed, verdict) := progressiveFriction now keys
  if verdict.isLocked then
    (slowed, ⟨true, maxAttempts, 0, some (max 1 verdict.delay), true⟩, true)
  else
    let (counted, result) := check now slowed limitType
    if result.allowed then
      let (accounted, accountResult) := check now counted .accountAuth
      (accounted, if accountResult.allowed then result else accountResult, false)
    else (counted, result, false)

/-- `record_failure`. -/
def recordFailure (now : ℚ) (keys : Keys) : Keys := (progressiveFriction now keys).1

/-- `reset_friction`. -/
def resetFriction (keys : Keys) : Keys :=
  { friction := none
    windows := Function.update keys.windows .accountAuth [] }

inductive Action where
  | check (limitType : LimitType)
  | fail
  | reset
deriving DecidableEq, Repr

def perform (now : ℚ) (keys : Keys) : Action → Keys
  | .check limitType => (checkWithFriction now keys limitType).1
  | .fail => recordFailure now keys
  | .reset => resetFriction keys

/-- The keys and the time of the last call. -/
structure State where
  clock : ℚ
  keys : Keys

/-- Calls come at non-decreasing times. -/
def Steps (state : State) (call : ℚ × Action) (after : State) : Prop :=
  state.clock ≤ call.1 ∧ after = ⟨call.1, perform call.1 state.keys call.2⟩

/-- The friction hash is written by its script alone. -/
theorem checkWithFriction_friction (now : ℚ) (keys : Keys) (limitType : LimitType) :
    (checkWithFriction now keys limitType).1.friction = (progressiveFriction now keys).1.friction := by
  unfold checkWithFriction check
  dsimp only
  split
  · rfl
  · split <;> split
    · split <;> rfl
    · rfl
    · split <;> rfl
    · rfl

theorem checkWithFriction_slowed (now : ℚ) (keys : Keys) (limitType : LimitType) :
    (checkWithFriction now keys limitType).2.2 = (progressiveFriction now keys).2.isLocked := by
  unfold checkWithFriction
  dsimp only
  split
  · rename_i locked
    exact locked.symm
  · rename_i unlocked
    split <;> simpa using unlocked

theorem checkWithFriction_retry {now : ℚ} {keys : Keys} {limitType : LimitType}
    (locked : (progressiveFriction now keys).2.isLocked = true) :
    (checkWithFriction now keys limitType).2.1.retryAfter =
      some (max 1 (progressiveFriction now keys).2.delay) := by
  unfold checkWithFriction
  dsimp only
  rw [if_pos locked]

end PredictX.RateLimitService
