import PredictX.Data.Run
import Mathlib.Data.Rat.Defs

namespace PredictX.CircuitBreaker

open PredictX.Data

/-! `RedisCircuitBreaker.call`, one step from `await` to `await`.

The lock and the semaphore are queues, served in the order of arrival.  The lock is held
across an `await` in one place only: a call that finds the breaker half open waits for the
semaphore inside `async with self._lock`.  `period` counts the half-open periods; the code
has no such counter.
-/

inductive Status where
  | closed
  | isOpen
  | halfOpen
deriving DecidableEq, Repr

/-- What a call brings back from its first section. -/
structure Ticket where
  /-- `half_open_acquired` -/
  acquired : Bool
  /-- The half-open period it entered in. -/
  period : Option ℕ
deriving DecidableEq, Repr

inductive Phase where
  | idle
  /-- Waits for the lock, to look at the state. -/
  | entering
  /-- Holds the lock and waits for the semaphore. -/
  | probing
  /-- Its `op` is in progress. -/
  | running (ticket : Ticket)
  /-- Its `op` is over, and it waits for the lock to say how it went. -/
  | leaving (ticket : Ticket) (succeeded : Bool)
  | finished
deriving DecidableEq, Repr

namespace Phase

/-- Stands in the queue of the lock. -/
def queued : Phase → Bool
  | .entering | .leaving _ _ => true
  | _ => false

/-- Has taken the semaphore and not released it. -/
def holds : Phase → Bool
  | .running ticket | .leaving ticket _ => ticket.acquired
  | _ => false

/-- The half-open period whose probe is in progress. -/
def probe : Phase → Option ℕ
  | .running ticket => ticket.period
  | _ => none

end Phase

structure Config where
  failureThreshold : ℕ
  recoveryTimeout : ℚ

/-- The breaker and the calls that use it. -/
structure Breaker (ι : Type) where
  status : Status
  failures : ℕ
  lastFailure : ℚ
  lock : Option ι
  waiters : List ι
  permits : ℕ
  acquirers : List ι
  period : ℕ
  calls : ι → Phase

inductive Action (ι : Type) where
  | invoke (id : ι)
  /-- The first in the queue takes the lock and runs its section. -/
  | proceed (now : ℚ)
  | acquire
  | complete (id : ι) (succeeded : Bool)
deriving DecidableEq, Repr

variable {ι : Type}

/-- `RedisCircuitBreaker.__init__`. -/
def Breaker.init : Breaker ι where
  status := .closed
  failures := 0
  lastFailure := 0
  lock := none
  waiters := []
  permits := 1
  acquirers := []
  period := 0
  calls _ := .idle

variable [DecidableEq ι]

def Breaker.set (breaker : Breaker ι) (id : ι) (phase : Phase) : Breaker ι :=
  { breaker with calls := Function.update breaker.calls id phase }

/-- The first section of `call`. -/
def enter (config : Config) (now : ℚ) (breaker : Breaker ι) (id : ι) : Breaker ι :=
  match breaker.status with
  | .closed => breaker.set id (.running ⟨false, none⟩)
  | .isOpen =>
      if config.recoveryTimeout ≤ now - breaker.lastFailure then
        { breaker.set id (.running ⟨false, some (breaker.period + 1)⟩) with
          status := .halfOpen
          period := breaker.period + 1 }
      else breaker.set id .finished
  | .halfOpen =>
      { breaker.set id .probing with
        lock := some id
        acquirers := breaker.acquirers ++ [id] }

/-- The second section, and the `finally` after it. -/
def leave (config : Config) (now : ℚ) (breaker : Breaker ι) (id : ι) (ticket : Ticket)
    (succeeded : Bool) : Breaker ι :=
  let recorded :=
    if succeeded then { breaker with failures := 0, status := .closed }
    else
      { breaker with
        failures := breaker.failures + 1
        lastFailure := now
        status := if config.failureThreshold ≤ breaker.failures + 1 then .isOpen
          else breaker.status }
  { recorded.set id .finished with
    permits := if ticket.acquired then breaker.permits + 1 else breaker.permits }

def perform (config : Config) (breaker : Breaker ι) : Action ι → Except Unit (Breaker ι)
  | .invoke id =>
      match breaker.calls id with
      | .idle => .ok { breaker.set id .entering with waiters := breaker.waiters ++ [id] }
      | _ => .error ()
  | .proceed now =>
      match breaker.lock, breaker.waiters with
      | none, id :: rest =>
          match breaker.calls id with
          | .entering => .ok (enter config now { breaker with waiters := rest } id)
          | .leaving ticket succeeded =>
              .ok (leave config now { breaker with waiters := rest } id ticket succeeded)
          | _ => .error ()
      | _, _ => .error ()
  | .acquire =>
      match breaker.acquirers, breaker.permits with
      | id :: rest, permits + 1 =>
          .ok { breaker.set id (.running ⟨true, some breaker.period⟩) with
            lock := none
            permits := permits
            acquirers := rest }
      | _, _ => .error ()
  | .complete id succeeded =>
      match breaker.calls id with
      | .running ticket =>
          .ok { breaker.set id (.leaving ticket succeeded) with
            waiters := breaker.waiters ++ [id] }
      | _ => .error ()

/-- What one step can do. -/
theorem perform_ok {config : Config} {breaker after : Breaker ι} {action : Action ι}
    (performed : perform config breaker action = .ok after) :
    (∃ id, action = .invoke id ∧ breaker.calls id = .idle ∧
      after = { breaker.set id .entering with waiters := breaker.waiters ++ [id] }) ∨
    (∃ now id rest, action = .proceed now ∧ breaker.lock = none ∧ breaker.waiters = id :: rest ∧
      breaker.calls id = .entering ∧
      after = enter config now { breaker with waiters := rest } id) ∨
    (∃ now id rest ticket succeeded, action = .proceed now ∧ breaker.lock = none ∧
      breaker.waiters = id :: rest ∧ breaker.calls id = .leaving ticket succeeded ∧
      after = leave config now { breaker with waiters := rest } id ticket succeeded) ∨
    (∃ id rest permits, action = .acquire ∧ breaker.acquirers = id :: rest ∧
      breaker.permits = permits + 1 ∧
      after = { breaker.set id (.running ⟨true, some breaker.period⟩) with
        lock := none
        permits := permits
        acquirers := rest }) ∨
    ∃ id ticket succeeded, action = .complete id succeeded ∧
      breaker.calls id = .running ticket ∧
      after = { breaker.set id (.leaving ticket succeeded) with
        waiters := breaker.waiters ++ [id] } := by
  cases action with
  | invoke id =>
      simp only [perform] at performed
      split at performed
      · rename_i isIdle
        exact .inl ⟨id, rfl, isIdle, (Except.ok.inj performed).symm⟩
      · contradiction
  | proceed now =>
      simp only [perform] at performed
      split at performed
      · rename_i id rest unlocked queue
        split at performed
        · rename_i isEntering
          exact .inr (.inl ⟨now, id, rest, rfl, unlocked, queue, isEntering,
            (Except.ok.inj performed).symm⟩)
        · rename_i ticket succeeded isLeaving
          exact .inr (.inr (.inl ⟨now, id, rest, ticket, succeeded, rfl, unlocked, queue,
            isLeaving, (Except.ok.inj performed).symm⟩))
        · contradiction
      · contradiction
  | acquire =>
      simp only [perform] at performed
      split at performed
      · rename_i id rest permits queue free
        exact .inr (.inr (.inr (.inl ⟨id, rest, permits, rfl, queue, free,
          (Except.ok.inj performed).symm⟩)))
      · contradiction
  | complete id succeeded =>
      simp only [perform] at performed
      split at performed
      · rename_i ticket isRunning
        exact .inr (.inr (.inr (.inr ⟨id, ticket, succeeded, rfl, isRunning,
          (Except.ok.inj performed).symm⟩)))
      · contradiction

end PredictX.CircuitBreaker
