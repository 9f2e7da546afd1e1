import PredictX.Models
import PredictX.Data.Run
import Mathlib.Data.Finset.Basic

namespace PredictX.PublishQueue

open PredictX.Data

/-! `PublishDispatcher`: two bounded queues and a pool of writers.

A writer runs from one `await` to the next without a break, so that is a step.  A writer that
waits may go on at any time, since its wait times out; the event it waits for is left out, and so
are the metrics.
-/

/-- `CRITICAL_FRAMES`. -/
def criticalFrames : List String :=
  ["trade:new", "orderbook:update", "order:fill", "position:update", "order:update",
    "trade:settlement"]

inductive Delivery where
  | ephemeral
  | critical
deriving DecidableEq, Repr

structure Pending (α : Type) where
  op : α
  delivery : Delivery
  frame : String
  oweResyncTo : Option UserId
deriving DecidableEq, Repr

section Queues

variable {α : Type}

/-- The `Pending` that `enqueue` makes of its arguments. -/
def pendingOf (op : α) (frame : String) (oweResyncTo : Option UserId) : Pending α :=
  if frame ∈ criticalFrames then ⟨op, .critical, frame, oweResyncTo⟩
  else ⟨op, .ephemeral, frame, none⟩

structure Limits where
  ephemeralMax : ℕ
  criticalMax : ℕ
deriving DecidableEq, Repr

structure Queues (α : Type) where
  ephemeral : List (Pending α)
  critical : List (Pending α)
  owedResyncs : Finset UserId

/-- What became of a call of `enqueue`. -/
inductive Offer (α : Type) where
  | accepted (queues : Queues α)
  | spilled (queues : Queues α)
  /-- `popleft` from an empty deque. -/
  | raised

/-- `_spill`. -/
def Queues.spill (queues : Queues α) (pending : Pending α) : Queues α :=
  match pending.oweResyncTo with
  | none => queues
  | some user => { queues with owedResyncs := insert user queues.owedResyncs }

def Queues.enqueue (limits : Limits) (queues : Queues α) (pending : Pending α) : Offer α :=
  match pending.delivery with
  | .critical =>
      if limits.criticalMax ≤ queues.critical.length then .spilled (queues.spill pending)
      else .accepted { queues with critical := queues.critical ++ [pending] }
  | .ephemeral =>
      if limits.ephemeralMax ≤ queues.ephemeral.length then
        match queues.ephemeral with
        | [] => .raised
        | _ :: newer => .accepted { queues with ephemeral := newer ++ [pending] }
      else .accepted { queues with ephemeral := queues.ephemeral ++ [pending] }

/-- `_next`: critical frames first. -/
def Queues.next (queues : Queues α) : Option (Pending α × Queues α) :=
  match queues.critical, queues.ephemeral with
  | pending :: critical, _ => some (pending, { queues with critical })
  | [], pending :: ephemeral => some (pending, { queues with ephemeral })
  | [], [] => none

end Queues

/-- Where a writer stands. -/
inductive Stage (α : Type) where
  | running
  | sending (pending : Pending α)
  /-- In `_flush_owed_resyncs`, at the marker of `user`. -/
  | flushing (user : UserId) (rest : List UserId)
  | waiting
deriving DecidableEq, Repr

inductive Event (α : Type) where
  | accepted (pending : Pending α)
  | spilled (pending : Pending α)
  /-- `send` is called. -/
  | passed (pending : Pending α)
  | published (pending : Pending α)
  /-- `send` failed; Redis may have run the command all the same. -/
  | failed (pending : Pending α) (applied : Bool)
  | marker (user : UserId) (published : Bool)
deriving DecidableEq, Repr

structure Floor (α ρ : Type) where
  queues : Queues α
  writers : ℕ → Stage α
  redis : ρ
  log : List (Event α)

def Floor.start {α ρ : Type} (redis : ρ) : Floor α ρ :=
  ⟨⟨[], [], ∅⟩, fun _ => .running, redis, []⟩

inductive Action (α : Type) where
  | enqueue (pending : Pending α)
  | take (writer : ℕ)
  | publish (writer : ℕ)
  | fail (writer : ℕ) (applied : Bool)
  | flush (writer : ℕ)
  | mark (writer : ℕ) (published : Bool)
  /-- The last marker is dealt with and the writer looks at the queues once more. -/
  | resume (writer : ℕ) (published : Bool)
  | park (writer : ℕ)
  | wake (writer : ℕ)
deriving DecidableEq, Repr

section Moves

variable {α ρ : Type}

/-- The re-check after `_wake.clear()`: it takes a frame off the queue and forgets it. -/
def recheck (queues : Queues α) : Stage α × Queues α :=
  match queues.next with
  | none => (.waiting, queues)
  | some (_, rest) => (.running, rest)

inductive Moves (limits : Limits) (apply : α → ρ → ρ) (floor : Floor α ρ) :
    Action α → Floor α ρ → Prop
  | accept {op : α} {frame : String} {user : Option UserId} {queues : Queues α}
      (offered : floor.queues.enqueue limits (pendingOf op frame user) = .accepted queues) :
      Moves limits apply floor (.enqueue (pendingOf op frame user))
        { floor with
          queues
          log := floor.log ++ [.accepted (pendingOf op frame user)] }
  | spill {op : α} {frame : String} {user : Option UserId} {queues : Queues α}
      (offered : floor.queues.enqueue limits (pendingOf op frame user) = .spilled queues) :
      Moves limits apply floor (.enqueue (pendingOf op frame user))
        { floor with
          queues
          log := floor.log ++ [.spilled (pendingOf op frame user)] }
  | take {writer : ℕ} {pending : Pending α} {queues : Queues α}
      (top : floor.writers writer = .running) (next : floor.queues.next = some (pending, queues)) :
      Moves limits apply floor (.take writer)
        { floor with
          queues
          writers := Function.update floor.writers writer (.sending pending)
          log := floor.log ++ [.passed pending] }
  | publish {writer : ℕ} {pending : Pending α}
      (sending : floor.writers writer = .sending pending) :
      Moves limits apply floor (.publish writer)
        { floor with
          writers := Function.update floor.writers writer .running
          redis := apply pending.op floor.redis
          log := floor.log ++ [.published pending] }
  | fail {writer : ℕ} {pending : Pending α} {applied : Bool}
      (sending : floor.writers writer = .sending pending) :
      Moves limits apply floor (.fail writer applied)
        { floor with
          writers := Function.update floor.writers writer .running
          redis := if applied then apply pending.op floor.redis else floor.redis
          log := floor.log ++ [.failed pending applied] }
  /-- The set is walked through in an order of its own. -/
  | flush {writer : ℕ} {user : UserId} {rest : List UserId}
      (top : floor.writers writer = .running) (idle : floor.queues.next = none)
      (distinct : (user :: rest).Nodup)
      (owed : ∀ other, other ∈ floor.queues.owedResyncs ↔ other ∈ user :: rest) :
      Moves limits apply floor (.flush writer)
        { floor with
          queues := { floor.queues with owedResyncs := ∅ }
          writers := Function.update floor.writers writer (.flushing user rest) }
  | mark {writer : ℕ} {user next : UserId} {rest : List UserId} {published : Bool}
      (flushing : floor.writers writer = .flushing user (next :: rest)) :
      Moves limits apply floor (.mark writer published)
        { floor with
          writers := Function.update floor.writers writer (.flushing next rest)
          log := floor.log ++ [.marker user published] }
  | resume {writer : ℕ} {user : UserId} {published : Bool}
      (flushing : floor.writers writer = .flushing user []) :
      Moves limits apply floor (.resume writer published)
        { floor with
          queues := (recheck floor.queues).2
          writers := Function.update floor.writers writer (recheck floor.queues).1
          log := floor.log ++ [.marker user published] }
  | park {writer : ℕ} (top : floor.writers writer = .running) (idle : floor.queues.next = none)
      (owed : floor.queues.owedResyncs = ∅) :
      Moves limits apply floor (.park writer)
        { floor with writers := Function.update floor.writers writer .waiting }
  | wake {writer : ℕ} (waiting : floor.writers writer = .waiting) :
      Moves limits apply floor (.wake writer)
        { floor with writers := Function.update floor.writers writer .running }

end Moves

end PredictX.PublishQueue
