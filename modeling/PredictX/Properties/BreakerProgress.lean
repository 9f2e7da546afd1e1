import PredictX.Redis
import Mathlib.Data.Fintype.Basic

namespace PredictX.CircuitBreaker

open PredictX.Data

/-! Who may probe a half-open breaker.

The call that opens the half-open period takes no permit of the semaphore, and the ones that
come after it take theirs while they hold the lock.  With a permit out, such a call waits for
a release that itself needs the lock.  As long as every call that finds the breaker half open
comes when the probe of the period is over and the permit is there, probes go one at a time
and somebody can always move.
-/

section Statements

variable {ι : Type}

/-- The call's `op` is in progress and it entered in the current half-open period. -/
def Breaker.Probes (breaker : Breaker ι) (id : ι) : Prop :=
  (breaker.calls id).probe = some breaker.period

/-- At most one probe while the breaker is half open. -/
def Breaker.ProbesAlone (breaker : Breaker ι) : Prop :=
  breaker.status = .halfOpen → ∀ first second, breaker.Probes first → breaker.Probes second →
    first = second

/-- Somebody can move as long as a call is not over. -/
def Breaker.Progresses [DecidableEq ι] (config : Config) (breaker : Breaker ι) : Prop :=
  (∃ id, breaker.calls id ≠ .finished) → ∃ action after, perform config breaker action = .ok after

/-- A call that enters a half-open breaker finds the permit there and the call that opened
the period back from its `op`. -/
def EntersAfterProbe (breaker : Breaker ι) : Action ι → Prop
  | .proceed _ => ∀ id, breaker.waiters.head? = some id → breaker.calls id = .entering →
      breaker.status = .halfOpen →
        breaker.permits = 1 ∧ ∀ other, breaker.calls other ≠ .running ⟨false, some breaker.period⟩
  | _ => True

end Statements

/-! # What holds between the steps -/

structure Sound {ι : Type} (breaker : Breaker ι) : Prop where
  queued : ∀ id, id ∈ breaker.waiters ↔ (breaker.calls id).queued = true
  once : breaker.waiters.Nodup
  atMostOne : breaker.permits ≤ 1
  taken : ∀ id, (breaker.calls id).holds = true → breaker.permits = 0
  holder : ∀ first second, (breaker.calls first).holds = true →
    (breaker.calls second).holds = true → first = second
  past : ∀ id period, (breaker.calls id).probe = some period → period ≤ breaker.period
  alone : ∀ first second, breaker.Probes first → breaker.Probes second → first = second
  unlocked : breaker.lock = none → breaker.acquirers = []
  locked : ∀ id, breaker.lock = some id → breaker.acquirers = [id] ∧ breaker.permits = 1 ∧
    ∀ other, ¬ breaker.Probes other
  acquiring : ∀ id, breaker.calls id = .probing ↔ breaker.lock = some id

theorem sound_init {ι : Type} : Sound (Breaker.init : Breaker ι) where
  queued _ := by simp [Breaker.init, Phase.queued]
  once := List.nodup_nil
  atMostOne := le_rfl
  taken _ held := by simp [Breaker.init, Phase.holds] at held
  holder _ _ held := by simp [Breaker.init, Phase.holds] at held
  past _ _ probes := by simp [Breaker.init, Phase.probe] at probes
  alone _ _ probes := by simp [Breaker.Probes, Breaker.init, Phase.probe] at probes
  unlocked _ := rfl
  locked _ held := by simp [Breaker.init] at held
  acquiring _ := by simp [Breaker.init]

variable {ι : Type} [DecidableEq ι] {config : Config} {breaker after : Breaker ι} {id : ι}
  {now : ℚ} {ticket : Ticket} {succeeded : Bool} {rest : List ι}

namespace Sound

theorem invoke (sound : Sound breaker) (isIdle : breaker.calls id = .idle) :
    Sound { breaker.set id .entering with waiters := breaker.waiters ++ [id] } := by
  have absent : id ∉ breaker.waiters := by
    rw [sound.queued, isIdle]
    simp [Phase.queued]
  obtain ⟨queued, once, atMostOne, taken, holder, past, alone, unlocked, locked, acquiring⟩ := sound
  constructor <;> simp only [Breaker.set, Breaker.Probes] at * <;>
    grind [Function.update_apply, Phase.queued, Phase.holds, Phase.probe]

theorem complete (sound : Sound breaker) (isRunning : breaker.calls id = .running ticket) :
    Sound { breaker.set id (.leaving ticket succeeded) with
      waiters := breaker.waiters ++ [id] } := by
  have absent : id ∉ breaker.waiters := by
    rw [sound.queued, isRunning]
    simp [Phase.queued]
  obtain ⟨queued, once, atMostOne, taken, holder, past, alone, unlocked, locked, acquiring⟩ := sound
  constructor <;> simp only [Breaker.set, Breaker.Probes] at * <;>
    grind [Function.update_apply, Phase.queued, Phase.holds, Phase.probe]

omit [DecidableEq ι] in
/-- The first in the queue of the lock stands in it only once. -/
theorem head (sound : Sound breaker) (queue : breaker.waiters = id :: rest) :
    id ∉ rest ∧ rest.Nodup ∧
      ∀ other, other ≠ id → (other ∈ rest ↔ (breaker.calls other).queued = true) := by
  have once := sound.once
  rw [queue, List.nodup_cons] at once
  refine ⟨once.1, once.2, fun other different => ?_⟩
  rw [← sound.queued, queue, List.mem_cons]
  exact ⟨.inr, fun member => member.resolve_left different⟩

omit [DecidableEq ι] in
/-- With the permit there, only the call that opened the period can be probing. -/
theorem quiet (sound : Sound breaker) (permit : breaker.permits = 1)
    (finished : ∀ other, breaker.calls other ≠ .running ⟨false, some breaker.period⟩) (other : ι) :
    ¬ breaker.Probes other := by
  intro probes
  cases phase : breaker.calls other with
  | running ticket =>
      obtain ⟨acquired, period⟩ := ticket
      rw [Breaker.Probes, phase] at probes
      cases acquired with
      | true =>
          have taken := sound.taken other (by rw [phase]; rfl)
          omega
      | false =>
          obtain rfl : period = some breaker.period := probes
          exact finished other phase
  | idle | entering | probing | leaving | finished =>
      rw [Breaker.Probes, phase] at probes
      contradiction

theorem enter (sound : Sound breaker) (unlocked : breaker.lock = none)
    (queue : breaker.waiters = id :: rest) (isEntering : breaker.calls id = .entering)
    (guarded : EntersAfterProbe breaker (.proceed now)) :
    Sound (enter config now { breaker with waiters := rest } id) := by
  obtain ⟨absent, once, queued⟩ := sound.head queue
  have free := guarded id (by rw [queue]; rfl) isEntering
  have quiet := sound.quiet
  obtain ⟨_, _, atMostOne, taken, holder, past, alone, noAcquirer, locked, acquiring⟩ := sound
  unfold CircuitBreaker.enter
  dsimp only
  split
  · constructor <;> simp only [Breaker.set, Breaker.Probes] at * <;>
      grind [Function.update_apply, Phase.queued, Phase.holds, Phase.probe]
  · split
    · constructor <;> simp only [Breaker.set, Breaker.Probes] at * <;>
        grind [Function.update_apply, Phase.queued, Phase.holds, Phase.probe]
    · constructor <;> simp only [Breaker.set, Breaker.Probes] at * <;>
        grind [Function.update_apply, Phase.queued, Phase.holds, Phase.probe]
  · rename_i halfOpen
    obtain ⟨permit, finished⟩ := free halfOpen
    have nobody := quiet permit finished
    constructor <;> simp only [Breaker.set, Breaker.Probes] at * <;>
      grind [Function.update_apply, Phase.queued, Phase.holds, Phase.probe]

theorem leave (sound : Sound breaker) (unlocked : breaker.lock = none)
    (queue : breaker.waiters = id :: rest)
    (isLeaving : breaker.calls id = .leaving ticket succeeded) :
    Sound (leave config now { breaker with waiters := rest } id ticket succeeded) := by
  obtain ⟨absent, once, queued⟩ := sound.head queue
  obtain ⟨_, _, atMostOne, taken, holder, past, alone, noAcquirer, locked, acquiring⟩ := sound
  unfold CircuitBreaker.leave
  dsimp only
  split <;> constructor <;> simp only [Breaker.set, Breaker.Probes] at * <;>
    grind [Function.update_apply, Phase.queued, Phase.holds, Phase.probe]

theorem acquire {permits : ℕ} (sound : Sound breaker) (queue : breaker.acquirers = id :: rest)
    (free : breaker.permits = permits + 1) :
    Sound { breaker.set id (.running ⟨true, some breaker.period⟩) with
      lock := none
      permits := permits
      acquirers := rest } := by
  obtain ⟨holds, isRest⟩ : breaker.lock = some id ∧ rest = [] := by
    cases lock : breaker.lock with
    | none =>
        have empty := sound.unlocked lock
        rw [queue] at empty
        contradiction
    | some other =>
        have single := (sound.locked other lock).1
        rw [queue] at single
        simp only [List.cons.injEq] at single
        exact ⟨congrArg some single.1.symm, single.2⟩
  have nobody := (sound.locked id holds).2.2
  obtain ⟨queued, once, atMostOne, taken, holder, past, alone, unlocked, locked, acquiring⟩ := sound
  have probing := (acquiring id).mpr holds
  constructor <;> simp only [Breaker.set, Breaker.Probes] at * <;>
    grind [Function.update_apply, Phase.queued, Phase.holds, Phase.probe]

theorem step {action : Action ι} (sound : Sound breaker)
    (guarded : EntersAfterProbe breaker action)
    (performed : perform config breaker action = .ok after) : Sound after := by
  rcases perform_ok performed with ⟨id, rfl, isIdle, rfl⟩ |
    ⟨now, id, rest, rfl, unlocked, queue, isEntering, rfl⟩ |
    ⟨now, id, rest, ticket, succeeded, rfl, unlocked, queue, isLeaving, rfl⟩ |
    ⟨id, rest, permits, rfl, queue, free, rfl⟩ | ⟨id, ticket, succeeded, rfl, isRunning, rfl⟩
  · exact sound.invoke isIdle
  · exact sound.enter unlocked queue isEntering guarded
  · exact sound.leave unlocked queue isLeaving
  · exact sound.acquire queue free
  · exact sound.complete isRunning

/-- The lock is free for the first in its queue, or whoever holds it finds the permit. -/
theorem moves (sound : Sound breaker) (waiting : breaker.waiters ≠ []) :
    ∃ action after, perform config breaker action = .ok after := by
  cases lock : breaker.lock with
  | none =>
      obtain ⟨id, rest, queue⟩ := List.exists_cons_of_ne_nil waiting
      have queued := (sound.queued id).mp (by simp [queue])
      cases phase : breaker.calls id with
      | entering => exact ⟨.proceed 0, _, by simp only [perform, lock, queue, phase]; rfl⟩
      | leaving ticket succeeded =>
          exact ⟨.proceed 0, _, by simp only [perform, lock, queue, phase]; rfl⟩
      | idle | probing | running | finished =>
          rw [phase] at queued
          contradiction
  | some id =>
      obtain ⟨queue, free, _⟩ := sound.locked id lock
      exact ⟨.acquire, _, by simp only [perform, queue, free]; rfl⟩

theorem progresses (sound : Sound breaker) : breaker.Progresses config := by
  rintro ⟨id, unfinished⟩
  have waits : (breaker.calls id).queued = true → breaker.waiters ≠ [] := by
    intro queued
    exact List.ne_nil_of_mem ((sound.queued id).mpr queued)
  cases phase : breaker.calls id with
  | idle => exact ⟨.invoke id, _, by simp only [perform, phase]; rfl⟩
  | entering => exact sound.moves (waits (by rw [phase]; rfl))
  | probing =>
      obtain ⟨queue, free, _⟩ := sound.locked id ((sound.acquiring id).mp phase)
      exact ⟨.acquire, _, by simp only [perform, queue, free]; rfl⟩
  | running ticket => exact ⟨.complete id true, _, by simp only [perform, phase]; rfl⟩
  | leaving ticket succeeded => exact sound.moves (waits (by rw [phase]; rfl))
  | finished => exact absurd phase unfinished

end Sound

/-- When every call that enters a half-open breaker comes after the probe of the period, no
state of the run is a deadlock and probes go one at a time. -/
theorem breaker_never_deadlocks {final : Breaker ι} {actions : List (Action ι)}
    (run : Run (fun breaker action after => perform config breaker action = .ok after)
      EntersAfterProbe Breaker.init actions final) :
    final.Progresses config ∧ final.ProbesAlone := by
  have sound : Sound final := run.invariant Sound
    (fun _ _ _ guarded performed sound => sound.step guarded performed) sound_init
  exact ⟨sound.progresses, fun _ => sound.alone⟩

instance [Fintype ι] (breaker : Breaker ι) (action : Action ι) :
    Decidable (EntersAfterProbe breaker action) :=
  match action with
  | .proceed _ => inferInstanceAs (Decidable (∀ _, _ = _ → _ = _ → _ = _ → _ ∧ ∀ _, ¬ _ = _))
  | .invoke _ | .acquire | .complete _ _ => inferInstanceAs (Decidable True)

/-- The breaker of the application. -/
def redisConfig : Config := ⟨5, 30⟩

/-- Five calls fail and open the breaker. -/
def outage : List (Action (Fin 8)) :=
  [0, 1, 2, 3, 4].flatMap fun caller =>
    [.invoke caller, .proceed 0, .complete caller false, .proceed 0]

/-- Call 6 stands in the queue when the probe of call 5 comes back. -/
def lateProbe : List (Action (Fin 8)) :=
  outage ++ [.invoke 5, .proceed 30, .invoke 6, .complete 5 true, .proceed 31, .acquire]

theorem late_probe_is_alone :
    ∃ final, Run (fun breaker action after => perform redisConfig breaker action = .ok after)
        EntersAfterProbe Breaker.init lateProbe final ∧
      final.status = .halfOpen ∧ final.Progresses redisConfig ∧ final.ProbesAlone := by
  have played : (replay (perform redisConfig) EntersAfterProbe lateProbe Breaker.init).any
      (fun breaker => breaker.status = .halfOpen) = true := by decide +kernel
  obtain ⟨final, replayed, halfOpen⟩ := (Option.any_eq_true _ _).mp played
  have run := run_of_replay replayed
  exact ⟨final, run, by simpa using halfOpen, breaker_never_deadlocks run⟩

/-- The call needs neither the lock nor the semaphore to go on. -/
def Phase.moves : Phase → Bool
  | .idle | .running _ => true
  | _ => false

/-- A permit that is out does not come back while the lock is held for it. -/
theorem stuck_without_permit (held : breaker.lock = some id) (out : breaker.permits = 0)
    (waiting : ∀ other, (breaker.calls other).moves = false) (action : Action ι) :
    perform config breaker action ≠ .ok after := by
  intro performed
  rcases perform_ok performed with ⟨other, _, isIdle, _⟩ | ⟨_, _, _, _, unlocked, _⟩ |
    ⟨_, _, _, _, _, _, unlocked, _⟩ | ⟨_, _, permits, _, _, free, _⟩ |
    ⟨other, ticket, _, _, isRunning, _⟩
  · have still := waiting other
    rw [isIdle] at still
    contradiction
  · rw [held] at unlocked
    contradiction
  · rw [held] at unlocked
    contradiction
  · omega
  · have still := waiting other
    rw [isRunning] at still
    contradiction

/-- Call 6 probes beside call 5, which opened the period. -/
def doubleProbe : List (Action (Fin 8)) :=
  outage ++ [.invoke 5, .proceed 30, .invoke 6, .proceed 30, .acquire]

/-- Call 7 waits for the permit of call 6 with the lock that call 6 needs. -/
def deadlock : List (Action (Fin 8)) :=
  doubleProbe ++ [.invoke 7, .proceed 30, .complete 5 true, .complete 6 true]

/-- Two probes at a time, and after a third call nobody can move. -/
theorem third_call_deadlocks :
    (∃ final, Run (fun breaker action after => perform redisConfig breaker action = .ok after)
        (fun _ _ => True) Breaker.init doubleProbe final ∧ ¬ final.ProbesAlone) ∧
    ∃ final, Run (fun breaker action after => perform redisConfig breaker action = .ok after)
        (fun _ _ => True) Breaker.init deadlock final ∧ ¬ final.Progresses redisConfig := by
  constructor
  · have played : (replay (perform redisConfig) (fun _ _ => True) doubleProbe Breaker.init).any
        (fun breaker => breaker.status = .halfOpen ∧
          (breaker.calls 5).probe = some breaker.period ∧
          (breaker.calls 6).probe = some breaker.period) = true := by decide +kernel
    obtain ⟨final, replayed, facts⟩ := (Option.any_eq_true _ _).mp played
    obtain ⟨halfOpen, opener, follower⟩ := of_decide_eq_true facts
    refine ⟨final, run_of_replay replayed, fun alone => ?_⟩
    exact absurd (alone halfOpen 5 6 opener follower) (by decide)
  · have played : (replay (perform redisConfig) (fun _ _ => True) deadlock Breaker.init).any
        (fun breaker => breaker.lock = some 7 ∧ breaker.permits = 0 ∧
          breaker.calls 7 = .probing ∧ ∀ id, (breaker.calls id).moves = false) = true := by
      decide +kernel
    obtain ⟨final, replayed, facts⟩ := (Option.any_eq_true _ _).mp played
    obtain ⟨held, out, probing, waiting⟩ := of_decide_eq_true facts
    refine ⟨final, run_of_replay replayed, fun progresses => ?_⟩
    obtain ⟨action, after, performed⟩ := progresses ⟨7, by rw [probing]; simp⟩
    exact stuck_without_permit held out waiting action performed

end PredictX.CircuitBreaker
