import PredictX.Websocket.TradesSocket

namespace PredictX.TradesSocket

open PredictX.Data

/-! The trade feed never parks.

While the feed is enabled a socket is tracked that will report its end, or a retry is pending.  A
tracked socket can stop being live without being replaced, so what is kept is that it has not closed
and that its `onclose` is still on.  A socket that `recover` finds closing is replaced with its
`onclose` on: it goes on to plan a retry of its own, which then finds the successor live.
-/

section Backoff

theorem backoff_bounds (attempt : ℕ) : 200 ≤ backoff attempt ∧ backoff attempt ≤ maxBackoffMs := by
  match attempt with
  | 0 | 1 | 2 | 3 | 4 | 5 | 6 => constructor <;> norm_num [backoff, maxBackoffMs]
  | n + 7 =>
      have grown : (1 : ℚ) ≤ 2 ^ n := one_le_pow₀ (by norm_num)
      refine ⟨le_min ?_ (by norm_num [maxBackoffMs]), min_le_right _ _⟩
      linarith

theorem reconnectDelayMs_bounds (attempt : ℕ) {random : ℚ} (drawn : 0 ≤ random ∧ random < 1) :
    100 ≤ reconnectDelayMs attempt random ∧ reconnectDelayMs attempt random ≤ 22500 := by
  obtain ⟨low, high⟩ := backoff_bounds attempt
  obtain ⟨zero, one⟩ := drawn
  unfold maxBackoffMs at high
  have share : 0 ≤ random * (backoff attempt / 2) := by positivity
  have part : random * (backoff attempt / 2) ≤ backoff attempt / 2 := by nlinarith
  unfold reconnectDelayMs jitterFactor
  constructor
  · rw [Int.le_floor]
    push_cast
    linarith
  · rw [← Int.lt_add_one_iff, Int.floor_lt]
    push_cast
    linarith

end Backoff

/-! # What each operation leaves alone -/

section Operations

variable {hook : Hook} {ws other : ℕ} {update : WebSocket → WebSocket}

namespace Hook

@[simp] theorem atSocket_sockets_same : (hook.atSocket ws update).sockets ws =
    update (hook.sockets ws) := by simp [atSocket]

@[simp] theorem atSocket_sockets_other (different : other ≠ ws) :
    (hook.atSocket ws update).sockets other = hook.sockets other := by
  simp [atSocket, different]

theorem stopTimer_eq (hook : Hook) :
    hook.stopTimer = { hook with timers := hook.stopTimer.timers } := by
  unfold stopTimer
  split <;> rfl

theorem drop_eq (hook : Hook) (held : Option ℕ) :
    hook.drop held = { hook with sockets := (hook.drop held).sockets } := by
  unfold drop
  split <;> rfl

theorem cleanup_eq (bound : hook.bound = true) :
    hook.cleanup =
      { hook.drop hook.ws with
        mounted := false
        ws := none
        bound := false
        timers := hook.stopTimer.timers } := by
  unfold cleanup
  rw [if_pos bound]
  obtain ⟨_, _, ws, _, _, _, timer, _, _, _, _, _⟩ := hook
  cases ws <;> cases timer <;> rfl

theorem body_false (hook : Hook) :
    hook.body false =
      { hook.drop hook.ws with
        mounted := true
        ws := none
        retries := 0
        timers := hook.stopTimer.timers } := by
  obtain ⟨_, _, ws, _, _, _, timer, _, _, _, _, _⟩ := hook
  cases ws <;> cases timer <;> rfl

/-- The hook that `recover` dials from. -/
def recovering (hook : Hook) : Hook :=
  { hook.drop (hook.ws.filter fun ws => (hook.sockets ws).Live) with
    ws := none
    retries := 0
    timer := none
    timers := hook.stopTimer.timers }

theorem recover_eq {force : Bool} (mounted : hook.mounted = true)
    (acts : ¬(force = false ∧ hook.ws = none ∧ hook.timer = none)) :
    hook.recover force = hook.recovering.connect := by
  unfold recover recovering
  rw [if_neg (by simp [mounted]), if_neg acts]
  refine congrArg connect ?_
  generalize hook.ws.filter (fun ws => (hook.sockets ws).Live) = held
  obtain ⟨_, _, _, _, _, _, timer, _, _, _, _, _⟩ := hook
  cases held <;> cases timer <;> rfl

theorem recover_ignored {force : Bool} (ignored :
      ¬(hook.mounted = true ∧ ¬(force = false ∧ hook.ws = none ∧ hook.timer = none))) :
    hook.recover force = hook := by
  unfold recover
  split
  · rfl
  · rename_i mounted
    rw [if_pos]
    by_contra acts
    exact ignored ⟨by simpa using mounted, acts⟩

@[simp] theorem drop_mounted (hook : Hook) (held : Option ℕ) :
    (hook.drop held).mounted = hook.mounted := by
  rw [drop_eq]

theorem connect_eq (hook : Hook) :
    hook.connect =
      { hook with
        ws := hook.connect.ws
        sockets := hook.connect.sockets
        socketCount := hook.connect.socketCount
        status := hook.connect.status } := by
  unfold connect
  split
  · rfl
  split <;> rfl

theorem connect_unmounted (unmounted : hook.mounted = false) : hook.connect = hook :=
  if_pos unmounted

theorem connect_live (mounted : hook.mounted = true)
    (live : ∃ ws ∈ hook.ws, (hook.sockets ws).Live) : hook.connect = hook := by
  unfold connect
  rw [if_neg (by simp [mounted]), if_pos live]

theorem connect_dials (mounted : hook.mounted = true)
    (dead : ¬∃ ws ∈ hook.ws, (hook.sockets ws).Live) : hook.connect = hook.newSocket := by
  unfold connect
  rw [if_neg (by simp [mounted]), if_neg dead]

end Hook

namespace WebSocket

variable {socket : WebSocket} {ts : ℕ}

theorem pong_eq (socket : WebSocket) (ts : ℕ) :
    (socket.pong ts).readyState = socket.readyState ∧
      (socket.pong ts).attached = socket.attached := by
  unfold pong
  split <;> exact ⟨rfl, rfl⟩

theorem close_attached (socket : WebSocket) : socket.close.attached = socket.attached := by
  unfold close
  split <;> rfl

theorem not_live_close (socket : WebSocket) : ¬socket.close.Live := by
  unfold close
  split
  · rename_i closed
    simp [Live, closed]
  · simp [Live, becomes]

theorem close_ne_closed (open_ : socket.readyState ≠ .closed) :
    socket.close.readyState ≠ .closed := by
  unfold close
  rw [if_neg open_]
  simp [becomes]

end WebSocket

end Operations

/-! # Sockets -/

/-- What holds of the sockets between two events. -/
structure Tracked (hook : Hook) : Prop where
  reports : ∀ ws ∈ hook.ws,
    (hook.sockets ws).attached = true ∧ (hook.sockets ws).readyState ≠ .closed
  live : ∀ ws, (hook.sockets ws).Live → hook.ws = some ws
  unmade : ∀ ws, hook.socketCount ≤ ws → hook.sockets ws = .unmade
  unmounted : hook.mounted = false → hook.ws = none

/-- A retry is pending. -/
def Hook.Retrying (hook : Hook) : Prop := ∃ timer delay, hook.timers timer = some delay

section Tracked

variable {hook : Hook} {ws : ℕ} {update : WebSocket → WebSocket} {held : Option ℕ}

namespace Tracked

/-- A socket that no longer is live, unless it was, and still reports. -/
theorem atSocket (tracked : Tracked hook)
    (live : (update (hook.sockets ws)).Live → (hook.sockets ws).Live)
    (reports : hook.ws = some ws → (update (hook.sockets ws)).attached = true ∧
      (update (hook.sockets ws)).readyState ≠ .closed)
    (made : ws < hook.socketCount) : Tracked (hook.atSocket ws update) := by
  constructor
  · intro other isTracked
    by_cases same : other = ws
    · subst same
      simpa using reports isTracked
    · simpa [same] using tracked.reports other isTracked
  · intro other isLive
    by_cases same : other = ws
    · subst same
      exact tracked.live other (live (by simpa using isLive))
    · exact tracked.live other (by simpa [same] using isLive)
  · intro other fresh
    have same : other ≠ ws := fun is => by
      subst is
      exact absurd made (not_lt.mpr fresh)
    simpa [same] using tracked.unmade other fresh
  · exact tracked.unmounted

theorem made_of_not_closed (tracked : Tracked hook)
    (alive : (hook.sockets ws).readyState ≠ .closed) : ws < hook.socketCount := by
  by_contra beyond
  rw [tracked.unmade ws (not_lt.mp beyond)] at alive
  exact alive rfl

/-- Fields that the sockets do not depend on. -/
theorem congr {after : Hook} (tracked : Tracked hook) (mounted : after.mounted = hook.mounted)
    (sameWs : after.ws = hook.ws) (sockets : after.sockets = hook.sockets)
    (count : after.socketCount = hook.socketCount) : Tracked after := by
  constructor
  · rw [sameWs, sockets]
    exact tracked.reports
  · rw [sameWs, sockets]
    exact tracked.live
  · rw [sockets, count]
    exact tracked.unmade
  · rw [mounted, sameWs]
    exact tracked.unmounted

theorem newSocket (tracked : Tracked hook) (mounted : hook.mounted = true)
    (dead : ¬∃ ws ∈ hook.ws, (hook.sockets ws).Live) : Tracked hook.newSocket := by
  constructor
  · rintro ws ⟨⟩
    simp [Hook.newSocket]
  · intro ws isLive
    by_cases same : ws = hook.socketCount
    · rw [same]
      rfl
    · have before : (hook.sockets ws).Live := by simpa [Hook.newSocket, same] using isLive
      exact absurd ⟨ws, tracked.live ws before, before⟩ dead
  · intro ws fresh
    have fresh : hook.socketCount + 1 ≤ ws := fresh
    have different : ws ≠ hook.socketCount := by omega
    simpa [Hook.newSocket, different] using tracked.unmade ws (by omega)
  · intro unmounted
    rw [show hook.newSocket.mounted = hook.mounted from rfl, mounted] at unmounted
    contradiction

theorem connect (tracked : Tracked hook) : Tracked hook.connect := by
  by_cases mounted : hook.mounted = true
  · by_cases live : ∃ ws ∈ hook.ws, (hook.sockets ws).Live
    · rwa [Hook.connect_live mounted live]
    · rw [Hook.connect_dials mounted live]
      exact tracked.newSocket mounted live
  · rwa [Hook.connect_unmounted (by simpa using mounted)]

/-- After a dial a mounted hook has a live socket. -/
theorem connect_dialled (mounted : hook.mounted = true) :
    ∃ ws ∈ hook.connect.ws, (hook.connect.sockets ws).Live := by
  by_cases live : ∃ ws ∈ hook.ws, (hook.sockets ws).Live
  · rwa [Hook.connect_live mounted live]
  · rw [Hook.connect_dials mounted live]
    exact ⟨hook.socketCount, rfl, by simp [Hook.newSocket, WebSocket.Live]⟩

/-- The tracked socket is let go, detached and closed if it was live. -/
theorem release (tracked : Tracked hook) (held : Option ℕ) (mounted : Bool)
    (all : ∀ ws ∈ hook.ws, (hook.sockets ws).Live → held = some ws)
    (only : ∀ ws ∈ held, hook.ws = some ws) :
    Tracked { hook.drop held with mounted, ws := none } := by
  cases held with
  | none =>
      constructor
      · simp
      · intro ws isLive
        have isTracked := tracked.live ws isLive
        exact absurd (all ws isTracked isLive) (by simp)
      · exact tracked.unmade
      · simp
  | some ws =>
      have reports := tracked.reports ws (only ws rfl)
      have made := tracked.made_of_not_closed reports.2
      constructor
      · simp
      · intro other isLive
        by_cases same : other = ws
        · subst same
          have isLive : ((hook.sockets other).detach.close).Live := by
            simpa [Hook.drop] using isLive
          exact absurd isLive (WebSocket.not_live_close _)
        · have before : (hook.sockets other).Live := by simpa [Hook.drop, same] using isLive
          have isTracked := tracked.live other before
          rw [only ws rfl, Option.some.injEq] at isTracked
          exact absurd isTracked.symm same
      · intro other fresh
        have fresh : hook.socketCount ≤ other := fresh
        have same : other ≠ ws := by omega
        simpa [Hook.drop, same] using tracked.unmade other fresh
      · simp

theorem stopTimer (tracked : Tracked hook) : Tracked hook.stopTimer := by
  rw [Hook.stopTimer_eq]
  exact tracked.congr rfl rfl rfl rfl

theorem cleanup (tracked : Tracked hook) : Tracked hook.cleanup := by
  by_cases bound : hook.bound = true
  · rw [Hook.cleanup_eq bound]
    exact (tracked.release _ false (fun ws isTracked _ => isTracked) fun ws isTracked =>
      isTracked).congr rfl rfl rfl rfl
  · unfold Hook.cleanup
    rwa [if_neg bound]

theorem body (tracked : Tracked hook) (enabled : Bool) : Tracked (hook.body enabled) := by
  cases enabled with
  | true =>
      have mounted : Tracked { hook with mounted := true, retries := 0 } := by
        constructor
        · exact tracked.reports
        · exact tracked.live
        · exact tracked.unmade
        · simp
      exact mounted.connect.congr rfl rfl rfl rfl
  | false =>
      rw [Hook.body_false]
      exact (tracked.release _ true (fun ws isTracked _ => isTracked) fun ws isTracked =>
        isTracked).congr rfl rfl rfl rfl

theorem recover (tracked : Tracked hook) (force : Bool) : Tracked (hook.recover force) := by
  by_cases acts : hook.mounted = true ∧ ¬(force = false ∧ hook.ws = none ∧ hook.timer = none)
  · rw [Hook.recover_eq acts.1 acts.2]
    refine Tracked.connect ?_
    refine (tracked.release (hook.ws.filter fun ws => (hook.sockets ws).Live) hook.mounted
      (fun ws isTracked live => ?_) fun ws isHeld => ?_).congr (Hook.drop_mounted _ _) rfl rfl rfl
    · simp [Option.mem_def.mp isTracked, live]
    · exact (Option.mem_filter_iff.mp isHeld).1
  · rwa [Hook.recover_ignored acts]

theorem onopen (tracked : Tracked hook) (made : ws < hook.socketCount)
    (opened : hook.mounted = false → hook.ws ≠ some ws) : Tracked (hook.onopen ws) := by
  unfold Hook.onopen
  split
  · rename_i unmounted
    refine tracked.atSocket (fun live => absurd live (WebSocket.not_live_close _)) ?_ made
    exact fun isTracked => absurd isTracked (opened unmounted)
  · dsimp only
    split <;> exact tracked.congr rfl rfl rfl rfl

theorem onmessage (tracked : Tracked hook) (incoming : Incoming)
    (opened : (hook.sockets ws).readyState = .opened) : Tracked (hook.onmessage ws incoming) := by
  have alive : (hook.sockets ws).readyState ≠ .closed := by simp [opened]
  have made := tracked.made_of_not_closed alive
  cases incoming with
  | malformed => exact tracked
  | ping ts =>
      obtain ⟨readyState, attached⟩ := WebSocket.pong_eq (hook.sockets ws) ts
      change Tracked (hook.atSocket ws fun socket => socket.pong ts)
      refine tracked.atSocket (fun live => ?_) (fun isTracked => ?_) made
      · simpa [WebSocket.Live, readyState] using live
      · simpa [readyState, attached] using tracked.reports ws isTracked
  | frame data => exact tracked.congr rfl rfl rfl rfl

theorem onerror (tracked : Tracked hook) (alive : (hook.sockets ws).readyState ≠ .closed) :
    Tracked (hook.onerror ws) := by
  unfold Hook.onerror
  split
  · exact tracked
  · refine tracked.atSocket (fun live => absurd live (WebSocket.not_live_close _))
      (fun isTracked => ?_) (tracked.made_of_not_closed alive)
    rw [WebSocket.close_attached]
    exact ⟨(tracked.reports ws isTracked).1, WebSocket.close_ne_closed alive⟩

theorem shut (tracked : Tracked hook) (alive : (hook.sockets ws).readyState ≠ .closed) :
    Tracked { hook.atSocket ws (·.becomes .closed) with
      ws := if hook.ws = some ws then none else hook.ws } := by
  have made := tracked.made_of_not_closed alive
  by_cases isTracked : hook.ws = some ws
  · rw [if_pos isTracked]
    constructor
    · simp
    · intro other isLive
      by_cases same : other = ws
      · simp [same, WebSocket.Live, WebSocket.becomes, Hook.atSocket] at isLive
      · have before : (hook.sockets other).Live := by simpa [Hook.atSocket, same] using isLive
        have alsoTracked := tracked.live other before
        rw [isTracked, Option.some.injEq] at alsoTracked
        exact absurd alsoTracked.symm same
    · intro other fresh
      have fresh : hook.socketCount ≤ other := fresh
      have same : other ≠ ws := by omega
      simpa [Hook.atSocket, same] using tracked.unmade other fresh
    · simp
  · rw [if_neg isTracked]
    have closed : Tracked (hook.atSocket ws (·.becomes .closed)) := by
      refine tracked.atSocket (fun live => ?_) (fun is => absurd is isTracked) made
      simp [WebSocket.Live, WebSocket.becomes] at live
    exact closed.congr rfl rfl rfl rfl

theorem onclose (tracked : Tracked hook) {random : ℚ}
    (alive : (hook.sockets ws).readyState ≠ .closed) :
    Tracked ((hook.atSocket ws (·.becomes .closed)).onclose ws random) := by
  unfold Hook.onclose
  split
  · rename_i unmounted
    have apart : hook.ws = none := tracked.unmounted unmounted
    have shut := tracked.shut alive
    rw [if_neg (by simp [apart])] at shut
    exact shut.congr rfl rfl rfl rfl
  · exact (tracked.shut alive).congr rfl rfl rfl rfl

theorem onTimer (tracked : Tracked hook) : Tracked hook.onTimer := by
  have cleared : Tracked { hook with timer := none } := tracked.congr rfl rfl rfl rfl
  exact cleared.connect

theorem of_happens {after : Hook} {event : Event} (tracked : Tracked hook)
    (happens : Happens hook event after) : Tracked after := by
  cases happens with
  | effect enabled => exact tracked.cleanup.body enabled
  | unmount => exact tracked.cleanup
  | opens connecting =>
      rename_i ws
      have alive : (hook.sockets ws).readyState ≠ .closed := by simp [connecting]
      have made := tracked.made_of_not_closed alive
      refine onopen (tracked.atSocket (fun _ => .inl connecting) (fun isTracked => ?_) made) made ?_
      · exact ⟨(tracked.reports _ isTracked).1, by simp [WebSocket.becomes]⟩
      · intro unmounted
        simp [Hook.atSocket, tracked.unmounted unmounted]
  | message incoming opened => exact tracked.onmessage incoming opened
  | closing alive =>
      have made := tracked.made_of_not_closed alive
      refine tracked.atSocket (fun live => ?_) (fun isTracked => ?_) made
      · simp [WebSocket.Live, WebSocket.becomes] at live
      · exact ⟨(tracked.reports _ isTracked).1, by simp [WebSocket.becomes]⟩
  | errs alive => exact tracked.onerror alive
  | closes alive attached drawn => exact tracked.onclose alive
  | closesDetached alive detached =>
      have made := tracked.made_of_not_closed alive
      refine tracked.atSocket (fun live => ?_) (fun isTracked => ?_) made
      · simp [WebSocket.Live, WebSocket.becomes] at live
      · have attached := (tracked.reports _ isTracked).1
        rw [detached] at attached
        contradiction
  | timer due =>
      rename_i timer _
      have fired : Tracked (hook.clearTimeout timer) := tracked.congr rfl rfl rfl rfl
      exact fired.onTimer
  | online bound => exact tracked.recover true
  | visible bound => exact tracked.recover false

end Tracked

end Tracked

/-! # Retries -/

/-- While the feed is enabled its socket is tracked or a retry is pending. -/
def Persists (hook : Hook) : Prop :=
  hook.bound = true → hook.mounted = true ∧ (hook.ws ≠ none ∨ hook.Retrying)

/-- The delays that are waited for. -/
def Prompt (hook : Hook) : Prop :=
  ∀ timer delay, hook.timers timer = some delay → 100 ≤ delay ∧ delay ≤ 22500

/-- What the consumer is told: of every connection but the first that trades may be missing, then
what the server sends.  The flag says whether a socket has connected. -/
inductive Announced : Bool → List Entry → Prop
  | start : Announced false []
  | first {log : List Entry} (ws : ℕ) (before : Announced false log) :
      Announced true (log ++ [.connected ws])
  | again {log : List Entry} (ws : ℕ) (before : Announced true log) :
      Announced true (log ++ [.connected ws] ++ [.onMessage .resync])
  | frame {ever : Bool} {log : List Entry} (data : ℕ) (before : Announced ever log) :
      Announced ever (log ++ [.onMessage (.server data)])

section Retries

variable {hook after : Hook} {event : Event}

theorem cleanup_bound (hook : Hook) : hook.cleanup.bound = false := by
  unfold Hook.cleanup
  split
  · rw [Hook.drop_eq]
  · rename_i unbound
    simpa using unbound

theorem connect_held (mounted : hook.mounted = true) :
    hook.connect.mounted = true ∧ (hook.connect.ws ≠ none ∨ hook.connect.Retrying) := by
  obtain ⟨ws, isTracked, -⟩ := Tracked.connect_dialled mounted
  refine ⟨?_, .inl ?_⟩
  · rwa [Hook.connect_eq]
  · rw [Option.mem_def.mp isTracked]
    exact Option.some_ne_none ws

theorem Persists.congr (persists : Persists hook) (bound : after.bound = hook.bound)
    (mounted : after.mounted = hook.mounted) (ws : after.ws = hook.ws)
    (timers : after.timers = hook.timers) : Persists after := by
  unfold Persists Hook.Retrying
  rw [bound, mounted, ws, timers]
  exact persists

theorem Persists.recover (persists : Persists hook) (force : Bool) :
    Persists (hook.recover force) := by
  by_cases acts : hook.mounted = true ∧ ¬(force = false ∧ hook.ws = none ∧ hook.timer = none)
  · rw [Hook.recover_eq acts.1 acts.2]
    exact fun _ => connect_held ((Hook.drop_mounted _ _).trans acts.1)
  · rwa [Hook.recover_ignored acts]

theorem Persists.of_happens (persists : Persists hook) (happens : Happens hook event after) :
    Persists after := by
  cases happens with
  | effect enabled =>
      cases enabled with
      | true =>
          have mounted : { hook.cleanup with mounted := true, retries := 0 }.mounted = true := rfl
          exact fun _ => connect_held mounted
      | false =>
          intro bound
          rw [Hook.body_false, Hook.drop_eq] at bound
          exact absurd bound (by simp [cleanup_bound])
  | unmount =>
      intro bound
      rw [cleanup_bound] at bound
      contradiction
  | opens connecting =>
      unfold Hook.onopen
      split
      · exact persists.congr rfl rfl rfl rfl
      · dsimp only
        split <;> exact persists.congr rfl rfl rfl rfl
  | message incoming opened => cases incoming <;> exact persists.congr rfl rfl rfl rfl
  | closing alive => exact persists.congr rfl rfl rfl rfl
  | errs alive =>
      unfold Hook.onerror
      split <;> exact persists.congr rfl rfl rfl rfl
  | closes alive attached drawn =>
      unfold Hook.onclose
      split
      · exact persists.congr rfl rfl rfl rfl
      · intro bound
        exact ⟨(persists bound).1, .inr ⟨hook.timerCount, _, by simp [Hook.atSocket]; rfl⟩⟩
  | closesDetached alive detached => exact persists.congr rfl rfl rfl rfl
  | timer due =>
      rename_i timer _
      intro bound
      have before : hook.bound = true := by
        unfold Hook.onTimer at bound
        rwa [Hook.connect_eq] at bound
      have mounted : { hook.clearTimeout timer with timer := none }.mounted = true :=
        (persists before).1
      exact connect_held mounted
  | online bound => exact persists.recover true
  | visible bound => exact persists.recover false

theorem Prompt.congr (prompt : Prompt hook) (timers : ∀ timer delay,
      after.timers timer = some delay → hook.timers timer = some delay) : Prompt after :=
  fun timer delay due => prompt timer delay (timers timer delay due)

theorem clearTimeout_due {timer other : ℕ} {delay : ℤ}
    (due : (hook.clearTimeout other).timers timer = some delay) :
    hook.timers timer = some delay := by
  by_cases same : timer = other
  · simp [same, Hook.clearTimeout] at due
  · simpa [same, Hook.clearTimeout] using due

theorem stopTimer_due {timer : ℕ} {delay : ℤ}
    (due : hook.stopTimer.timers timer = some delay) : hook.timers timer = some delay := by
  unfold Hook.stopTimer at due
  split at due
  · exact due
  · exact clearTimeout_due due

theorem Prompt.connect (prompt : Prompt hook) : Prompt hook.connect := by
  rw [Hook.connect_eq]
  exact prompt

theorem Prompt.cleanup (prompt : Prompt hook) : Prompt hook.cleanup := by
  by_cases bound : hook.bound = true
  · rw [Hook.cleanup_eq bound]
    exact prompt.congr fun _ _ => stopTimer_due
  · unfold Hook.cleanup
    rwa [if_neg bound]

theorem Prompt.body (prompt : Prompt hook) (enabled : Bool) : Prompt (hook.body enabled) := by
  cases enabled with
  | true =>
      have mounted : Prompt { hook with mounted := true, retries := 0 } := prompt
      exact mounted.connect
  | false =>
      rw [Hook.body_false]
      exact prompt.congr fun _ _ => stopTimer_due

theorem Prompt.recover (prompt : Prompt hook) (force : Bool) : Prompt (hook.recover force) := by
  by_cases acts : hook.mounted = true ∧ ¬(force = false ∧ hook.ws = none ∧ hook.timer = none)
  · rw [Hook.recover_eq acts.1 acts.2]
    have recovering : Prompt hook.recovering := prompt.congr fun _ _ => stopTimer_due
    exact recovering.connect
  · rwa [Hook.recover_ignored acts]

theorem Prompt.of_happens (prompt : Prompt hook) (happens : Happens hook event after) :
    Prompt after := by
  cases happens with
  | effect enabled => exact prompt.cleanup.body enabled
  | unmount => exact prompt.cleanup
  | opens connecting =>
      unfold Hook.onopen
      split
      · exact prompt
      · dsimp only
        split <;> exact prompt
  | message incoming opened => cases incoming <;> exact prompt
  | closing alive => exact prompt
  | errs alive =>
      unfold Hook.onerror
      split <;> exact prompt
  | closes alive attached drawn =>
      rename_i random
      unfold Hook.onclose
      split
      · exact prompt
      · intro timer delay due
        by_cases new : timer = hook.timerCount
        · subst new
          have delay_ : reconnectDelayMs hook.retries random = delay := by
            simpa [Hook.atSocket] using due
          rw [← delay_]
          exact reconnectDelayMs_bounds _ drawn
        · exact prompt timer delay (by simpa [Hook.atSocket, new] using due)
  | closesDetached alive detached => exact prompt
  | timer due =>
      rename_i timer _
      have cleared : Prompt { hook.clearTimeout timer with timer := none } :=
        prompt.congr fun _ _ => clearTimeout_due
      exact cleared.connect
  | online bound => exact prompt.recover true
  | visible bound => exact prompt.recover false

theorem connect_log (hook : Hook) : hook.connect.log = hook.log ∧
    hook.connect.everConnected = hook.everConnected := by
  rw [Hook.connect_eq]
  exact ⟨rfl, rfl⟩

theorem cleanup_log (hook : Hook) : hook.cleanup.log = hook.log ∧
    hook.cleanup.everConnected = hook.everConnected := by
  by_cases bound : hook.bound = true
  · rw [Hook.cleanup_eq bound, Hook.drop_eq]
    exact ⟨rfl, rfl⟩
  · unfold Hook.cleanup
    rw [if_neg bound]
    exact ⟨rfl, rfl⟩

theorem recover_log (hook : Hook) (force : Bool) : (hook.recover force).log = hook.log ∧
    (hook.recover force).everConnected = hook.everConnected := by
  by_cases acts : hook.mounted = true ∧ ¬(force = false ∧ hook.ws = none ∧ hook.timer = none)
  · rw [Hook.recover_eq acts.1 acts.2, (connect_log _).1, (connect_log _).2, Hook.recovering,
      Hook.drop_eq]
    exact ⟨rfl, rfl⟩
  · rw [Hook.recover_ignored acts]
    exact ⟨rfl, rfl⟩

theorem body_log (hook : Hook) (enabled : Bool) : (hook.body enabled).log = hook.log ∧
    (hook.body enabled).everConnected = hook.everConnected := by
  cases enabled with
  | true => exact connect_log { hook with mounted := true, retries := 0 }
  | false =>
      rw [Hook.body_false, Hook.drop_eq]
      exact ⟨rfl, rfl⟩

theorem announced_of_happens (announced : Announced hook.everConnected hook.log)
    (happens : Happens hook event after) : Announced after.everConnected after.log := by
  cases happens with
  | effect enabled =>
      rw [(body_log _ _).1, (body_log _ _).2, (cleanup_log _).1, (cleanup_log _).2]
      exact announced
  | unmount =>
      rw [(cleanup_log _).1, (cleanup_log _).2]
      exact announced
  | opens connecting =>
      rename_i ws
      unfold Hook.onopen
      split
      · exact announced
      · dsimp only
        cases ever : hook.everConnected with
        | true =>
            rw [ever] at announced
            rw [if_pos (by simpa [Hook.atSocket] using ever)]
            exact announced.again ws
        | false =>
            rw [ever] at announced
            rw [if_neg (by simpa [Hook.atSocket] using ever)]
            exact announced.first ws
  | message incoming opened =>
      cases incoming with
      | malformed => exact announced
      | ping ts => exact announced
      | frame data => exact announced.frame data
  | closing alive => exact announced
  | errs alive =>
      unfold Hook.onerror
      split <;> exact announced
  | closes alive attached drawn =>
      unfold Hook.onclose
      split <;> exact announced
  | closesDetached alive detached => exact announced
  | timer due =>
      unfold Hook.onTimer
      rw [(connect_log _).1, (connect_log _).2]
      exact announced
  | online bound =>
      rw [(recover_log _ _).1, (recover_log _ _).2]
      exact announced
  | visible bound =>
      rw [(recover_log _ _).1, (recover_log _ _).2]
      exact announced

end Retries

/-! # Runs -/

/-- What every event keeps. -/
structure Sound (hook : Hook) : Prop where
  tracked : Tracked hook
  persists : Persists hook
  prompt : Prompt hook
  announced : Announced hook.everConnected hook.log

theorem sound_initial : Sound .initial where
  tracked := by constructor <;> simp [Hook.initial, WebSocket.Live, WebSocket.unmade]
  persists := by simp [Persists, Hook.initial]
  prompt := by simp [Prompt, Hook.initial]
  announced := .start

section Runs

variable {hook : Hook} {events : List Event}

theorem sound_of_run (run : Run Happens (fun _ _ => True) .initial events hook) : Sound hook :=
  run.invariant Sound (fun _ _ _ _ happens sound =>
    ⟨sound.tracked.of_happens happens, sound.persists.of_happens happens,
      sound.prompt.of_happens happens, announced_of_happens sound.announced happens⟩) sound_initial

/-- Whatever the network, the browser and the page do, an enabled feed has a socket that will report
its end or a retry that comes within 22.5 seconds and leaves it with a live socket.  No other socket
is ever live, and none once the hook has been cleaned up.  Of every connection but the first the
consumer is told before anything that it carries. -/
theorem trades_feed_never_parks (run : Run Happens (fun _ _ => True) .initial events hook) :
    (hook.bound = true →
      (∃ ws ∈ hook.ws, (hook.sockets ws).attached = true ∧
        (hook.sockets ws).readyState ≠ .closed) ∨ hook.Retrying) ∧
    (∀ timer delay, hook.timers timer = some delay → 100 ≤ delay ∧ delay ≤ 22500 ∧
      (hook.bound = true → ∃ ws ∈ (hook.clearTimeout timer).onTimer.ws,
        ((hook.clearTimeout timer).onTimer.sockets ws).Live)) ∧
    (∀ ws, (hook.sockets ws).Live → hook.mounted = true ∧ hook.ws = some ws) ∧
    Announced hook.everConnected hook.log := by
  have sound := sound_of_run run
  refine ⟨fun bound => ?_, fun timer delay due => ?_, fun ws live => ?_, sound.announced⟩
  · obtain held | retrying := (sound.persists bound).2
    · obtain ⟨ws, isTracked⟩ := Option.ne_none_iff_exists'.mp held
      exact .inl ⟨ws, isTracked, sound.tracked.reports ws isTracked⟩
    · exact .inr retrying
  · obtain ⟨low, high⟩ := sound.prompt timer delay due
    refine ⟨low, high, fun bound => ?_⟩
    have mounted : { hook.clearTimeout timer with timer := none }.mounted = true :=
      (sound.persists bound).1
    exact Tracked.connect_dialled mounted
  · have isTracked := sound.tracked.live ws live
    refine ⟨?_, isTracked⟩
    by_contra unmounted
    rw [sound.tracked.unmounted (by simpa using unmounted)] at isTracked
    contradiction

/-- The tab is shown while the server closes: the successor is up before the old socket is gone. -/
theorem trades_feed_never_parks_across_a_close :
    ∃ hook, Run Happens (fun _ _ => True) .initial
        [.effect true, .opens 0, .closing 0, .visible, .closes 0 0, .opens 1] hook ∧
      hook.log = [.connected 0, .connected 1, .onMessage .resync] ∧ hook.Retrying ∧
      ((∃ ws ∈ hook.ws, (hook.sockets ws).attached = true ∧
        (hook.sockets ws).readyState ≠ .closed) ∨ hook.Retrying) := by
  have run : ∃ hook, Run Happens (fun _ _ => True) .initial
        [.effect true, .opens 0, .closing 0, .visible, .closes 0 0, .opens 1] hook ∧
      hook.log = [.connected 0, .connected 1, .onMessage .resync] ∧ hook.bound = true ∧
      hook.timers 0 = some (reconnectDelayMs 0 0) :=
    ⟨_, .act trivial (.effect true) (.act trivial (.opens rfl) (.act trivial (.closing (by decide))
      (.act trivial (.visible rfl) (.act trivial (.closes (by decide) rfl ⟨le_rfl, one_pos⟩)
        (.act trivial (.opens rfl) (.stop _)))))), rfl, rfl, rfl⟩
  obtain ⟨hook, happened, log, bound, due⟩ := run
  exact ⟨hook, happened, log, ⟨0, _, due⟩, (trades_feed_never_parks happened).1 bound⟩

end Runs

end PredictX.TradesSocket
