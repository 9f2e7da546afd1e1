import PredictX.Websocket.UserSocket

namespace PredictX.UserSocket

open PredictX.SharedSocket (WSStatus ReadyState)

/-! How the registry, the sockets and the timers of a tab refer to one another.

A registered entry and the sockets and retry timers that can still act on it know each other.  What
is left of an entry that has been dropped from the registry has no subscriber to serve, so that
none of its callbacks does anything.
-/

/-- The entries belong to one user each, and their listeners know whose they are. -/
structure Registry (connections : UserId → Option ConnId) (connCount : ℕ)
    (recoveries : List (ConnId × UserId)) : Prop where
  apart : ∀ {user other conn}, connections user = some conn → connections other = some conn →
    user = other
  made : ∀ {user conn}, connections user = some conn → conn < connCount
  bound : ∀ {conn user}, (conn, user) ∈ recoveries →
    conn < connCount ∧ ∀ other, connections other = some conn → other = user

/-- Whoever listens to an entry listens to a registered one. -/
structure Listening (connections : UserId → Option ConnId)
    (subscribers : ConnId → List SubscriberId) : Prop where
  kept : ∀ conn, subscribers conn ≠ [] → ∃ user, connections user = some conn
  distinct : ∀ conn, (subscribers conn).Nodup

/-- A socket that can still run a handler is the one that its user's entry holds. -/
structure Tracking (connections : UserId → Option ConnId) (held : ConnId → Option ℕ)
    (sockets : ℕ → WebSocket) (socketCount : ℕ) : Prop where
  numbered : ∀ ws, socketCount ≤ ws → ¬(sockets ws).Alive
  tracked : ∀ ws, (sockets ws).Alive →
    connections (sockets ws).userId = some (sockets ws).conn ∧ held (sockets ws).conn = some ws
  isHeld : ∀ {user conn ws}, connections user = some conn → held conn = some ws →
    (sockets ws).Alive ∧ (sockets ws).conn = conn

/-- A pending retry is the one that its user's entry holds. -/
structure Timing (connections : UserId → Option ConnId) (retry linger : ConnId → Option TimerId)
    (timers : TimerId → Option Callback) (timerCount : ℕ) : Prop where
  numbered : ∀ timer : ℕ, timerCount ≤ timer → timers timer = none
  pending : ∀ {user conn timer}, connections user = some conn → retry conn = some timer →
    timers timer = some (.retry conn user)
  retries : ∀ {user conn timer}, timers timer = some (.retry conn user) →
    connections user = some conn ∧ retry conn = some timer
  lingers : ∀ {conn} {timer : ℕ}, linger conn = some timer →
    timer < timerCount ∧ ∀ other user, timers timer ≠ some (.retry other user)

section Parts

variable {connections : UserId → Option ConnId} {connCount socketCount timerCount : ℕ}
  {recoveries : List (ConnId × UserId)} {subscribers : ConnId → List SubscriberId}
  {held : ConnId → Option ℕ} {sockets : ℕ → WebSocket} {retry linger : ConnId → Option TimerId}
  {timers : TimerId → Option Callback} {user : UserId} {conn : ConnId} {ws : ℕ}
  {timer : TimerId} {socket : WebSocket}

namespace Registry

theorem fresh (registry : Registry connections connCount recoveries) (user : UserId) :
    connections user ≠ some connCount := by
  intro registered
  exact absurd (registry.made registered) (lt_irrefl _)

theorem enter (registry : Registry connections connCount recoveries) (user : UserId) :
    Registry (Function.update connections user (some connCount)) (connCount + 1) recoveries := by
  have fresh := registry.fresh
  obtain ⟨apart, made, bound⟩ := registry
  constructor
  · intro first second conn
    grind [Function.update_apply]
  · intro first conn
    grind [Function.update_apply]
  · intro conn first member
    obtain ⟨below, only⟩ := bound member
    refine ⟨Nat.lt_succ_of_lt below, fun other registered => only other ?_⟩
    grind [Function.update_apply]

theorem leave (registry : Registry connections connCount recoveries) (user : UserId) :
    Registry (Function.update connections user none) connCount recoveries := by
  obtain ⟨apart, made, bound⟩ := registry
  have before : ∀ {other conn}, Function.update connections user none other = some conn →
      connections other = some conn := by
    intro other conn
    grind [Function.update_apply]
  exact ⟨fun first second => apart (before first) (before second),
    fun registered => made (before registered),
    fun member => ⟨(bound member).1,
      fun other registered => (bound member).2 other (before registered)⟩⟩

theorem bind (registry : Registry connections connCount recoveries)
    (registered : connections user = some conn) :
    Registry connections connCount (recoveries ++ [(conn, user)]) := by
  refine ⟨registry.apart, registry.made, fun member => ?_⟩
  obtain before | same := List.mem_append.mp member
  · exact registry.bound before
  · cases List.mem_singleton.mp same
    exact ⟨registry.made registered, fun other owner => registry.apart owner registered⟩

end Registry

namespace Listening

theorem enter (listening : Listening connections subscribers) (absent : connections user = none) :
    Listening (Function.update connections user (some conn))
      (Function.update subscribers conn []) := by
  constructor
  · intro other listened
    by_cases same : other = conn
    · exact ⟨user, by rw [same, Function.update_self]⟩
    · rw [Function.update_of_ne same] at listened
      obtain ⟨owner, registered⟩ := listening.kept other listened
      refine ⟨owner, ?_⟩
      rw [Function.update_of_ne, registered]
      rintro rfl
      exact absurd (absent.symm.trans registered) (Option.some_ne_none _).symm
  · intro other
    by_cases same : other = conn
    · rw [same, Function.update_self]
      exact List.nodup_nil
    · rw [Function.update_of_ne same]
      exact listening.distinct other

theorem leave (listening : Listening connections subscribers)
    (registered : connections user = some conn) (unheard : subscribers conn = []) :
    Listening (Function.update connections user none) subscribers := by
  refine ⟨fun other listened => ?_, listening.distinct⟩
  obtain ⟨owner, owned⟩ := listening.kept other listened
  refine ⟨owner, ?_⟩
  rw [Function.update_of_ne, owned]
  rintro rfl
  cases owned.symm.trans registered
  exact listened unheard

theorem change (listening : Listening connections subscribers)
    (registered : connections user = some conn) {list : List SubscriberId} (distinct : list.Nodup) :
    Listening connections (Function.update subscribers conn list) := by
  constructor
  · intro other listened
    by_cases same : other = conn
    · exact ⟨user, same ▸ registered⟩
    · rw [Function.update_of_ne same] at listened
      exact listening.kept other listened
  · intro other
    by_cases same : other = conn
    · rw [same, Function.update_self]
      exact distinct
    · rw [Function.update_of_ne same]
      exact listening.distinct other

end Listening

namespace Tracking

theorem enter (tracking : Tracking connections held sockets socketCount)
    (absent : connections user = none) (fresh : ∀ other, connections other ≠ some conn) :
    Tracking (Function.update connections user (some conn)) (Function.update held conn none) sockets
      socketCount := by
  refine ⟨tracking.numbered, fun ws alive => ?_, fun {other entry ws} registered holds => ?_⟩
  · obtain ⟨registered, holds⟩ := tracking.tracked ws alive
    have elsewhere : (sockets ws).conn ≠ conn := fun same => fresh _ (same ▸ registered)
    rw [Function.update_of_ne elsewhere, Function.update_of_ne]
    · exact ⟨registered, holds⟩
    · intro same
      rw [same, absent] at registered
      contradiction
  · by_cases same : entry = conn
    · rw [same, Function.update_self] at holds
      contradiction
    · rw [Function.update_of_ne same] at holds
      rw [Function.update_apply] at registered
      split at registered
      · exact absurd (Option.some.inj registered).symm same
      · exact tracking.isHeld registered holds

theorem leave (tracking : Tracking connections held sockets socketCount)
    (registered : connections user = some conn) (dropped : held conn = none) :
    Tracking (Function.update connections user none) held sockets socketCount := by
  refine ⟨tracking.numbered, fun ws alive => ?_, fun {other entry ws} owned holds => ?_⟩
  · obtain ⟨owned, holds⟩ := tracking.tracked ws alive
    refine ⟨?_, holds⟩
    rw [Function.update_of_ne, owned]
    intro same
    rw [same, registered] at owned
    rw [← Option.some.inj owned, dropped] at holds
    contradiction
  · rw [Function.update_apply] at owned
    split at owned
    · contradiction
    · exact tracking.isHeld owned holds

theorem connect (tracking : Tracking connections held sockets socketCount)
    (registered : connections user = some conn) (unheld : held conn = none) :
    Tracking connections (Function.update held conn (some socketCount))
      (Function.update sockets socketCount ⟨user, conn, .connecting, true, []⟩)
      (socketCount + 1) := by
  have numbered := tracking.numbered
  constructor
  · intro ws above
    rw [Function.update_of_ne (by omega)]
    exact numbered ws (by omega)
  · intro ws alive
    by_cases same : ws = socketCount
    · rw [same, Function.update_self, Function.update_self]
      exact ⟨registered, rfl⟩
    · rw [Function.update_of_ne same] at alive ⊢
      obtain ⟨owned, holds⟩ := tracking.tracked ws alive
      refine ⟨owned, ?_⟩
      rw [Function.update_of_ne, holds]
      intro here
      rw [here, unheld] at holds
      contradiction
  · intro other entry ws owned holds
    by_cases same : entry = conn
    · rw [same, Function.update_self] at holds
      rw [← Option.some.inj holds, Function.update_self]
      exact ⟨⟨rfl, nofun⟩, same.symm⟩
    · rw [Function.update_of_ne same] at holds
      have alive := tracking.isHeld owned holds
      rw [Function.update_of_ne]
      · exact alive
      · rintro rfl
        exact numbered _ le_rfl alive.1

/-- The entry's socket is lost, or detached. -/
theorem lose (tracking : Tracking connections held sockets socketCount)
    (registered : connections user = some conn) (holds : held conn = some ws)
    (dead : ¬socket.Alive) :
    Tracking connections (Function.update held conn none) (Function.update sockets ws socket)
      socketCount := by
  constructor
  · intro other above
    rw [Function.update_apply]
    split
    · exact dead
    · exact tracking.numbered other above
  · intro other alive
    by_cases same : other = ws
    · rw [same, Function.update_self] at alive
      exact absurd alive dead
    · rw [Function.update_of_ne same] at alive ⊢
      obtain ⟨owned, otherHolds⟩ := tracking.tracked other alive
      refine ⟨owned, ?_⟩
      rw [Function.update_of_ne, otherHolds]
      intro here
      rw [here, holds] at otherHolds
      exact same (Option.some.inj otherHolds).symm
  · intro other entry held' owned otherHolds
    by_cases same : entry = conn
    · rw [same, Function.update_self] at otherHolds
      contradiction
    · rw [Function.update_of_ne same] at otherHolds
      obtain ⟨alive, isEntry⟩ := tracking.isHeld owned otherHolds
      rw [Function.update_of_ne]
      · exact ⟨alive, isEntry⟩
      · rintro rfl
        exact same (isEntry.symm.trans (tracking.isHeld registered holds).2)

/-- A socket that goes on as it was for whoever holds it. -/
theorem goOn (tracking : Tracking connections held sockets socketCount)
    (alive : socket.Alive ↔ (sockets ws).Alive) (conn : socket.conn = (sockets ws).conn)
    (userId : socket.userId = (sockets ws).userId) :
    Tracking connections held (Function.update sockets ws socket) socketCount := by
  have same : ∀ other, ((Function.update sockets ws socket other).Alive ↔ (sockets other).Alive) ∧
      (Function.update sockets ws socket other).conn = (sockets other).conn ∧
      (Function.update sockets ws socket other).userId = (sockets other).userId := by
    intro other
    rw [Function.update_apply]
    split
    · rename_i here
      exact here ▸ ⟨alive, conn, userId⟩
    · exact ⟨Iff.rfl, rfl, rfl⟩
  constructor
  · intro other above lives
    exact tracking.numbered other above ((same other).1.mp lives)
  · intro other lives
    rw [(same other).2.1, (same other).2.2]
    exact tracking.tracked other ((same other).1.mp lives)
  · intro owner entry other registered holds
    rw [(same other).1, (same other).2.1]
    exact tracking.isHeld registered holds

end Tracking

namespace Timing

theorem enter (timing : Timing connections retry linger timers timerCount)
    (absent : connections user = none) (fresh : ∀ other, connections other ≠ some conn) :
    Timing (Function.update connections user (some conn)) (Function.update retry conn none)
      (Function.update linger conn none) timers timerCount := by
  refine ⟨timing.numbered, fun {other entry timer} registered due => ?_,
    fun {other entry timer} isRetry => ?_, fun {entry timer} lingering => ?_⟩
  · by_cases same : entry = conn
    · rw [same, Function.update_self] at due
      contradiction
    · rw [Function.update_of_ne same] at due
      rw [Function.update_apply] at registered
      split at registered
      · exact absurd (Option.some.inj registered).symm same
      · exact timing.pending registered due
  · obtain ⟨registered, due⟩ := timing.retries isRetry
    rw [Function.update_of_ne, Function.update_of_ne]
    · exact ⟨registered, due⟩
    · rintro rfl
      exact fresh _ registered
    · rintro rfl
      exact absurd (absent.symm.trans registered) (Option.some_ne_none _).symm
  · rw [Function.update_apply] at lingering
    split at lingering
    · contradiction
    · exact timing.lingers lingering

/-- The entry has no retry left when it is dropped. -/
theorem leave (timing : Timing connections retry linger timers timerCount)
    (registered : connections user = some conn) {left : TimerId → Option Callback}
    (shrinks : ∀ timer callback, left timer = some callback → timers timer = some callback)
    (cleared : ∀ timer ∈ retry conn, left timer = none)
    (others : ∀ timer, retry conn ≠ some timer → left timer = timers timer)
    (apart : ∀ {other}, connections other = some conn → other = user) :
    Timing (Function.update connections user none) retry linger left timerCount := by
  constructor
  · intro timer above
    have none_ := timing.numbered timer above
    cases isLeft : left timer with
    | none => rfl
    | some callback =>
        exact absurd (none_.symm.trans (shrinks _ _ isLeft)) (Option.some_ne_none _).symm
  · intro other entry timer owned due
    rw [Function.update_apply] at owned
    split at owned
    · contradiction
    · rename_i otherUser
      have isRetry := timing.pending owned due
      rw [others timer, isRetry]
      intro same
      cases (timing.pending registered same).symm.trans isRetry
      exact otherUser rfl
  · intro other entry timer isRetry
    obtain ⟨owned, due⟩ := timing.retries (shrinks _ _ isRetry)
    refine ⟨?_, due⟩
    rw [Function.update_of_ne, owned]
    rintro rfl
    cases registered.symm.trans owned
    exact absurd (isRetry.symm.trans (cleared timer due)) (Option.some_ne_none _)
  · intro entry timer lingering
    obtain ⟨below, notRetry⟩ := timing.lingers lingering
    exact ⟨below, fun other owner isRetry => notRetry other owner (shrinks _ _ isRetry)⟩

/-- The entry's retry fires, or is cleared. -/
theorem endRetry (timing : Timing connections retry linger timers timerCount)
    (registered : connections user = some conn) (due : retry conn = some timer) :
    Timing connections (Function.update retry conn none) linger (Function.update timers timer none)
      timerCount := by
  have isRetry := timing.pending registered due
  constructor
  · intro other above
    rw [Function.update_apply]
    split
    · rfl
    · exact timing.numbered other above
  · intro other entry later owned laterDue
    by_cases same : entry = conn
    · rw [same, Function.update_self] at laterDue
      contradiction
    · rw [Function.update_of_ne same] at laterDue
      have laterRetry := timing.pending owned laterDue
      rw [Function.update_of_ne, laterRetry]
      rintro rfl
      cases isRetry.symm.trans laterRetry
      exact same rfl
  · intro other entry later laterRetry
    rw [Function.update_apply] at laterRetry
    split at laterRetry
    · contradiction
    · rename_i different
      obtain ⟨owned, laterDue⟩ := timing.retries laterRetry
      refine ⟨owned, ?_⟩
      rw [Function.update_of_ne, laterDue]
      rintro rfl
      exact different (Option.some.inj (laterDue.symm.trans due))
  · intro entry later lingering
    obtain ⟨below, notRetry⟩ := timing.lingers lingering
    refine ⟨below, fun other owner laterRetry => ?_⟩
    rw [Function.update_apply] at laterRetry
    split at laterRetry
    · contradiction
    · exact notRetry other owner laterRetry

theorem setRetry (timing : Timing connections retry linger timers timerCount)
    (registered : connections user = some conn) (idle : retry conn = none)
    (apart : ∀ {other}, connections other = some conn → other = user) :
    Timing connections (Function.update retry conn (some timerCount)) linger
      (Function.update timers timerCount (some (.retry conn user))) (timerCount + 1) := by
  have unused := timing.numbered
  constructor
  · intro other above
    rw [Function.update_of_ne (Nat.ne_of_gt above)]
    exact unused other (by omega)
  · intro other entry later owned laterDue
    by_cases same : entry = conn
    · subst same
      rw [Function.update_self] at laterDue
      rw [← Option.some.inj laterDue, Function.update_self, apart owned]
    · rw [Function.update_of_ne same] at laterDue
      have laterRetry := timing.pending owned laterDue
      rw [Function.update_of_ne, laterRetry]
      rintro rfl
      rw [unused _ le_rfl] at laterRetry
      contradiction
  · intro other entry later laterRetry
    by_cases same : later = timerCount
    · rw [same, Function.update_self] at laterRetry
      cases laterRetry
      rw [Function.update_self, same]
      exact ⟨registered, rfl⟩
    · rw [Function.update_of_ne same] at laterRetry
      obtain ⟨owned, laterDue⟩ := timing.retries laterRetry
      refine ⟨owned, ?_⟩
      rw [Function.update_of_ne, laterDue]
      rintro rfl
      exact absurd (idle.symm.trans laterDue) (Option.some_ne_none _).symm
  · intro entry later lingering
    obtain ⟨below, notRetry⟩ := timing.lingers lingering
    rw [Function.update_of_ne (Nat.ne_of_lt below)]
    exact ⟨by omega, notRetry⟩

/-- A linger timer fires, or a handle that is no retry's is cleared. -/
theorem clear (timing : Timing connections retry linger timers timerCount)
    (notRetry : ∀ other owner, timers timer ≠ some (.retry other owner)) :
    Timing connections retry linger (Function.update timers timer none) timerCount := by
  have before : ∀ {later other owner},
      Function.update timers timer none later = some (.retry other owner) →
        timers later = some (.retry other owner) := by
    intro later other owner isRetry
    rw [Function.update_apply] at isRetry
    split at isRetry
    · contradiction
    · exact isRetry
  constructor
  · intro other above
    rw [Function.update_apply]
    split
    · rfl
    · exact timing.numbered other above
  · intro other entry later owned due
    have isRetry := timing.pending owned due
    rw [Function.update_of_ne, isRetry]
    rintro rfl
    exact notRetry _ _ isRetry
  · intro other entry later isRetry
    exact timing.retries (before isRetry)
  · intro entry later lingering
    obtain ⟨below, other⟩ := timing.lingers lingering
    exact ⟨below, fun entry owner isRetry => other entry owner (before isRetry)⟩

theorem unlinger (timing : Timing connections retry linger timers timerCount) (conn : ConnId) :
    Timing connections retry (Function.update linger conn none) timers timerCount := by
  refine ⟨timing.numbered, timing.pending, timing.retries, fun {entry timer} lingering => ?_⟩
  rw [Function.update_apply] at lingering
  split at lingering
  · contradiction
  · exact timing.lingers lingering

theorem setLinger (timing : Timing connections retry linger timers timerCount) (conn : ConnId)
    (user : UserId) :
    Timing connections retry (Function.update linger conn (some timerCount))
      (Function.update timers timerCount (some (.linger user))) (timerCount + 1) := by
  have unused := timing.numbered
  have before : ∀ {later other owner},
      Function.update timers timerCount (some (.linger user)) later = some (.retry other owner) →
        timers later = some (.retry other owner) := by
    intro later other owner isRetry
    rw [Function.update_apply] at isRetry
    split at isRetry
    · cases isRetry
    · exact isRetry
  constructor
  · intro other above
    rw [Function.update_of_ne (Nat.ne_of_gt above)]
    exact unused other (by omega)
  · intro other entry later owned due
    have isRetry := timing.pending owned due
    rw [Function.update_of_ne, isRetry]
    rintro rfl
    rw [unused _ le_rfl] at isRetry
    contradiction
  · intro other entry later isRetry
    exact timing.retries (before isRetry)
  · intro entry later lingering
    rw [Function.update_apply] at lingering
    split at lingering
    · cases lingering
      rw [Function.update_self]
      exact ⟨by omega, fun _ _ isRetry => by cases isRetry⟩
    · obtain ⟨below, notRetry⟩ := timing.lingers lingering
      exact ⟨by omega, fun other owner isRetry => notRetry other owner (before isRetry)⟩

end Timing

end Parts

/-- No retry is pending while there is a socket. -/
def SharedConnection.Alone (entry : SharedConnection) : Prop :=
  entry.ws ≠ none → entry.retry = none

structure Linked (tab : Tab) : Prop where
  registry : Registry tab.connections tab.connCount tab.recoveries
  listening : Listening tab.connections (SharedConnection.subscribers ∘ tab.conns)
  tracking : Tracking tab.connections (SharedConnection.ws ∘ tab.conns) tab.sockets tab.socketCount
  timing : Timing tab.connections (SharedConnection.retry ∘ tab.conns)
    (SharedConnection.linger ∘ tab.conns) tab.timers tab.timerCount
  alone : ∀ conn, (tab.conns conn).Alone

section Steps

variable {tab : Tab} {conn : ConnId} {user : UserId} {ws : ℕ} {timer : TimerId}
  {update : SharedConnection → SharedConnection}

theorem atConn_self (same : update (tab.conns conn) = tab.conns conn) :
    tab.atConn conn update = tab := by
  unfold Tab.atConn
  rw [same, Function.update_eq_self]

theorem column_atConn (tab : Tab) (conn : ConnId) {β : Type} (column : SharedConnection → β) :
    column ∘ (tab.atConn conn update).conns =
      Function.update (column ∘ tab.conns) conn (column (update (tab.conns conn))) :=
  Function.comp_update _ _ _ _

theorem column_kept (tab : Tab) (conn : ConnId) {β : Type} (column : SharedConnection → β)
    (same : column (update (tab.conns conn)) = column (tab.conns conn)) :
    column ∘ (tab.atConn conn update).conns = column ∘ tab.conns := by
  rw [column_atConn, same]
  exact Function.update_eq_self conn (column ∘ tab.conns)

theorem conns_atConn (tab : Tab) (conn other : ConnId)
    (update : SharedConnection → SharedConnection) :
    (tab.atConn conn update).conns other =
      if other = conn then update (tab.conns conn) else tab.conns other :=
  Function.update_apply _ _ _ _

theorem conn_atConn (tab : Tab) (conn : ConnId) (update : SharedConnection → SharedConnection) :
    (tab.atConn conn update).conns conn = update (tab.conns conn) :=
  Function.update_self _ _ _

theorem forall_atConn {holds : SharedConnection → Prop}
    (update : SharedConnection → SharedConnection) (here : holds (update (tab.conns conn)))
    (others : ∀ other, holds (tab.conns other)) (other : ConnId) :
    holds ((tab.atConn conn update).conns other) := by
  rw [conns_atConn]
  split
  · exact here
  · exact others other

theorem setStatus_eq (tab : Tab) (conn : ConnId) (status : WSStatus) :
    ∃ calls : List SubscriberId, tab.setStatus conn status =
      (tab.atConn conn ({ · with status })).note (calls.map (.onStatus · status)) := by
  unfold Tab.setStatus
  split
  · rename_i same
    subst same
    have unchanged : tab.atConn conn (fun entry => { entry with status := (tab.conns conn).status }) =
        tab := atConn_self rfl
    exact ⟨[], by rw [unchanged]; simp [Tab.note]⟩
  · exact ⟨_, rfl⟩

theorem Linked.note (linked : Linked tab) (calls : List Entry) : Linked (tab.note calls) :=
  ⟨linked.registry, linked.listening, linked.tracking, linked.timing, linked.alone⟩

/-- The entry refers to its subscribers, socket and timers as it did. -/
theorem Linked.atConn (linked : Linked tab)
    (subscribers : (update (tab.conns conn)).subscribers = (tab.conns conn).subscribers)
    (socket : (update (tab.conns conn)).ws = (tab.conns conn).ws)
    (retry : (update (tab.conns conn)).retry = (tab.conns conn).retry)
    (linger : (update (tab.conns conn)).linger = (tab.conns conn).linger) :
    Linked (tab.atConn conn update) := by
  refine ⟨linked.registry, ?_, ?_, ?_, forall_atConn _ ?_ linked.alone⟩
  · rw [column_kept _ _ _ subscribers]
    exact linked.listening
  · rw [column_kept _ _ _ socket]
    exact linked.tracking
  · rw [column_kept _ _ _ retry, column_kept _ _ _ linger]
    exact linked.timing
  · intro held
    rw [retry]
    exact linked.alone conn (socket ▸ held)

theorem Linked.setStatus (linked : Linked tab) (conn : ConnId) (status : WSStatus) :
    Linked (tab.setStatus conn status) := by
  obtain ⟨calls, same⟩ := setStatus_eq tab conn status
  rw [same]
  exact (linked.atConn rfl rfl rfl rfl).note _

/-- A new socket for an entry that has none and expects none. -/
theorem Linked.openSocket (linked : Linked tab) (registered : tab.connections user = some conn)
    (unheld : (tab.conns conn).ws = none) (idle : (tab.conns conn).retry = none) :
    Linked (tab.openSocket conn user) := by
  obtain ⟨calls, same⟩ := setStatus_eq tab conn .connecting
  have announced := linked.setStatus conn .connecting
  unfold Tab.openSocket
  rw [same] at announced ⊢
  refine ⟨announced.registry, ?_, ?_, ?_, forall_atConn _ ?_ announced.alone⟩
  · rw [column_kept _ _ _ rfl]
    exact announced.listening
  · rw [column_atConn]
    refine announced.tracking.connect registered ?_
    simpa [Tab.note, Tab.atConn] using unheld
  · rw [column_kept _ _ _ rfl, column_kept _ _ _ rfl]
    exact announced.timing
  · intro _
    simpa [Tab.note, Tab.atConn, Tab.newSocket] using idle

/-- The entry's socket is lost, or given up. -/
theorem Linked.lose (linked : Linked tab) (registered : tab.connections user = some conn)
    (held : (tab.conns conn).ws = some ws) (change : WebSocket → WebSocket)
    (update : SharedConnection → SharedConnection) (dead : ¬(change (tab.sockets ws)).Alive)
    (subscribers : (update (tab.conns conn)).subscribers = (tab.conns conn).subscribers)
    (socket : (update (tab.conns conn)).ws = none)
    (retry : (update (tab.conns conn)).retry = (tab.conns conn).retry)
    (linger : (update (tab.conns conn)).linger = (tab.conns conn).linger) :
    Linked ((tab.atSocket ws change).atConn conn update) := by
  refine ⟨linked.registry, ?_, ?_, ?_, forall_atConn _ ?_ linked.alone⟩
  · rw [column_kept (tab.atSocket ws change) conn _ subscribers]
    exact linked.listening
  · rw [column_atConn]
    have lost := linked.tracking.lose registered held dead
    rw [← socket] at lost
    exact lost
  · rw [column_kept (tab.atSocket ws change) conn _ retry,
      column_kept (tab.atSocket ws change) conn _ linger]
    exact linked.timing
  · intro holds
    exact absurd socket holds

/-- The entry gives up the socket that it holds, if it holds one. -/
theorem Linked.drop (linked : Linked tab) (registered : tab.connections user = some conn)
    (update : SharedConnection → SharedConnection)
    (subscribers : (update (tab.conns conn)).subscribers = (tab.conns conn).subscribers)
    (socket : (update (tab.conns conn)).ws = none)
    (retry : (update (tab.conns conn)).retry = (tab.conns conn).retry)
    (linger : (update (tab.conns conn)).linger = (tab.conns conn).linger) :
    Linked ((tab.drop (tab.conns conn).ws).atConn conn update) := by
  cases held : (tab.conns conn).ws with
  | none => exact linked.atConn subscribers (socket.trans held.symm) retry linger
  | some ws =>
      refine linked.lose registered held _ _ ?_ subscribers socket retry linger
      rintro ⟨attached, -⟩
      unfold WebSocket.close WebSocket.detach WebSocket.becomes at attached
      split at attached <;> contradiction

/-- The entry's retry timer is over. -/
theorem Linked.endRetry (linked : Linked tab) (registered : tab.connections user = some conn)
    (due : (tab.conns conn).retry = some timer) :
    Linked ((tab.clearTimeout timer).atConn conn ({ · with retry := none })) := by
  refine ⟨linked.registry, ?_, ?_, ?_, forall_atConn _ (fun _ => rfl) linked.alone⟩
  · rw [column_kept _ _ _ rfl]
    exact linked.listening
  · rw [column_kept _ _ _ rfl]
    exact linked.tracking
  · rw [column_kept _ _ SharedConnection.linger rfl, column_atConn]
    exact linked.timing.endRetry registered due

theorem Linked.clearRetry (linked : Linked tab) (registered : tab.connections user = some conn) :
    Linked (tab.clearRetry conn) := by
  unfold Tab.clearRetry
  split
  · exact linked
  · rename_i timer due
    exact linked.endRetry registered due

/-- The entry has lost its socket and waits for another. -/
theorem Linked.setRetry (linked : Linked tab) (registered : tab.connections user = some conn)
    (unheld : (tab.conns conn).ws = none) (idle : (tab.conns conn).retry = none) :
    Linked ((tab.setTimeout (.retry conn user)).atConn conn fun entry =>
      { entry with retries := entry.retries + 1, retry := some tab.timerCount }) := by
  refine ⟨linked.registry, ?_, ?_, ?_, forall_atConn _ (fun held => absurd unheld held) linked.alone⟩
  · rw [column_kept _ _ _ rfl]
    exact linked.listening
  · rw [column_kept _ _ _ rfl]
    exact linked.tracking
  · rw [column_kept _ _ SharedConnection.linger rfl, column_atConn]
    exact linked.timing.setRetry registered idle fun owner => linked.registry.apart owner registered

theorem Linked.clearLinger (linked : Linked tab) (conn : ConnId) :
    Linked (tab.clearLinger conn) := by
  unfold Tab.clearLinger
  split
  · exact linked
  · rename_i timer lingering
    refine ⟨linked.registry, ?_, ?_, ?_, forall_atConn _ (linked.alone conn) linked.alone⟩
    · rw [column_kept _ _ _ rfl]
      exact linked.listening
    · rw [column_kept _ _ _ rfl]
      exact linked.tracking
    · rw [column_kept _ _ SharedConnection.retry rfl, column_atConn]
      exact (linked.timing.clear (linked.timing.lingers lingering).2).unlinger conn

theorem Linked.setLinger (linked : Linked tab) (conn : ConnId) (user : UserId) :
    Linked ((tab.setTimeout (.linger user)).atConn conn
      ({ · with linger := some tab.timerCount })) := by
  refine ⟨linked.registry, ?_, ?_, ?_, forall_atConn _ (linked.alone conn) linked.alone⟩
  · rw [column_kept _ _ _ rfl]
    exact linked.listening
  · rw [column_kept _ _ _ rfl]
    exact linked.tracking
  · rw [column_kept _ _ SharedConnection.retry rfl, column_atConn]
    exact linked.timing.setLinger conn user

/-- The entry is listened to by others. -/
theorem Linked.listen (linked : Linked tab) (registered : tab.connections user = some conn)
    (change : List SubscriberId → List SubscriberId)
    (distinct : (change (tab.conns conn).subscribers).Nodup) :
    Linked (tab.atConn conn fun entry =>
      { entry with subscribers := change entry.subscribers }) := by
  refine ⟨linked.registry, ?_, ?_, ?_, forall_atConn _ (linked.alone conn) linked.alone⟩
  · rw [column_atConn]
    exact linked.listening.change registered distinct
  · rw [column_kept _ _ _ rfl]
    exact linked.tracking
  · rw [column_kept _ _ _ rfl, column_kept _ _ _ rfl]
    exact linked.timing

theorem Linked.bindRecovery (linked : Linked tab) (registered : tab.connections user = some conn) :
    Linked (tab.bindRecovery conn user) := by
  unfold Tab.bindRecovery
  split
  · exact linked
  · have bound : Linked { tab with recoveries := tab.recoveries ++ [(conn, user)] } :=
      ⟨linked.registry.bind registered, linked.listening, linked.tracking, linked.timing,
        linked.alone⟩
    exact bound.atConn rfl rfl rfl rfl

theorem Linked.entryOf (linked : Linked tab) (user : UserId) : Linked (tab.entryOf user).2 := by
  unfold Tab.entryOf
  split
  · exact linked
  · rename_i absent
    have fresh := linked.registry.fresh
    refine ⟨linked.registry.enter user, ?_, ?_, ?_,
      forall_atConn (fun _ => createConnection) (fun _ => rfl) linked.alone⟩
    · dsimp only
      rw [Function.comp_update]
      exact linked.listening.enter absent
    · dsimp only
      rw [Function.comp_update]
      exact linked.tracking.enter absent fresh
    · dsimp only
      rw [Function.comp_update, Function.comp_update]
      exact linked.timing.enter absent fresh

/-- The socket goes on as it was for whoever holds it. -/
theorem Linked.atSocket (linked : Linked tab) {change : WebSocket → WebSocket}
    (alive : (change (tab.sockets ws)).Alive ↔ (tab.sockets ws).Alive)
    (conn : (change (tab.sockets ws)).conn = (tab.sockets ws).conn)
    (userId : (change (tab.sockets ws)).userId = (tab.sockets ws).userId) :
    Linked (tab.atSocket ws change) :=
  ⟨linked.registry, linked.listening, linked.tracking.goOn alive conn userId, linked.timing,
    linked.alone⟩

theorem stopRetry_conns (tab : Tab) (conn : ConnId) : (tab.stopRetry conn).conns = tab.conns := by
  unfold Tab.stopRetry
  split <;> rfl

theorem drop_conns (tab : Tab) (held : Option ℕ) : (tab.drop held).conns = tab.conns := by
  unfold Tab.drop
  split <;> rfl

/-- The entry leaves the registry with nothing that could act on it. -/
theorem Linked.leave (linked : Linked tab) (registered : tab.connections user = some conn)
    (nobody : (tab.conns conn).subscribers = []) (unheld : (tab.conns conn).ws = none) :
    Linked ((tab.delete user).stopRetry conn) := by
  have apart : ∀ {other}, tab.connections other = some conn → other = user :=
    fun owner => linked.registry.apart owner registered
  have tracking := linked.tracking.leave registered unheld
  have listening := linked.listening.leave registered nobody
  unfold Tab.stopRetry
  split
  · rename_i idle
    refine ⟨linked.registry.leave user, listening, tracking,
      linked.timing.leave registered (fun _ _ => id) ?_ (fun _ _ => rfl) apart, linked.alone⟩
    intro timer due
    exact absurd (idle.symm.trans due) (Option.some_ne_none timer).symm
  · rename_i timer due
    refine ⟨linked.registry.leave user, listening, tracking,
      linked.timing.leave registered ?_ ?_ ?_ apart, linked.alone⟩
    · intro other callback isLeft
      dsimp only [Tab.clearTimeout] at isLeft
      rw [Function.update_apply] at isLeft
      split at isLeft
      · contradiction
      · exact isLeft
    · intro other isOther
      cases due.symm.trans isOther
      exact Function.update_self _ _ _
    · intro other isOther
      refine Function.update_of_ne ?_ _ _
      rintro rfl
      exact isOther due

end Steps

end PredictX.UserSocket
