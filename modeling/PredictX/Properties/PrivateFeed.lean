import PredictX.Data.Run
import PredictX.Websocket.UserLinks

namespace PredictX.UserSocket

open PredictX.Data
open PredictX.SharedSocket (WSStatus ReadyState)

/-! One socket for a user's private feed, and never none that is not being replaced. -/

/-- Whoever listens to the entry has a socket, or one is on its way. -/
def SharedConnection.Serves (entry : SharedConnection) : Prop :=
  entry.subscribers ≠ [] → entry.ws ≠ none ∨ entry.retry ≠ none

def Served (tab : Tab) : Prop :=
  ∀ conn, (tab.conns conn).Serves

/-- The call neither is a resync nor records that an entry has connected. -/
def Entry.Quiet : Entry → Prop
  | .onMessage _ .resync => False
  | .onMessage _ (.server _) => True
  | .onStatus _ _ => True
  | .opened _ _ => False

/-- Nothing connects, and no subscriber is told to resync. -/
structure Quiet (tab after : Tab) : Prop where
  log : ∃ calls, after.log = tab.log ++ calls ∧ ∀ call ∈ calls, call.Quiet
  conns : ∀ conn, (after.conns conn).everConnected = (tab.conns conn).everConnected
  grows : tab.connCount ≤ after.connCount
  registered : ∀ user conn, conn < tab.connCount → after.connections user = some conn →
    tab.connections user = some conn

section Quiet

variable {tab middle after : Tab} {conn : ConnId}

theorem Quiet.of_silent (log : after.log = tab.log)
    (conns : ∀ conn, (after.conns conn).everConnected = (tab.conns conn).everConnected)
    (grows : tab.connCount = after.connCount) (connections : after.connections = tab.connections) :
    Quiet tab after :=
  ⟨⟨[], by rw [log, List.append_nil], by simp⟩, conns, grows.le,
    fun _ _ _ registered => connections ▸ registered⟩

theorem Quiet.refl (tab : Tab) : Quiet tab tab :=
  .of_silent rfl (fun _ => rfl) rfl rfl

theorem Quiet.trans (first : Quiet tab middle) (second : Quiet middle after) : Quiet tab after := by
  obtain ⟨calls, isMiddle, quiet⟩ := first.log
  obtain ⟨more, isAfter, moreQuiet⟩ := second.log
  refine ⟨⟨calls ++ more, by rw [isAfter, isMiddle, List.append_assoc], ?_⟩, ?_,
    first.grows.trans second.grows, ?_⟩
  · intro call member
    obtain early | late := List.mem_append.mp member
    · exact quiet call early
    · exact moreQuiet call late
  · intro conn
    rw [second.conns, first.conns]
  · intro user conn below registered
    exact first.registered user conn below
      (second.registered user conn (below.trans_le first.grows) registered)

theorem quiet_note (tab : Tab) {calls : List Entry} (quiet : ∀ call ∈ calls, call.Quiet) :
    Quiet tab (tab.note calls) :=
  ⟨⟨calls, rfl, quiet⟩, fun _ => rfl, le_rfl, fun _ _ _ registered => registered⟩

theorem quiet_atConn (tab : Tab) (conn : ConnId) {update : SharedConnection → SharedConnection}
    (same : (update (tab.conns conn)).everConnected = (tab.conns conn).everConnected) :
    Quiet tab (tab.atConn conn update) := by
  refine .of_silent rfl (fun other => ?_) rfl rfl
  unfold Tab.atConn
  dsimp only
  rw [Function.update_apply]
  split
  · rename_i here
    rw [same, here]
  · rfl

end Quiet

/-! # What an operation on one entry leaves alone -/

/-- Only this entry has changed, and quietly. -/
structure Within (conn : ConnId) (tab after : Tab) : Prop where
  connections : after.connections = tab.connections
  others : ∀ other, other ≠ conn → after.conns other = tab.conns other
  quiet : Quiet tab after

namespace Within

variable {tab middle after : Tab} {conn : ConnId}

theorem refl (conn : ConnId) (tab : Tab) : Within conn tab tab :=
  ⟨rfl, fun _ _ => rfl, .refl tab⟩

theorem trans (first : Within conn tab middle) (second : Within conn middle after) :
    Within conn tab after :=
  ⟨second.connections.trans first.connections,
    fun other elsewhere => (second.others other elsewhere).trans (first.others other elsewhere),
    first.quiet.trans second.quiet⟩

/-- No entry has changed. -/
theorem of_same (connections : after.connections = tab.connections) (conns : after.conns = tab.conns)
    (connCount : after.connCount = tab.connCount) (log : after.log = tab.log) :
    Within conn tab after :=
  ⟨connections, fun other _ => congrFun conns other,
    .of_silent log (fun other => by rw [conns]) connCount.symm connections⟩

theorem atConn (tab : Tab) (update : SharedConnection → SharedConnection)
    (same : (update (tab.conns conn)).everConnected = (tab.conns conn).everConnected) :
    Within conn tab (tab.atConn conn update) :=
  ⟨rfl, fun other elsewhere => by rw [conns_atConn, if_neg elsewhere], quiet_atConn tab conn same⟩

theorem note (tab : Tab) {calls : List Entry} (quiet : ∀ call ∈ calls, call.Quiet) :
    Within conn tab (tab.note calls) :=
  ⟨rfl, fun _ _ => rfl, quiet_note tab quiet⟩

theorem setStatus (tab : Tab) (status : WSStatus) :
    Within conn tab (tab.setStatus conn status) := by
  obtain ⟨calls, same⟩ := setStatus_eq tab conn status
  rw [same]
  refine (atConn tab _ rfl).trans (note _ ?_)
  intro call member
  obtain ⟨subscriber, -, rfl⟩ := List.mem_map.mp member
  trivial

theorem newSocket (tab : Tab) (socket : WebSocket) : Within conn tab (tab.newSocket socket) :=
  of_same rfl rfl rfl rfl

theorem setTimeout (tab : Tab) (callback : Callback) : Within conn tab (tab.setTimeout callback) :=
  of_same rfl rfl rfl rfl

theorem clearTimeout (tab : Tab) (timer : TimerId) : Within conn tab (tab.clearTimeout timer) :=
  of_same rfl rfl rfl rfl

theorem atSocket (tab : Tab) (ws : ℕ) (change : WebSocket → WebSocket) :
    Within conn tab (tab.atSocket ws change) :=
  of_same rfl rfl rfl rfl

theorem openSocket (tab : Tab) (user : UserId) : Within conn tab (tab.openSocket conn user) := by
  unfold Tab.openSocket
  exact ((setStatus tab .connecting).trans (newSocket _ _)).trans (atConn _ _ rfl)

theorem clearRetry (tab : Tab) : Within conn tab (tab.clearRetry conn) := by
  unfold Tab.clearRetry
  split
  · exact refl conn tab
  · exact (clearTimeout tab _).trans (atConn _ _ rfl)

theorem stopRetry (tab : Tab) : Within conn tab (tab.stopRetry conn) := by
  unfold Tab.stopRetry
  split
  · exact refl conn tab
  · exact clearTimeout tab _

theorem clearLinger (tab : Tab) : Within conn tab (tab.clearLinger conn) := by
  unfold Tab.clearLinger
  split
  · exact refl conn tab
  · exact (clearTimeout tab _).trans (atConn _ _ rfl)

theorem bindRecovery (tab : Tab) (user : UserId) : Within conn tab (tab.bindRecovery conn user) := by
  unfold Tab.bindRecovery
  split
  · exact refl conn tab
  · have bound : Within conn tab { tab with recoveries := tab.recoveries ++ [(conn, user)] } :=
      of_same rfl rfl rfl rfl
    exact bound.trans (atConn _ _ rfl)

theorem drop (tab : Tab) (held : Option ℕ) : Within conn tab (tab.drop held) := by
  unfold Tab.drop
  cases held with
  | none => exact refl conn tab
  | some ws => exact atSocket tab ws _

/-- Whoever listens elsewhere is served as before. -/
theorem served (within : Within conn tab after) (served : Served tab)
    (here : (after.conns conn).Serves) : Served after := by
  intro other
  by_cases same : other = conn
  · exact same ▸ here
  · rw [within.others other same]
    exact served other

end Within

/-! # What has connected -/

/-- `everConnected` says whether the entry has connected before. -/
structure Logged (tab : Tab) : Prop where
  connected : ∀ conn, (tab.conns conn).everConnected = true ↔ ∃ user, .opened user conn ∈ tab.log
  owned : ∀ user conn, .opened user conn ∈ tab.log →
    conn < tab.connCount ∧ ∀ other, tab.connections other = some conn → other = user

theorem Logged.quiet {tab after : Tab} (logged : Logged tab) (quiet : Quiet tab after) :
    Logged after := by
  obtain ⟨calls, isAfter, calm⟩ := quiet.log
  have same : ∀ user conn, .opened user conn ∈ after.log ↔ .opened user conn ∈ tab.log := by
    intro user conn
    rw [isAfter, List.mem_append]
    constructor
    · rintro (before | new)
      · exact before
      · exact (calm _ new).elim
    · exact .inl
  constructor
  · intro conn
    rw [quiet.conns, logged.connected]
    simp only [same]
  · intro user conn opened
    obtain ⟨below, only⟩ := logged.owned user conn ((same user conn).mp opened)
    exact ⟨below.trans_le quiet.grows, fun other registered =>
      only other (quiet.registered other conn below registered)⟩

structure Sound (tab : Tab) : Prop where
  linked : Linked tab
  served : Served tab
  logged : Logged tab

/-- What every event but a connection does. -/
structure Goes (tab after : Tab) : Prop where
  linked : Linked after
  served : Served after
  quiet : Quiet tab after

section Operations

variable {tab : Tab} {conn : ConnId} {user : UserId} {ws : ℕ} {timer : TimerId}

theorem openSocket_ws (tab : Tab) (conn : ConnId) (user : UserId) :
    ((tab.openSocket conn user).conns conn).ws ≠ none := by
  unfold Tab.openSocket
  rw [conn_atConn]
  exact Option.some_ne_none _

/-- A socket is opened for an entry that was left with none. -/
theorem goes_openSocket {start : Tab} (within : Within conn start tab) (linked : Linked tab)
    (registered : start.connections user = some conn) (served : Served start)
    (unheld : (tab.conns conn).ws = none) (idle : (tab.conns conn).retry = none) :
    Goes start (tab.openSocket conn user) := by
  have opened := within.trans (.openSocket tab user)
  refine ⟨linked.openSocket (within.connections ▸ registered) unheld idle, ?_, opened.quiet⟩
  exact opened.served served fun _ => .inl (openSocket_ws tab conn user)

/-- The entry that the registry gives, new or not, has what it had of subscribers. -/
theorem entryOf_goes (sound : Sound tab) (user : UserId) :
    Goes tab (tab.entryOf user).2 ∧
      (tab.entryOf user).2.connections user = some (tab.entryOf user).1 := by
  have linked := sound.linked.entryOf user
  have fresh : (tab.conns tab.connCount).everConnected = false := by
    rw [← Bool.not_eq_true, sound.logged.connected]
    rintro ⟨owner, opened⟩
    exact absurd (sound.logged.owned owner _ opened).1 (lt_irrefl _)
  revert linked
  unfold Tab.entryOf
  split
  · rename_i conn registered
    intro linked
    exact ⟨⟨linked, sound.served, .refl tab⟩, registered⟩
  · rename_i absent
    intro linked
    refine ⟨⟨linked, ?_, ⟨⟨[], (List.append_nil _).symm, by simp⟩, ?_, Nat.le_succ _, ?_⟩⟩,
      Function.update_self _ _ _⟩
    · exact forall_atConn (fun _ => createConnection) (fun listened => absurd rfl listened)
        sound.served
    · intro other
      dsimp only
      rw [Function.update_apply]
      split
      · rename_i here
        rw [here, fresh]
        rfl
      · rfl
    · intro other conn below registered
      dsimp only at registered
      rw [Function.update_apply] at registered
      split at registered
      · exact absurd (Option.some.inj registered).symm below.ne
      · exact registered

theorem nodup_add {subscribers : List SubscriberId} (distinct : subscribers.Nodup)
    (subscriber : SubscriberId) :
    (if subscriber ∈ subscribers then subscribers else subscribers ++ [subscriber]).Nodup := by
  split
  · exact distinct
  · rename_i new
    exact distinct.append (List.nodup_singleton _) (by simpa using new)

theorem acquire_goes (sound : Sound tab) (user : UserId) (subscriber : SubscriberId) :
    Goes tab (tab.acquire user subscriber) := by
  obtain ⟨found, registered⟩ := entryOf_goes sound user
  unfold Tab.acquire
  generalize tab.entryOf user = entry at found registered
  obtain ⟨conn, start⟩ := entry
  dsimp only at found registered ⊢
  have cleared := found.linked.clearLinger conn
  have clearing : Within conn start (start.clearLinger conn) := .clearLinger start
  have owned := registered
  rw [← clearing.connections] at owned
  have added := (cleared.listen owned
    (fun list => if subscriber ∈ list then list else list ++ [subscriber])
    (nodup_add (cleared.listening.distinct conn) subscriber)).note
    [.onStatus subscriber ((start.clearLinger conn).conns conn).status]
  have adding : Within conn start ((start.clearLinger conn).addSubscriber conn subscriber) :=
    clearing.trans ((Within.atConn _ _ rfl).trans (.note _ (by simp [Entry.Quiet])))
  have bound := added.bindRecovery owned
  have binding := adding.trans (.bindRecovery _ user)
  split
  · rename_i stranded
    have opens := goes_openSocket binding bound registered found.served stranded.1 stranded.2
    exact ⟨opens.linked, opens.served, found.quiet.trans opens.quiet⟩
  · rename_i served
    refine ⟨bound, binding.served found.served fun _ => ?_, found.quiet.trans binding.quiet⟩
    exact not_and_or.mp served

theorem release_goes (sound : Sound tab) (user : UserId) (subscriber : SubscriberId) :
    Goes tab (tab.release user subscriber) := by
  unfold Tab.release
  split
  · exact ⟨sound.linked, sound.served, .refl tab⟩
  · rename_i conn registered
    have distinct := sound.linked.listening.distinct conn
    have left := sound.linked.listen registered (·.erase subscriber)
      (List.Nodup.erase subscriber distinct)
    have within : Within conn tab (tab.atConn conn fun entry =>
        { entry with subscribers := entry.subscribers.erase subscriber }) := .atConn tab _ rfl
    dsimp only
    split
    · refine ⟨left, within.served sound.served ?_, within.quiet⟩
      rw [conn_atConn]
      intro some_
      refine sound.served conn fun empty => some_ ?_
      dsimp only
      rw [empty, List.erase_nil]
    · rename_i nobody
      rw [not_not] at nobody
      have lingers := left.setLinger conn user
      have set := (within.trans (.setTimeout _ (.linger user))).trans
        (.atConn _ ({ · with linger := some tab.timerCount }) rfl)
      refine ⟨lingers, set.served sound.served ?_, set.quiet⟩
      rw [conn_atConn]
      intro some_
      exact absurd nobody some_

theorem goes_atSocket (sound : Sound tab) {change : WebSocket → WebSocket}
    (alive : (change (tab.sockets ws)).Alive ↔ (tab.sockets ws).Alive)
    (conn : (change (tab.sockets ws)).conn = (tab.sockets ws).conn)
    (userId : (change (tab.sockets ws)).userId = (tab.sockets ws).userId) :
    Goes tab (tab.atSocket ws change) :=
  ⟨sound.linked.atSocket alive conn userId, sound.served, .of_silent rfl (fun _ => rfl) rfl rfl⟩

theorem becomes_alive {socket : WebSocket} {readyState : ReadyState}
    (before : socket.readyState ≠ .closed) (after : readyState ≠ .closed) :
    (socket.becomes readyState).Alive ↔ socket.Alive :=
  and_congr_right fun _ => iff_of_true after before

theorem becomes_detached {socket : WebSocket} (readyState : ReadyState)
    (detached : socket.attached = false) : (socket.becomes readyState).Alive ↔ socket.Alive := by
  have notAlive : ∀ other : WebSocket, other.attached = false → ¬other.Alive := by
    rintro other isDetached ⟨attached, -⟩
    exact absurd (isDetached.symm.trans attached) (by decide)
  exact iff_of_false (notAlive _ detached) (notAlive _ detached)

theorem close_alive (socket : WebSocket) : socket.close.Alive ↔ socket.Alive := by
  unfold WebSocket.close
  split
  · exact Iff.rfl
  · rename_i before
    exact becomes_alive before (by decide)

theorem pong_keeps (socket : WebSocket) (ts : ℕ) :
    ((socket.pong ts).Alive ↔ socket.Alive) ∧ (socket.pong ts).conn = socket.conn ∧
      (socket.pong ts).userId = socket.userId := by
  unfold WebSocket.pong
  split
  · exact ⟨Iff.rfl, rfl, rfl⟩
  · exact ⟨Iff.rfl, rfl, rfl⟩

theorem onmessage_goes (sound : Sound tab) (conn : ConnId) (ws : ℕ) (incoming : Incoming) :
    Goes tab (tab.onmessage conn ws incoming) := by
  cases incoming with
  | malformed => exact ⟨sound.linked, sound.served, .refl tab⟩
  | ping ts =>
      obtain ⟨alive, isConn, isUser⟩ := pong_keeps (tab.sockets ws) ts
      exact goes_atSocket sound alive isConn isUser
  | frame data =>
      refine ⟨sound.linked.note _, sound.served, quiet_note tab fun call member => ?_⟩
      obtain ⟨subscriber, -, rfl⟩ := List.mem_map.mp member
      trivial

/-- The one socket of a user's entry closes. -/
theorem onclose_goes (sound : Sound tab) (alive : (tab.sockets ws).Alive) :
    Goes tab ((tab.atSocket ws (·.becomes .closed)).onclose (tab.sockets ws).conn
      (tab.sockets ws).userId ws) := by
  obtain ⟨registered, held⟩ := sound.linked.tracking.tracked ws alive
  generalize (tab.sockets ws).conn = conn at registered held ⊢
  generalize (tab.sockets ws).userId = user at registered ⊢
  change (tab.conns conn).ws = some ws at held
  have dead : ¬((tab.sockets ws).becomes .closed).Alive := fun stays => stays.2 rfl
  have lost := (sound.linked.lose registered held (·.becomes .closed) ({ · with ws := none }) dead rfl
    rfl rfl rfl).setStatus conn .disconnected
  have losing : Within conn tab (((tab.atSocket ws (·.becomes .closed)).atConn conn
      ({ · with ws := none })).setStatus conn .disconnected) :=
    ((Within.atSocket tab ws _).trans (.atConn _ _ rfl)).trans (.setStatus _ _)
  obtain ⟨calls, isLost⟩ := setStatus_eq ((tab.atSocket ws (·.becomes .closed)).atConn conn
    ({ · with ws := none })) conn .disconnected
  have idle := sound.linked.alone conn (by rw [held]; exact Option.some_ne_none ws)
  have current : ¬((tab.atSocket ws (·.becomes .closed)).conns conn).ws ≠ some ws := not_not.mpr held
  unfold Tab.onclose
  rw [if_neg current]
  dsimp only
  generalize isTab : ((tab.atSocket ws (·.becomes .closed)).atConn conn
    ({ · with ws := none })).setStatus conn .disconnected = closed at lost losing ⊢
  have unheld : (closed.conns conn).ws = none ∧ (closed.conns conn).retry = none := by
    rw [← isTab, isLost]
    simp only [Tab.note, conn_atConn]
    exact ⟨trivial, idle⟩
  split
  · rename_i nobody
    exact ⟨lost, losing.served sound.served fun some_ => absurd nobody some_, losing.quiet⟩
  · have waiting := losing.trans ((Within.setTimeout _ (.retry conn user)).trans
      (.atConn _ (fun entry => { entry with
        retries := entry.retries + 1
        retry := some closed.timerCount }) rfl))
    refine ⟨lost.setRetry (losing.connections ▸ registered) unheld.1 unheld.2,
      waiting.served sound.served fun _ => .inr ?_, waiting.quiet⟩
    rw [conn_atConn]
    exact Option.some_ne_none _

theorem onRetry_goes (sound : Sound tab) (due : tab.timers timer = some (.retry conn user)) :
    Goes tab ((tab.clearTimeout timer).onRetry conn user) := by
  obtain ⟨registered, isRetry⟩ := sound.linked.timing.retries due
  have ended := sound.linked.endRetry registered isRetry
  have ending : Within conn tab ((tab.clearTimeout timer).atConn conn ({ · with retry := none })) :=
    (Within.clearTimeout tab timer).trans (.atConn _ _ rfl)
  unfold Tab.onRetry
  dsimp only
  split
  · rename_i wanted
    refine goes_openSocket ending ended registered sound.served wanted.2 ?_
    rw [conn_atConn]
  · rename_i unwanted
    refine ⟨ended, ending.served sound.served fun some_ => .inl fun none_ => ?_, ending.quiet⟩
    exact unwanted ⟨some_, none_⟩

theorem quiet_delete (tab : Tab) (user : UserId) : Quiet tab (tab.delete user) := by
  refine ⟨⟨[], (List.append_nil _).symm, by simp⟩, fun _ => rfl, le_rfl, fun other conn _ owned => ?_⟩
  dsimp only [Tab.delete] at owned
  rw [Function.update_apply] at owned
  split at owned
  · contradiction
  · exact owned

theorem onLinger_goes (sound : Sound tab) (due : tab.timers timer = some (.linger user)) :
    Goes tab ((tab.clearTimeout timer).onLinger user) := by
  have linked : Linked (tab.clearTimeout timer) := by
    refine ⟨sound.linked.registry, sound.linked.listening, sound.linked.tracking,
      sound.linked.timing.clear ?_, sound.linked.alone⟩
    intro other owner isRetry
    cases due.symm.trans isRetry
  have served : Served (tab.clearTimeout timer) := sound.served
  have quiet : Quiet tab (tab.clearTimeout timer) := .of_silent rfl (fun _ => rfl) rfl rfl
  generalize tab.clearTimeout timer = fired at linked served quiet ⊢
  unfold Tab.onLinger
  split
  · exact ⟨linked, served, quiet⟩
  · rename_i conn registered
    split
    · exact ⟨linked, served, quiet⟩
    · rename_i nobody
      rw [not_not] at nobody
      have commutes : (((fired.delete user).stopRetry conn).atConn conn
          ({ · with ws := none, status := .disconnected })).drop
            (((fired.delete user).stopRetry conn).conns conn).ws =
          (((fired.drop (fired.conns conn).ws).atConn conn
            ({ · with ws := none, status := .disconnected })).delete user).stopRetry conn := by
        unfold Tab.stopRetry Tab.drop
        cases due : (fired.conns conn).retry <;> cases held : (fired.conns conn).ws <;>
          simp [Tab.delete, Tab.atConn, Tab.atSocket, Tab.clearTimeout, due, held]
      have dropped := linked.drop registered ({ · with ws := none, status := .disconnected }) rfl rfl
        rfl rfl
      have dropping : Within conn fired ((fired.drop (fired.conns conn).ws).atConn conn
          ({ · with ws := none, status := .disconnected })) :=
        (Within.drop fired _).trans (.atConn _ _ rfl)
      have isConn := conn_atConn (fired.drop (fired.conns conn).ws) conn
        ({ · with ws := none, status := .disconnected })
      rw [drop_conns] at isConn
      rw [commutes]
      generalize (fired.drop (fired.conns conn).ws).atConn conn
        ({ · with ws := none, status := .disconnected }) = idle at dropped dropping isConn ⊢
      have unheard : (idle.conns conn).subscribers = [] := by
        rw [isConn]
        exact nobody
      have left := dropped.leave (dropping.connections ▸ registered) unheard (by rw [isConn])
      have waits := dropping.served served fun some_ => absurd unheard some_
      refine ⟨left, fun other => ?_, quiet.trans (dropping.quiet.trans
        ((quiet_delete idle user).trans (Within.stopRetry (idle.delete user)).quiet))⟩
      rw [stopRetry_conns]
      exact waits other

theorem recover_goes (linked : Linked tab) (served : Served tab) (force : Bool)
    (bound : ∀ owner, tab.connections owner = some conn → owner = user) :
    Goes tab (tab.recover conn user force) ∧
      (tab.recover conn user force).connections = tab.connections := by
  unfold Tab.recover
  dsimp only
  split
  · exact ⟨⟨linked, served, .refl tab⟩, rfl⟩
  · rename_i listened
    split
    · exact ⟨⟨linked, served, .refl tab⟩, rfl⟩
    · obtain ⟨owner, owned⟩ := linked.listening.kept conn listened
      obtain rfl := bound owner owned
      have cleared := linked.clearRetry owned
      have clearing : Within conn tab (tab.clearRetry conn) := .clearRetry tab
      have idle : ((tab.clearRetry conn).conns conn).retry = none := by
        unfold Tab.clearRetry
        split
        · assumption
        · rw [conn_atConn]
      have dropped := cleared.drop (clearing.connections ▸ owned) ({ · with ws := none, retries := 0 })
        rfl rfl rfl rfl
      have dropping := clearing.trans
        ((Within.drop _ ((tab.clearRetry conn).conns conn).ws).trans
          (.atConn _ ({ · with ws := none, retries := 0 }) rfl))
      have isConn := conn_atConn
        ((tab.clearRetry conn).drop ((tab.clearRetry conn).conns conn).ws) conn
        ({ · with ws := none, retries := 0 })
      rw [drop_conns] at isConn
      refine ⟨goes_openSocket dropping dropped owned served ?_ ?_,
        (Within.openSocket _ owner).connections.trans dropping.connections⟩
      · rw [isConn]
      · rw [isConn]
        exact idle

theorem onopen_eq (tab : Tab) (held : (tab.conns conn).ws = some ws) :
    ∃ calls : List SubscriberId, tab.onopen conn ws =
      (tab.atConn conn ({ · with status := .connected, retries := 0, everConnected := true })).note
        (calls.map (.onStatus · .connected) ++
          if (tab.conns conn).everConnected then
            (tab.conns conn).subscribers.map (.onMessage · .resync)
          else []) := by
  obtain ⟨calls, same⟩ := setStatus_eq tab conn .connected
  refine ⟨calls, ?_⟩
  unfold Tab.onopen
  rw [if_neg (not_not.mpr held), same]
  cases connected : (tab.conns conn).everConnected <;>
    simp [Tab.atConn, Tab.note, Tab.emit, connected]

/-- A socket opens: the entry has connected, and has told its subscribers if it had before. -/
structure Opens (tab : Tab) (user : UserId) (conn : ConnId) (after : Tab) : Prop where
  registered : tab.connections user = some conn
  linked : Linked after
  served : Served after
  log : ∃ calls : List SubscriberId, after.log = tab.log ++
    (calls.map (.onStatus · .connected) ++
      (if (tab.conns conn).everConnected then
        (tab.conns conn).subscribers.map (.onMessage · .resync)
      else []) ++ [.opened user conn])
  here : (after.conns conn).everConnected = true
  others : ∀ other, other ≠ conn → after.conns other = tab.conns other
  connections : after.connections = tab.connections
  connCount : after.connCount = tab.connCount

theorem onopen_opens (sound : Sound tab) (alive : (tab.sockets ws).Alive) :
    Opens tab (tab.sockets ws).userId (tab.sockets ws).conn
      (((tab.atSocket ws (·.becomes .opened)).onopen (tab.sockets ws).conn ws).note
        [.opened (tab.sockets ws).userId (tab.sockets ws).conn]) := by
  obtain ⟨registered, held⟩ := sound.linked.tracking.tracked ws alive
  have opened : Linked (tab.atSocket ws (·.becomes .opened)) :=
    sound.linked.atSocket (becomes_alive alive.2 (by decide)) rfl rfl
  generalize (tab.sockets ws).conn = conn at registered held ⊢
  generalize (tab.sockets ws).userId = user at registered ⊢
  obtain ⟨calls, same⟩ := onopen_eq (tab.atSocket ws (·.becomes .opened)) held
  rw [same]
  have isConns := fun other => conns_atConn (tab.atSocket ws (·.becomes .opened)) conn other
    ({ · with status := .connected, retries := 0, everConnected := true })
  have kept : Linked ((tab.atSocket ws (·.becomes .opened)).atConn conn
      ({ · with status := .connected, retries := 0, everConnected := true })) :=
    opened.atConn rfl rfl rfl rfl
  refine ⟨registered, (kept.note _).note _, fun other => ?_, ⟨calls, List.append_assoc _ _ _⟩, ?_,
    fun other elsewhere => (isConns other).trans (if_neg elsewhere), rfl, rfl⟩
  · have here : ((tab.conns conn) : SharedConnection).Serves := sound.served conn
    have isOther := isConns other
    dsimp only [Tab.note]
    rw [isOther]
    split
    · exact here
    · exact sound.served other
  · dsimp only [Tab.note]
    rw [isConns conn, if_pos rfl]

end Operations

/-! # Runs -/

section Runs

variable {tab after : Tab} {event : Event} {events : List Event}

theorem Sound.of_goes (sound : Sound tab) (goes : Goes tab after) : Sound after :=
  ⟨goes.linked, goes.served, sound.logged.quiet goes.quiet⟩

theorem Sound.of_opens {user : UserId} {conn : ConnId} (sound : Sound tab)
    (opens : Opens tab user conn after) : Sound after := by
  obtain ⟨calls, isLog⟩ := opens.log
  have logged : ∀ owner other, .opened owner other ∈ after.log ↔
      .opened owner other ∈ tab.log ∨ (owner = user ∧ other = conn) := by
    intro owner other
    rw [isLog]
    split <;> simp
  refine ⟨opens.linked, opens.served, fun other => ?_, fun owner other opened => ?_⟩
  · simp only [logged]
    by_cases same : other = conn
    · rw [same, opens.here]
      exact iff_of_true rfl ⟨user, .inr ⟨rfl, rfl⟩⟩
    · rw [opens.others other same, sound.logged.connected]
      simp [same]
  · rw [opens.connCount, opens.connections]
    obtain before | ⟨rfl, rfl⟩ := (logged owner other).mp opened
    · exact sound.logged.owned owner other before
    · exact ⟨sound.linked.registry.made opens.registered, fun other owned =>
        sound.linked.registry.apart owned opens.registered⟩

/-- The listeners that are bound are called one after another. -/
theorem recoverAll_goes {listeners : List (ConnId × UserId)} (linked : Linked tab)
    (served : Served tab) (force : Bool)
    (bound : ∀ listener ∈ listeners, ∀ owner, tab.connections owner = some listener.1 →
      owner = listener.2) :
    Goes tab (listeners.foldl (fun tab bound => tab.recover bound.1 bound.2 force) tab) := by
  induction listeners generalizing tab with
  | nil => exact ⟨linked, served, .refl tab⟩
  | cons listener rest ih =>
      rw [List.forall_mem_cons] at bound
      obtain ⟨goes, connections⟩ := recover_goes linked served force bound.1
      have later := ih goes.linked goes.served (by rw [connections]; exact bound.2)
      exact ⟨later.linked, later.served, goes.quiet.trans later.quiet⟩

/-- An event opens the socket that an entry waits for, or goes on quietly. -/
theorem happens_cases (sound : Sound tab) (happens : Happens tab event after) :
    (∃ ws, event = .opens ws ∧ (tab.sockets ws).attached = true ∧
      Opens tab (tab.sockets ws).userId (tab.sockets ws).conn after) ∨
    ((∀ ws, event = .opens ws → (tab.sockets ws).attached = false) ∧ Goes tab after) := by
  cases happens with
  | acquire user subscriber => exact .inr ⟨nofun, acquire_goes sound user subscriber⟩
  | release user subscriber => exact .inr ⟨nofun, release_goes sound user subscriber⟩
  | opens connecting attached =>
      refine .inl ⟨_, rfl, attached, onopen_opens sound ⟨attached, ?_⟩⟩
      rw [connecting]
      decide
  | opensDetached connecting detached =>
      refine .inr ⟨?_, goes_atSocket sound (becomes_detached _ detached) rfl rfl⟩
      rintro ws ⟨⟩
      exact detached
  | message incoming opened attached => exact .inr ⟨nofun, onmessage_goes sound _ _ incoming⟩
  | closing alive =>
      exact .inr ⟨nofun, goes_atSocket sound (becomes_alive alive (by decide)) rfl rfl⟩
  | errs alive attached =>
      refine .inr ⟨nofun, goes_atSocket sound (close_alive _) ?_ ?_⟩ <;>
        · unfold WebSocket.close
          split <;> rfl
  | closes alive attached => exact .inr ⟨nofun, onclose_goes sound ⟨attached, alive⟩⟩
  | closesDetached alive detached =>
      exact .inr ⟨nofun, goes_atSocket sound (becomes_detached _ detached) rfl rfl⟩
  | @timer timer callback due =>
      cases callback with
      | retry conn user => exact .inr ⟨nofun, onRetry_goes sound due⟩
      | linger user => exact .inr ⟨nofun, onLinger_goes sound due⟩
  | online =>
      exact .inr ⟨nofun, recoverAll_goes sound.linked sound.served true
        fun _ member => (sound.linked.registry.bound member).2⟩
  | visible =>
      exact .inr ⟨nofun, recoverAll_goes sound.linked sound.served false
        fun _ member => (sound.linked.registry.bound member).2⟩

theorem sound_initial : Sound .initial where
  linked :=
    { registry := ⟨nofun, nofun, nofun⟩
      listening := ⟨fun _ listened => absurd rfl listened, fun _ => List.nodup_nil⟩
      tracking := ⟨fun _ _ alive => absurd rfl alive.2, fun _ alive => absurd rfl alive.2, nofun⟩
      timing := ⟨fun _ _ => rfl, nofun, nofun, nofun⟩
      alone := fun _ _ => rfl }
  served := fun _ listened => absurd rfl listened
  logged := ⟨fun _ => by simp [Tab.initial, createConnection], nofun⟩

theorem Sound.of_run (run : Run Happens (fun _ _ => True) .initial events tab) : Sound tab := by
  refine run.invariant Sound (fun _ _ _ _ happens sound => ?_) sound_initial
  obtain ⟨_, _, _, opens⟩ | ⟨_, goes⟩ := happens_cases sound happens
  · exact sound.of_opens opens
  · exact sound.of_goes goes

/-- How often the subscriber has been told to resync. -/
def Tab.resyncs (tab : Tab) (subscriber : SubscriberId) : ℕ :=
  tab.log.count (.onMessage subscriber .resync)

/-- The event connects a user's entry that has connected before. -/
def Tab.Reconnects (tab : Tab) (user : UserId) (conn : ConnId) : Event → Prop
  | .opens ws =>
      (tab.sockets ws).attached = true ∧ (tab.sockets ws).userId = user ∧
        tab.connections user = some conn ∧ .opened user conn ∈ tab.log
  | _ => False

theorem Quiet.resyncs (quiet : Quiet tab after) (subscriber : SubscriberId) :
    after.resyncs subscriber = tab.resyncs subscriber := by
  obtain ⟨calls, isLog, calm⟩ := quiet.log
  have none_ : calls.count (.onMessage subscriber .resync) = 0 :=
    List.count_eq_zero.mpr fun member => calm _ member
  unfold Tab.resyncs
  rw [isLog, List.count_append, none_, Nat.add_zero]

theorem count_resyncs {subscribers : List SubscriberId} (distinct : subscribers.Nodup)
    (subscriber : SubscriberId) :
    (subscribers.map (Entry.onMessage · .resync)).count (.onMessage subscriber .resync) =
      if subscriber ∈ subscribers then 1 else 0 := by
  have injective : Function.Injective (Entry.onMessage · .resync) := by
    intro first second same
    cases same
    rfl
  rw [List.count_map_of_injective _ _ injective]
  split
  · rename_i member
    exact List.count_eq_one_of_mem distinct member
  · rename_i absent
    exact List.count_eq_zero.mpr absent

theorem Opens.resyncs {user : UserId} {conn : ConnId} (sound : Sound tab)
    (opens : Opens tab user conn after) (subscriber : SubscriberId) :
    after.resyncs subscriber = tab.resyncs subscriber +
      if (tab.conns conn).everConnected = true ∧ subscriber ∈ (tab.conns conn).subscribers then 1
      else 0 := by
  obtain ⟨calls, isLog⟩ := opens.log
  have statuses : (calls.map (Entry.onStatus · .connected)).count (.onMessage subscriber .resync) =
      0 := by
    rw [List.count_eq_zero]
    simp
  have distinct : (tab.conns conn).subscribers.Nodup := sound.linked.listening.distinct conn
  have once := count_resyncs distinct subscriber
  unfold Tab.resyncs
  rw [isLog, List.count_append, List.count_append, List.count_append, statuses]
  cases ever : (tab.conns conn).everConnected with
  | false => simp
  | true =>
      rw [if_pos rfl, once]
      simp

/-- At most one socket that has not closed can run a handler for a user; whoever listens is
registered, and has such a socket or a retry that is pending; and a connection of an entry that has
connected before tells each of its subscribers once to resync, which nothing else does. -/
theorem private_feed (run : Run Happens (fun _ _ => True) .initial events tab) (user : UserId) :
    (∀ ws other, (tab.sockets ws).Alive → (tab.sockets ws).userId = user →
      (tab.sockets other).Alive → (tab.sockets other).userId = user → ws = other) ∧
    (∀ conn, (tab.conns conn).subscribers ≠ [] → ∃ owner, tab.connections owner = some conn ∧
      ((∃ ws, (tab.conns conn).ws = some ws ∧ (tab.sockets ws).Alive) ∨
        ∃ timer, (tab.conns conn).retry = some timer ∧
          tab.timers timer = some (.retry conn owner))) ∧
    ∀ event after, Happens tab event after → ∀ subscriber,
      (∀ conn, tab.Reconnects user conn event → after.resyncs subscriber = tab.resyncs subscriber +
        if subscriber ∈ (tab.conns conn).subscribers then 1 else 0) ∧
      ((∀ owner conn, ¬tab.Reconnects owner conn event) →
        after.resyncs subscriber = tab.resyncs subscriber) := by
  have sound := Sound.of_run run
  refine ⟨?_, ?_, ?_⟩
  · rintro ws other alive rfl otherAlive same
    obtain ⟨registered, held⟩ := sound.linked.tracking.tracked ws alive
    obtain ⟨otherRegistered, otherHeld⟩ := sound.linked.tracking.tracked other otherAlive
    rw [same, registered] at otherRegistered
    rw [← Option.some.inj otherRegistered, held] at otherHeld
    exact Option.some.inj otherHeld
  · intro conn listened
    obtain ⟨owner, registered⟩ := sound.linked.listening.kept conn listened
    refine ⟨owner, registered, ?_⟩
    obtain held | due := sound.served conn listened
    · obtain ⟨ws, isHeld⟩ := Option.ne_none_iff_exists'.mp held
      exact .inl ⟨ws, isHeld, (sound.linked.tracking.isHeld registered isHeld).1⟩
    · obtain ⟨timer, isDue⟩ := Option.ne_none_iff_exists'.mp due
      exact .inr ⟨timer, isDue, sound.linked.timing.pending registered isDue⟩
  · intro event after happens subscriber
    obtain ⟨ws, rfl, attached, opens⟩ | ⟨notOpens, goes⟩ := happens_cases sound happens
    · have counts := opens.resyncs sound subscriber
      have connected := sound.logged.connected (tab.sockets ws).conn
      constructor
      · rintro conn ⟨-, rfl, registered, before⟩
        obtain rfl := Option.some.inj (registered.symm.trans opens.registered)
        rw [counts]
        simp only [connected.mpr ⟨_, before⟩, true_and]
      · intro never
        rw [counts, if_neg, Nat.add_zero]
        rintro ⟨ever, -⟩
        obtain ⟨owner, before⟩ := connected.mp ever
        obtain rfl := (sound.logged.owned owner _ before).2 _ opens.registered
        exact never _ _ ⟨attached, rfl, opens.registered, before⟩
    · refine ⟨fun conn reconnects => ?_, fun _ => goes.quiet.resyncs subscriber⟩
      cases event with
      | opens ws => exact absurd ((notOpens ws rfl).symm.trans reconnects.1) (by decide)
      | _ => exact reconnects.elim

end Runs

/-- A subscriber whose socket has closed and is being replaced. -/
theorem closed_and_retried : ∃ events tab, Run Happens (fun _ _ => True) .initial events tab ∧
    ((tab.sockets 0).attached = true ∧ (tab.sockets 1).attached = true ∧
      (tab.sockets 0).userId = 1 ∧ (tab.sockets 1).userId = 1) ∧
    (tab.sockets 1).readyState = .connecting ∧ tab.connections 1 = some 0 ∧
    .opened 1 0 ∈ tab.log ∧ (tab.conns 0).subscribers = [7] ∧ tab.resyncs 7 = 0 := by
  refine ⟨_, _, .act trivial (.acquire 1 7) (.act trivial (@Happens.opens _ 0 rfl rfl)
    (.act trivial (@Happens.closes _ 0 (by decide) rfl)
    (.act trivial (@Happens.timer _ 0 _ rfl) (.stop _)))), ?_⟩
  decide

theorem private_feed_retried : ∃ tab after, Happens tab (.opens 1) after ∧
    tab.Reconnects 1 0 (.opens 1) ∧ tab.resyncs 7 = 0 ∧ after.resyncs 7 = 1 := by
  obtain ⟨_, tab, run, ⟨-, attached, -, user⟩, connecting, registered, before, listens, none_⟩ :=
    closed_and_retried
  have opens := Happens.opens connecting attached
  have reconnects : tab.Reconnects 1 0 (.opens 1) := ⟨attached, user, registered, before⟩
  have told := ((private_feed run 1).2.2 _ _ opens 7).1 0 reconnects
  rw [listens, none_] at told
  exact ⟨tab, _, opens, reconnects, none_, told⟩

/-- A socket that has closed keeps its handlers beside the one that replaces it; and a user's second
connection tells nobody to resync when the first entry has been dropped in between. -/
theorem private_feed_not_literal :
    (∃ events tab, Run Happens (fun _ _ => True) .initial events tab ∧
      (tab.sockets 0).attached = true ∧ (tab.sockets 1).attached = true ∧
      (tab.sockets 0).userId = 1 ∧ (tab.sockets 1).userId = 1) ∧
    ∃ events tab after, Run Happens (fun _ _ => True) .initial events tab ∧
      Happens tab (.opens 1) after ∧ (tab.sockets 1).attached = true ∧
      (tab.sockets 1).userId = 1 ∧ .opened 1 0 ∈ tab.log ∧
      (∃ conn, tab.connections 1 = some conn ∧ 7 ∈ (tab.conns conn).subscribers) ∧
      after.resyncs 7 = tab.resyncs 7 := by
  constructor
  · obtain ⟨events, tab, run, both, -⟩ := closed_and_retried
    exact ⟨events, tab, run, both⟩
  · refine ⟨_, _, _, .act trivial (.acquire 1 7) (.act trivial (@Happens.opens _ 0 rfl rfl)
      (.act trivial (.release 1 7) (.act trivial (@Happens.timer _ 0 _ rfl)
      (.act trivial (.acquire 1 7) (.stop _))))), @Happens.opens _ 1 rfl rfl, rfl, rfl, by decide,
      ?_, by decide⟩
    exact ⟨1, rfl, by decide⟩

end PredictX.UserSocket
