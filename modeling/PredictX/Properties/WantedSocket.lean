import PredictX.Websocket.SharedSocket

namespace PredictX.SharedSocket

open PredictX.Data PredictX.MarketFeed PredictX.MarketSocket

/-! When the tab holds a socket.

A socket that can still carry frames is always the tracked one.  Whatever wants it, a handler or a
grid, it is held or a reconnect is pending, unless the deferred close fires over a grid: it asks
only whether a market has a handler.
-/

/-! # The fields that an operation leaves alone -/

section Fields

variable {conn : SharedConnection} {ws : ℕ} {update : WebSocket → WebSocket} {market : MarketKey}
  {frame : ClientFrame}

namespace SharedConnection

theorem sendWs_eq (conn : SharedConnection) (frame : ClientFrame) :
    conn.sendWs frame = { conn with sockets := (conn.sendWs frame).sockets } := by
  unfold sendWs
  split <;> rfl

theorem wsUnsubscribe_eq (conn : SharedConnection) (market : MarketKey) :
    conn.wsUnsubscribe market =
      { conn with
        sockets := (conn.wsUnsubscribe market).sockets
        serverSubs := (conn.wsUnsubscribe market).serverSubs
        subs := (conn.wsUnsubscribe market).subs } := by
  unfold wsUnsubscribe
  split
  · rw [sendWs_eq]
  · rfl

theorem wsSubscribeLocked_eq (conn : SharedConnection) (market : MarketKey) :
    conn.wsSubscribeLocked market =
      { conn with
        sockets := (conn.wsSubscribeLocked market).sockets
        serverSubs := (conn.wsSubscribeLocked market).serverSubs
        subs := (conn.wsSubscribeLocked market).subs } := by
  unfold wsSubscribeLocked
  split
  · rfl
  split
  · rfl
  · rw [sendWs_eq]
    rfl

theorem recordAll_eq (conn : SharedConnection) (markets : List MarketKey) :
    markets.foldl recordSubscribe conn =
      { conn with
        serverSubs := (markets.foldl recordSubscribe conn).serverSubs
        subs := (markets.foldl recordSubscribe conn).subs } := by
  induction markets generalizing conn with
  | nil => rfl
  | cons market rest ih =>
      rw [List.foldl_cons, ih]
      rfl

theorem connect_of_none (apart : conn.ws = none) (first : MarketKey) :
    conn.connect first =
      { conn with
        reconnectTimer := none
        closeTimer := false
        lastConnectedMarket := some first
        sockets := conn.sockets ++ [⟨first, .connecting, []⟩]
        ws := some conn.sockets.length
        intentionalCloseSocket := none
        status := .connecting } := by
  unfold connect
  exact if_neg (not_not.mpr apart)

theorem connect_of_some (held : conn.ws ≠ none) (first : MarketKey) :
    conn.connect first = conn := by
  unfold connect
  exact if_pos held

theorem connect_ws (conn : SharedConnection) (first : MarketKey) :
    (conn.connect first).ws ≠ none := by
  by_cases apart : conn.ws = none
  · rw [connect_of_none apart]
    exact Option.some_ne_none _
  · rwa [connect_of_some apart]

theorem onopen_sockets (conn : SharedConnection) (ws : ℕ) :
    (conn.onopen ws).sockets =
      conn.sockets.modify ws fun socket => socket.send conn.openFrames := by
  unfold onopen
  dsimp only
  rw [recordAll_eq]
  rfl

theorem onopen_ws (conn : SharedConnection) (ws : ℕ) : (conn.onopen ws).ws = conn.ws := by
  unfold onopen
  dsimp only
  rw [recordAll_eq]
  rfl

end SharedConnection

end Fields

/-! # The registry -/

/-- The markets that have handlers, and those whose subscription is on record as sent. -/
structure Registered (subs : Table MarketSub.market) (serverSubs : List MarketKey) : Prop where
  named : ∀ sub ∈ subs.rows, sub.market ≠ ""
  handled : ∀ sub ∈ subs.rows, sub.handlers ≠ ∅
  recorded : ∀ market ∈ serverSubs, ∃ sub ∈ subs.rows, sub.market = market
  flagged : ∀ sub ∈ subs.rows, sub.wsSubscribed = true ↔ sub.market ∈ serverSubs

theorem mem_addMember {members : List MarketKey} {market other : MarketKey} :
    other ∈ SharedConnection.addMember members market ↔ other ∈ members ∨ other = market := by
  unfold SharedConnection.addMember
  split
  · rename_i present
    constructor
    · exact .inl
    · rintro (member | rfl)
      · exact member
      · exact present
  · rw [List.mem_append, List.mem_singleton]

section Registry

variable {subs : Table MarketSub.market} {serverSubs : List MarketKey} {market : MarketKey}

theorem present_modify {update : MarketSub → MarketSub}
    {keeps : ∀ sub, (update sub).market = sub.market} {other : MarketKey}
    (present : ∃ sub ∈ subs.rows, sub.market = other) :
    ∃ sub ∈ (subs.modify market update keeps).rows, sub.market = other := by
  obtain ⟨sub, member, rfl⟩ := present
  refine ⟨_, Table.mem_modify.mpr ⟨sub, member, rfl⟩, ?_⟩
  split
  · exact keeps sub
  · rfl

namespace Registered

theorem empty : Registered .empty [] := by
  constructor <;> simp [Table.empty]

theorem record (registered : Registered subs serverSubs)
    (wanted : ∃ sub ∈ subs.rows, sub.market = market) :
    Registered (subs.modify market fun sub => { sub with wsSubscribed := true })
      (SharedConnection.addMember serverSubs market) := by
  constructor
  · intro sub member
    obtain ⟨old, oldMember, rfl⟩ := Table.mem_modify.mp member
    have named := registered.named old oldMember
    split <;> exact named
  · intro sub member
    obtain ⟨old, oldMember, rfl⟩ := Table.mem_modify.mp member
    have handled := registered.handled old oldMember
    split <;> exact handled
  · intro other member
    have present : ∃ sub ∈ subs.rows, sub.market = other := by
      obtain before | rfl := mem_addMember.mp member
      · exact registered.recorded other before
      · exact wanted
    exact present_modify present
  · intro sub member
    obtain ⟨old, oldMember, rfl⟩ := Table.mem_modify.mp member
    have flagged := registered.flagged old oldMember
    rw [mem_addMember]
    split
    · rename_i same
      simp [same]
    · rename_i other
      rw [flagged]
      simp [other]

/-- The market's last handler is gone. -/
theorem leave (registered : Registered subs serverSubs) (market : MarketKey) :
    Registered (subs.erase market) (serverSubs.filter fun other => other ≠ market) := by
  constructor
  · intro sub member
    exact registered.named sub (Table.mem_erase.mp member).1
  · intro sub member
    exact registered.handled sub (Table.mem_erase.mp member).1
  · intro other member
    obtain ⟨before, different⟩ := List.mem_filter.mp member
    obtain ⟨sub, subMember, rfl⟩ := registered.recorded other before
    exact ⟨sub, Table.mem_erase.mpr ⟨subMember, by simpa using different⟩, rfl⟩
  · intro sub member
    obtain ⟨subMember, different⟩ := Table.mem_erase.mp member
    rw [registered.flagged sub subMember, List.mem_filter]
    simp [different]

theorem setHandlers (registered : Registered subs serverSubs) {update : MarketSub → Finset ℕ}
    (held : ∀ sub, update sub ≠ ∅) :
    Registered (subs.modify market fun sub => { sub with handlers := update sub }) serverSubs := by
  constructor
  · intro sub member
    obtain ⟨old, oldMember, rfl⟩ := Table.mem_modify.mp member
    have named := registered.named old oldMember
    split <;> exact named
  · intro sub member
    obtain ⟨old, oldMember, rfl⟩ := Table.mem_modify.mp member
    split
    · exact held old
    · exact registered.handled old oldMember
  · intro other member
    exact present_modify (registered.recorded other member)
  · intro sub member
    obtain ⟨old, oldMember, rfl⟩ := Table.mem_modify.mp member
    have flagged := registered.flagged old oldMember
    split <;> exact flagged

/-- A market that has no handler is not on record. -/
theorem fresh_unrecorded (registered : Registered subs serverSubs)
    (fresh : subs.find? market = none) : market ∉ serverSubs := by
  intro member
  obtain ⟨sub, subMember, same⟩ := registered.recorded market member
  exact Table.find?_eq_none.mp fresh sub subMember same

theorem addHandler (registered : Registered subs serverSubs) (named : market ≠ "")
    (handler : ℕ) :
    Registered ((subs.insert ⟨market, ∅, false⟩).modify market
      fun sub => { sub with handlers := insert handler sub.handlers }) serverSubs := by
  by_cases fresh : subs.find? market = none
  · have rows : (subs.insert ⟨market, ∅, false⟩).rows = subs.rows ++ [⟨market, ∅, false⟩] :=
      Table.insert_rows _ fresh
    have unrecorded := registered.fresh_unrecorded fresh
    have others := Table.find?_eq_none.mp fresh
    constructor
    · intro sub member
      obtain ⟨old, oldMember, rfl⟩ := Table.mem_modify.mp member
      rw [rows, List.mem_append, List.mem_singleton] at oldMember
      obtain before | rfl := oldMember
      · rw [if_neg (others old before)]
        exact registered.named old before
      · rw [if_pos rfl]
        exact named
    · intro sub member
      obtain ⟨old, oldMember, rfl⟩ := Table.mem_modify.mp member
      rw [rows, List.mem_append, List.mem_singleton] at oldMember
      obtain before | rfl := oldMember
      · rw [if_neg (others old before)]
        exact registered.handled old before
      · rw [if_pos rfl]
        exact Finset.insert_ne_empty _ _
    · intro other member
      obtain ⟨sub, subMember, rfl⟩ := registered.recorded other member
      refine ⟨sub, Table.mem_modify.mpr ⟨sub, ?_, if_neg (others sub subMember)⟩, rfl⟩
      rw [rows]
      exact List.mem_append_left _ subMember
    · intro sub member
      obtain ⟨old, oldMember, rfl⟩ := Table.mem_modify.mp member
      rw [rows, List.mem_append, List.mem_singleton] at oldMember
      obtain before | rfl := oldMember
      · rw [if_neg (others old before)]
        exact registered.flagged old before
      · rw [if_pos rfl]
        simp [unrecorded]
  · obtain ⟨sub, found⟩ := Option.ne_none_iff_exists'.mp fresh
    obtain ⟨member, isMarket⟩ := Table.find?_eq_some.mp found
    have same : subs.insert ⟨market, ∅, false⟩ = subs := by
      unfold Table.insert
      exact dif_pos (List.mem_map.mpr ⟨sub, member, isMarket⟩)
    rw [same]
    exact registered.setHandlers fun sub => Finset.insert_ne_empty _ _

end Registered

end Registry

/-- The registry of a connection. -/
def SharedConnection.Registry (conn : SharedConnection) : Prop :=
  Registered conn.subs conn.serverSubs

section Registry

variable {conn after : SharedConnection} {event : Event} {market : MarketKey}

namespace SharedConnection

theorem Registry.subscribeLocked (registry : conn.Registry) (market : MarketKey) :
    (conn.wsSubscribeLocked market).Registry := by
  unfold wsSubscribeLocked
  split
  · exact registry
  rename_i sub found
  split
  · exact registry
  · obtain ⟨member, isMarket⟩ := Table.find?_eq_some.mp found
    rw [sendWs_eq]
    exact Registered.record registry ⟨sub, member, isMarket⟩

theorem Registry.recordAll (registry : conn.Registry) (markets : List MarketKey)
    (wanted : ∀ market ∈ markets, ∃ sub ∈ conn.subs.rows, sub.market = market) :
    (markets.foldl recordSubscribe conn).Registry := by
  induction markets generalizing conn with
  | nil => exact registry
  | cons market rest ih =>
      rw [List.foldl_cons]
      refine ih (Registered.record registry (wanted market List.mem_cons_self)) ?_
      intro other member
      dsimp only [recordSubscribe]
      exact present_modify (wanted other (List.mem_cons_of_mem _ member))

theorem wsUnsubscribe_registry (conn : SharedConnection) (market : MarketKey) :
    (({ conn with subs := conn.subs.erase market }).wsUnsubscribe market).subs =
        conn.subs.erase market ∧
      (({ conn with subs := conn.subs.erase market }).wsUnsubscribe market).serverSubs =
        conn.serverSubs.filter fun other => other ≠ market := by
  unfold wsUnsubscribe
  split
  · rw [sendWs_eq]
    refine ⟨?_, rfl⟩
    apply Table.modify_of_find?_none
    · exact fun _ => rfl
    · rw [Table.find?_eq_none]
      intro sub member
      exact (Table.mem_erase.mp member).2
  · rename_i unrecorded
    refine ⟨rfl, (List.filter_eq_self.mpr fun other member => ?_).symm⟩
    have different : other ≠ market := fun same => unrecorded (same ▸ member)
    simpa using different

theorem pending_registered (conn : SharedConnection) :
    ∀ market ∈ conn.pending, ∃ sub ∈ conn.subs.rows, sub.market = market := by
  intro market member
  obtain ⟨sub, subMember, isMarket⟩ := List.mem_map.mp member
  exact ⟨sub, (List.mem_filter.mp subMember).1, isMarket⟩

end SharedConnection

theorem Happens.registry (happens : Happens conn event after) (registry : conn.Registry) :
    after.Registry := by
  cases happens with
  | subscribe handler named =>
      have added := registry.addHandler named handler
      unfold SharedConnection.subscribe
      dsimp only
      split
      · rename_i apart
        rw [SharedConnection.connect_of_none apart]
        exact added
      · exact added
  | @unsubscribe market handler =>
      unfold SharedConnection.unsubscribe
      split
      · exact registry
      rename_i sub found
      have left := Registered.leave registry market
      obtain ⟨subs, serverSubs⟩ := conn.wsUnsubscribe_registry market
      rw [← subs, ← serverSubs] at left
      dsimp only
      split
      · split
        · exact left
        · exact left
      · rename_i others
        exact Registered.setHandlers registry fun _ => others
  | sendGrid markets =>
      unfold SharedConnection.sendGrid
      dsimp only
      split
      · rename_i apart
        rw [SharedConnection.sendWs_eq, SharedConnection.connect_of_none apart]
        exact registry
      · rw [SharedConnection.sendWs_eq]
        exact registry
  | recover =>
      unfold SharedConnection.recover
      split
      · exact registry
      split
      · exact registry
      dsimp only
      split
      · exact registry
      split
      · exact registry
      · unfold SharedConnection.connect
        split <;> exact registry
  | opens made connecting =>
      unfold SharedConnection.onopen
      refine SharedConnection.Registry.recordAll ?_ _ (SharedConnection.pending_registered _)
      exact registry
  | closing made alive => exact registry
  | @closes ws socket made alive =>
      unfold SharedConnection.onclose
      split
      · exact registry
      dsimp only
      split <;> exact registry
  | errs ws =>
      unfold SharedConnection.onerror
      split <;> exact registry
  | reconnectTimer due =>
      unfold SharedConnection.connect
      split <;> exact registry
  | closeTimer due =>
      unfold SharedConnection.closeIfEmpty
      dsimp only
      split
      · exact registry
      split <;> exact registry
  | subLock queued =>
      refine SharedConnection.Registry.subscribeLocked ?_ _
      exact registry

end Registry

/-! # The tracked socket -/

/-- Only the tracked socket can still open or carry frames. -/
def OnlyLive (sockets : List WebSocket) (tracked : Option ℕ) : Prop :=
  ∀ ws socket, sockets[ws]? = some socket → socket.Live → tracked = some ws

section Tracked

variable {sockets : List WebSocket} {held : Option ℕ} {ws : ℕ} {update : WebSocket → WebSocket}
  {conn after : SharedConnection} {event : Event}

theorem made_modify {other : ℕ} {socket : WebSocket}
    (made : (sockets.modify ws update)[other]? = some socket) :
    ∃ old, sockets[other]? = some old ∧ socket = if ws = other then update old else old := by
  rw [List.getElem?_modify] at made
  obtain ⟨old, oldMade, isSocket⟩ := Option.map_eq_some_iff.mp made
  exact ⟨old, oldMade, isSocket.symm⟩

/-- A socket is not brought back to life. -/
theorem OnlyLive.modify (only : OnlyLive sockets held)
    (keeps : ∀ socket, sockets[ws]? = some socket → (update socket).Live → socket.Live) :
    OnlyLive (sockets.modify ws update) held := by
  intro other socket made live
  obtain ⟨old, oldMade, rfl⟩ := made_modify made
  by_cases same : ws = other
  · subst same
    rw [if_pos rfl] at live
    exact only ws old oldMade (keeps old oldMade live)
  · rw [if_neg same] at live
    exact only other old oldMade live

theorem OnlyLive.drop (only : OnlyLive sockets (some ws))
    (dead : ∀ socket, ¬(update socket).Live) : OnlyLive (sockets.modify ws update) none := by
  intro other socket made live
  obtain ⟨old, oldMade, rfl⟩ := made_modify made
  by_cases same : ws = other
  · subst same
    rw [if_pos rfl] at live
    exact absurd live (dead old)
  · rw [if_neg same] at live
    exact absurd (Option.some.inj (only other old oldMade live)) same

theorem OnlyLive.make (only : OnlyLive sockets none) (socket : WebSocket) :
    OnlyLive (sockets ++ [socket]) (some sockets.length) := by
  intro other found made live
  rw [List.getElem?_append] at made
  split at made
  · exact absurd (only other found made live) (Option.some_ne_none other).symm
  · have isLast : other - sockets.length < 1 := (List.getElem?_eq_some_iff.mp made).1
    congr
    omega

namespace WebSocket

theorem closing_dead (socket : WebSocket) : ¬(socket.becomes .closing).Live := by
  simp [Live, becomes]

theorem closed_dead (socket : WebSocket) : ¬(socket.becomes .closed).Live := by
  simp [Live, becomes]

theorem close_dead (socket : WebSocket) : ¬socket.close.Live := by
  unfold close
  split
  · rename_i isClosed
    simp [Live, isClosed]
  · exact closing_dead socket

end WebSocket

namespace SharedConnection

/-- The tracked socket is the only one alive. -/
def Tracked (conn : SharedConnection) : Prop := OnlyLive conn.sockets conn.ws

theorem Tracked.sendWs (only : conn.Tracked) (frame : ClientFrame) :
    (conn.sendWs frame).Tracked := by
  unfold SharedConnection.sendWs
  split
  · exact only
  · refine OnlyLive.modify only fun socket _ live => ?_
    split at live
    · exact live
    · exact live

theorem Tracked.record (only : conn.Tracked) (market : MarketKey) :
    (conn.recordSubscribe market).Tracked := only

theorem Tracked.connect (only : conn.Tracked) (first : MarketKey) :
    (conn.connect first).Tracked := by
  by_cases apart : conn.ws = none
  · rw [connect_of_none apart]
    exact OnlyLive.make (apart ▸ only) _
  · rwa [connect_of_some apart]

theorem Tracked.wsUnsubscribe (only : conn.Tracked) (market : MarketKey) :
    (conn.wsUnsubscribe market).Tracked := by
  unfold SharedConnection.wsUnsubscribe
  split
  · exact only.sendWs _
  · exact only

end SharedConnection

open SharedConnection in
theorem Happens.tracked (happens : Happens conn event after) (only : conn.Tracked) :
    after.Tracked := by
  cases happens with
  | subscribe handler named =>
      unfold SharedConnection.subscribe
      dsimp only
      split
      · refine Tracked.connect ?_ _
        exact only
      · exact only
  | unsubscribe market handler =>
      unfold SharedConnection.unsubscribe
      split
      · exact only
      dsimp only
      split
      · have gone : ({ conn with subs := conn.subs.erase market }.wsUnsubscribe market).Tracked := by
          refine Tracked.wsUnsubscribe ?_ market
          exact only
        split <;> exact gone
      · exact only
  | sendGrid markets =>
      unfold SharedConnection.sendGrid
      dsimp only
      split
      · exact (only.connect _).sendWs _
      · exact only.sendWs _
  | recover =>
      unfold SharedConnection.recover
      split
      · exact only
      split
      · exact only
      dsimp only
      split
      · exact only
      split
      · exact only
      · refine Tracked.connect ?_ _
        exact only
  | @opens ws socket made connecting =>
      have opened : ((conn.atSocket ws (·.becomes .opened))).Tracked := by
        refine OnlyLive.modify only fun other otherMade _ => ?_
        obtain rfl : socket = other := Option.some.inj (made.symm.trans otherMade)
        exact .inl connecting
      unfold Tracked
      rw [onopen_sockets, onopen_ws]
      exact OnlyLive.modify opened fun _ _ live => live
  | closing made alive =>
      exact OnlyLive.modify only fun socket _ live => absurd live socket.closing_dead
  | @closes ws socket made alive =>
      unfold SharedConnection.onclose
      split
      · exact OnlyLive.modify only fun socket _ live => absurd live socket.closed_dead
      rename_i current
      have closed : OnlyLive (conn.sockets.modify ws (·.becomes .closed)) none :=
        OnlyLive.drop (not_not.mp current ▸ only) WebSocket.closed_dead
      dsimp only
      split <;> exact closed
  | errs ws =>
      unfold SharedConnection.onerror
      split
      · exact only
      · exact OnlyLive.modify only fun socket _ live => absurd live socket.close_dead
  | reconnectTimer due =>
      refine Tracked.connect ?_ _
      exact only
  | closeTimer due =>
      unfold SharedConnection.closeIfEmpty
      dsimp only
      split
      · exact only
      unfold Tracked at only
      cases current : conn.ws with
      | none =>
          rw [current] at only
          exact only
      | some ws =>
          rw [current] at only
          exact OnlyLive.drop only WebSocket.close_dead
  | subLock queued =>
      unfold SharedConnection.wsSubscribeLocked
      split
      · exact only
      split
      · exact only
      · refine Tracked.record (Tracked.sendWs ?_ _) _
        exact only

end Tracked

/-! # What wants a socket -/

namespace SharedConnection

/-- A market has a handler, or a grid is declared. -/
def Wanted (conn : SharedConnection) : Prop :=
  (∃ sub ∈ conn.subs.rows, sub.handlers.Nonempty) ∨ conn.declaredGrid ≠ []

/-- A socket is held, or a reconnect is pending. -/
def Held (conn : SharedConnection) : Prop :=
  conn.ws ≠ none ∨ conn.reconnectTimer ≠ none

structure Attended (conn : SharedConnection) : Prop where
  held : conn.subs.rows ≠ [] ∨ conn.declaredGrid ≠ [] → conn.Held
  target : conn.lastConnectedMarket ≠ some ""
  timer : conn.reconnectTimer ≠ some ""
  /-- The tracked socket is not the one that was closed on purpose. -/
  purpose : conn.ws ≠ none → conn.intentionalCloseSocket = none

/-- The step decides nothing about the socket, and nothing new wants it. -/
structure Keeps (conn after : SharedConnection) : Prop where
  ws : after.ws = conn.ws
  timer : after.reconnectTimer = conn.reconnectTimer
  target : after.lastConnectedMarket = conn.lastConnectedMarket
  purpose : after.intentionalCloseSocket = conn.intentionalCloseSocket
  grid : after.declaredGrid = conn.declaredGrid
  subs : after.subs.rows ≠ [] → conn.subs.rows ≠ []

variable {conn after : SharedConnection} {market : MarketKey}

theorem Attended.keep (attended : conn.Attended) (keeps : conn.Keeps after) : after.Attended := by
  constructor
  · rw [keeps.grid, Held, keeps.ws, keeps.timer]
    exact fun wants => attended.held (wants.imp_left keeps.subs)
  · rw [keeps.target]
    exact attended.target
  · rw [keeps.timer]
    exact attended.timer
  · rw [keeps.ws, keeps.purpose]
    exact attended.purpose

/-- A new socket answers to everything that wants one. -/
theorem Attended.connect (target : market ≠ "") (attended : conn.ws ≠ none → conn.Attended) :
    (conn.connect market).Attended := by
  by_cases apart : conn.ws = none
  · rw [connect_of_none apart]
    exact ⟨fun _ => .inl (Option.some_ne_none _), by simpa using target, by simp, fun _ => rfl⟩
  · rw [connect_of_some apart]
    exact attended apart

theorem rows_recordSubscribe (conn : SharedConnection) (market : MarketKey) :
    (conn.recordSubscribe market).subs.rows = [] ↔ conn.subs.rows = [] := by
  simp [recordSubscribe, Table.modify]

theorem markets_recordAll (conn : SharedConnection) (markets : List MarketKey) :
    (markets.foldl recordSubscribe conn).subs.rows.map MarketSub.market =
      conn.subs.rows.map MarketSub.market := by
  induction markets generalizing conn with
  | nil => rfl
  | cons market rest ih =>
      rw [List.foldl_cons, ih]
      dsimp only [recordSubscribe]
      exact Table.keys_modify

theorem reconnectMarket_named (registry : conn.Registry) (attended : conn.Attended) :
    conn.reconnectMarket ≠ "" := by
  have target := attended.target
  have replayed : conn.serverSubs.head? ≠ some "" := by
    intro first
    obtain ⟨sub, member, same⟩ := registry.recorded "" (List.mem_of_mem_head? first)
    exact registry.named sub member same
  have subscribed : conn.subs.rows.head?.map MarketSub.market ≠ some "" := by
    intro first
    obtain ⟨sub, isFirst, same⟩ := Option.map_eq_some_iff.mp first
    exact registry.named sub (List.mem_of_mem_head? isFirst) same
  unfold reconnectMarket
  cases isTarget : conn.lastConnectedMarket with
  | some market =>
      rw [isTarget] at target
      simpa using target
  | none =>
      cases isReplayed : conn.serverSubs.head? with
      | some market =>
          rw [isReplayed] at replayed
          simpa using replayed
      | none =>
          cases isSubscribed : conn.subs.rows.head?.map MarketSub.market with
          | some market =>
              rw [isSubscribed] at subscribed
              simpa using subscribed
          | none => simp

theorem onopen_keeps (conn : SharedConnection) (ws : ℕ) : conn.Keeps (conn.onopen ws) := by
  constructor
  · exact onopen_ws conn ws
  all_goals
    unfold onopen
    dsimp only
  · rw [recordAll_eq]
    rfl
  · rw [recordAll_eq]
    rfl
  · rw [recordAll_eq]
    rfl
  · rw [recordAll_eq]
    rfl
  · intro some none
    have markets := markets_recordAll (conn.atSocket ws fun socket => socket.send conn.openFrames)
      conn.pending
    exact some (List.map_eq_nil_iff.mp (markets.trans (List.map_eq_nil_iff.mpr none)))

theorem unsubscribe_keeps (conn : SharedConnection) (market : MarketKey) (handler : ℕ) :
    conn.Keeps (conn.unsubscribe market handler) := by
  unfold unsubscribe
  split
  · exact ⟨rfl, rfl, rfl, rfl, rfl, id⟩
  rename_i sub found
  have some : conn.subs.rows ≠ [] := List.ne_nil_of_mem (Table.mem_of_find? found)
  dsimp only
  split
  · rw [wsUnsubscribe_eq]
    split <;> exact ⟨rfl, rfl, rfl, rfl, rfl, fun _ => some⟩
  · exact ⟨rfl, rfl, rfl, rfl, rfl, fun _ => some⟩

theorem wsSubscribeLocked_keeps (conn : SharedConnection) (market : MarketKey) :
    conn.Keeps (conn.wsSubscribeLocked market) := by
  have rows : (conn.wsSubscribeLocked market).subs.rows ≠ [] → conn.subs.rows ≠ [] := by
    unfold wsSubscribeLocked
    split
    · exact id
    split
    · exact id
    · rw [sendWs_eq]
      exact (rows_recordSubscribe _ market).not.mp
  constructor
  case subs => exact rows
  all_goals rw [wsSubscribeLocked_eq]

end SharedConnection

section Attention

variable {conn after : SharedConnection} {event : Event}

/-- The deferred close finds no grid where it closes. -/
def GridSpared (conn : SharedConnection) (event : Event) : Prop :=
  event = .closeTimer → conn.subs.rows ≠ [] ∨ conn.declaredGrid = []

instance : DecidableRel GridSpared := fun _ _ => inferInstanceAs (Decidable (_ → _))

open SharedConnection in
theorem Happens.attended (happens : Happens conn event after) (registry : conn.Registry)
    (spared : GridSpared conn event) (attended : conn.Attended) : after.Attended := by
  cases happens with
  | @subscribe market handler named =>
      unfold SharedConnection.subscribe
      dsimp only
      split
      · rename_i apart
        exact Attended.connect named fun held => absurd apart held
      · rename_i held
        exact ⟨fun _ => .inl held, by simpa [wsSubscribe] using named, attended.timer,
          attended.purpose⟩
  | unsubscribe market handler => exact attended.keep (unsubscribe_keeps conn market handler)
  | sendGrid markets =>
      unfold SharedConnection.sendGrid
      have connected : ∀ between : SharedConnection, between.Attended → between.ws ≠ none →
          ({ between.sendWs (.grid markets) with declaredGrid := markets }).Attended := by
        intro between attended held
        rw [sendWs_eq]
        exact ⟨fun _ => .inl held, attended.target, attended.timer, attended.purpose⟩
      dsimp only
      split
      · rename_i apart
        refine connected _ ?_ (connect_ws _ _)
        exact Attended.connect (by decide) fun held => absurd apart held
      · rename_i held
        exact connected _ attended held
  | recover =>
      unfold SharedConnection.recover
      split
      · exact attended
      rename_i some
      split
      · exact attended
      have reset : conn.ws ≠ none →
          ({ conn with retries := 0, reconnectTimer := none }).Attended := fun held =>
        ⟨fun _ => .inl held, attended.target, by simp, attended.purpose⟩
      obtain ⟨first, rest, rows⟩ := List.exists_cons_of_ne_nil some
      have named := registry.named first (by simp [rows])
      have target := attended.target
      dsimp only
      split
      · rename_i nobody
        simp [rows] at nobody
      · rename_i market isTarget
        split
        · rename_i unnamed
          subst unnamed
          cases isLast : conn.lastConnectedMarket with
          | some last =>
              rw [isLast] at target isTarget
              exact absurd isTarget target
          | none =>
              rw [isLast, rows] at isTarget
              simp [named] at isTarget
        · rename_i isNamed
          exact Attended.connect isNamed reset
  | @opens ws socket made connecting =>
      refine Attended.keep ?_ (onopen_keeps _ ws)
      exact attended.keep ⟨rfl, rfl, rfl, rfl, rfl, id⟩
  | closing made alive => exact attended.keep ⟨rfl, rfl, rfl, rfl, rfl, id⟩
  | @closes ws socket made alive =>
      unfold SharedConnection.onclose
      split
      · exact attended.keep ⟨rfl, rfl, rfl, rfl, rfl, id⟩
      rename_i current
      have current : conn.ws = some ws := not_not.mp current
      have unplanned := attended.purpose (by simp [current])
      dsimp only
      split
      · rename_i planned
        exact absurd (unplanned.symm.trans planned) (Option.some_ne_none ws).symm
      · refine ⟨fun _ => .inr (Option.some_ne_none _), attended.target, ?_,
          fun held => absurd rfl held⟩
        rw [ne_eq, Option.some_inj]
        refine reconnectMarket_named ?_ (attended.keep ⟨rfl, rfl, rfl, rfl, rfl, id⟩)
        exact registry
  | errs ws =>
      unfold SharedConnection.onerror
      split <;> exact attended.keep ⟨rfl, rfl, rfl, rfl, rfl, id⟩
  | @reconnectTimer market due =>
      refine Attended.connect (fun same => attended.timer (same ▸ due)) fun held => ?_
      exact ⟨fun _ => .inl held, attended.target, by simp, attended.purpose⟩
  | closeTimer due =>
      unfold SharedConnection.closeIfEmpty
      dsimp only
      split
      · exact attended.keep ⟨rfl, rfl, rfl, rfl, rfl, id⟩
      rename_i empty
      have empty : conn.subs.rows = [] := not_not.mp empty
      have unwanted : conn.declaredGrid = [] := (spared rfl).resolve_left (not_not.mpr empty)
      split
      all_goals
        refine ⟨fun wanted => ?_, attended.target, by simp, fun held => absurd rfl held⟩
        exact (wanted.elim (· empty) (· unwanted)).elim
  | subLock queued =>
      refine Attended.keep ?_ (wsSubscribeLocked_keeps _ _)
      exact attended.keep ⟨rfl, rfl, rfl, rfl, rfl, id⟩

end Attention

/-! # Every run -/

section Runs

variable {guard : SharedConnection → Event → Prop} {conn after : SharedConnection}
  {events : List Event}

theorem registry_of_run (run : Run Happens guard .initial events conn) : conn.Registry :=
  run.invariant SharedConnection.Registry (fun _ _ _ _ happens => happens.registry) .empty

theorem tracked_of_run (run : Run Happens guard .initial events conn) : conn.Tracked :=
  run.invariant SharedConnection.Tracked (fun _ _ _ _ happens => happens.tracked)
    fun _ _ made => by simp [SharedConnection.initial] at made

/-- A late close of a socket that is not tracked is heard by nobody. -/
theorem late_close {ws : ℕ} (superseded : conn.ws ≠ some ws)
    (happens : Happens conn (.closes ws) after) :
    after = conn.atSocket ws fun socket => socket.becomes .closed := by
  cases happens with
  | closes made alive =>
      unfold SharedConnection.onclose
      exact if_pos superseded

/-- While the deferred close finds no grid, whatever wants a socket has one or waits for one; and
in any run only the tracked socket is alive, and a late close of another changes nothing. -/
theorem wanted_socket_is_held (run : Run Happens GridSpared .initial events conn) :
    (conn.Wanted → conn.Held) ∧
    (∀ ws socket, conn.sockets[ws]? = some socket → socket.Live → conn.ws = some ws) ∧
    ∀ ws after, conn.ws ≠ some ws → Happens conn (.closes ws) after →
      after = conn.atSocket ws fun socket => socket.becomes .closed := by
  have kept : conn.Registry ∧ conn.Attended :=
    run.invariant (fun conn => conn.Registry ∧ conn.Attended)
      (fun _ _ _ spared happens both =>
        ⟨happens.registry both.1, happens.attended both.1 spared both.2⟩)
      ⟨.empty, by constructor <;> simp [SharedConnection.initial, Table.empty]⟩
  refine ⟨fun wanted => kept.2.held ?_, tracked_of_run run, fun ws after => late_close⟩
  obtain ⟨sub, member, -⟩ | declared := wanted
  · exact .inl (List.ne_nil_of_mem member)
  · exact .inr declared

end Runs

/-- The server drops a visitor who has gone from a market's page to the list. -/
theorem wanted_socket_is_held_of_visit :
    ∃ conn, Run Happens GridSpared .initial
      [.subscribe "market" 0, .opens 0, .sendGrid ["market", "other"], .closes 0] conn ∧
      conn.Wanted ∧ conn.Held := by
  have visit : ∃ conn, Run Happens GridSpared .initial
      [.subscribe "market" 0, .opens 0, .sendGrid ["market", "other"], .closes 0] conn ∧
      conn.declaredGrid ≠ [] := by
    refine ⟨?conn, ?run, ?declared⟩
    case run =>
      apply Run.act (by decide) (.subscribe 0 (by decide))
      apply Run.act (by decide) (.opens rfl rfl)
      apply Run.act (by decide) (.sendGrid _)
      apply Run.act (by decide) (.closes rfl (by decide))
      exact .stop _
    case declared => decide
  obtain ⟨conn, run, declared⟩ := visit
  exact ⟨conn, run, .inr declared, (wanted_socket_is_held run).1 (.inr declared)⟩

/-- The deferred close takes the socket from under the list. -/
theorem grid_is_abandoned :
    ∃ conn, Run Happens (fun _ _ => True) .initial
      [.subscribe "market" 0, .opens 0, .unsubscribe "market" 0, .sendGrid ["market", "other"],
        .closeTimer] conn ∧ conn.Wanted ∧ ¬conn.Held := by
  refine ⟨?conn, ?run, .inr ?declared, ?lost⟩
  case run =>
    apply Run.act trivial (.subscribe 0 (by decide))
    apply Run.act trivial (.opens rfl rfl)
    apply Run.act trivial (.unsubscribe "market" 0)
    apply Run.act trivial (.sendGrid _)
    apply Run.act trivial (.closeTimer rfl)
    exact .stop _
  case declared => decide
  case lost =>
    rintro (held | waits)
    · exact held rfl
    · exact waits rfl

end PredictX.SharedSocket
