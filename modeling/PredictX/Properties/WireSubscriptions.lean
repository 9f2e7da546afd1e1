import PredictX.Properties.WantedSocket

namespace PredictX.SharedSocket

open PredictX.Data PredictX.MarketFeed PredictX.MarketSocket

/-! The server's subscriptions follow the handlers.

The markets on record as sent are those that an open socket has asked for, and a market with a
handler is on record or has a call waiting in its promise chain.  What a socket could not send is
replayed when the next one opens.
-/

/-! # What the server makes of the frames -/

section Server

variable {cap : ℕ} {socket : WebSocket} {members : Finset MarketKey} {frame : ClientFrame}

theorem serverReads_obeys (room : (obeys members frame).card ≤ cap) :
    serverReads cap members frame = obeys members frame := by
  cases frame with
  | subscribe market =>
      simp only [obeys] at room
      simp only [serverReads, obeys]
      by_cases unnamed : market = ""
      · rw [if_pos (.inl unnamed), if_pos unnamed]
      · rw [if_neg unnamed] at room ⊢
        by_cases present : market ∈ members
        · rw [if_pos (.inr (.inl present)), Finset.insert_eq_of_mem present]
        · rw [Finset.card_insert_of_notMem present] at room
          exact if_neg (by simp [unnamed, present]; omega)
  | unsubscribe market => rfl
  | grid markets => rfl

theorem served_of_underCap (under : socket.UnderCap cap) : socket.served cap = socket.asked := by
  have prefixes : ∀ frames, frames <+: socket.sent →
      frames.foldl (serverReads cap) {socket.market} = frames.foldl obeys {socket.market} := by
    intro frames isPrefix
    induction frames using List.reverseRecOn with
    | nil => rfl
    | append_singleton frames frame ih =>
        have shorter := (List.prefix_append frames [frame]).trans isPrefix
        have room := under _ isPrefix
        rw [List.foldl_append, List.foldl_cons, List.foldl_nil] at room
        rw [List.foldl_append, List.foldl_append, ih shorter]
        exact serverReads_obeys room
  exact prefixes socket.sent List.prefix_rfl

theorem asked_send (socket : WebSocket) (frames : List ClientFrame) :
    (socket.send frames).asked = frames.foldl obeys socket.asked := by
  unfold WebSocket.asked WebSocket.send
  rw [List.foldl_append]

/-- A replay asks for each of its markets. -/
theorem foldl_subscribe (members : Finset MarketKey) {markets : List MarketKey}
    (named : "" ∉ markets) :
    (markets.map ClientFrame.subscribe).foldl obeys members = members ∪ markets.toFinset := by
  induction markets generalizing members with
  | nil => simp
  | cons market rest ih =>
      rw [List.mem_cons, not_or] at named
      rw [List.map_cons, List.foldl_cons, ih _ named.2, obeys, if_neg (Ne.symm named.1),
        List.toFinset_cons, Finset.insert_union, Finset.union_insert]

end Server

/-! # What an open socket has asked for -/

/-- The socket has asked for the markets on record, and else only for its URL's. -/
def Agrees (serverSubs : List MarketKey) (socket : WebSocket) : Prop :=
  ∀ market, (market ∈ serverSubs → market ∈ socket.asked) ∧
    (market ∈ socket.asked → market ∈ serverSubs ∨ market = socket.market)

section Agreement

variable {serverSubs : List MarketKey} {socket : WebSocket} {market : MarketKey}

theorem Agrees.subscribe (agrees : Agrees serverSubs socket) (named : market ≠ "") :
    Agrees (SharedConnection.addMember serverSubs market) (socket.send [.subscribe market]) := by
  intro other
  rw [asked_send, mem_addMember]
  simp only [List.foldl_cons, List.foldl_nil, obeys, if_neg named, Finset.mem_insert]
  obtain ⟨recorded, asked⟩ := agrees other
  constructor
  · rintro (before | rfl)
    · exact .inr (recorded before)
    · exact .inl rfl
  · rintro (rfl | before)
    · exact .inl (.inr rfl)
    · exact (asked before).imp_left .inl

theorem Agrees.unsubscribe (agrees : Agrees serverSubs socket) :
    Agrees (serverSubs.filter fun other => other ≠ market)
      (socket.send [.unsubscribe market]) := by
  intro other
  rw [asked_send, List.mem_filter]
  simp only [List.foldl_cons, List.foldl_nil, obeys, Finset.mem_erase, decide_eq_true_eq]
  obtain ⟨recorded, asked⟩ := agrees other
  constructor
  · rintro ⟨before, different⟩
    exact ⟨different, recorded before⟩
  · rintro ⟨different, before⟩
    exact (asked before).imp_left fun onRecord => ⟨onRecord, different⟩

theorem Agrees.grid (agrees : Agrees serverSubs socket) (markets : List MarketKey) :
    Agrees serverSubs (socket.send [.grid markets]) := by
  intro other
  rw [asked_send]
  exact agrees other

end Agreement

/-! # What the sockets of a connection stand for -/

/-- A property of every socket that is in one of its states. -/
def InState (conn : SharedConnection) (readyState : ReadyState) (holds : WebSocket → Prop) : Prop :=
  ∀ (ws : ℕ) (socket : WebSocket), conn.sockets[ws]? = some socket →
    socket.readyState = readyState → holds socket

structure Wired (conn : SharedConnection) : Prop where
  silent : InState conn .connecting fun socket => socket.sent = []
  agrees : InState conn .opened (Agrees conn.serverSubs)
  /-- On an open wire, a market that is not on record has a call waiting. -/
  queued : InState conn .opened fun _ =>
    ∀ sub ∈ conn.subs.rows, sub.wsSubscribed = false → sub.market ∈ conn.subLocks

section Wire

open SharedConnection

variable {conn after : SharedConnection} {ws : ℕ} {socket : WebSocket} {frame : ClientFrame}
  {market : MarketKey} {event : Event} {update : WebSocket → WebSocket}
  {holds : WebSocket → Prop} {readyState : ReadyState}

/-- A socket that leaves its state keeps to nothing. -/
theorem InState.leave (inState : InState conn readyState holds)
    (left : ∀ socket, (update socket).readyState = readyState → socket.readyState = readyState ∧
      update socket = socket) : InState (conn.atSocket ws update) readyState holds := by
  intro other socket made isState
  obtain ⟨old, oldMade, rfl⟩ := made_modify made
  split at isState
  · obtain ⟨was, same⟩ := left old isState
    rename_i here
    rw [if_pos here, same]
    exact inState other old oldMade was
  · rename_i elsewhere
    rw [if_neg elsewhere]
    exact inState other old oldMade isState

/-- An open socket is sent the frame. -/
theorem opened_sendWs (only : conn.Tracked) (made : (conn.sendWs frame).sockets[ws]? = some socket)
    (opened : socket.readyState = .opened) :
    ∃ old, conn.sockets[ws]? = some old ∧ old.readyState = .opened ∧ socket = old.send [frame] := by
  unfold SharedConnection.sendWs at made
  split at made
  · rename_i apart
    have tracked := only ws socket made (.inr opened)
    rw [apart] at tracked
    exact absurd tracked (Option.some_ne_none ws).symm
  · rename_i current isCurrent
    obtain ⟨old, oldMade, rfl⟩ := made_modify made
    by_cases here : current = ws
    · rw [if_pos here] at opened ⊢
      by_cases wasOpen : old.readyState = .opened
      · exact ⟨old, oldMade, wasOpen, if_pos wasOpen⟩
      · rw [if_neg wasOpen] at opened
        exact absurd opened wasOpen
    · rw [if_neg here] at opened
      have tracked := only ws old oldMade (.inr opened)
      exact absurd (Option.some.inj (isCurrent.symm.trans tracked)) here

theorem connecting_sendWs (inState : InState conn .connecting holds) (frame : ClientFrame) :
    InState (conn.sendWs frame) .connecting holds := by
  unfold SharedConnection.sendWs
  split
  · exact inState
  · refine inState.leave fun socket connecting => ?_
    split at connecting
    · rename_i isOpen
      exact absurd (isOpen.symm.trans connecting) (by decide)
    · rename_i notOpen
      exact ⟨connecting, if_neg notOpen⟩

/-- A connection that is made is silent, and no other socket is alive. -/
theorem Wired.connect (only : conn.Tracked) (wired : conn.ws ≠ none → Wired conn)
    (first : MarketKey) : Wired (conn.connect first) := by
  by_cases apart : conn.ws = none
  · have fresh : ∀ (ws : ℕ) (socket : WebSocket), (conn.connect first).sockets[ws]? = some socket →
        socket.Live → socket = ⟨first, .connecting, []⟩ := by
      intro ws socket made live
      rw [connect_of_none apart] at made
      rw [List.getElem?_append] at made
      split at made
      · have tracked := only ws socket made live
        rw [apart] at tracked
        exact absurd tracked (Option.some_ne_none ws).symm
      · have member := List.mem_of_getElem? made
        simpa using member
    constructor
    · intro ws socket made connecting
      rw [fresh ws socket made (.inl connecting)]
    · intro ws socket made opened
      rw [fresh ws socket made (.inr opened)] at opened
      contradiction
    · intro ws socket made opened
      rw [fresh ws socket made (.inr opened)] at opened
      contradiction
  · rw [connect_of_some apart]
    exact wired apart

/-- A socket that is closed leaves the others as they were. -/
theorem Wired.close (wired : Wired conn)
    (closed : ∀ socket, ¬(update socket).Live ∨ update socket = socket) (ws : ℕ) :
    Wired (conn.atSocket ws update) := by
  have leaves : ∀ readyState, readyState = .connecting ∨ readyState = .opened → ∀ socket,
      (update socket).readyState = readyState →
        socket.readyState = readyState ∧ update socket = socket := by
    intro readyState live socket isState
    obtain dead | same := closed socket
    · subst isState
      exact absurd live dead
    · exact ⟨same ▸ isState, same⟩
  exact ⟨wired.silent.leave (leaves _ (.inl rfl)), wired.agrees.leave (leaves _ (.inr rfl)),
    wired.queued.leave (leaves _ (.inr rfl))⟩

/-- The frame goes out on the open socket, and the record follows it. -/
theorem Wired.send (wired : Wired conn) (frame : ClientFrame) (only : conn.Tracked)
    {between : SharedConnection}
    (sockets : between.sockets = (conn.sendWs frame).sockets)
    (agrees : ∀ socket, Agrees conn.serverSubs socket →
      Agrees between.serverSubs (socket.send [frame]))
    (queued : (∀ sub ∈ conn.subs.rows, sub.wsSubscribed = false → sub.market ∈ conn.subLocks) →
      ∀ sub ∈ between.subs.rows, sub.wsSubscribed = false → sub.market ∈ between.subLocks) :
    Wired between := by
  constructor
  · intro ws socket made
    rw [sockets] at made
    exact connecting_sendWs wired.silent frame ws socket made
  · intro ws socket made opened
    rw [sockets] at made
    obtain ⟨old, oldMade, wasOpen, rfl⟩ := opened_sendWs only made opened
    exact agrees old (wired.agrees ws old oldMade wasOpen)
  · intro ws socket made opened
    rw [sockets] at made
    obtain ⟨old, oldMade, wasOpen, rfl⟩ := opened_sendWs only made opened
    exact queued (wired.queued ws old oldMade wasOpen)

/-- Nothing goes out. -/
theorem Wired.keep (wired : Wired conn) {between : SharedConnection}
    (sockets : between.sockets = conn.sockets) (recorded : between.serverSubs = conn.serverSubs)
    (queued : (∀ sub ∈ conn.subs.rows, sub.wsSubscribed = false → sub.market ∈ conn.subLocks) →
      ∀ sub ∈ between.subs.rows, sub.wsSubscribed = false → sub.market ∈ between.subLocks) :
    Wired between := by
  constructor
  · intro ws socket made
    rw [sockets] at made
    exact wired.silent ws socket made
  · intro ws socket made
    rw [sockets] at made
    rw [recorded]
    exact wired.agrees ws socket made
  · intro ws socket made opened
    rw [sockets] at made
    exact queued (wired.queued ws socket made opened)

theorem Wired.subscribe (wired : Wired conn) (only : conn.Tracked) (market : MarketKey)
    (handler : ℕ) : Wired (conn.subscribe market handler) := by
  unfold SharedConnection.subscribe
  dsimp only
  split
  · rename_i apart
    refine Wired.connect ?_ (fun held => absurd apart held) market
    exact only
  · refine wired.keep rfl rfl fun queued sub member unsent => ?_
    dsimp only [wsSubscribe, addHandler] at member
    obtain ⟨old, oldMember, rfl⟩ := Table.mem_modify.mp member
    have waits : old.market ∈ conn.subLocks ++ [market] := by
      rw [List.mem_append]
      by_cases here : old.market = market
      · exact .inr (by simp [here])
      · rw [if_neg here] at unsent
        obtain before | rfl := Table.mem_insert oldMember
        · exact .inl (queued old before unsent)
        · exact absurd rfl here
    split
    · exact waits
    · exact waits

theorem Wired.unsubscribe (wired : Wired conn) (only : conn.Tracked) (market : MarketKey)
    (handler : ℕ) : Wired (conn.unsubscribe market handler) := by
  unfold SharedConnection.unsubscribe
  split
  · exact wired
  dsimp only
  split
  · have gone : Wired ({ conn with subs := conn.subs.erase market }.wsUnsubscribe market) := by
      obtain ⟨subs, serverSubs⟩ := conn.wsUnsubscribe_registry market
      have queued : (∀ sub ∈ conn.subs.rows, sub.wsSubscribed = false →
          sub.market ∈ conn.subLocks) →
          ∀ sub ∈ ({ conn with subs := conn.subs.erase market }.wsUnsubscribe market).subs.rows,
            sub.wsSubscribed = false → sub.market ∈
              ({ conn with subs := conn.subs.erase market }.wsUnsubscribe market).subLocks := by
        intro queued sub member unsent
        rw [subs] at member
        rw [wsUnsubscribe_eq]
        exact queued sub (Table.mem_erase.mp member).1 unsent
      by_cases recorded : market ∈ conn.serverSubs
      · refine wired.send (.unsubscribe market) only ?_ ?_ queued
        · unfold SharedConnection.wsUnsubscribe
          rw [if_pos recorded]
          unfold SharedConnection.sendWs
          cases conn.ws <;> rfl
        · intro socket agrees
          rw [serverSubs]
          exact agrees.unsubscribe
      · refine wired.keep ?_ ?_ queued
        · unfold SharedConnection.wsUnsubscribe
          rw [if_neg recorded]
        · unfold SharedConnection.wsUnsubscribe
          rw [if_neg recorded]
    split
    · exact gone.keep rfl rfl id
    · exact gone
  · refine wired.keep rfl rfl fun queued sub member unsent => ?_
    dsimp only at member
    obtain ⟨old, oldMember, rfl⟩ := Table.mem_modify.mp member
    split at unsent
    · rename_i here
      rw [if_pos here]
      exact queued old oldMember unsent
    · rename_i elsewhere
      rw [if_neg elsewhere]
      exact queued old oldMember unsent

theorem mem_serverSubs_recordAll {markets : List MarketKey} :
    market ∈ (markets.foldl recordSubscribe conn).serverSubs ↔
      market ∈ conn.serverSubs ∨ market ∈ markets := by
  induction markets generalizing conn with
  | nil => simp
  | cons first rest ih =>
      have recorded : market ∈ (conn.recordSubscribe first).serverSubs ↔
          market ∈ conn.serverSubs ∨ market = first := mem_addMember
      rw [List.foldl_cons, ih, recorded, List.mem_cons, or_assoc]

theorem mem_serverSubs_onopen :
    market ∈ (conn.onopen ws).serverSubs ↔ market ∈ conn.serverSubs ∨ market ∈ conn.pending :=
  mem_serverSubs_recordAll

/-- A socket that opens asks for the markets on record and for those that are not yet. -/
theorem foldl_openFrames (registry : conn.Registry) (members : Finset MarketKey) :
    market ∈ conn.openFrames.foldl obeys members ↔
      market ∈ members ∨ market ∈ conn.serverSubs ∨ market ∈ conn.pending := by
  have replayed : "" ∉ conn.serverSubs := by
    intro unnamed
    obtain ⟨sub, member, same⟩ := registry.recorded "" unnamed
    exact registry.named sub member same
  have waiting : "" ∉ conn.pending := by
    intro unnamed
    obtain ⟨sub, member, same⟩ := conn.pending_registered "" unnamed
    exact registry.named sub member same
  have grid : ∀ members : Finset MarketKey,
      (if conn.declaredGrid = [] then [] else [ClientFrame.grid conn.declaredGrid]).foldl obeys
        members = members := by
    intro members
    split <;> rfl
  unfold openFrames
  rw [List.foldl_append, List.foldl_append, List.foldl_append, grid, foldl_subscribe _ waiting,
    foldl_subscribe _ replayed, foldl_subscribe _ replayed]
  simp only [Finset.mem_union, List.mem_toFinset]
  tauto

theorem Wired.onopen (wired : Wired conn) (only : conn.Tracked) (registry : conn.Registry)
    (made : conn.sockets[ws]? = some socket) (connecting : socket.readyState = .connecting) :
    Wired ((conn.atSocket ws (·.becomes .opened)).onopen ws) := by
  have tracked := only ws socket made (.inl connecting)
  have quiet := wired.silent ws socket made connecting
  have opens : ∀ (other : ℕ) (after : WebSocket),
      ((conn.atSocket ws (·.becomes .opened)).onopen ws).sockets[other]? = some after →
        (ws = other ∧ after = (socket.becomes .opened).send conn.openFrames) ∨
        (ws ≠ other ∧ conn.sockets[other]? = some after) := by
    intro other after madeAfter
    rw [onopen_sockets] at madeAfter
    obtain ⟨between, madeBetween, rfl⟩ := made_modify madeAfter
    obtain ⟨old, oldMade, rfl⟩ := made_modify madeBetween
    by_cases here : ws = other
    · subst here
      obtain rfl : socket = old := Option.some.inj (made.symm.trans oldMade)
      exact .inl ⟨rfl, by rw [if_pos rfl, if_pos rfl]; rfl⟩
    · rw [if_neg here, if_neg here]
      exact .inr ⟨here, oldMade⟩
  have alone : ∀ (other : ℕ) (after : WebSocket), ws ≠ other →
      conn.sockets[other]? = some after → ¬after.Live := by
    intro other after elsewhere madeAfter live
    exact elsewhere (Option.some.inj (tracked.symm.trans (only other after madeAfter live)))
  constructor
  · intro other after madeAfter isConnecting
    obtain ⟨-, rfl⟩ | ⟨elsewhere, oldMade⟩ := opens other after madeAfter
    · contradiction
    · exact absurd (.inl isConnecting) (alone other after elsewhere oldMade)
  · intro other after madeAfter isOpen
    obtain ⟨-, rfl⟩ | ⟨elsewhere, oldMade⟩ := opens other after madeAfter
    · intro market
      have asked : (socket.becomes .opened).asked = {socket.market} := by
        unfold WebSocket.asked WebSocket.becomes
        dsimp only
        rw [quiet]
        rfl
      have recorded : market ∈ ((conn.atSocket ws (·.becomes .opened)).onopen ws).serverSubs ↔
          market ∈ conn.serverSubs ∨ market ∈ conn.pending := mem_serverSubs_onopen
      rw [asked_send, foldl_openFrames registry, asked, recorded, Finset.mem_singleton]
      exact ⟨.inr, Or.symm⟩
    · exact absurd (.inr isOpen) (alone other after elsewhere oldMade)
  · intro other after madeAfter isOpen sub member unsent
    have registered := (Happens.opens made connecting).registry registry
    have unrecorded := (registered.flagged sub member).not.mp (by simp [unsent])
    have markets := markets_recordAll
      ((conn.atSocket ws (·.becomes .opened)).atSocket ws (·.send conn.openFrames)) conn.pending
    have present : sub.market ∈ conn.subs.rows.map MarketSub.market :=
      markets ▸ List.mem_map_of_mem member
    obtain ⟨old, oldMember, same⟩ := List.mem_map.mp present
    refine absurd ?_ unrecorded
    refine mem_serverSubs_onopen.mpr ?_
    by_cases recorded : sub.market ∈ conn.serverSubs
    · exact .inl recorded
    · have wasUnsent := (registry.flagged old oldMember).not.mpr (same ▸ recorded)
      refine .inr (List.mem_map.mpr ⟨old, List.mem_filter.mpr ⟨oldMember, ?_⟩, same⟩)
      simp [wasUnsent, same, atSocket, recorded]

/-- The call that waited for the market's turn. -/
theorem Wired.subscribeLocked (wired : Wired conn) (only : conn.Tracked)
    (registry : conn.Registry) (market : MarketKey) :
    Wired ({ conn with subLocks := conn.subLocks.erase market }.wsSubscribeLocked market) := by
  have others : ∀ other, other ≠ market → other ∈ conn.subLocks →
      other ∈ conn.subLocks.erase market := fun other different =>
    (List.mem_erase_of_ne different).mpr
  unfold SharedConnection.wsSubscribeLocked
  dsimp only
  cases found : conn.subs.find? market with
  | none =>
      refine wired.keep rfl rfl fun queued sub member unsent => ?_
      exact others _ (Table.find?_eq_none.mp found sub member) (queued sub member unsent)
  | some sub =>
      obtain ⟨member, isMarket⟩ := Table.find?_eq_some.mp found
      dsimp only
      split
      · rename_i sent
        refine wired.keep rfl rfl fun queued other otherMember unsent => ?_
        refine others _ (fun same => ?_) (queued other otherMember unsent)
        obtain rfl : other = sub := Table.eq_of_mem otherMember member (same.trans isMarket.symm)
        exact absurd (sent.symm.trans unsent) (by decide)
      · have named : market ≠ "" := isMarket ▸ registry.named sub member
        rw [sendWs_eq]
        refine wired.send (.subscribe market) only ?_
          (fun socket agrees => agrees.subscribe named) ?_
        · unfold SharedConnection.sendWs
          cases conn.ws <;> rfl
        · intro queued other otherMember unsent
          dsimp only [recordSubscribe] at otherMember
          obtain ⟨old, oldMember, rfl⟩ := Table.mem_modify.mp otherMember
          split at unsent
          · contradiction
          · rename_i elsewhere
            rw [if_neg elsewhere]
            exact others _ elsewhere (queued old oldMember unsent)

theorem Happens.wired (happens : Happens conn event after) (only : conn.Tracked)
    (registry : conn.Registry) (wired : Wired conn) : Wired after := by
  cases happens with
  | @subscribe market handler named => exact wired.subscribe only market handler
  | unsubscribe market handler => exact wired.unsubscribe only market handler
  | sendGrid markets =>
      unfold SharedConnection.sendGrid
      have declared : ∀ between : SharedConnection, between.Tracked → Wired between →
          Wired { between.sendWs (.grid markets) with declaredGrid := markets } := by
        intro between only wired
        rw [sendWs_eq]
        exact wired.send (.grid markets) only rfl (fun _ agrees => agrees.grid markets) id
      dsimp only
      split
      · rename_i apart
        exact declared _ (only.connect _) (Wired.connect only (fun held => absurd apart held) _)
      · exact declared _ only wired
  | recover =>
      unfold SharedConnection.recover
      split
      · exact wired
      split
      · exact wired
      dsimp only
      split
      · exact wired.keep rfl rfl id
      split
      · exact wired.keep rfl rfl id
      · refine Wired.connect ?_ (fun _ => ?_) _
        · exact only
        · exact wired.keep rfl rfl id
  | opens made connecting => exact wired.onopen only registry made connecting
  | @closing ws socket made alive =>
      exact wired.close (fun socket => .inl socket.closing_dead) ws
  | @closes ws socket made alive =>
      have closed := wired.close (fun socket => .inl socket.closed_dead) ws
      unfold SharedConnection.onclose
      split
      · exact closed
      dsimp only
      split <;> exact closed.keep rfl rfl id
  | errs ws =>
      unfold SharedConnection.onerror
      split
      · exact wired
      · refine Wired.close ?_ (fun socket => .inl socket.close_dead) ws
        exact wired.keep rfl rfl id
  | reconnectTimer due =>
      refine Wired.connect ?_ (fun _ => ?_) _
      · exact only
      · exact wired.keep rfl rfl id
  | closeTimer due =>
      unfold SharedConnection.closeIfEmpty
      dsimp only
      split
      · exact wired.keep rfl rfl id
      split
      · exact wired.keep rfl rfl id
      · rename_i ws _
        have closed := wired.close (fun socket => .inl socket.close_dead) ws
        exact closed.keep rfl rfl id
  | subLock queued => exact wired.subscribeLocked only registry _

end Wire

/-! # Every run -/

section Runs

variable {conn : SharedConnection} {events : List Event} {ws cap : ℕ} {socket : WebSocket}

/-- The market has a handler. -/
def SharedConnection.Interested (conn : SharedConnection) (market : MarketKey) : Prop :=
  ∃ sub ∈ conn.subs.rows, sub.market = market ∧ sub.handlers.Nonempty

theorem wired_of_run (run : Run Happens (fun _ _ => True) .initial events conn) : Wired conn := by
  have kept : conn.Tracked ∧ conn.Registry ∧ Wired conn := by
    refine run.invariant (fun conn => conn.Tracked ∧ conn.Registry ∧ Wired conn) ?_ ?_
    · rintro _ _ _ - happens ⟨only, registry, wired⟩
      exact ⟨happens.tracked only, happens.registry registry, happens.wired only registry wired⟩
    · refine ⟨?_, .empty, ?_⟩
      · intro ws socket made
        simp [SharedConnection.initial] at made
      · constructor
        all_goals
          intro ws socket made
          simp [SharedConnection.initial] at made
  exact kept.2.2

/-- Once the socket is open and no call waits, the server that has read its frames has every
market with a handler, and no other but perhaps the URL's. -/
theorem wire_follows_interest (run : Run Happens (fun _ _ => True) .initial events conn)
    (made : conn.sockets[ws]? = some socket) (opened : socket.readyState = .opened)
    (settled : conn.subLocks = []) (under : socket.UnderCap cap) :
    conn.ws = some ws ∧ ∀ market,
      (conn.Interested market → market ∈ socket.served cap) ∧
      (market ∈ socket.served cap → conn.Interested market ∨ market = socket.market) := by
  have registry := registry_of_run run
  have wired := wired_of_run run
  have agrees := wired.agrees ws socket made opened
  have queued := wired.queued ws socket made opened
  rw [served_of_underCap under]
  refine ⟨tracked_of_run run ws socket made (.inr opened), fun market => ⟨?_, fun asked => ?_⟩⟩
  · rintro ⟨sub, member, rfl, -⟩
    refine (agrees sub.market).1 ((registry.flagged sub member).mp ?_)
    by_contra unsent
    have waits := queued sub member (by simpa using unsent)
    rw [settled] at waits
    exact absurd waits List.not_mem_nil
  · refine ((agrees market).2 asked).imp_left fun recorded => ?_
    obtain ⟨sub, member, same⟩ := registry.recorded market recorded
    exact ⟨sub, member, same, Finset.nonempty_iff_ne_empty.mpr (registry.handled sub member)⟩

end Runs

/-- A market that was asked for over the first socket, and left while there was none. -/
theorem wire_follows_interest_of_reconnect :
    ∃ events conn socket, Run Happens (fun _ _ => True) .initial events conn ∧
      conn.sockets[1]? = some socket ∧ "next" ∈ socket.served 50 ∧
      ("market" ∈ socket.served 50 → "market" = socket.market) := by
  have reconnect : ∃ conn, Run Happens (fun _ _ => True) .initial
      [.subscribe "market" 0, .subscribe "next" 1, .opens 0, .subLock "next", .closes 0,
        .unsubscribe "market" 0, .reconnectTimer, .opens 1] conn ∧
      ∃ socket, conn.sockets[1]? = some socket ∧ socket.readyState = .opened ∧
        conn.subLocks = [] ∧ (∀ frames ∈ socket.sent.inits,
          (frames.foldl obeys {socket.market}).card ≤ 50) ∧
        conn.subs.rows.map MarketSub.market = ["next"] := by
    refine ⟨?conn, ?run, ?socket, ?made, ?opened, ?settled, ?under, ?subs⟩
    case run =>
      apply Run.act trivial (.subscribe 0 (by decide))
      apply Run.act trivial (.subscribe 1 (by decide))
      apply Run.act trivial (.opens rfl rfl)
      apply Run.act trivial (.subLock (by decide))
      apply Run.act trivial (.closes rfl (by decide))
      apply Run.act trivial (.unsubscribe "market" 0)
      apply Run.act trivial (.reconnectTimer rfl)
      apply Run.act trivial (.opens rfl rfl)
      exact .stop _
    case made => exact rfl
    case opened => rfl
    case settled => decide
    case under => decide
    case subs => decide
  obtain ⟨conn, run, socket, made, opened, settled, under, subs⟩ := reconnect
  have follows := (wire_follows_interest run made opened settled fun frames isPrefix =>
    under frames ((List.mem_inits _ _).mpr isPrefix)).2
  have handled := (registry_of_run run).handled
  refine ⟨_, conn, socket, run, made, (follows "next").1 ?_, fun served => ?_⟩
  · obtain ⟨sub, member, same⟩ := List.mem_map.mp (subs ▸ List.mem_singleton_self "next")
    exact ⟨sub, member, same, Finset.nonempty_iff_ne_empty.mpr (handled sub member)⟩
  · refine ((follows "market").2 served).resolve_left ?_
    rintro ⟨sub, member, same, -⟩
    have isNext : sub.market ∈ ["next"] := subs ▸ List.mem_map_of_mem member
    rw [same] at isNext
    exact absurd isNext (by decide)

end PredictX.SharedSocket
