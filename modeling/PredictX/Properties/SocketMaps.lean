import PredictX.Websocket.ManagerSteps
import PredictX.Properties.MarketChannels

namespace PredictX.ConnectionManager

open PredictX.Data PredictX.MarketFeed PredictX.MarketSocket PredictX.RedisPubSub

/-! Which maps mention a socket.

The maps are followed socket by socket: which of them may mention a socket depends only on where
its own call and its exits are.
-/

/-- The markets that the call has put the socket under, or is about to. -/
def Call.keeps (market : MarketKey) : Call → Prop
  | .connecting other _ _ | .registering other _ _ | .parting other => market = other
  | _ => False

/-- The socket may be among the market's subscribers. -/
def Peer.Listed (peer : Peer) (market : MarketKey) : Prop :=
  market ∈ peer.subscribed ∨ peer.call.keeps market ∨
    ∃ stage ∈ peer.exits, market ∈ stage.toClear

/-- A socket that `disconnect` has been called for. -/
structure Gone (peer : Peer) : Prop where
  idle : peer.call = .idle
  lock : peer.lock = false
  lastSeen : peer.lastSeen = false
  grid : peer.grid = none
  pending : peer.pending = false
  popped : ∀ stage ∈ peer.exits, stage ≠ .locking → peer.subscriptions = none
  finished : peer.exits = [] → peer.subscriptions = none ∧ peer.channels = none

structure Tracks (hub : Hub) (socket : Socket) : Prop where
  absent : socket ∉ hub.known → hub.peers socket = .unknown
  paired : (hub.peers socket).ip.isSome = (hub.peers socket).registered ∧
    (hub.peers socket).user.isSome = (hub.peers socket).registered
  fresh : (hub.peers socket).call.connects = true → (hub.peers socket).registered = false
  joining : ∀ market, (hub.peers socket).call = .joining market →
    market ∈ (hub.peers socket).subscribed
  exiting : (hub.peers socket).exits ≠ [] → socket ∈ hub.departed
  gone : socket ∈ hub.departed → socket ∈ hub.known ∧ Gone (hub.peers socket)
  shown : ∀ market,
    socket ∈ hub.gridSubscribers.members market ↔ market ∈ (hub.peers socket).shown
  buffered : (hub.peers socket).pending = true → (hub.peers socket).grid.isSome = true
  listed : ∀ market, socket ∈ hub.marketSubs.members market → (hub.peers socket).Listed market

/-- A socket's `disconnect` begins between its calls, and no call of it begins after that. -/
def Apart (hub : Hub) : Action → Prop
  | .touch socket | .subscribe socket _ | .unsubscribe socket _ | .setGrid socket _ =>
      socket ∉ hub.departed
  | .disconnect socket => (hub.peers socket).call = .idle
  | _ => True

/-! # The maps of one socket -/

section Tracking

variable {hub after : Hub} {socket other : Socket} {action : Action}

theorem Tracks.elsewhere (tracks : Tracks hub other) (elsewhere : Elsewhere hub after other) :
    Tracks after other := by
  have peers := elsewhere.peers
  refine ⟨?_, ?_, ?_, ?_, ?_, ?_, ?_, ?_, ?_⟩
  · rw [peers, elsewhere.known]
    exact tracks.absent
  · rw [peers]
    exact tracks.paired
  · rw [peers]
    exact tracks.fresh
  · rw [peers]
    exact tracks.joining
  · rw [peers, elsewhere.departed]
    exact tracks.exiting
  · rw [peers, elsewhere.departed, elsewhere.known]
    exact tracks.gone
  · intro market
    rw [peers, elsewhere.grids]
    exact tracks.shown market
  · rw [peers]
    exact tracks.buffered
  · intro market member
    rw [peers]
    exact tracks.listed market ((elsewhere.markets market).mp member)

/-- A socket in the middle of a call is here. -/
theorem Tracks.busy (tracks : Tracks hub socket) (busy : (hub.peers socket).call ≠ .idle) :
    socket ∈ hub.known ∧ socket ∉ hub.departed ∧ (hub.peers socket).exits = [] := by
  have present : socket ∉ hub.departed := by
    intro leaves
    exact busy (tracks.gone leaves).2.idle
  have member : socket ∈ hub.known := by
    by_contra unknown
    exact busy (by rw [tracks.absent unknown]; rfl)
  refine ⟨member, present, ?_⟩
  by_contra exits
  exact present (tracks.exiting exits)

theorem Tracks.stays (tracks : Tracks hub socket) (present : socket ∉ hub.departed) :
    (hub.peers socket).exits = [] := by
  by_contra exits
  exact present (tracks.exiting exits)

/-- A socket that is here goes on. -/
theorem Tracks.here {peer : Peer} (member : socket ∈ after.known)
    (present : socket ∉ after.departed) (peers : after.peers socket = peer)
    (exits : peer.exits = [])
    (paired : peer.ip.isSome = peer.registered ∧ peer.user.isSome = peer.registered)
    (fresh : peer.call.connects = true → peer.registered = false)
    (joining : ∀ market, peer.call = .joining market → market ∈ peer.subscribed)
    (shown : ∀ market, socket ∈ after.gridSubscribers.members market ↔ market ∈ peer.shown)
    (buffered : peer.pending = true → peer.grid.isSome = true)
    (listed : ∀ market, socket ∈ after.marketSubs.members market → peer.Listed market) :
    Tracks after socket := by
  subst peers
  exact ⟨fun unknown => absurd member unknown, paired, fresh, joining,
    fun leaves => absurd exits leaves,
    fun leaves => absurd leaves present, shown, buffered, listed⟩

/-- A call that goes on without touching the maps of subscriptions and grids. -/
theorem Tracks.goes {call : Call} {lock lastSeen : Bool} {channels : Option (Finset MarketKey)}
    (tracks : Tracks hub socket) (member : socket ∈ hub.known) (present : socket ∉ hub.departed)
    (peers : after.peers socket = { hub.peers socket with lock, lastSeen, channels, call })
    (known : after.known = hub.known) (departed : after.departed = hub.departed)
    (marketSubs : after.marketSubs = hub.marketSubs)
    (gridSubscribers : after.gridSubscribers = hub.gridSubscribers)
    (connects : call.connects = true → (hub.peers socket).call.connects = true)
    (joins : ∀ market, call ≠ .joining market)
    (keeps : ∀ market, (hub.peers socket).call.keeps market → call.keeps market) :
    Tracks after socket := by
  refine Tracks.here (known ▸ member) (departed ▸ present) peers (tracks.stays present)
    tracks.paired (fun new => tracks.fresh (connects new))
    (fun market joining => absurd joining (joins market)) ?_ tracks.buffered ?_
  · intro market
    rw [gridSubscribers]
    exact tracks.shown market
  · intro market isMember
    rw [marketSubs] at isMember
    obtain subscribed | kept | clears := tracks.listed market isMember
    · exact .inl subscribed
    · exact .inr (.inl (keeps market kept))
    · exact .inr (.inr clears)

theorem addFresh_goes (peer : Peer) (previous accepted : Finset MarketKey) :
    ∃ channels call, peer.addFresh previous accepted = { peer with channels, call } ∧
      call.connects = false ∧ (∀ market, call ≠ .joining market) ∧
      ∀ market, ¬call.keeps market := by
  unfold Peer.addFresh
  split
  · exact ⟨_, _, rfl, rfl, by simp, by simp [Call.keeps]⟩
  · exact ⟨_, _, rfl, rfl, by simp, by simp [Call.keeps]⟩

theorem tracks_resume (moves : Moves hub (.resume socket) after) (tracks : Tracks hub socket) :
    Tracks after socket := by
  obtain ⟨member, present, stays⟩ := tracks.busy moves.busy
  cases moves with
  | accepted waits =>
      refine tracks.goes member present (hub.setPeer_self _) rfl rfl rfl rfl ?_ (by simp) ?_
      · simp [waits, Call.connects]
      · simp [waits, Call.keeps]
  | @connected _ market ip user waits =>
      refine Tracks.here member present (hub.setPeer_self _) stays tracks.paired ?_ (by simp)
        tracks.shown tracks.buffered ?_
      · intro _
        exact tracks.fresh (by simp [waits, Call.connects])
      · intro other isMember
        obtain ⟨-, joins⟩ | old := Index.mem_join.mp isMember
        · exact .inr (.inl (Finset.mem_singleton.mp joins))
        · obtain subscribed | kept | clears := tracks.listed other old
          · exact .inl subscribed
          · exact .inr (.inl (by simpa [waits, Call.keeps] using kept))
          · exact .inr (.inr clears)
  | @registered _ market ip user waits =>
      refine Tracks.here member present (hub.setPeer_self _) stays ?_ ?_ (by simp) tracks.shown
        tracks.buffered ?_
      · simp [Peer.registered]
      · simp [Call.connects]
      · intro other isMember
        obtain subscribed | kept | clears := tracks.listed other isMember
        · exact .inl (Finset.mem_insert_of_mem subscribed)
        · obtain rfl : other = market := by simpa [waits, Call.keeps] using kept
          exact .inl (Finset.mem_insert_self _ _)
        · exact .inr (.inr clears)
  | declined waits declines =>
      refine tracks.goes member present (hub.setPeer_self _) rfl rfl rfl rfl ?_ (by simp) ?_
      · simp [Call.connects]
      · simp [waits, Call.keeps]
  | @recorded _ market subscriptions waits found isNew room =>
      refine Tracks.here member present (hub.setPeer_self _) stays ?_ ?_ ?_ tracks.shown
        tracks.buffered ?_
      · simpa [Peer.registered, found] using tracks.paired
      · simp [Call.connects]
      · intro other joins
        cases joins
        exact Finset.mem_insert_self _ _
      · intro other isMember
        obtain subscribed | kept | clears := tracks.listed other isMember
        · have old : other ∈ subscriptions := by simpa [Peer.subscribed, found] using subscribed
          exact .inl (Finset.mem_insert_of_mem old)
        · simp [waits, Call.keeps] at kept
        · exact .inr (.inr clears)
  | @joined _ market waits =>
      refine Tracks.here member present (hub.setPeer_self _) stays tracks.paired ?_ (by simp)
        tracks.shown tracks.buffered ?_
      · simp [Call.connects]
      · intro other isMember
        obtain ⟨-, joins⟩ | old := Index.mem_join.mp isMember
        · obtain rfl := Finset.mem_singleton.mp joins
          exact .inl (tracks.joining other waits)
        · obtain subscribed | kept | clears := tracks.listed other old
          · exact .inl subscribed
          · simp [waits, Call.keeps] at kept
          · exact .inr (.inr clears)
  | unneeded waits absent =>
      refine tracks.goes member present (hub.setPeer_self _) rfl rfl rfl rfl ?_ (by simp) ?_
      · simp [Call.connects]
      · simp [waits, Call.keeps]
  | @struck _ market subscriptions waits found isOld =>
      refine Tracks.here member present (hub.setPeer_self _) stays ?_ ?_ (by simp) tracks.shown
        tracks.buffered ?_
      · simpa [Peer.registered, found] using tracks.paired
      · simp [Call.connects]
      · intro other isMember
        obtain subscribed | kept | clears := tracks.listed other isMember
        · have old : other ∈ subscriptions := by simpa [Peer.subscribed, found] using subscribed
          by_cases same : other = market
          · exact .inr (.inl same)
          · exact .inl (Finset.mem_erase.mpr ⟨same, old⟩)
        · simp [waits, Call.keeps] at kept
        · exact .inr (.inr clears)
  | @parted _ market waits =>
      refine Tracks.here member present (Hub.setPeer_self _ _) stays tracks.paired ?_ (by simp)
        tracks.shown tracks.buffered ?_
      · simp [Call.connects]
      · intro other isMember
        obtain ⟨old, stayed⟩ := Index.mem_part.mp isMember
        obtain subscribed | kept | clears := tracks.listed other old
        · exact .inl subscribed
        · obtain rfl : other = market := by simpa [waits, Call.keeps] using kept
          exact absurd ⟨rfl, Finset.mem_singleton_self _⟩ stayed
        · exact .inr (.inr clears)
  | @dropped _ previous accepted waits =>
      obtain ⟨channels, call, same, connects, joins, -⟩ :=
        addFresh_goes (hub.peers socket) previous accepted
      refine tracks.goes member present ((hub.setPeer_self _).trans same) rfl rfl rfl rfl ?_ joins ?_
      · simp [connects]
      · simp [waits, Call.keeps]
  | added waits =>
      refine tracks.goes member present (hub.setPeer_self _) rfl rfl rfl rfl ?_ (by simp) ?_
      · simp [Call.connects]
      · simp [waits, Call.keeps]

theorem tracks_connect {market : MarketKey} {ip : Option Ip} {user : Option UserId}
    (fresh : socket ∉ hub.known) (tracks : Tracks hub socket) :
    Tracks
      { hub.setPeer socket { hub.peers socket with call := .accepting market ip user } with
        known := insert socket hub.known } socket := by
  have unknown := tracks.absent fresh
  have present : socket ∉ hub.departed := fun leaves => fresh (tracks.gone leaves).1
  refine Tracks.here (Finset.mem_insert_self _ _) present (hub.setPeer_self _)
    (tracks.stays present) tracks.paired ?_ (by simp) tracks.shown tracks.buffered ?_
  · intro _
    rw [unknown]
    rfl
  · intro other isMember
    obtain subscribed | kept | clears := tracks.listed other isMember
    · exact .inl subscribed
    · rw [unknown] at kept
      exact kept.elim
    · exact .inr (.inr clears)

/-- The socket's grid is replaced in the index as well. -/
theorem Tracks.regrids (tracks : Tracks hub socket) {accepted : Finset MarketKey}
    (market : MarketKey) :
    socket ∈ ((hub.gridSubscribers.part socket (hub.peers socket).shown).join socket
      accepted).members market ↔ market ∈ accepted := by
  have shown := tracks.shown market
  simp only [Index.mem_join, Index.mem_part, shown]
  simp

theorem Tracks.ungrids (tracks : Tracks hub socket) (market : MarketKey) :
    socket ∉ (hub.gridSubscribers.part socket (hub.peers socket).shown).members market := by
  have shown := tracks.shown market
  simp only [Index.mem_part, shown]
  simp

theorem setGrid_goes (peer : Peer) (accepted : Finset MarketKey) :
    ∃ channels call, peer.setGrid accepted =
        { peer with
          grid := if accepted = ∅ then none else some accepted
          pending := false, channels, call } ∧
      call.connects = false ∧ (∀ market, call ≠ .joining market) ∧
      ∀ market, ¬call.keeps market := by
  unfold Peer.setGrid
  split
  · exact addFresh_goes (peer.subscribeGrid accepted) peer.shown accepted
  · exact ⟨_, _, rfl, rfl, by simp, by simp [Call.keeps]⟩

theorem tracks_setGrid {accepted : Finset MarketKey} (member : socket ∈ hub.known)
    (present : socket ∉ hub.departed) (idle : (hub.peers socket).call = .idle)
    (tracks : Tracks hub socket) : Tracks (hub.setGrid socket accepted) socket := by
  obtain ⟨channels, call, same, connects, joins, -⟩ := setGrid_goes (hub.peers socket) accepted
  refine Tracks.here member present ((hub.setPeer_self _).trans same) (tracks.stays present)
    tracks.paired (by simp [connects]) (fun market joining => absurd joining (joins market)) ?_
    (by simp) ?_
  · intro market
    have shown := subscribeGrid_shown (hub.peers socket) accepted
    exact (tracks.regrids market).trans (iff_of_eq (congrArg (market ∈ ·) shown.symm))
  · intro other isMember
    obtain subscribed | kept | clears := tracks.listed other isMember
    · exact .inl subscribed
    · simp [idle, Call.keeps] at kept
    · exact .inr (.inr clears)

theorem Gone.clearGrid {peer : Peer} (gone : Gone peer) :
    Gone { peer.clearGrid with channels := none } :=
  ⟨gone.idle, gone.lock, gone.lastSeen, rfl, rfl, gone.popped,
    fun nothing => ⟨(gone.finished nothing).1, rfl⟩⟩

theorem tracks_releaseGrid (member : socket ∈ hub.known)
    (tracks : Tracks hub socket) : Tracks (hub.releaseGrid socket) socket := by
  have peers : (hub.releaseGrid socket).peers socket =
      { (hub.peers socket).clearGrid with channels := none } := hub.setPeer_self _
  refine ⟨fun unknown => absurd member unknown, ?_, ?_, ?_, ?_, ?_, ?_, ?_, ?_⟩
  · rw [peers]
    exact tracks.paired
  · rw [peers]
    exact tracks.fresh
  · rw [peers]
    exact tracks.joining
  · rw [peers]
    exact tracks.exiting
  · intro leaves
    rw [peers]
    exact ⟨member, (tracks.gone leaves).2.clearGrid⟩
  · intro market
    rw [peers]
    have nothing : market ∉ ({ (hub.peers socket).clearGrid with channels := none } : Peer).shown :=
      Finset.notMem_empty market
    exact iff_of_false (tracks.ungrids market) nothing
  · rw [peers]
    simp [Peer.clearGrid]
  · intro market isMember
    rw [peers]
    exact tracks.listed market isMember

end Tracking

/-! # Disconnecting -/

section Disconnecting

variable {hub between after : Hub} {socket : Socket} {before later : List Exit}
  {markets : List MarketKey}

/-- A `disconnect` has popped its socket from the maps that are keyed by socket. -/
structure Popped (between : Hub) (socket : Socket) (before later : List Exit)
    (markets : List MarketKey) : Prop where
  known : socket ∈ between.known
  departed : socket ∈ between.departed
  idle : (between.peers socket).call = .idle
  lock : (between.peers socket).lock = false
  lastSeen : (between.peers socket).lastSeen = false
  grid : (between.peers socket).grid = none
  pending : (between.peers socket).pending = false
  subscriptions : (between.peers socket).subscriptions = none
  ip : (between.peers socket).ip = none
  user : (between.peers socket).user = none
  grids : ∀ market, socket ∉ between.gridSubscribers.members market
  listed : ∀ market, socket ∈ between.marketSubs.members market →
    market ∈ markets ∨ ∃ stage ∈ before ++ later, market ∈ stage.toClear

theorem Popped.tracks (popped : Popped between socket before later markets)
    (proceeds : Proceeds between after socket before later markets) : Tracks after socket := by
  obtain ⟨stages, channels, peer, clears, entered, last⟩ := proceeds.peer
  have gone : Gone (after.peers socket) := by
    rw [peer]
    refine ⟨popped.idle, popped.lock, popped.lastSeen, popped.grid, popped.pending,
      fun _ _ _ => popped.subscriptions, ?_⟩
    intro nothing
    have none : stages = [] := by
      simp only [List.append_eq_nil_iff] at nothing
      exact nothing.1.2
    exact ⟨popped.subscriptions, last none⟩
  have member : socket ∈ after.known := proceeds.known ▸ popped.known
  have leaves : socket ∈ after.departed := proceeds.departed ▸ popped.departed
  refine ⟨fun unknown => absurd member unknown, ?_, ?_, ?_, fun _ => leaves,
    fun _ => ⟨member, gone⟩, ?_, ?_, ?_⟩
  · rw [peer]
    simp [Peer.registered, popped.subscriptions, popped.ip, popped.user]
  · rw [peer]
    simp [popped.idle, Call.connects]
  · rw [peer]
    simp [popped.idle]
  · intro market
    rw [proceeds.gridSubscribers]
    simp [popped.grids, Peer.shown, gone.grid]
  · rw [gone.pending]
    simp
  · intro market isMember
    rw [proceeds.marketSubs] at isMember
    rw [peer]
    refine .inr (.inr ?_)
    obtain isNext | ⟨stage, isStage, isLater⟩ := popped.listed market isMember
    · rw [← clears] at isNext
      obtain ⟨stage, isStage, isLater⟩ := List.mem_flatMap.mp isNext
      exact ⟨stage, by simp [isStage], isLater⟩
    · refine ⟨stage, ?_, isLater⟩
      simp only [List.mem_append] at isStage ⊢
      obtain early | late := isStage
      · exact .inl (.inl early)
      · exact .inr late

/-- A `disconnect` that has dropped the socket's lock, lease and grid. -/
structure Dropped (between : Hub) (socket : Socket) : Prop where
  known : socket ∈ between.known
  departed : socket ∈ between.departed
  idle : (between.peers socket).call = .idle
  lock : (between.peers socket).lock = false
  lastSeen : (between.peers socket).lastSeen = false
  grid : (between.peers socket).grid = none
  pending : (between.peers socket).pending = false
  grids : ∀ market, socket ∉ between.gridSubscribers.members market

theorem Dropped.pop (dropped : Dropped between socket)
    (lists : Lists markets (between.peers socket).subscribed)
    (listed : ∀ market, socket ∈ between.marketSubs.members market →
      market ∈ (between.peers socket).subscribed ∨
        ∃ stage ∈ before ++ later, market ∈ stage.toClear) :
    Tracks (between.popSocket socket before later markets) socket := by
  refine Popped.tracks ?_ (clearNext_proceeds (by simp [Hub.setPeer, dropped.grid])
    (by simp [Hub.setPeer, dropped.pending]))
  refine ⟨dropped.known, dropped.departed, ?_, ?_, ?_, ?_, ?_, ?_, ?_, ?_, dropped.grids, ?_⟩
  · simp [Hub.setPeer, dropped.idle]
  · simp [Hub.setPeer, dropped.lock]
  · simp [Hub.setPeer, dropped.lastSeen]
  · simp [Hub.setPeer, dropped.grid]
  · simp [Hub.setPeer, dropped.pending]
  · simp [Hub.setPeer]
  · simp [Hub.setPeer]
  · simp [Hub.setPeer]
  · intro market isMember
    obtain subscribed | clears := listed market isMember
    · exact .inl ((lists.2 market).mpr subscribed)
    · exact .inr clears

theorem startLeaving_dropped (member : socket ∈ hub.known)
    (idle : (hub.peers socket).call = .idle) (tracks : Tracks hub socket) :
    Dropped (hub.startLeaving socket) socket := by
  refine ⟨member, Finset.mem_insert_self _ _, ?_, ?_, ?_, ?_, ?_, tracks.ungrids⟩ <;>
    simp [Hub.startLeaving, Hub.setPeer, Peer.clearGrid, idle]

theorem tracks_disconnect (moves : Moves hub (.disconnect socket) after)
    (idle : (hub.peers socket).call = .idle) (tracks : Tracks hub socket) :
    Tracks after socket := by
  cases moves with
  | disconnect member locked =>
      have peers : ((hub.startLeaving socket).setExits socket
          ((hub.peers socket).exits ++ [.locking])).peers socket =
          { (hub.peers socket).clearGrid with
            lock := false, lastSeen := false, exits := (hub.peers socket).exits ++ [.locking] } := by
        simp [Hub.setExits, Hub.startLeaving]
      have popped : ∀ stage ∈ (hub.peers socket).exits ++ [.locking], stage ≠ .locking →
          (hub.peers socket).subscriptions = none := by
        intro stage isStage notLocking
        have earlier : stage ∈ (hub.peers socket).exits := by simpa [notLocking] using isStage
        have leaves := tracks.exiting (List.ne_nil_of_mem earlier)
        exact (tracks.gone leaves).2.popped stage earlier notLocking
      refine ⟨fun unknown => absurd member unknown, ?_, ?_, ?_,
        fun _ => Finset.mem_insert_self _ _, ?_, ?_, ?_, ?_⟩
      · rw [peers]
        exact tracks.paired
      · rw [peers]
        exact tracks.fresh
      · rw [peers]
        exact tracks.joining
      · intro _
        rw [peers]
        exact ⟨member, idle, rfl, rfl, rfl, rfl, popped, fun nothing => by simp at nothing⟩
      · intro market
        rw [peers]
        exact iff_of_false (tracks.ungrids market) (Finset.notMem_empty market)
      · rw [peers]
        simp [Peer.clearGrid]
      · intro market isMember
        rw [peers]
        obtain subscribed | kept | ⟨stage, isStage, clears⟩ := tracks.listed market isMember
        · exact .inl subscribed
        · exact .inr (.inl kept)
        · exact .inr (.inr ⟨stage, List.mem_append_left _ isStage, clears⟩)
  | disconnectUnlocked member unlocked lists =>
      have subscribed : ((hub.startLeaving socket).peers socket).subscribed =
          (hub.peers socket).subscribed := by
        simp [Hub.startLeaving, Hub.setPeer, Peer.clearGrid, Peer.subscribed]
      refine (startLeaving_dropped member idle tracks).pop (subscribed ▸ lists) ?_
      intro market isMember
      rw [subscribed, List.append_nil]
      obtain old | kept | clears := tracks.listed market isMember
      · exact .inl old
      · simp [idle, Call.keeps] at kept
      · exact .inr clears

theorem tracks_exit {stage : Exit} (moves : Moves hub (.exit socket stage) after)
    (tracks : Tracks hub socket) : Tracks after socket := by
  have exits : (hub.peers socket).exits ≠ [] := by
    cases moves <;> simp_all
  have leaves := tracks.exiting exits
  obtain ⟨member, gone⟩ := tracks.gone leaves
  have grids : ∀ market, socket ∉ hub.gridSubscribers.members market := by
    intro market isMember
    have shows := (tracks.shown market).mp isMember
    simp [Peer.shown, gone.grid] at shows
  have popped : ∀ stage ∈ (hub.peers socket).exits, stage ≠ .locking →
      (hub.peers socket).subscriptions = none ∧ (hub.peers socket).ip = none ∧
        (hub.peers socket).user = none := by
    intro stage isStage notLocking
    have subscriptions := gone.popped stage isStage notLocking
    obtain ⟨ip, user⟩ := tracks.paired
    simp only [Peer.registered, subscriptions, Option.isSome_none, Option.isSome_eq_false_iff,
      Option.isNone_iff_eq_none] at ip user
    exact ⟨subscriptions, ip, user⟩
  cases moves with
  | @popped _ before later markets waits lists =>
      have dropped : Dropped hub socket :=
        ⟨member, leaves, gone.idle, gone.lock, gone.lastSeen, gone.grid, gone.pending, grids⟩
      refine dropped.pop lists ?_
      intro market isMember
      obtain subscribed | kept | ⟨stage, isStage, clears⟩ := tracks.listed market isMember
      · exact .inl subscribed
      · simp [gone.idle, Call.keeps] at kept
      · rw [waits] at isStage
        refine .inr ⟨stage, ?_, clears⟩
        have notLocking : stage ≠ .locking := by
          rintro rfl
          simp [Exit.toClear] at clears
        simpa [notLocking] using isStage
  | @cleared _ before later first rest all waits =>
      obtain ⟨subscriptions, ip, user⟩ :=
        popped (.clearing first rest all) (by simp [waits]) (by simp)
      refine Popped.tracks ?_ (clearNext_proceeds gone.grid gone.pending)
      refine ⟨member, leaves, gone.idle, gone.lock, gone.lastSeen, gone.grid, gone.pending,
        subscriptions, ip, user, grids, ?_⟩
      intro market isMember
      obtain ⟨old, stayed⟩ := Index.mem_part.mp isMember
      have different : market ≠ first := fun same => stayed ⟨rfl, Finset.mem_singleton.mpr same⟩
      obtain subscribed | kept | ⟨stage, isStage, clears⟩ := tracks.listed market old
      · simp [Peer.subscribed, subscriptions] at subscribed
      · simp [gone.idle, Call.keeps] at kept
      · rw [waits] at isStage
        obtain early | rfl | late : stage ∈ before ∨ stage = .clearing first rest all ∨
            stage ∈ later := by simpa using isStage
        · exact .inr ⟨stage, List.mem_append_left _ early, clears⟩
        · exact .inl (by simpa [Exit.toClear, different] using clears)
        · exact .inr ⟨stage, List.mem_append_right _ late, clears⟩
  | @released _ before later rest waits =>
      obtain ⟨subscriptions, ip, user⟩ := popped (.releasing rest) (by simp [waits]) (by simp)
      refine Popped.tracks ?_ (releaseNext_proceeds gone.grid gone.pending)
      refine ⟨member, leaves, gone.idle, gone.lock, gone.lastSeen, gone.grid, gone.pending,
        subscriptions, ip, user, grids, ?_⟩
      intro market isMember
      obtain subscribed | kept | ⟨stage, isStage, clears⟩ := tracks.listed market isMember
      · simp [Peer.subscribed, subscriptions] at subscribed
      · simp [gone.idle, Call.keeps] at kept
      · rw [waits] at isStage
        refine .inr ⟨stage, ?_, clears⟩
        have different : stage ≠ .releasing rest := by
          rintro rfl
          simp [Exit.toClear] at clears
        simpa [different] using isStage

end Disconnecting

/-! # Steps -/

section Steps

variable {hub after : Hub} {socket other : Socket} {market : MarketKey} {action : Action}

theorem Tracks.buffers {pending : Bool} (tracks : Tracks hub socket)
    (peers : after.peers socket = { hub.peers socket with pending })
    (buffered : pending = true → (hub.peers socket).grid.isSome = true)
    (known : after.known = hub.known) (departed : after.departed = hub.departed)
    (marketSubs : after.marketSubs = hub.marketSubs)
    (gridSubscribers : after.gridSubscribers = hub.gridSubscribers)
    (unknown : socket ∉ hub.known → pending = false) : Tracks after socket := by
  refine ⟨?_, ?_, ?_, ?_, ?_, ?_, ?_, ?_, ?_⟩
  · intro isUnknown
    rw [known] at isUnknown
    rw [peers, tracks.absent isUnknown, unknown isUnknown]
    rfl
  · rw [peers]
    exact tracks.paired
  · rw [peers]
    exact tracks.fresh
  · rw [peers]
    exact tracks.joining
  · rw [peers, departed]
    exact tracks.exiting
  · rw [peers, departed, known]
    intro leaves
    obtain ⟨member, gone⟩ := tracks.gone leaves
    have dry : pending = false := by
      by_contra wet
      have shows := buffered (by simpa using wet)
      simp [gone.grid] at shows
    exact ⟨member, gone.idle, gone.lock, gone.lastSeen, gone.grid, dry, gone.popped,
      gone.finished⟩
  · intro market
    rw [peers, gridSubscribers]
    exact tracks.shown market
  · rw [peers]
    exact buffered
  · intro market isMember
    rw [peers]
    rw [marketSubs] at isMember
    exact tracks.listed market isMember

theorem tracks_buffer (tracks : Tracks hub socket) (moves : Moves hub (.buffer market) after) :
    Tracks after socket := by
  cases moves with
  | buffer =>
      by_cases shows : socket ∈ hub.gridSubscribers.members market
      · have isShown := (tracks.shown market).mp shows
        have grid : (hub.peers socket).grid.isSome = true := by
          cases isGrid : (hub.peers socket).grid with
          | none => simp [Peer.shown, isGrid] at isShown
          | some markets => rfl
        refine tracks.buffers (if_pos shows) (fun _ => grid) rfl rfl rfl rfl ?_
        intro unknown
        simp [tracks.absent unknown, Peer.unknown] at grid
      · refine tracks.buffers (if_neg shows) tracks.buffered rfl rfl rfl rfl ?_
        intro unknown
        exact congrArg Peer.pending (tracks.absent unknown)

theorem tracks_step (apart : Apart hub action) (moves : Moves hub action after)
    (tracks : ∀ socket, Tracks hub socket) : ∀ socket, Tracks after socket := by
  intro other
  have frame : ∀ socket, action.actor = some socket → Tracks after socket →
      Tracks after other := by
    intro socket acts own
    by_cases same : other = socket
    · rw [same]
      exact own
    · exact (tracks other).elsewhere (moves.elsewhere acts same)
  cases action with
  | connect socket market ip user =>
      refine frame socket rfl ?_
      cases moves with
      | connect fresh ipRoom userRoom => exact tracks_connect fresh (tracks socket)
  | touch socket =>
      refine frame socket rfl ?_
      cases moves with
      | touch member idle =>
          refine (tracks socket).goes member apart (hub.setPeer_self _) rfl rfl rfl rfl id ?_ ?_
          · simp [idle]
          · exact fun _ => id
  | subscribe socket market =>
      refine frame socket rfl ?_
      cases moves with
      | subscribe member idle =>
          refine (tracks socket).goes member apart (hub.setPeer_self _) rfl rfl rfl rfl ?_ ?_ ?_
          · simp [Call.connects]
          · simp
          · simp [idle, Call.keeps]
  | unsubscribe socket market =>
      refine frame socket rfl ?_
      cases moves with
      | unsubscribe member idle =>
          refine (tracks socket).goes member apart (hub.setPeer_self _) rfl rfl rfl rfl ?_ ?_ ?_
          · simp [Call.connects]
          · simp
          · simp [idle, Call.keeps]
  | setGrid socket marketIds =>
      refine frame socket rfl ?_
      cases moves with
      | setGrid member idle => exact tracks_setGrid member apart idle (tracks socket)
  | releaseGrid socket =>
      refine frame socket rfl ?_
      cases moves with
      | releaseGrid member idle => exact tracks_releaseGrid member (tracks socket)
  | resume socket => exact frame socket rfl (tracks_resume moves (tracks socket))
  | disconnect socket =>
      exact frame socket rfl (tracks_disconnect moves apart (tracks socket))
  | exit socket stage => exact frame socket rfl (tracks_exit moves (tracks socket))
  | buffer market => exact tracks_buffer (tracks other) moves
  | flush =>
      cases moves with
      | flush => exact (tracks other).buffers rfl (by simp) rfl rfl rfl rfl fun _ => rfl

end Steps

end PredictX.ConnectionManager
