import PredictX.Websocket.ConnectionManager
import PredictX.Data.Ledger
import PredictX.Data.Run

namespace PredictX.ConnectionManager

open PredictX.Data PredictX.MarketFeed PredictX.MarketSocket PredictX.RedisPubSub

/-! How often a market's channel is held.

A socket holds a market's channel for its subscription and for its grid.  In the middle of a call
the maps and the count differ by what the call has still to do, so the count is followed socket by
socket: it is the sum of what each of them has acquired and not yet released.
-/

/-! # What a socket holds -/

/-- One if the market is in the set. -/
def own (markets : Finset MarketKey) (market : MarketKey) : ℕ := if market ∈ markets then 1 else 0

/-- The holds for the subscriptions: a new one is not acquired yet, an old one not yet released. -/
def Call.ofSubscriptions (subscribed : Finset MarketKey) (market : MarketKey) : Call → ℕ
  | .joining new => own (subscribed.erase new) market
  | .parting old => own subscribed market + own {old} market
  | _ => own subscribed market

/-- The holds for the grid, between the release of the stale and the acquisition of the fresh. -/
def Call.ofGrid (holding : Finset MarketKey) (market : MarketKey) : Call → ℕ
  | .dropping previous accepted => own (previous ∩ accepted) market
  | .adding _ accepted => own accepted market
  | _ => own holding market

/-- What a `disconnect` has taken from the maps and has still to release. -/
def Exit.owes (market : MarketKey) : Exit → ℕ
  | .locking => 0
  | .clearing _ _ all => (all.filter fun other => !sentinel other).count market
  | .releasing rest => rest.count market

def Peer.held (peer : Peer) (market : MarketKey) : ℕ :=
  peer.call.ofSubscriptions peer.subscribed market + peer.call.ofGrid peer.holding market +
    (peer.exits.map (Exit.owes market)).sum

/-- The market that the call is about to subscribe to. -/
def Call.asked : Call → Option MarketKey
  | .accepting market _ _ | .connecting market _ _ | .registering market _ _
  | .subscribing market => some market
  | _ => none

def Call.connects : Call → Bool
  | .accepting _ _ _ | .connecting _ _ _ | .registering _ _ _ => true
  | _ => false

/-- The grid that is being replaced and the new one. -/
def Call.grids : Call → Option (Finset MarketKey × Finset MarketKey)
  | .dropping previous accepted | .adding previous accepted => some (previous, accepted)
  | _ => none

/-- A socket that is connected, or about to be. -/
structure Staying (peer : Peer) : Prop where
  stays : peer.exits = []
  named : ∀ market ∈ peer.subscribed, sentinel market = false
  asked : ∀ market ∈ peer.call.asked, sentinel market = false
  joining : ∀ market, peer.call = .joining market → market ∈ peer.subscribed
  grid : peer.call.grids = none → peer.holding = peer.shown
  grids : ∀ previous accepted, peer.call.grids = some (previous, accepted) →
    peer.holding = previous ∧ peer.shown = accepted
  connects : peer.call.connects = true → peer.subscribed = ∅ ∧ peer.shown = ∅
  registered : peer.call.connects = false → peer.subscriptions.isSome = true

/-- A socket that `disconnect` has been called for. -/
structure Leaving (peer : Peer) : Prop where
  idle : peer.call = .idle
  grid : peer.grid = none
  named : ∀ market ∈ peer.subscribed, sentinel market = false
  popped : ∀ stage ∈ peer.exits, stage ≠ .locking → peer.subscriptions = none
  gone : peer.exits = [] → peer.subscriptions = none ∧ peer.channels = none

/-- A socket that has not come yet. -/
structure Absent (peer : Peer) : Prop where
  idle : peer.call = .idle
  exits : peer.exits = []
  subscriptions : peer.subscriptions = none
  grid : peer.grid = none
  channels : peer.channels = none

structure Balanced (hub : Hub) : Prop where
  backed : Backed hub.known (fun socket => (hub.peers socket).held)
    fun market => hub.refs (.events market)
  absent : ∀ socket, socket ∉ hub.known → Absent (hub.peers socket)
  staying : ∀ socket ∈ hub.known, socket ∉ hub.departed → Staying (hub.peers socket)
  leaving : ∀ socket ∈ hub.departed, socket ∈ hub.known ∧ Leaving (hub.peers socket)

/-- A socket's `disconnect` begins between its calls, and no call of it begins after that. -/
def Separate (hub : Hub) : Action → Prop
  | .connect _ market _ _ => sentinel market = false
  | .subscribe socket market => socket ∉ hub.departed ∧ sentinel market = false
  | .unsubscribe socket _ | .setGrid socket _ | .releaseGrid socket => socket ∉ hub.departed
  | .disconnect socket => (hub.peers socket).call = .idle
  | _ => True

/-! # Moves of one socket -/

section Counts

variable {refs : Refs} {markets : Finset MarketKey} {market : MarketKey}

theorem mem_channelsOf : Channel.events market ∈ channelsOf markets ↔ market ∈ markets := by
  simp [channelsOf]

theorem acquire_events :
    refs.acquire (channelsOf markets) (.events market) =
      refs (.events market) + own markets market := by
  by_cases member : market ∈ markets <;>
    simp [Refs.acquire, mem_channelsOf, own, member]

theorem release_events :
    refs.release (channelsOf markets) (.events market) =
      refs (.events market) - own markets market := by
  by_cases member : market ∈ markets <;>
    simp [Refs.release, mem_channelsOf, own, member]

end Counts

section Own

variable {markets : Finset MarketKey}

theorem own_empty (market : MarketKey) : own ∅ market = 0 := by
  simp [own]

theorem own_erase {old : MarketKey} (present : old ∈ markets) (market : MarketKey) :
    own markets market = own (markets.erase old) market + own {old} market := by
  by_cases same : market = old
  · simp [own, same, present]
  · simp [own, same]

theorem count_cons_own (first : MarketKey) (rest : List MarketKey) (market : MarketKey) :
    (first :: rest).count market = rest.count market + own {first} market := by
  by_cases same : market = first
  · simp [own, same]
  · simp [own, same, Ne.symm same]

/-- A grid is what is kept of the old one and what is new. -/
theorem own_sdiff (markets others : Finset MarketKey) (market : MarketKey) :
    own markets market = own (markets \ others) market + own (others ∩ markets) market := by
  by_cases member : market ∈ others
  · simp [own, member]
  · simp [own, member]

end Own

section Moving

variable {hub after : Hub} {socket : Socket}

theorem Balanced.backs (balanced : Balanced hub) (member : socket ∈ hub.known)
    (others : ∀ other, other ≠ socket → after.peers other = hub.peers other)
    (known : after.known = hub.known)
    (moved : ∀ market, after.refs (.events market) + (hub.peers socket).held market =
      hub.refs (.events market) + (after.peers socket).held market) :
    Backed after.known (fun socket => (after.peers socket).held)
      fun market => after.refs (.events market) := by
  rw [known]
  refine balanced.backed.step member (fun other different => ?_) moved
  rw [others other different]

theorem Balanced.absentAfter (balanced : Balanced hub) (member : socket ∈ hub.known)
    (others : ∀ other, other ≠ socket → after.peers other = hub.peers other)
    (known : after.known = hub.known) :
    ∀ other, other ∉ after.known → Absent (after.peers other) := by
  intro other unknown
  rw [known] at unknown
  rw [others other fun same => unknown (same ▸ member)]
  exact balanced.absent other unknown

/-- A socket moves on and stays. -/
theorem Balanced.stays (balanced : Balanced hub) (member : socket ∈ hub.known)
    (present : socket ∉ hub.departed)
    (others : ∀ other, other ≠ socket → after.peers other = hub.peers other)
    (known : after.known = hub.known) (departed : after.departed = hub.departed)
    (moved : ∀ market, after.refs (.events market) + (hub.peers socket).held market =
      hub.refs (.events market) + (after.peers socket).held market)
    (staying : Staying (after.peers socket)) : Balanced after := by
  refine ⟨balanced.backs member others known moved, balanced.absentAfter member others known,
    ?_, ?_⟩
  · intro other isKnown stays
    rw [known] at isKnown
    rw [departed] at stays
    by_cases same : other = socket
    · rw [same]
      exact staying
    · rw [others other same]
      exact balanced.staying other isKnown stays
  · intro other leaves
    rw [departed] at leaves
    have different : other ≠ socket := fun same => present (same ▸ leaves)
    rw [known, others other different]
    exact balanced.leaving other leaves

/-- A socket moves on and leaves. -/
theorem Balanced.leaves (balanced : Balanced hub) (member : socket ∈ hub.known)
    (others : ∀ other, other ≠ socket → after.peers other = hub.peers other)
    (known : after.known = hub.known) (departed : after.departed = insert socket hub.departed)
    (moved : ∀ market, after.refs (.events market) + (hub.peers socket).held market =
      hub.refs (.events market) + (after.peers socket).held market)
    (leaving : Leaving (after.peers socket)) : Balanced after := by
  refine ⟨balanced.backs member others known moved, balanced.absentAfter member others known,
    ?_, ?_⟩
  · intro other isKnown stays
    rw [departed, Finset.mem_insert, not_or] at stays
    rw [known] at isKnown
    rw [others other stays.1]
    exact balanced.staying other isKnown stays.2
  · intro other leaves
    rw [departed, Finset.mem_insert] at leaves
    rw [known]
    by_cases same : other = socket
    · rw [same]
      exact ⟨member, leaving⟩
    · rw [others other same]
      exact balanced.leaving other (leaves.resolve_left same)

/-- A socket in the middle of a call is here to stay. -/
theorem Balanced.busy (balanced : Balanced hub) (busy : (hub.peers socket).call ≠ .idle) :
    socket ∈ hub.known ∧ socket ∉ hub.departed ∧ Staying (hub.peers socket) := by
  have member : socket ∈ hub.known := by
    by_contra unknown
    exact busy (balanced.absent socket unknown).idle
  have present : socket ∉ hub.departed := by
    intro leaves
    exact busy (balanced.leaving socket leaves).2.idle
  exact ⟨member, present, balanced.staying socket member present⟩

/-- A socket holds no more than is counted. -/
theorem Balanced.covers (balanced : Balanced hub) (member : socket ∈ hub.known)
    (market : MarketKey) : (hub.peers socket).held market ≤ hub.refs (.events market) :=
  balanced.backed.le member market

end Moving

/-! # Leaving -/

section Leaving

variable {hub between : Hub} {socket : Socket} {before after : List Exit}
  {owed : MarketKey → ℕ}

/-- A `disconnect` in the middle of a step: its socket is popped, and what is still owed is no
longer in the maps. -/
structure Departing (hub between : Hub) (socket : Socket) (before after : List Exit)
    (owed : MarketKey → ℕ) : Prop where
  member : socket ∈ hub.known
  known : between.known = hub.known
  departed : between.departed = insert socket hub.departed
  others : ∀ other, other ≠ socket → between.peers other = hub.peers other
  refs : between.refs = hub.refs
  idle : (between.peers socket).call = .idle
  grid : (between.peers socket).grid = none
  popped : (between.peers socket).subscriptions = none
  held : ∀ market, (hub.peers socket).held market =
    own (between.peers socket).holding market + ((before ++ after).map (Exit.owes market)).sum +
      owed market

theorem Departing.leaving (departing : Departing hub between socket before after owed)
    {peer : Peer} (call : peer.call = (between.peers socket).call)
    (grid : peer.grid = (between.peers socket).grid)
    (subscriptions : peer.subscriptions = (between.peers socket).subscriptions)
    (gone : peer.exits = [] → peer.channels = none) : Leaving peer := by
  have popped : peer.subscriptions = none := subscriptions.trans departing.popped
  refine ⟨call.trans departing.idle, grid.trans departing.grid, ?_, fun _ _ _ => popped,
    fun nothing => ⟨popped, gone nothing⟩⟩
  simp [Peer.subscribed, popped]

theorem held_idle {peer : Peer} (idle : peer.call = .idle) (market : MarketKey) :
    peer.held market = own peer.subscribed market + own peer.holding market +
      (peer.exits.map (Exit.owes market)).sum := by
  simp [Peer.held, idle, Call.ofSubscriptions, Call.ofGrid]

theorem Departing.releaseNext (balanced : Balanced hub) {markets : List MarketKey}
    (departing : Departing hub between socket before after fun market => markets.count market) :
    Balanced (between.releaseNext socket before after markets) := by
  cases markets with
  | nil =>
      refine balanced.leaves departing.member ?_ departing.known departing.departed ?_ ?_
      · intro other different
        simp [Hub.releaseNext, Hub.setExits, Hub.releaseGrid, different,
          departing.others other different]
      · intro market
        have covered := balanced.covers departing.member market
        have held := departing.held market
        have refs : (between.releaseNext socket before after []).refs (.events market) =
            hub.refs (.events market) - own (between.peers socket).holding market := by
          rw [← departing.refs]
          exact release_events
        have idle : ((between.releaseNext socket before after []).peers socket).call = .idle := by
          simp [Hub.releaseNext, Hub.setExits, Hub.releaseGrid, Peer.clearGrid, departing.idle]
        have left : ((between.releaseNext socket before after []).peers socket).held market =
            ((before ++ after).map (Exit.owes market)).sum := by
          rw [held_idle idle]
          simp [Hub.releaseNext, Hub.setExits, Hub.releaseGrid, Peer.clearGrid, Peer.subscribed,
            Peer.holding, departing.popped, own_empty]
        rw [refs, left]
        simp only [List.count_nil] at held
        omega
      · refine departing.leaving ?_ ?_ ?_ ?_ <;>
          simp [Hub.releaseNext, Hub.setExits, Hub.releaseGrid, Peer.clearGrid, departing.grid]
  | cons first rest =>
      refine balanced.leaves departing.member ?_ departing.known departing.departed ?_ ?_
      · intro other different
        simp [Hub.releaseNext, Hub.setExits, Hub.setPeer, different,
          departing.others other different]
      · intro market
        have covered := balanced.covers departing.member market
        have held := departing.held market
        have refs : (between.releaseNext socket before after (first :: rest)).refs
            (.events market) = hub.refs (.events market) - own {first} market := by
          rw [← departing.refs]
          exact release_events
        have idle : ((between.releaseNext socket before after (first :: rest)).peers
            socket).call = .idle := by
          simp [Hub.releaseNext, Hub.setExits, Hub.setPeer, departing.idle]
        have left : ((between.releaseNext socket before after (first :: rest)).peers socket).held
            market = own (between.peers socket).holding market +
              ((before ++ after).map (Exit.owes market)).sum + rest.count market := by
          rw [held_idle idle]
          simp [Hub.releaseNext, Hub.setExits, Hub.setPeer, Peer.subscribed, Peer.holding,
            departing.popped, own_empty, Exit.owes]
          omega
        have count := count_cons_own first rest market
        rw [refs, left]
        omega
      · refine departing.leaving ?_ ?_ ?_ ?_ <;>
          simp [Hub.releaseNext, Hub.setExits, Hub.setPeer]

theorem Departing.clearNext (balanced : Balanced hub) {all markets : List MarketKey}
    (departing : Departing hub between socket before after fun market =>
      (all.filter fun other => !sentinel other).count market) :
    Balanced (between.clearNext socket before after all markets) := by
  cases markets with
  | nil => exact departing.releaseNext balanced
  | cons first rest =>
      refine balanced.leaves departing.member ?_ departing.known departing.departed ?_ ?_
      · intro other different
        simp [Hub.clearNext, Hub.setExits, Hub.setPeer, different,
          departing.others other different]
      · intro market
        have held := departing.held market
        have refs : (between.clearNext socket before after all (first :: rest)).refs =
            hub.refs := departing.refs
        have idle : ((between.clearNext socket before after all (first :: rest)).peers
            socket).call = .idle := by
          simp [Hub.clearNext, Hub.setExits, Hub.setPeer, departing.idle]
        have left : ((between.clearNext socket before after all (first :: rest)).peers
            socket).held market = own (between.peers socket).holding market +
              ((before ++ after).map (Exit.owes market)).sum +
                (all.filter fun other => !sentinel other).count market := by
          rw [held_idle idle]
          simp [Hub.clearNext, Hub.setExits, Hub.setPeer, Peer.subscribed, Peer.holding,
            departing.popped, own_empty, Exit.owes]
          omega
        rw [refs, left, held]
      · refine departing.leaving ?_ ?_ ?_ ?_ <;>
          simp [Hub.clearNext, Hub.setExits, Hub.setPeer]

/-- The markets of a socket, once for each hold. -/
theorem Lists.count {markets : List MarketKey} {set : Finset MarketKey}
    (lists : Lists markets set) (named : ∀ market ∈ set, sentinel market = false)
    (market : MarketKey) :
    (markets.filter fun other => !sentinel other).count market = own set market := by
  have everything : (markets.filter fun other => !sentinel other) = markets := by
    refine List.filter_eq_self.mpr fun other member => ?_
    simp [named other ((lists.2 other).mp member)]
  rw [everything, lists.1.count]
  simp [own, lists.2]

theorem Balanced.popSocket (balanced : Balanced hub) {markets : List MarketKey}
    (member : socket ∈ hub.known) (known : between.known = hub.known)
    (departed : between.departed = insert socket hub.departed)
    (others : ∀ other, other ≠ socket → between.peers other = hub.peers other)
    (refs : between.refs = hub.refs)
    (idle : (between.peers socket).call = .idle) (grid : (between.peers socket).grid = none)
    (named : ∀ market ∈ (between.peers socket).subscribed, sentinel market = false)
    (lists : Lists markets (between.peers socket).subscribed)
    (held : ∀ market, (hub.peers socket).held market =
      own (between.peers socket).subscribed market + own (between.peers socket).holding market +
        ((before ++ after).map (Exit.owes market)).sum) :
    Balanced (between.popSocket socket before after markets) := by
  refine Departing.clearNext balanced ?_
  refine ⟨member, known, departed, ?_, refs, ?_, ?_, ?_, ?_⟩
  · intro other different
    simp [Hub.setPeer, different, others other different]
  · simp [Hub.setPeer, idle]
  · simp [Hub.setPeer, grid]
  · simp [Hub.setPeer]
  · intro market
    rw [held market, lists.count named]
    simp [Hub.setPeer, Peer.holding]
    omega

end Leaving

end PredictX.ConnectionManager
