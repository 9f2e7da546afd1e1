import PredictX.Properties.ChannelHolds
import PredictX.Data.Run

namespace PredictX.ConnectionManager

open PredictX.Data PredictX.MarketFeed PredictX.MarketSocket PredictX.RedisPubSub

/-! A market's channel is held for every subscription and for every grid. -/

section Steps

variable {hub after : Hub} {socket : Socket} {market : MarketKey} {action : Action}

/-- A step of a call that leaves the maps as they are. -/
theorem Staying.goTo {peer : Peer} {call : Call} {lock lastSeen : Bool} (staying : Staying peer)
    (asked : ∀ market ∈ call.asked, sentinel market = false)
    (joining : ∀ market, call = .joining market → market ∈ peer.subscribed)
    (connects : call.connects = peer.call.connects) (grids : call.grids = none)
    (wasGrids : peer.call.grids = none) :
    Staying { peer with call, lock, lastSeen } :=
  ⟨staying.stays, staying.named, asked, joining, fun _ => staying.grid wasGrids,
    fun _ _ swaps => by simp [grids] at swaps, fun new => staying.connects (connects ▸ new),
    fun old => staying.registered (connects ▸ old)⟩

theorem balanced_connect {ip : Option Ip} {user : Option UserId} (fresh : socket ∉ hub.known)
    (named : sentinel market = false) (balanced : Balanced hub) :
    Balanced
      { hub.setPeer socket { hub.peers socket with call := .accepting market ip user } with
        known := insert socket hub.known } := by
  have absent := balanced.absent socket fresh
  have subscribed : (hub.peers socket).subscribed = ∅ := by
    simp [Peer.subscribed, absent.subscriptions]
  have holding : (hub.peers socket).holding = ∅ := by simp [Peer.holding, absent.channels]
  have shown : (hub.peers socket).shown = ∅ := by simp [Peer.shown, absent.grid]
  have nothing : ∀ market, (hub.peers socket).held market = 0 := by
    intro market
    rw [held_idle absent.idle, subscribed, holding, absent.exits]
    simp [own_empty]
  have stays : Staying { hub.peers socket with call := .accepting market ip user } := by
    refine ⟨absent.exits, ?_, ?_, by simp, ?_, by simp [Call.grids], ?_, by simp [Call.connects]⟩
    · intro other isOther
      exact absurd (subscribed ▸ isOther) (Finset.notMem_empty other)
    · intro other isOther
      obtain rfl : market = other := by simpa [Call.asked] using isOther
      exact named
    · intro _
      exact holding.trans shown.symm
    · intro _
      exact ⟨subscribed, shown⟩
  refine ⟨?_, ?_, ?_, ?_⟩
  · refine (balanced.backed.enter nothing).congr ?_
    intro other key
    by_cases same : other = socket
    · subst same
      simp [Peer.held, Peer.subscribed, Peer.holding, absent.idle, Call.ofSubscriptions,
        Call.ofGrid]
    · simp [same]
  · intro other unknown
    rw [Finset.mem_insert, not_or] at unknown
    simpa [unknown.1] using balanced.absent other unknown.2
  · intro other isKnown present
    by_cases same : other = socket
    · subst same
      simpa using stays
    · simpa [same] using
        balanced.staying other ((Finset.mem_insert.mp isKnown).resolve_left same) present
  · intro other leaves
    obtain ⟨isKnown, leaving⟩ := balanced.leaving other leaves
    have different : other ≠ socket := fun same => fresh (same ▸ isKnown)
    exact ⟨Finset.mem_insert_of_mem isKnown, by simpa [different] using leaving⟩

/-- With the fresh channels a socket holds what its new grid shows. -/
theorem addFresh_held (peer : Peer) (previous accepted : Finset MarketKey) (market : MarketKey) :
    (peer.addFresh previous accepted).held market =
      own peer.subscribed market + own accepted market +
        (peer.exits.map (Exit.owes market)).sum := by
  unfold Peer.addFresh
  split
  · simp [Peer.held, Call.ofSubscriptions, Call.ofGrid, Peer.subscribed, Peer.holding]
  · simp [Peer.held, Call.ofSubscriptions, Call.ofGrid, Peer.subscribed]

theorem Staying.addFresh {peer : Peer} {previous accepted : Finset MarketKey}
    (stays : peer.exits = []) (named : ∀ market ∈ peer.subscribed, sentinel market = false)
    (registered : peer.subscriptions.isSome = true)
    (holding : peer.holding = previous) (shown : peer.shown = accepted) :
    Staying (peer.addFresh previous accepted) := by
  unfold Peer.addFresh
  split
  · exact ⟨stays, named, by simp [Call.asked], by simp, fun _ => shown.symm,
      by simp [Call.grids], by simp [Call.connects], fun _ => registered⟩
  · refine ⟨stays, named, by simp [Call.asked], by simp, by simp [Call.grids],
      ?_, by simp [Call.connects], fun _ => registered⟩
    intro old new grids
    simp only [Call.grids, Option.some.injEq, Prod.mk.injEq] at grids
    obtain ⟨rfl, rfl⟩ := grids
    exact ⟨holding, shown⟩

theorem Moves.busy (moves : Moves hub (.resume socket) after) :
    (hub.peers socket).call ≠ .idle := by
  cases moves <;> simp_all

/-- A socket's own maps change and nothing else but the counts. -/
theorem Balanced.puts {peer : Peer} (balanced : Balanced hub) (member : socket ∈ hub.known)
    (present : socket ∉ hub.departed) (peers : after.peers = (hub.setPeer socket peer).peers)
    (known : after.known = hub.known) (departed : after.departed = hub.departed)
    (moved : ∀ market, after.refs (.events market) + (hub.peers socket).held market =
      hub.refs (.events market) + peer.held market)
    (staying : Staying peer) : Balanced after := by
  refine balanced.stays member present ?_ known departed ?_ ?_
  · intro other different
    rw [peers, hub.setPeer_other peer different]
  · rw [peers, hub.setPeer_self]
    exact moved
  · rw [peers, hub.setPeer_self]
    exact staying

theorem balanced_resume (moves : Moves hub (.resume socket) after) (balanced : Balanced hub) :
    Balanced after := by
  obtain ⟨member, present, staying⟩ := balanced.busy moves.busy
  have stays := staying.stays
  have covers := balanced.covers member
  cases moves with
  | accepted waits =>
      refine balanced.puts member present rfl rfl rfl ?_ ?_
      · simp [Peer.held, Peer.subscribed, Peer.holding, waits, Call.ofSubscriptions, Call.ofGrid]
      · refine staying.goTo ?_ ?_ ?_ ?_ ?_
        · simpa [waits, Call.asked] using staying.asked
        · simp
        · simp [waits, Call.connects]
        · rfl
        · simp [waits, Call.grids]
  | connected waits =>
      refine balanced.puts member present rfl rfl rfl ?_ ?_
      · simp [Peer.held, Peer.subscribed, Peer.holding, waits, Call.ofSubscriptions, Call.ofGrid]
      · refine staying.goTo ?_ ?_ ?_ ?_ ?_
        · simpa [waits, Call.asked] using staying.asked
        · simp
        · simp [waits, Call.connects]
        · rfl
        · simp [waits, Call.grids]
  | @registered _ new ip user waits =>
      obtain ⟨nothing, noGrid⟩ := staying.connects (by simp [waits, Call.connects])
      have same := staying.grid (by simp [waits, Call.grids])
      have named : sentinel new = false := staying.asked new (by simp [waits, Call.asked])
      refine balanced.puts member present rfl rfl rfl ?_ ?_
      · intro market
        simp only [Peer.held, waits, Call.ofSubscriptions, Call.ofGrid, nothing, own_empty,
          acquire_events, stays]
        simp [Peer.subscribed, Peer.holding]
        omega
      · refine ⟨stays, ?_, by simp [Call.asked], by simp, ?_, by simp [Call.grids],
          by simp [Call.connects], by simp⟩
        · intro other isOther
          obtain rfl | old := Finset.mem_insert.mp isOther
          · exact named
          · exact staying.named other old
        · intro _
          exact same
  | declined waits declines =>
      refine balanced.puts member present rfl rfl rfl ?_ ?_
      · simp [Peer.held, Peer.subscribed, Peer.holding, waits, Call.ofSubscriptions, Call.ofGrid]
      · refine staying.goTo (by simp [Call.asked]) (by simp) ?_ rfl ?_
        · simp [waits, Call.connects]
        · simp [waits, Call.grids]
  | @recorded _ new subscriptions waits found isNew room =>
      have same := staying.grid (by simp [waits, Call.grids])
      have subscribed : (hub.peers socket).subscribed = subscriptions := by
        simp [Peer.subscribed, found]
      have named : sentinel new = false := staying.asked new (by simp [waits, Call.asked])
      refine balanced.puts member present rfl rfl rfl ?_ ?_
      · intro market
        simp only [Peer.held, waits, Call.ofSubscriptions, Call.ofGrid, subscribed]
        simp [Peer.subscribed, Peer.holding, isNew]
      · refine ⟨stays, ?_, by simp [Call.asked], ?_, ?_, by simp [Call.grids],
          by simp [Call.connects], by simp⟩
        · intro other isOther
          obtain rfl | old := Finset.mem_insert.mp isOther
          · exact named
          · exact staying.named other (subscribed ▸ old)
        · intro other isOther
          cases isOther
          exact Finset.mem_insert_self _ _
        · intro _
          exact same
  | @joined _ new waits =>
      have isNew := staying.joining new waits
      refine balanced.puts member present rfl rfl rfl ?_ ?_
      · intro market
        have split := own_erase isNew market
        simp only [Peer.held, waits, Call.ofSubscriptions, Call.ofGrid, acquire_events]
        simp only [Peer.subscribed, Peer.holding] at split ⊢
        omega
      · refine staying.goTo (by simp [Call.asked]) (by simp) ?_ rfl ?_
        · simp [waits, Call.connects]
        · simp [waits, Call.grids]
  | unneeded waits absent =>
      refine balanced.puts member present rfl rfl rfl ?_ ?_
      · simp [Peer.held, Peer.subscribed, Peer.holding, waits, Call.ofSubscriptions, Call.ofGrid]
      · refine staying.goTo (by simp [Call.asked]) (by simp) ?_ rfl ?_
        · simp [waits, Call.connects]
        · simp [waits, Call.grids]
  | @struck _ old subscriptions waits found isOld =>
      have same := staying.grid (by simp [waits, Call.grids])
      have subscribed : (hub.peers socket).subscribed = subscriptions := by
        simp [Peer.subscribed, found]
      refine balanced.puts member present rfl rfl rfl ?_ ?_
      · intro market
        have split := own_erase isOld market
        simp only [Peer.held, waits, Call.ofSubscriptions, Call.ofGrid, subscribed]
        simp only [Hub.setPeer_refs, Peer.subscribed, Peer.holding, Option.getD_some]
        omega
      · refine ⟨stays, ?_, by simp [Call.asked], by simp, ?_, by simp [Call.grids],
          by simp [Call.connects], by simp⟩
        · intro other isOther
          exact staying.named other (subscribed ▸ Finset.mem_of_mem_erase isOther)
        · intro _
          exact same
  | @parted _ old waits =>
      refine balanced.puts member present rfl rfl rfl ?_ ?_
      · intro market
        have covered := covers market
        simp only [Peer.held, waits, Call.ofSubscriptions, Call.ofGrid] at covered ⊢
        simp only [release_events, Peer.subscribed, Peer.holding] at covered ⊢
        omega
      · refine staying.goTo (by simp [Call.asked]) (by simp) ?_ rfl ?_
        · simp [waits, Call.connects]
        · simp [waits, Call.grids]
  | @dropped _ previous accepted waits =>
      obtain ⟨holding, shown⟩ := staying.grids previous accepted (by simp [waits, Call.grids])
      have registered := staying.registered (by simp [waits, Call.connects])
      refine balanced.puts member present rfl rfl rfl ?_
        (.addFresh stays staying.named registered holding shown)
      intro market
      have split := own_sdiff accepted previous market
      dsimp only
      rw [addFresh_held, acquire_events]
      simp only [Peer.held, waits, Call.ofSubscriptions, Call.ofGrid]
      omega
  | @added _ previous accepted waits =>
      obtain ⟨_, shown⟩ := staying.grids previous accepted (by simp [waits, Call.grids])
      have registered := staying.registered (by simp [waits, Call.connects])
      refine balanced.puts member present rfl rfl rfl ?_ ?_
      · intro market
        simp [Peer.held, Peer.subscribed, Peer.holding, waits, Call.ofSubscriptions, Call.ofGrid]
      · exact ⟨stays, staying.named, by simp [Call.asked], by simp, fun _ => shown.symm,
          by simp [Call.grids], by simp [Call.connects], fun _ => registered⟩

theorem subscribeGrid_shown (peer : Peer) (accepted : Finset MarketKey) :
    (peer.subscribeGrid accepted).shown = accepted := by
  by_cases none : accepted = ∅ <;> simp [Peer.subscribeGrid, Peer.shown, none]

theorem balanced_setGrid {accepted : Finset MarketKey} (member : socket ∈ hub.known)
    (present : socket ∉ hub.departed) (idle : (hub.peers socket).call = .idle)
    (balanced : Balanced hub) : Balanced (hub.setGrid socket accepted) := by
  have staying := balanced.staying socket member present
  have same := staying.grid (by simp [idle, Call.grids])
  have registered := staying.registered (by simp [idle, Call.connects])
  have shown := subscribeGrid_shown (hub.peers socket) accepted
  refine balanced.puts member present rfl rfl rfl ?_ ?_
  · intro market
    have covered := balanced.covers member market
    rw [held_idle idle, same, staying.stays] at covered ⊢
    by_cases noneStale : (hub.peers socket).shown \ accepted = ∅
    · have subset : (hub.peers socket).shown ⊆ accepted := Finset.sdiff_eq_empty_iff_subset.mp
        noneStale
      have split := own_sdiff accepted (hub.peers socket).shown market
      rw [Finset.inter_eq_left.mpr subset] at split
      simp only [Hub.setGrid, Peer.setGrid, if_pos noneStale, acquire_events, addFresh_held]
      simp only [Peer.subscribeGrid, Peer.clearGrid, Peer.subscribed, staying.stays]
      omega
    · have split := own_sdiff (hub.peers socket).shown accepted market
      rw [Finset.inter_comm] at split
      simp only [Hub.setGrid, Peer.setGrid, if_neg noneStale, release_events]
      simp only [Peer.held, Call.ofSubscriptions, Call.ofGrid, Peer.subscribeGrid, Peer.clearGrid,
        Peer.subscribed, staying.stays] at covered ⊢
      omega
  · unfold Peer.setGrid
    split
    · exact .addFresh staying.stays staying.named registered same shown
    · refine ⟨staying.stays, staying.named, by simp [Call.asked], by simp, by simp [Call.grids],
        ?_, by simp [Call.connects], fun _ => registered⟩
      intro old new grids
      simp only [Call.grids, Option.some.injEq, Prod.mk.injEq] at grids
      obtain ⟨rfl, rfl⟩ := grids
      exact ⟨same, shown⟩

theorem balanced_releaseGrid (member : socket ∈ hub.known) (present : socket ∉ hub.departed)
    (idle : (hub.peers socket).call = .idle) (balanced : Balanced hub) :
    Balanced (hub.releaseGrid socket) := by
  have staying := balanced.staying socket member present
  refine balanced.puts member present rfl rfl rfl ?_ ?_
  · intro market
    have covered := balanced.covers member market
    simp only [Peer.held, idle, Call.ofSubscriptions, Call.ofGrid] at covered ⊢
    simp only [Hub.releaseGrid, release_events, Peer.clearGrid, Peer.subscribed, Peer.holding, idle,
      Option.getD_none, own_empty] at covered ⊢
    omega
  · refine ⟨staying.stays, staying.named, ?_, ?_, fun _ => rfl, ?_, ?_, ?_⟩
    · simp [Peer.clearGrid, idle, Call.asked]
    · simp [Peer.clearGrid, idle]
    · simp [Peer.clearGrid, idle, Call.grids]
    · simp [Peer.clearGrid, idle, Call.connects]
    · intro _
      exact staying.registered (by simp [idle, Call.connects])

theorem Balanced.known_named (balanced : Balanced hub) (member : socket ∈ hub.known) :
    ∀ market ∈ (hub.peers socket).subscribed, sentinel market = false := by
  by_cases leaves : socket ∈ hub.departed
  · exact (balanced.leaving socket leaves).2.named
  · exact (balanced.staying socket member leaves).named

theorem balanced_disconnect (moves : Moves hub (.disconnect socket) after)
    (idle : (hub.peers socket).call = .idle) (balanced : Balanced hub) : Balanced after := by
  cases moves with
  | disconnect member locked =>
      have named := balanced.known_named member
      refine balanced.leaves member ?_ rfl rfl ?_ ?_
      · intro other different
        simp [Hub.setExits, Hub.startLeaving, Hub.setPeer, different]
      · intro market
        rw [held_idle idle, held_idle]
        · simp [Hub.setExits, Hub.startLeaving, Hub.setPeer, Peer.clearGrid, Peer.subscribed,
            Peer.holding, Exit.owes]
        · simp [Hub.setExits, Hub.startLeaving, Hub.setPeer, Peer.clearGrid, idle]
      · refine ⟨?_, ?_, ?_, ?_, ?_⟩
        · simp [Hub.setExits, Hub.startLeaving, Hub.setPeer, Peer.clearGrid, idle]
        · simp [Hub.setExits, Hub.startLeaving, Hub.setPeer, Peer.clearGrid]
        · simpa [Hub.setExits, Hub.startLeaving, Hub.setPeer, Peer.clearGrid, Peer.subscribed]
            using named
        · intro stage isStage notLocking
          have earlier : stage ∈ (hub.peers socket).exits := by
            simpa [Hub.setExits, notLocking] using isStage
          have leaves : socket ∈ hub.departed := by
            by_contra present
            simp [(balanced.staying socket member present).stays] at earlier
          have popped := (balanced.leaving socket leaves).2.popped stage earlier notLocking
          simp [Hub.setExits, Hub.startLeaving, Hub.setPeer, Peer.clearGrid, popped]
        · simp [Hub.setExits]
  | disconnectUnlocked member unlocked lists =>
      have named := balanced.known_named member
      refine balanced.popSocket member rfl rfl ?_ rfl ?_ ?_ ?_ ?_ ?_
      · intro other different
        simp [Hub.startLeaving, Hub.setPeer, different]
      · simp [Hub.startLeaving, Hub.setPeer, Peer.clearGrid, idle]
      · simp [Hub.startLeaving, Hub.setPeer, Peer.clearGrid]
      · simpa [Hub.startLeaving, Hub.setPeer, Peer.clearGrid, Peer.subscribed] using named
      · simpa [Hub.startLeaving, Hub.setPeer, Peer.clearGrid, Peer.subscribed] using lists
      · intro market
        rw [held_idle idle]
        simp [Hub.startLeaving, Hub.setPeer, Peer.clearGrid, Peer.subscribed, Peer.holding]

/-- Only a socket that leaves has exits. -/
theorem Balanced.exiting (balanced : Balanced hub) (exiting : (hub.peers socket).exits ≠ []) :
    socket ∈ hub.known ∧ socket ∈ hub.departed ∧ Leaving (hub.peers socket) := by
  have member : socket ∈ hub.known := by
    by_contra unknown
    exact exiting (balanced.absent socket unknown).exits
  have leaves : socket ∈ hub.departed := by
    by_contra present
    exact exiting (balanced.staying socket member present).stays
  exact ⟨member, leaves, (balanced.leaving socket leaves).2⟩

theorem balanced_exit {stage : Exit} (moves : Moves hub (.exit socket stage) after)
    (balanced : Balanced hub) : Balanced after := by
  have exits : (hub.peers socket).exits ≠ [] := by
    cases moves <;> simp_all
  obtain ⟨member, leaves, leaving⟩ := balanced.exiting exits
  have departed := (Finset.insert_eq_of_mem leaves).symm
  cases moves with
  | popped waits lists =>
      refine balanced.popSocket member rfl departed (fun _ _ => rfl) rfl leaving.idle leaving.grid
        leaving.named lists ?_
      intro market
      rw [held_idle leaving.idle, waits]
      simp [Exit.owes]
  | @cleared _ _ _ first rest all waits =>
      have popped := leaving.popped (.clearing first rest all) (by simp [waits]) (by simp)
      refine Departing.clearNext balanced ?_
      refine ⟨member, rfl, departed, fun _ _ => rfl, rfl, leaving.idle, leaving.grid, popped, ?_⟩
      intro market
      rw [held_idle leaving.idle, waits]
      simp [Exit.owes, Peer.subscribed, popped, own_empty, Hub.partMarket]
      omega
  | @released _ _ _ rest waits =>
      have popped := leaving.popped (.releasing rest) (by simp [waits]) (by simp)
      refine Departing.releaseNext balanced ?_
      refine ⟨member, rfl, departed, fun _ _ => rfl, rfl, leaving.idle, leaving.grid, popped, ?_⟩
      intro market
      rw [held_idle leaving.idle, waits]
      simp [Exit.owes, Peer.subscribed, popped, own_empty]
      omega

/-- The locks, the leases and the price buffers have no part in it. -/
theorem Balanced.alike (balanced : Balanced hub)
    (same : ∀ socket, ∃ lastSeen pending,
      after.peers socket = { hub.peers socket with lastSeen, pending })
    (known : after.known = hub.known) (departed : after.departed = hub.departed)
    (refs : after.refs = hub.refs) : Balanced after := by
  refine ⟨?_, ?_, ?_, ?_⟩
  · rw [known, refs]
    refine balanced.backed.congr ?_
    intro other market
    obtain ⟨lastSeen, pending, alike⟩ := same other
    rw [alike]
    rfl
  · intro other unknown
    rw [known] at unknown
    obtain ⟨lastSeen, pending, alike⟩ := same other
    rw [alike]
    obtain ⟨idle, exits, subscriptions, grid, channels⟩ := balanced.absent other unknown
    exact ⟨idle, exits, subscriptions, grid, channels⟩
  · intro other isKnown present
    rw [known] at isKnown
    rw [departed] at present
    obtain ⟨lastSeen, pending, alike⟩ := same other
    rw [alike]
    obtain ⟨stays, named, asked, joining, grid, grids, connects, registered⟩ :=
      balanced.staying other isKnown present
    exact ⟨stays, named, asked, joining, grid, grids, connects, registered⟩
  · intro other leaves
    rw [departed] at leaves
    rw [known]
    obtain ⟨lastSeen, pending, alike⟩ := same other
    rw [alike]
    obtain ⟨isKnown, idle, grid, named, popped, gone⟩ := balanced.leaving other leaves
    exact ⟨isKnown, idle, grid, named, popped, gone⟩

theorem balanced_step (permitted : Separate hub action) (moves : Moves hub action after)
    (balanced : Balanced hub) : Balanced after := by
  cases action with
  | connect socket market ip user =>
      cases moves with
      | connect fresh ipRoom userRoom => exact balanced_connect fresh permitted balanced
  | touch socket =>
      cases moves with
      | touch member idle =>
          refine balanced.alike ?_ rfl rfl rfl
          intro other
          by_cases same : other = socket
          · rw [same]
            exact ⟨true, (hub.peers socket).pending, by simp⟩
          · exact ⟨(hub.peers other).lastSeen, (hub.peers other).pending, by simp [same]⟩
  | subscribe socket market =>
      obtain ⟨present, named⟩ := permitted
      cases moves with
      | subscribe member idle =>
          refine balanced.puts member present rfl rfl rfl ?_ ?_
          · simp [Peer.held, Peer.subscribed, Peer.holding, idle, Call.ofSubscriptions,
              Call.ofGrid]
          · refine (balanced.staying socket member present).goTo ?_ (by simp) ?_ rfl ?_
            · simpa [Call.asked] using named
            · simp [idle, Call.connects]
            · simp [idle, Call.grids]
  | unsubscribe socket market =>
      cases moves with
      | unsubscribe member idle =>
          refine balanced.puts member permitted rfl rfl rfl ?_ ?_
          · simp [Peer.held, Peer.subscribed, Peer.holding, idle, Call.ofSubscriptions,
              Call.ofGrid]
          · refine (balanced.staying socket member permitted).goTo ?_ (by simp) ?_ rfl ?_
            · simp [Call.asked]
            · simp [idle, Call.connects]
            · simp [idle, Call.grids]
  | setGrid socket marketIds =>
      cases moves with
      | setGrid member idle => exact balanced_setGrid member permitted idle balanced
  | releaseGrid socket =>
      cases moves with
      | releaseGrid member idle => exact balanced_releaseGrid member permitted idle balanced
  | resume socket => exact balanced_resume moves balanced
  | disconnect socket => exact balanced_disconnect moves permitted balanced
  | exit socket stage => exact balanced_exit moves balanced
  | buffer market =>
      cases moves with
      | buffer =>
          refine balanced.alike ?_ rfl rfl rfl
          intro other
          by_cases shows : other ∈ hub.gridSubscribers.members market
          · exact ⟨(hub.peers other).lastSeen, true, if_pos shows⟩
          · exact ⟨(hub.peers other).lastSeen, (hub.peers other).pending, if_neg shows⟩
  | flush =>
      cases moves with
      | flush =>
          refine balanced.alike ?_ rfl rfl rfl
          intro other
          exact ⟨(hub.peers other).lastSeen, false, rfl⟩

theorem balanced_empty : Balanced .empty := by
  refine ⟨?_, ?_, ?_, ?_⟩
  · intro market
    rfl
  · intro socket _
    exact ⟨rfl, rfl, rfl, rfl, rfl⟩
  · intro socket isKnown
    simp [Hub.empty] at isKnown
  · intro socket leaves
    simp [Hub.empty] at leaves

end Steps

/-! # Runs -/

def Peer.registered (peer : Peer) : Bool := peer.subscriptions.isSome

/-- The registered sockets that are subscribed to the market. -/
def Hub.subscribers (hub : Hub) (market : MarketKey) : Finset Socket :=
  hub.known.filter fun socket =>
    (hub.peers socket).registered = true ∧ market ∈ (hub.peers socket).subscribed

/-- The registered sockets whose grid shows the market. -/
def Hub.viewers (hub : Hub) (market : MarketKey) : Finset Socket :=
  hub.known.filter fun socket =>
    (hub.peers socket).registered = true ∧ market ∈ (hub.peers socket).shown

/-- Every call and every `disconnect` has returned. -/
def Hub.Quiet (hub : Hub) : Prop :=
  ∀ socket ∈ hub.known, (hub.peers socket).call = .idle ∧ (hub.peers socket).exits = []

section Quiet

variable {hub : Hub} {socket : Socket}

/-- Between its calls a socket holds a market once for its subscription and once for its grid. -/
theorem Balanced.held_quiet (balanced : Balanced hub) (quiet : hub.Quiet)
    (member : socket ∈ hub.known) (market : MarketKey) :
    (hub.peers socket).held market =
      (if (hub.peers socket).registered = true ∧ market ∈ (hub.peers socket).subscribed
        then 1 else 0) +
      (if (hub.peers socket).registered = true ∧ market ∈ (hub.peers socket).shown
        then 1 else 0) := by
  obtain ⟨idle, exits⟩ := quiet socket member
  rw [held_idle idle, exits]
  by_cases leaves : socket ∈ hub.departed
  · obtain ⟨subscriptions, channels⟩ := (balanced.leaving socket leaves).2.gone exits
    simp [Peer.registered, Peer.subscribed, Peer.holding, subscriptions, channels, own_empty]
  · have staying := balanced.staying socket member leaves
    have registered : (hub.peers socket).registered = true :=
      staying.registered (by simp [idle, Call.connects])
    rw [staying.grid (by simp [idle, Call.grids])]
    simp [registered, own]

theorem Balanced.count (balanced : Balanced hub) (quiet : hub.Quiet) (market : MarketKey) :
    hub.refs (.events market) = (hub.subscribers market).card + (hub.viewers market).card := by
  have sum : hub.refs (.events market) =
      ∑ socket ∈ hub.known, (hub.peers socket).held market := balanced.backed market
  rw [sum, Hub.subscribers, Hub.viewers, Finset.card_filter, Finset.card_filter,
    ← Finset.sum_add_distrib]
  exact Finset.sum_congr rfl fun socket member => balanced.held_quiet quiet member market

end Quiet

/-- In every run in which a socket's calls and its `disconnect` keep apart and no market's key
looks like a sentinel's, each market's channel is held once for every subscription and once for
every grid, and no channel is held when every socket has gone. -/
theorem market_channels_balance {actions : List Action} {hub : Hub}
    (run : Run Moves Separate .empty actions hub) (quiet : hub.Quiet) (market : MarketKey) :
    hub.refs (.events market) = (hub.subscribers market).card + (hub.viewers market).card ∧
      ((∀ socket ∈ hub.known, (hub.peers socket).registered = false) →
        hub.refs (.events market) = 0) := by
  have balanced : Balanced hub :=
    run.invariant Balanced (fun _ _ _ => balanced_step) balanced_empty
  have count := balanced.count quiet market
  refine ⟨count, ?_⟩
  intro gone
  have noSubscribers : hub.subscribers market = ∅ := by
    simp +contextual [Hub.subscribers, gone]
  have noViewers : hub.viewers market = ∅ := by
    simp +contextual [Hub.viewers, gone]
  rw [count, noSubscribers, noViewers, Finset.card_empty]

/-- One socket is subscribed to a market and shows it in its grid; another has come and gone. -/
theorem market_held_for_page_and_grid :
    ∃ hub, Run Moves Separate .empty
        [.connect 1 "a" none none, .resume 1, .resume 1, .resume 1, .setGrid 1 ["a"], .resume 1,
          .connect 2 "a" none none, .resume 2, .resume 2, .resume 2, .disconnect 2,
          .exit 2 .locking, .exit 2 (.clearing "a" [] ["a"]), .exit 2 (.releasing [])] hub ∧
      hub.Quiet ∧ hub.subscribers "a" = {1} ∧ hub.viewers "a" = {1} ∧
      hub.refs (.events "a") = 2 := by
  have named : sentinel "a" = false := by decide
  have reached : ∃ hub, Run Moves Separate .empty
        [.connect 1 "a" none none, .resume 1, .resume 1, .resume 1, .setGrid 1 ["a"], .resume 1,
          .connect 2 "a" none none, .resume 2, .resume 2, .resume 2, .disconnect 2,
          .exit 2 .locking, .exit 2 (.clearing "a" [] ["a"]), .exit 2 (.releasing [])] hub ∧
      hub.Quiet ∧ hub.subscribers "a" = {1} ∧ hub.viewers "a" = {1} := by
    refine ⟨?hub, ?run, ?_, ?_, ?_⟩
    case run =>
      refine Run.act named (.connect (by decide) (by simp) (by simp)) ?_
      apply Run.act trivial (.accepted rfl)
      apply Run.act trivial (.connected rfl)
      apply Run.act trivial (.registered rfl)
      refine Run.act (Finset.notMem_empty 1) (.setGrid (by decide) rfl) ?_
      apply Run.act trivial (.added rfl)
      refine Run.act named (.connect (by decide) (by simp) (by simp)) ?_
      apply Run.act trivial (.accepted rfl)
      apply Run.act trivial (.connected rfl)
      apply Run.act trivial (.registered rfl)
      refine Run.act rfl (.disconnect (by decide) rfl) ?_
      apply Run.act trivial (@Moves.popped _ 2 [] [] ["a"] rfl ⟨by decide, fun _ => Iff.rfl⟩)
      apply Run.act trivial (@Moves.cleared _ 2 [] [] "a" [] ["a"] rfl)
      apply Run.act trivial (@Moves.released _ 2 [] [] [] rfl)
      exact .stop _
    · unfold Hub.Quiet
      decide
    · decide
    · decide
  obtain ⟨hub, run, quiet, subscribers, viewers⟩ := reached
  have count := (market_channels_balance run quiet "a").1
  rw [subscribers, viewers] at count
  exact ⟨hub, run, quiet, subscribers, viewers, count⟩

/-- The heartbeat disconnects a socket while its `set_grid` waits for Redis: the socket is gone,
and the channel of its grid is held for good. -/
theorem grid_outlives_its_socket :
    ∃ hub, Run Moves (fun _ _ => True) .empty
        [.connect 1 "a" none none, .resume 1, .resume 1, .resume 1, .setGrid 1 ["b"],
          .disconnect 1, .exit 1 .locking, .exit 1 (.clearing "a" [] ["a"]),
          .exit 1 (.releasing []), .resume 1] hub ∧
      hub.Quiet ∧ (∀ socket ∈ hub.known, (hub.peers socket).registered = false) ∧
      hub.refs (.events "b") = 1 := by
  refine ⟨?hub, ?run, ?_, ?_, ?_⟩
  case run =>
    apply Run.act trivial (.connect (by decide) (by simp) (by simp))
    apply Run.act trivial (.accepted rfl)
    apply Run.act trivial (.connected rfl)
    apply Run.act trivial (.registered rfl)
    apply Run.act trivial (.setGrid (by decide) rfl)
    apply Run.act trivial (.disconnect (by decide) rfl)
    apply Run.act trivial (@Moves.popped _ 1 [] [] ["a"] rfl ⟨by decide, fun _ => Iff.rfl⟩)
    apply Run.act trivial (@Moves.cleared _ 1 [] [] "a" [] ["a"] rfl)
    apply Run.act trivial (@Moves.released _ 1 [] [] [] rfl)
    apply Run.act trivial (.added rfl)
    exact .stop _
  · unfold Hub.Quiet
    decide
  · decide
  · decide

end PredictX.ConnectionManager
