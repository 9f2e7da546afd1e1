import PredictX.Properties.SocketMaps

namespace PredictX.ConnectionManager

open PredictX.Data PredictX.MarketFeed PredictX.MarketSocket PredictX.RedisPubSub

/-! The lock table.

A market's lock is never dropped, as it is held when it should be, so the table stays exact only as
long as no market loses its last subscriber.
-/

/-- The market that has a lock and may have no subscriber yet. -/
def Call.awaits : Call → Option MarketKey
  | .connecting market _ _ | .joining market => some market
  | _ => none

/-- The lock table holds the markets that have subscribers, or will have. -/
structure Locked (hub : Hub) : Prop where
  entered : ∀ socket market, (hub.peers socket).Listed market → market ∈ hub.marketLocks
  served : ∀ market ∈ hub.marketLocks, (hub.marketSubs.members market).Nonempty ∨
    ∃ socket, (hub.peers socket).call.awaits = some market

/-- Others subscribe to the market. -/
def Hub.HasOthers (hub : Hub) (socket : Socket) (market : MarketKey) : Prop :=
  ((hub.marketSubs.members market).erase socket).Nonempty

/-- A socket that leaves a market is not the market's last subscriber. -/
def NotLast (hub : Hub) : Action → Prop
  | .resume socket => ∀ market, (hub.peers socket).call = .parting market →
      hub.HasOthers socket market
  | .exit socket (.clearing market _ _) => hub.HasOthers socket market
  | _ => True

def Tidy (hub : Hub) (action : Action) : Prop := Apart hub action ∧ NotLast hub action

section Steps

variable {hub after : Hub} {socket other : Socket} {action : Action}

/-- One socket moves: a lock is taken for a market that it is listed for or waits for. -/
theorem Locked.moves (locked : Locked hub)
    (others : ∀ other, other ≠ socket → after.peers other = hub.peers other)
    (kept : hub.marketLocks ⊆ after.marketLocks)
    (entered : ∀ market, (after.peers socket).Listed market → market ∈ after.marketLocks)
    (locks : ∀ market ∈ after.marketLocks,
      market ∈ hub.marketLocks ∨ (after.peers socket).call.awaits = some market)
    (subs : ∀ market, (hub.marketSubs.members market).Nonempty →
      (after.marketSubs.members market).Nonempty)
    (answered : ∀ market, (hub.peers socket).call.awaits = some market →
      (after.peers socket).call.awaits = some market ∨
        (after.marketSubs.members market).Nonempty) : Locked after := by
  refine ⟨?_, ?_⟩
  · intro other market listed
    by_cases same : other = socket
    · exact entered market (same ▸ listed)
    · rw [others other same] at listed
      exact kept (locked.entered other market listed)
  · intro market isLocked
    obtain old | waits := locks market isLocked
    · obtain served | ⟨other, waits⟩ := locked.served market old
      · exact .inl (subs market served)
      · by_cases same : other = socket
        · subst same
          obtain still | served := answered market waits
          · exact .inr ⟨other, still⟩
          · exact .inl served
        · exact .inr ⟨other, by rw [others other same]; exact waits⟩
    · exact .inr ⟨socket, waits⟩

/-- A call that goes on without touching the subscribers and the locks. -/
theorem Locked.goes (locked : Locked hub)
    (others : ∀ other, other ≠ socket → after.peers other = hub.peers other)
    (marketLocks : after.marketLocks = hub.marketLocks)
    (marketSubs : after.marketSubs = hub.marketSubs)
    (listed : ∀ market, (after.peers socket).Listed market → (hub.peers socket).Listed market)
    (answered : (hub.peers socket).call.awaits = none) : Locked after := by
  refine locked.moves others (marketLocks ▸ Finset.Subset.refl _) ?_ ?_ ?_ (by simp [answered])
  · intro market isListed
    rw [marketLocks]
    exact locked.entered socket market (listed market isListed)
  · intro market isLocked
    exact .inl (marketLocks ▸ isLocked)
  · intro market served
    rw [marketSubs]
    exact served

theorem Locked.proceeds {between : Hub} {before later : List Exit} {markets : List MarketKey}
    (locked : Locked hub) (proceeds : Proceeds between after socket before later markets)
    (others : ∀ other, other ≠ socket → after.peers other = hub.peers other)
    (marketLocks : between.marketLocks = hub.marketLocks)
    (subs : ∀ market, (hub.marketSubs.members market).Nonempty →
      (between.marketSubs.members market).Nonempty)
    (idle : (hub.peers socket).call = .idle) (stillIdle : (between.peers socket).call = .idle)
    (subscribed : ∀ market ∈ (between.peers socket).subscribed, (hub.peers socket).Listed market)
    (clears : ∀ market ∈ markets, (hub.peers socket).Listed market)
    (waits : ∀ stage ∈ before ++ later, stage ∈ (hub.peers socket).exits ∨ stage = .locking) :
    Locked after := by
  obtain ⟨stages, channels, peer, flat, -⟩ := proceeds.peer
  refine locked.moves others (marketLocks ▸ proceeds.kept) ?_ ?_ ?_ (by simp [idle, Call.awaits])
  · intro market listed
    refine proceeds.kept (marketLocks ▸ locked.entered socket market ?_)
    rw [peer] at listed
    obtain isSubscribed | kept | ⟨stage, isStage, isLater⟩ := listed
    · exact subscribed market isSubscribed
    · simp [stillIdle, Call.keeps] at kept
    · obtain isNext | isOld : stage ∈ stages ∨ stage ∈ before ++ later := by
        simp only [List.mem_append] at isStage ⊢
        tauto
      · exact clears market (flat ▸ List.mem_flatMap.mpr ⟨stage, isNext, isLater⟩)
      · obtain old | rfl := waits stage isOld
        · exact .inr (.inr ⟨stage, old, isLater⟩)
        · simp [Exit.toClear] at isLater
  · intro market isLocked
    obtain old | next := proceeds.locked market isLocked
    · exact .inl (marketLocks ▸ old)
    · exact .inl (locked.entered socket market (clears market next))
  · intro market served
    rw [proceeds.marketSubs]
    exact subs market served

theorem HasOthers.stays {market : MarketKey} (others : hub.HasOthers socket market)
    (other : MarketKey) (served : (hub.marketSubs.members other).Nonempty) :
    ((hub.partMarket socket market).marketSubs.members other).Nonempty := by
  by_cases same : other = market
  · obtain ⟨subscriber, isOther⟩ := others
    obtain ⟨different, member⟩ := Finset.mem_erase.mp isOther
    exact ⟨subscriber, Index.mem_part.mpr ⟨same ▸ member, fun own => different own.1⟩⟩
  · obtain ⟨subscriber, member⟩ := served
    exact ⟨subscriber, Index.mem_part.mpr ⟨member, fun own => same (Finset.mem_singleton.mp own.2)⟩⟩

/-- A step of a call that leaves the subscriptions, the exits and the subscribers alone. -/
theorem Locked.calls {peer : Peer} (locked : Locked hub)
    (others : ∀ other, other ≠ socket → after.peers other = hub.peers other)
    (peers : after.peers socket = peer) (marketLocks : after.marketLocks = hub.marketLocks)
    (marketSubs : after.marketSubs = hub.marketSubs)
    (subscriptions : peer.subscriptions = (hub.peers socket).subscriptions)
    (exits : peer.exits = (hub.peers socket).exits)
    (keeps : ∀ market, ¬peer.call.keeps market)
    (answered : (hub.peers socket).call.awaits = none) : Locked after := by
  refine locked.goes others marketLocks marketSubs ?_ answered
  intro market listed
  rw [peers] at listed
  obtain subscribed | kept | clears := listed
  · exact .inl (by simpa [Peer.subscribed, subscriptions] using subscribed)
  · exact absurd kept (keeps market)
  · exact .inr (.inr (exits ▸ clears))

theorem locked_resume (notLast : NotLast hub (.resume socket))
    (moves : Moves hub (.resume socket) after) (tracks : Tracks hub socket)
    (locked : Locked hub) : Locked after := by
  have others : ∀ other, other ≠ socket → after.peers other = hub.peers other :=
    fun other different => (moves.elsewhere rfl different).peers
  have entered := locked.entered socket
  obtain ⟨member, present, stays⟩ := tracks.busy moves.busy
  cases moves with
  | @accepted _ market ip user waits =>
      refine locked.moves others (Finset.subset_insert _ _) ?_ ?_ (fun _ => id) ?_
      · intro other listed
        dsimp only at listed
        rw [hub.setPeer_self] at listed
        obtain subscribed | kept | clears := listed
        · exact Finset.mem_insert_of_mem (entered other (.inl subscribed))
        · exact Finset.mem_insert.mpr (.inl kept)
        · exact Finset.mem_insert_of_mem (entered other (.inr (.inr clears)))
      · intro other isLocked
        dsimp only
        rw [hub.setPeer_self]
        obtain rfl | old := Finset.mem_insert.mp isLocked
        · exact .inr rfl
        · exact .inl old
      · simp [waits, Call.awaits]
  | @connected _ market ip user waits =>
      refine locked.moves others (Finset.Subset.refl _) ?_ (fun _ => Or.inl) ?_ ?_
      · intro other listed
        dsimp only at listed
        rw [hub.setPeer_self] at listed
        obtain subscribed | kept | clears := listed
        · exact entered other (.inl subscribed)
        · exact entered other (.inr (.inl (by simpa [waits, Call.keeps] using kept)))
        · exact entered other (.inr (.inr clears))
      · rintro other ⟨subscriber, isMember⟩
        exact ⟨subscriber, Index.mem_join.mpr (.inr isMember)⟩
      · intro other awaits
        obtain rfl : market = other := by simpa [waits, Call.awaits] using awaits
        exact .inr ⟨socket, Index.mem_join.mpr (.inl ⟨rfl, Finset.mem_singleton_self _⟩)⟩
  | @registered _ market ip user waits =>
      refine locked.goes others rfl rfl ?_ (by simp [waits, Call.awaits])
      intro other listed
      dsimp only at listed
      rw [hub.setPeer_self] at listed
      obtain subscribed | kept | clears := listed
      · obtain rfl | old := Finset.mem_insert.mp subscribed
        · exact .inr (.inl (by simp [waits, Call.keeps]))
        · exact .inl old
      · simp [Call.keeps] at kept
      · exact .inr (.inr clears)
  | declined waits declines =>
      refine locked.calls others (hub.setPeer_self _) rfl rfl rfl rfl ?_ ?_
      · simp [Call.keeps]
      · simp [waits, Call.awaits]
  | @recorded _ market subscriptions waits found isNew room =>
      have subscribed : (hub.peers socket).subscribed = subscriptions := by
        simp [Peer.subscribed, found]
      refine locked.moves others (Finset.subset_insert _ _) ?_ ?_ (fun _ => id) ?_
      · intro other listed
        dsimp only at listed
        rw [hub.setPeer_self] at listed
        obtain isSubscribed | kept | clears := listed
        · obtain rfl | old := Finset.mem_insert.mp isSubscribed
          · exact Finset.mem_insert_self _ _
          · exact Finset.mem_insert_of_mem (entered other (.inl (subscribed ▸ old)))
        · simp [Call.keeps] at kept
        · exact Finset.mem_insert_of_mem (entered other (.inr (.inr clears)))
      · intro other isLocked
        dsimp only
        rw [hub.setPeer_self]
        obtain rfl | old := Finset.mem_insert.mp isLocked
        · exact .inr rfl
        · exact .inl old
      · simp [waits, Call.awaits]
  | @joined _ market waits =>
      refine locked.moves others (Finset.Subset.refl _) ?_ (fun _ => Or.inl) ?_ ?_
      · intro other listed
        dsimp only at listed
        rw [hub.setPeer_self] at listed
        obtain subscribed | kept | clears := listed
        · exact entered other (.inl subscribed)
        · simp [Call.keeps] at kept
        · exact entered other (.inr (.inr clears))
      · rintro other ⟨subscriber, isMember⟩
        exact ⟨subscriber, Index.mem_join.mpr (.inr isMember)⟩
      · intro other awaits
        obtain rfl : market = other := by simpa [waits, Call.awaits] using awaits
        exact .inr ⟨socket, Index.mem_join.mpr (.inl ⟨rfl, Finset.mem_singleton_self _⟩)⟩
  | unneeded waits absent =>
      refine locked.calls others (hub.setPeer_self _) rfl rfl rfl rfl ?_ ?_
      · simp [Call.keeps]
      · simp [waits, Call.awaits]
  | @struck _ market subscriptions waits found isOld =>
      have subscribed : (hub.peers socket).subscribed = subscriptions := by
        simp [Peer.subscribed, found]
      -- the lock that is taken is there already
      have isLocked : market ∈ hub.marketLocks := entered market (.inl (subscribed ▸ isOld))
      refine locked.goes others (Finset.insert_eq_of_mem isLocked) rfl ?_
        (by simp [waits, Call.awaits])
      intro other listed
      dsimp only at listed
      rw [hub.setPeer_self] at listed
      obtain isSubscribed | kept | clears := listed
      · exact .inl (subscribed ▸ Finset.mem_of_mem_erase isSubscribed)
      · obtain rfl : other = market := kept
        exact .inl (subscribed ▸ isOld)
      · exact .inr (.inr clears)
  | @parted _ market waits =>
      have marketLocks := partMarket_marketLocks hub socket market
      refine locked.moves others (marketLocks ▸ Finset.Subset.refl _) ?_ ?_ ?_ ?_
      · intro other listed
        dsimp only at listed ⊢
        rw [Hub.setPeer_self] at listed
        refine marketLocks ▸ entered other ?_
        obtain subscribed | kept | clears := listed
        · exact .inl subscribed
        · simp [Call.keeps] at kept
        · exact .inr (.inr clears)
      · intro other isLocked
        exact .inl (marketLocks ▸ isLocked)
      · exact HasOthers.stays (notLast market waits)
      · simp [waits, Call.awaits]
  | @dropped _ previous accepted waits =>
      obtain ⟨channels, call, same, connects, joins, keeps⟩ :=
        addFresh_goes (hub.peers socket) previous accepted
      refine locked.calls others ((hub.setPeer_self _).trans same) rfl rfl rfl rfl keeps ?_
      simp [waits, Call.awaits]
  | added waits =>
      refine locked.calls others (hub.setPeer_self _) rfl rfl rfl rfl ?_ ?_
      · simp [Call.keeps]
      · simp [waits, Call.awaits]

/-- A `disconnect` that is popping its socket clears the markets that it has found. -/
theorem Locked.pop {between : Hub} {before later : List Exit} {markets : List MarketKey}
    (locked : Locked hub) (dropped : Dropped between socket)
    (others : ∀ other, other ≠ socket →
      (between.popSocket socket before later markets).peers other = hub.peers other)
    (marketLocks : between.marketLocks = hub.marketLocks)
    (marketSubs : between.marketSubs = hub.marketSubs)
    (idle : (hub.peers socket).call = .idle)
    (lists : Lists markets (hub.peers socket).subscribed)
    (waits : ∀ stage ∈ before ++ later, stage ∈ (hub.peers socket).exits ∨ stage = .locking) :
    Locked (between.popSocket socket before later markets) := by
  refine locked.proceeds (clearNext_proceeds (by simp [Hub.setPeer, dropped.grid])
    (by simp [Hub.setPeer, dropped.pending])) others marketLocks ?_ idle ?_ ?_ ?_ waits
  · intro market served
    exact marketSubs ▸ served
  · simp [Hub.setPeer, dropped.idle]
  · simp [Hub.setPeer, Peer.subscribed]
  · intro market isMarket
    exact .inl ((lists.2 market).mp isMarket)

theorem locked_exit {stage : Exit} (notLast : NotLast hub (.exit socket stage))
    (moves : Moves hub (.exit socket stage) after) (tracks : Tracks hub socket)
    (locked : Locked hub) : Locked after := by
  have others : ∀ other, other ≠ socket → after.peers other = hub.peers other :=
    fun other different => (moves.elsewhere rfl different).peers
  have exits : (hub.peers socket).exits ≠ [] := by
    cases moves <;> simp_all
  have leaves := tracks.exiting exits
  obtain ⟨member, gone⟩ := tracks.gone leaves
  cases moves with
  | popped waits lists =>
      have grids : ∀ market, socket ∉ hub.gridSubscribers.members market := by
        intro market isMember
        have shows := (tracks.shown market).mp isMember
        simp [Peer.shown, gone.grid] at shows
      have dropped : Dropped hub socket :=
        ⟨member, leaves, gone.idle, gone.lock, gone.lastSeen, gone.grid, gone.pending, grids⟩
      refine locked.pop dropped others rfl rfl gone.idle lists ?_
      intro stage isStage
      rw [waits]
      simp only [List.mem_append, List.mem_cons] at isStage ⊢
      tauto
  | @cleared _ before later first rest all waits =>
      refine locked.proceeds (clearNext_proceeds gone.grid gone.pending) others
        (partMarket_marketLocks hub socket first) (HasOthers.stays notLast) gone.idle gone.idle
        (fun _ => Or.inl) ?_ ?_
      · intro market isRest
        refine .inr (.inr ⟨.clearing first rest all, by simp [waits], ?_⟩)
        exact List.mem_cons_of_mem first isRest
      · intro stage isStage
        rw [waits]
        simp only [List.mem_append, List.mem_cons] at isStage ⊢
        tauto
  | released waits =>
      refine locked.proceeds (releaseNext_proceeds gone.grid gone.pending) others rfl (fun _ => id)
        gone.idle gone.idle (fun _ => Or.inl) (by simp) ?_
      intro stage isStage
      rw [waits]
      simp only [List.mem_append, List.mem_cons] at isStage ⊢
      tauto

theorem locked_disconnect (moves : Moves hub (.disconnect socket) after)
    (idle : (hub.peers socket).call = .idle) (tracks : Tracks hub socket) (locked : Locked hub) :
    Locked after := by
  have others : ∀ other, other ≠ socket → after.peers other = hub.peers other :=
    fun other different => (moves.elsewhere rfl different).peers
  cases moves with
  | disconnect member unlocked =>
      refine locked.goes others rfl rfl ?_ (by simp [idle, Call.awaits])
      intro market listed
      simp only [Hub.setExits, Hub.startLeaving, Hub.setPeer_self] at listed
      obtain subscribed | kept | ⟨stage, isStage, clears⟩ := listed
      · exact .inl subscribed
      · exact .inr (.inl kept)
      · obtain old | rfl : stage ∈ (hub.peers socket).exits ∨ stage = .locking := by
          simpa using isStage
        · exact .inr (.inr ⟨stage, old, clears⟩)
        · simp [Exit.toClear] at clears
  | disconnectUnlocked member unlocked lists =>
      refine locked.pop (startLeaving_dropped member idle tracks) others rfl rfl idle lists ?_
      intro stage isStage
      exact .inl (by simpa using isStage)

/-- The price buffers have no part in it. -/
theorem Locked.alike (locked : Locked hub)
    (peers : ∀ socket, ∃ pending, after.peers socket = { hub.peers socket with pending })
    (marketLocks : after.marketLocks = hub.marketLocks)
    (marketSubs : after.marketSubs = hub.marketSubs) : Locked after := by
  refine ⟨?_, ?_⟩
  · intro other market listed
    obtain ⟨pending, same⟩ := peers other
    rw [same] at listed
    rw [marketLocks]
    exact locked.entered other market listed
  · intro market isLocked
    rw [marketLocks] at isLocked
    rw [marketSubs]
    obtain served | ⟨other, waits⟩ := locked.served market isLocked
    · exact .inl served
    · obtain ⟨pending, same⟩ := peers other
      exact .inr ⟨other, by rw [same]; exact waits⟩

theorem locked_step (tidy : Tidy hub action) (moves : Moves hub action after)
    (tracks : ∀ socket, Tracks hub socket) (locked : Locked hub) : Locked after := by
  have others : ∀ socket, action.actor = some socket → ∀ other, other ≠ socket →
      after.peers other = hub.peers other :=
    fun socket acts other different => (moves.elsewhere acts different).peers
  cases action with
  | connect socket market ip user =>
      cases moves with
      | connect fresh ipRoom userRoom =>
          refine locked.calls (others socket rfl) (hub.setPeer_self _) rfl rfl rfl rfl ?_ ?_
          · simp [Call.keeps]
          · simp [(tracks socket).absent fresh, Peer.unknown, Call.awaits]
  | touch socket =>
      cases moves with
      | touch member idle =>
          refine locked.calls (others socket rfl) (hub.setPeer_self _) rfl rfl rfl rfl ?_ ?_
          · simp [idle, Call.keeps]
          · simp [idle, Call.awaits]
  | subscribe socket market =>
      cases moves with
      | subscribe member idle =>
          refine locked.calls (others socket rfl) (hub.setPeer_self _) rfl rfl rfl rfl ?_ ?_
          · simp [Call.keeps]
          · simp [idle, Call.awaits]
  | unsubscribe socket market =>
      cases moves with
      | unsubscribe member idle =>
          refine locked.calls (others socket rfl) (hub.setPeer_self _) rfl rfl rfl rfl ?_ ?_
          · simp [Call.keeps]
          · simp [idle, Call.awaits]
  | setGrid socket marketIds =>
      cases moves with
      | setGrid member idle =>
          obtain ⟨channels, call, same, connects, joins, keeps⟩ :=
            setGrid_goes (hub.peers socket) (acceptedMarkets marketIds)
          refine locked.calls (others socket rfl) ((hub.setPeer_self _).trans same) rfl rfl rfl rfl
            keeps ?_
          simp [idle, Call.awaits]
  | releaseGrid socket =>
      cases moves with
      | releaseGrid member idle =>
          refine locked.calls (others socket rfl) (hub.setPeer_self _) rfl rfl rfl rfl ?_ ?_
          · simp [Peer.clearGrid, idle, Call.keeps]
          · simp [idle, Call.awaits]
  | resume socket => exact locked_resume tidy.2 moves (tracks socket) locked
  | disconnect socket => exact locked_disconnect moves tidy.1 (tracks socket) locked
  | exit socket stage => exact locked_exit tidy.2 moves (tracks socket) locked
  | buffer market =>
      cases moves with
      | buffer =>
          refine locked.alike ?_ rfl rfl
          intro other
          by_cases shows : other ∈ hub.gridSubscribers.members market
          · exact ⟨true, if_pos shows⟩
          · exact ⟨(hub.peers other).pending, if_neg shows⟩
  | flush =>
      cases moves with
      | flush => exact locked.alike (fun other => ⟨false, rfl⟩) rfl rfl

end Steps

end PredictX.ConnectionManager
