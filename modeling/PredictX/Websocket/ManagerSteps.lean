import PredictX.Websocket.ConnectionManager
import PredictX.Data.Ledger

namespace PredictX.ConnectionManager

open PredictX.Data PredictX.MarketFeed PredictX.MarketSocket PredictX.RedisPubSub

/-! What a step of one socket leaves alone, and what `disconnect` does from one wait to the next. -/

namespace Index

variable {index : Index} {socket other : Socket} {markets : Finset MarketKey} {market : MarketKey}

@[simp] theorem mem_join : other ∈ (index.join socket markets).members market ↔
    (other = socket ∧ market ∈ markets) ∨ other ∈ index.members market := by
  by_cases joins : market ∈ markets <;> simp [join, members, joins]

@[simp] theorem mem_part : other ∈ (index.part socket markets).members market ↔
    other ∈ index.members market ∧ ¬(other = socket ∧ market ∈ markets) := by
  by_cases parts : market ∈ markets
  · by_cases last : (index.members market).erase socket = ∅
    · have others : ∀ other ∈ index.members market, other = socket := by
        intro other member
        by_contra different
        exact Finset.notMem_empty other (last ▸ Finset.mem_erase.mpr ⟨different, member⟩)
      have gone : (index.part socket markets).members market = ∅ := by
        simp [part, members, parts, last] at last ⊢
      rw [gone]
      simpa [parts] using others other
    · have left : (index.part socket markets).members market =
          (index.members market).erase socket := by
        simp [part, members, parts] at last ⊢
        simp [last]
      rw [left, Finset.mem_erase]
      simp [parts, and_comm]
  · simp [part, members, parts]

/-- No entry is empty. -/
def Entries (index : Index) : Prop := ∀ market, index market ≠ some ∅

theorem Entries.join (entries : index.Entries) : (index.join socket markets).Entries := by
  intro market
  by_cases joins : market ∈ markets
  · simp [Index.join, joins]
  · simpa [Index.join, joins] using entries market

theorem Entries.part (entries : index.Entries) : (index.part socket markets).Entries := by
  intro market
  by_cases parts : market ∈ markets
  · by_cases last : (index.members market).erase socket = ∅
    · simp [Index.part, parts, last]
    · simp [Index.part, parts, last]
  · simpa [Index.part, parts] using entries market

theorem Entries.none (entries : index.Entries) (nobody : index.members market = ∅) :
    index market = none := by
  cases entry : index market with
  | none => rfl
  | some sockets =>
      have empty : sockets = ∅ := by simpa [members, entry] using nobody
      exact absurd (empty ▸ entry) (entries market)

end Index

/-! # Other sockets -/

/-- One socket finds everything as it was. -/
structure Elsewhere (hub after : Hub) (other : Socket) : Prop where
  peers : after.peers other = hub.peers other
  known : other ∈ after.known ↔ other ∈ hub.known
  departed : other ∈ after.departed ↔ other ∈ hub.departed
  markets : ∀ market,
    other ∈ after.marketSubs.members market ↔ other ∈ hub.marketSubs.members market
  grids : ∀ market,
    other ∈ after.gridSubscribers.members market ↔ other ∈ hub.gridSubscribers.members market

section Elsewhere

variable {hub middle after : Hub} {socket other : Socket}

theorem Elsewhere.trans (first : Elsewhere hub middle other)
    (second : Elsewhere middle after other) : Elsewhere hub after other := by
  refine ⟨second.peers.trans first.peers, second.known.trans first.known,
    second.departed.trans first.departed, ?_, ?_⟩
  · intro market
    exact (second.markets market).trans (first.markets market)
  · intro market
    exact (second.grids market).trans (first.grids market)

/-- A socket's own maps change, and perhaps its place in the two indices. -/
theorem Elsewhere.put {peer : Peer} (different : other ≠ socket)
    (peers : after.peers = (hub.setPeer socket peer).peers)
    (known : after.known = hub.known ∨ after.known = insert socket hub.known)
    (departed : after.departed = hub.departed ∨ after.departed = insert socket hub.departed)
    (markets : ∀ market,
      other ∈ after.marketSubs.members market ↔ other ∈ hub.marketSubs.members market)
    (grids : ∀ market, other ∈ after.gridSubscribers.members market ↔
      other ∈ hub.gridSubscribers.members market) : Elsewhere hub after other := by
  refine ⟨?_, ?_, ?_, markets, grids⟩
  · rw [peers, hub.setPeer_other peer different]
  · obtain same | entered := known
    · rw [same]
    · simp [entered, different]
  · obtain same | left := departed
    · rw [same]
    · simp [left, different]

theorem releaseGrid_elsewhere (different : other ≠ socket) :
    Elsewhere hub (hub.releaseGrid socket) other := by
  refine Elsewhere.put different rfl (.inl rfl) (.inl rfl) ?_ ?_
  · intro market
    rfl
  · intro market
    simp [Hub.releaseGrid, different]

theorem setExits_elsewhere {exits : List Exit} (different : other ≠ socket) :
    Elsewhere hub (hub.setExits socket exits) other := by
  refine Elsewhere.put different rfl (.inl rfl) (.inl rfl) ?_ ?_
  · intro market
    rfl
  · intro market
    rfl

theorem partMarket_elsewhere {market : MarketKey} (different : other ≠ socket) :
    Elsewhere hub (hub.partMarket socket market) other := by
  refine ⟨rfl, Iff.rfl, Iff.rfl, ?_, fun _ => Iff.rfl⟩
  intro other
  simp [Hub.partMarket, different]

theorem startLeaving_elsewhere (different : other ≠ socket) :
    Elsewhere hub (hub.startLeaving socket) other := by
  refine Elsewhere.put different rfl (.inl rfl) (.inr rfl) ?_ ?_
  · intro market
    rfl
  · intro market
    simp [Hub.startLeaving, different]

theorem releaseNext_elsewhere {before later : List Exit} {markets : List MarketKey}
    (different : other ≠ socket) :
    Elsewhere hub (hub.releaseNext socket before later markets) other := by
  cases markets with
  | nil => exact (releaseGrid_elsewhere different).trans (setExits_elsewhere different)
  | cons market rest =>
      refine Elsewhere.put different rfl (.inl rfl) (.inl rfl) ?_ ?_
      · intro market
        rfl
      · intro market
        rfl

theorem clearNext_elsewhere {before later : List Exit} {all markets : List MarketKey}
    (different : other ≠ socket) :
    Elsewhere hub (hub.clearNext socket before later all markets) other := by
  cases markets with
  | nil => exact releaseNext_elsewhere different
  | cons market rest =>
      refine Elsewhere.put different rfl (.inl rfl) (.inl rfl) ?_ ?_
      · intro market
        rfl
      · intro market
        rfl

theorem popSocket_elsewhere {before later : List Exit} {markets : List MarketKey}
    (different : other ≠ socket) :
    Elsewhere hub (hub.popSocket socket before later markets) other := by
  refine Elsewhere.trans ?_ (clearNext_elsewhere different)
  refine Elsewhere.put different rfl (.inl rfl) (.inl rfl) ?_ ?_
  · intro market
    rfl
  · intro market
    rfl

/-- The socket whose call or exit it is. -/
def Action.actor : Action → Option Socket
  | .connect socket _ _ _ | .touch socket | .subscribe socket _ | .unsubscribe socket _
  | .setGrid socket _ | .releaseGrid socket | .resume socket | .disconnect socket
  | .exit socket _ => some socket
  | .buffer _ | .flush => none

theorem Moves.elsewhere {action : Action} (moves : Moves hub action after)
    (acts : action.actor = some socket) (different : other ≠ socket) :
    Elsewhere hub after other := by
  cases moves <;> simp only [Action.actor, Option.some.injEq, reduceCtorEq] at acts <;> subst acts
  case connect => exact .put different rfl (.inr rfl) (.inl rfl) (fun _ => Iff.rfl) fun _ => Iff.rfl
  case connected =>
    refine .put different rfl (.inl rfl) (.inl rfl) ?_ fun _ => Iff.rfl
    simp [different]
  case joined =>
    refine .put different rfl (.inl rfl) (.inl rfl) ?_ fun _ => Iff.rfl
    simp [different]
  case parted =>
    refine .put different rfl (.inl rfl) (.inl rfl) ?_ fun _ => Iff.rfl
    simp [Hub.partMarket, different]
  case setGrid =>
    refine .put different rfl (.inl rfl) (.inl rfl) (fun _ => Iff.rfl) ?_
    simp [Hub.setGrid, different]
  case releaseGrid => exact releaseGrid_elsewhere different
  case disconnect => exact (startLeaving_elsewhere different).trans (setExits_elsewhere different)
  case disconnectUnlocked =>
    exact (startLeaving_elsewhere different).trans (popSocket_elsewhere different)
  case popped => exact popSocket_elsewhere different
  case cleared => exact (partMarket_elsewhere different).trans (clearNext_elsewhere different)
  case released => exact releaseNext_elsewhere different
  all_goals
    exact .put different rfl (.inl rfl) (.inl rfl) (fun _ => Iff.rfl) fun _ => Iff.rfl

end Elsewhere

/-! # Disconnecting -/

/-- The markets whose subscriber sets a `disconnect` has still to clear. -/
def Exit.toClear : Exit → List MarketKey
  | .clearing market rest _ => market :: rest
  | _ => []

section Subscribers

variable (hub : Hub) (socket : Socket) (before later : List Exit) (all markets : List MarketKey)

theorem releaseNext_marketSubs :
    (hub.releaseNext socket before later markets).marketSubs = hub.marketSubs := by
  cases markets <;> rfl

theorem clearNext_marketSubs :
    (hub.clearNext socket before later all markets).marketSubs = hub.marketSubs := by
  cases markets with
  | nil => exact releaseNext_marketSubs hub socket before later _
  | cons market rest => rfl

theorem popSocket_marketSubs :
    (hub.popSocket socket before later markets).marketSubs = hub.marketSubs :=
  clearNext_marketSubs _ socket before later markets markets

end Subscribers

/-- The lock is held while it should be dropped, and stays. -/
theorem partMarket_marketLocks (hub : Hub) (socket : Socket) (market : MarketKey) :
    (hub.partMarket socket market).marketLocks = hub.marketLocks := by
  simp [Hub.partMarket, releaseIfIdle]

/-- A `disconnect` whose socket shows no grid goes on to its next wait, with some markets still to
clear. -/
structure Proceeds (hub after : Hub) (socket : Socket) (before later : List Exit)
    (markets : List MarketKey) : Prop where
  known : after.known = hub.known
  departed : after.departed = hub.departed
  marketSubs : after.marketSubs = hub.marketSubs
  gridSubscribers : after.gridSubscribers = hub.gridSubscribers
  ipConnections : after.ipConnections = hub.ipConnections
  userConnections : after.userConnections = hub.userConnections
  kept : hub.marketLocks ⊆ after.marketLocks
  locked : ∀ market ∈ after.marketLocks, market ∈ hub.marketLocks ∨ market ∈ markets
  peer : ∃ stages channels,
    after.peers socket =
      { hub.peers socket with exits := before ++ stages ++ later, channels } ∧
    stages.flatMap Exit.toClear = markets ∧ (∀ stage ∈ stages, stage ≠ .locking) ∧
    (stages = [] → channels = none)

section Proceeds

variable {hub : Hub} {socket : Socket} {before later : List Exit} {markets : List MarketKey}

theorem Index.part_empty (index : Index) : index.part socket ∅ = index := by
  funext market
  simp [Index.part]

theorem releaseNext_proceeds (noGrid : (hub.peers socket).grid = none)
    (noPrices : (hub.peers socket).pending = false) :
    Proceeds hub (hub.releaseNext socket before later markets) socket before later [] := by
  cases markets with
  | nil =>
      refine ⟨rfl, rfl, rfl, ?_, rfl, rfl, Finset.Subset.refl _, fun _ => Or.inl, ?_⟩
      · have nothing : (hub.peers socket).shown = ∅ := by simp [Peer.shown, noGrid]
        simp [Hub.releaseNext, Hub.setExits, Hub.releaseGrid, nothing, Index.part_empty]
      · refine ⟨[], none, ?_, rfl, by simp, fun _ => rfl⟩
        simp [Hub.releaseNext, Hub.setExits, Hub.releaseGrid, Hub.setPeer, Peer.clearGrid, noGrid,
          noPrices]
  | cons market rest =>
      refine ⟨rfl, rfl, rfl, rfl, rfl, rfl, Finset.Subset.refl _, fun _ => Or.inl, ?_⟩
      refine ⟨[.releasing rest], (hub.peers socket).channels, ?_, rfl, by simp, by simp⟩
      simp [Hub.releaseNext, Hub.setExits, Hub.setPeer]

theorem clearNext_proceeds {all : List MarketKey} (noGrid : (hub.peers socket).grid = none)
    (noPrices : (hub.peers socket).pending = false) :
    Proceeds hub (hub.clearNext socket before later all markets) socket before later markets := by
  cases markets with
  | nil => exact releaseNext_proceeds noGrid noPrices
  | cons market rest =>
      refine ⟨rfl, rfl, rfl, rfl, rfl, rfl, Finset.subset_insert _ _, ?_, ?_⟩
      · intro other locked
        obtain rfl | old := Finset.mem_insert.mp locked
        · exact .inr (List.mem_cons_self)
        · exact .inl old
      · refine ⟨[.clearing market rest all], (hub.peers socket).channels, ?_, ?_, by simp, by simp⟩
        · simp [Hub.clearNext, Hub.setExits, Hub.setPeer]
        · simp [Exit.toClear]

end Proceeds

end PredictX.ConnectionManager
