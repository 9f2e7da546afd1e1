import PredictX.Properties.SocketMaps

namespace PredictX.ConnectionManager

open PredictX.Data PredictX.MarketFeed PredictX.MarketSocket PredictX.RedisPubSub

/-! The connection counters, which are backed by the sockets that are registered. -/

/-- What one entry of `_ws_ip` or `_ws_user` counts for. -/
def slots {κ : Type} [DecidableEq κ] (slot : Option (Option κ)) (key : κ) : ℕ :=
  if slot = some (some key) then 1 else 0

/-- Every entry of `_ws_ip` and `_ws_user` is counted once. -/
structure Counted (hub : Hub) : Prop where
  ips : Backed hub.known (fun socket => slots (hub.peers socket).ip) hub.ipConnections
  users : Backed hub.known (fun socket => slots (hub.peers socket).user) hub.userConnections

section Steps

variable {hub after : Hub} {socket other : Socket} {action : Action}

theorem tally_slots {κ : Type} [DecidableEq κ] (key : Option κ) (counts : κ → ℕ) (other : κ) :
    tally key counts other = counts other + slots (some key) other := by
  by_cases same : key = some other <;> simp [tally, slots, same]

theorem untally_slots {κ : Type} [DecidableEq κ] (slot : Option (Option κ)) (counts : κ → ℕ)
    (other : κ) : untally slot.join counts other = counts other - slots slot other := by
  by_cases same : slot = some (some other)
  · simp [untally, slots, same]
  · have different : slot.join ≠ some other := by
      cases slot with
      | none => simp
      | some key => simpa using same
    simp [untally, slots, same, different]

theorem Counted.same (counted : Counted hub) (known : after.known = hub.known)
    (ipConnections : after.ipConnections = hub.ipConnections)
    (userConnections : after.userConnections = hub.userConnections)
    (peers : ∀ socket, (after.peers socket).ip = (hub.peers socket).ip ∧
      (after.peers socket).user = (hub.peers socket).user) : Counted after := by
  refine ⟨?_, ?_⟩
  · rw [known, ipConnections]
    exact counted.ips.congr fun socket key => by rw [(peers socket).1]
  · rw [known, userConnections]
    exact counted.users.congr fun socket key => by rw [(peers socket).2]

theorem setPeer_slots {peer : Peer} (ip : peer.ip = (hub.peers socket).ip)
    (user : peer.user = (hub.peers socket).user) (other : Socket) :
    ((hub.setPeer socket peer).peers other).ip = (hub.peers other).ip ∧
      ((hub.setPeer socket peer).peers other).user = (hub.peers other).user := by
  by_cases same : other = socket
  · rw [same, hub.setPeer_self]
    exact ⟨ip, user⟩
  · rw [hub.setPeer_other peer same]
    exact ⟨rfl, rfl⟩

/-- Only the counts and the socket's own entries change, and by the same. -/
theorem Counted.moves (counted : Counted hub) (member : socket ∈ hub.known)
    (known : after.known = hub.known)
    (others : ∀ other, other ≠ socket → after.peers other = hub.peers other)
    (ips : ∀ key, after.ipConnections key + slots (hub.peers socket).ip key =
      hub.ipConnections key + slots (after.peers socket).ip key)
    (users : ∀ key, after.userConnections key + slots (hub.peers socket).user key =
      hub.userConnections key + slots (after.peers socket).user key) : Counted after := by
  refine ⟨?_, ?_⟩
  · rw [known]
    exact counted.ips.step member (fun other different => by rw [others other different]) ips
  · rw [known]
    exact counted.users.step member (fun other different => by rw [others other different]) users

theorem Counted.proceeds {before later : List Exit} {markets : List MarketKey}
    (counted : Counted hub) (proceeds : Proceeds hub after socket before later markets)
    (others : ∀ other, other ≠ socket → after.peers other = hub.peers other) : Counted after := by
  refine counted.same proceeds.known proceeds.ipConnections proceeds.userConnections ?_
  intro other
  by_cases same : other = socket
  · obtain ⟨stages, channels, peer, -⟩ := proceeds.peer
    rw [same, peer]
    exact ⟨rfl, rfl⟩
  · rw [others other same]
    exact ⟨rfl, rfl⟩

theorem Counted.pop {before later : List Exit} {markets : List MarketKey} (counted : Counted hub)
    (member : socket ∈ hub.known) (noGrid : (hub.peers socket).grid = none)
    (noPrices : (hub.peers socket).pending = false) :
    Counted (hub.popSocket socket before later markets) := by
  have popped : ∀ middle : Hub, Counted middle → (middle.peers socket).grid = none →
      (middle.peers socket).pending = false →
      Counted (middle.clearNext socket before later markets markets) :=
    fun middle isCounted grid pending => isCounted.proceeds (clearNext_proceeds grid pending)
      fun other different => (clearNext_elsewhere different).peers
  refine popped _ ?_ (by simp [Hub.setPeer, noGrid]) (by simp [Hub.setPeer, noPrices])
  refine counted.moves member rfl (fun other different => hub.setPeer_other _ different) ?_ ?_
  · intro key
    have covered := counted.ips.le member key
    dsimp only
    rw [hub.setPeer_self, untally_slots]
    simp only [slots, reduceCtorEq, if_false] at covered ⊢
    omega
  · intro key
    have covered := counted.users.le member key
    dsimp only
    rw [hub.setPeer_self, untally_slots]
    simp only [slots, reduceCtorEq, if_false] at covered ⊢
    omega

theorem counted_step (apart : Apart hub action) (moves : Moves hub action after)
    (tracks : ∀ socket, Tracks hub socket) (counted : Counted hub) : Counted after := by
  cases moves with
  | @connect socket market ip user fresh ipRoom userRoom =>
      have unknown := (tracks socket).absent fresh
      have peers := @setPeer_slots hub socket
        { hub.peers socket with call := .accepting market ip user } rfl rfl
      refine ⟨?_, ?_⟩
      · refine (counted.ips.enter ?_).congr fun other key => by rw [(peers other).1]
        simp [unknown, Peer.unknown, slots]
      · refine (counted.users.enter ?_).congr fun other key => by rw [(peers other).2]
        simp [unknown, Peer.unknown, slots]
  | @registered socket market ip user waits =>
      obtain ⟨member, present, stays⟩ := (tracks socket).busy (by simp [waits])
      have fresh := (tracks socket).fresh (by simp [waits, Call.connects])
      obtain ⟨noIp, noUser⟩ := (tracks socket).paired
      simp only [fresh, Option.isSome_eq_false_iff, Option.isNone_iff_eq_none] at noIp noUser
      refine counted.moves member rfl (fun other different => hub.setPeer_other _ different) ?_ ?_
      · intro key
        dsimp only
        rw [hub.setPeer_self, tally_slots, noIp]
        simp [slots]
      · intro key
        dsimp only
        rw [hub.setPeer_self, tally_slots, noUser]
        simp [slots]
  | disconnectUnlocked member unlocked lists =>
      have dropped := startLeaving_dropped member apart (tracks _)
      refine Counted.pop ?_ member dropped.grid dropped.pending
      exact counted.same rfl rfl rfl (setPeer_slots rfl rfl)
  | @popped socket before later markets waits lists =>
      obtain ⟨member, gone⟩ := (tracks socket).gone ((tracks socket).exiting (by simp [waits]))
      exact counted.pop member gone.grid gone.pending
  | @cleared socket before later market rest all waits =>
      obtain ⟨member, gone⟩ := (tracks socket).gone ((tracks socket).exiting (by simp [waits]))
      have parted : Counted (hub.partMarket socket market) :=
        counted.same rfl rfl rfl fun _ => ⟨rfl, rfl⟩
      exact parted.proceeds (clearNext_proceeds gone.grid gone.pending)
        fun other different => (clearNext_elsewhere different).peers
  | @released socket before later rest waits =>
      obtain ⟨member, gone⟩ := (tracks socket).gone ((tracks socket).exiting (by simp [waits]))
      exact counted.proceeds (releaseNext_proceeds gone.grid gone.pending)
        fun other different => (releaseNext_elsewhere different).peers
  | @setGrid socket marketIds member idle =>
      obtain ⟨channels, call, same, -⟩ := setGrid_goes (hub.peers socket) (acceptedMarkets marketIds)
      refine counted.same rfl rfl rfl (setPeer_slots ?_ ?_) <;> rw [same]
  | @dropped socket previous accepted waits =>
      obtain ⟨channels, call, same, -⟩ := addFresh_goes (hub.peers socket) previous accepted
      refine counted.same rfl rfl rfl (setPeer_slots ?_ ?_) <;> rw [same]
  | @disconnect socket member locked =>
      refine counted.same rfl rfl rfl fun other => ?_
      by_cases same : other = socket
      · simp [same, Hub.setExits, Hub.startLeaving, Peer.clearGrid]
      · simp [same, Hub.setExits, Hub.startLeaving, Hub.setPeer]
  | @buffer market =>
      refine counted.same rfl rfl rfl fun other => ?_
      by_cases shows : other ∈ hub.gridSubscribers.members market <;> simp [shows]
  | flush => exact counted.same rfl rfl rfl fun other => ⟨rfl, rfl⟩
  | _ => exact counted.same rfl rfl rfl (setPeer_slots rfl rfl)

theorem entries_step (moves : Moves hub action after) (entries : hub.marketSubs.Entries) :
    after.marketSubs.Entries := by
  cases moves with
  | connected waits => exact entries.join
  | joined waits => exact entries.join
  | parted waits => exact entries.part
  | cleared waits =>
      rw [clearNext_marketSubs]
      exact entries.part
  | disconnectUnlocked member unlocked lists =>
      rw [popSocket_marketSubs]
      exact entries
  | popped waits lists =>
      rw [popSocket_marketSubs]
      exact entries
  | released waits =>
      rw [releaseNext_marketSubs]
      exact entries
  | _ => exact entries

end Steps

end PredictX.ConnectionManager
