import PredictX.Websocket.MarketSocket
import PredictX.Websocket.UserConnections
import Mathlib.Data.Finset.Sort

namespace PredictX.ConnectionManager

open PredictX.MarketFeed PredictX.MarketSocket PredictX.RedisPubSub

/-! `ConnectionManager`, and the route of a market socket that drives it.

A handler gives way where it waits: for a lock, for the accept, and for Redis to be told what
changed.  Each of these is a switch point, and what stands between two of them is one step.  The
socket's own route makes one call at a time; `disconnect` may be called by the route, the heartbeat
or a failed send, at any moment and more than once.  A connection that is refused, an oversized
payload and the high-water marks change nothing here and are left out; so is the lock that a
broadcast to a market without listeners leaves in the table.
-/

abbrev Ip := ℕ

def maxConnectionsPerIp : ℕ := 50
def maxConnectionsPerUser : ℕ := 5
def maxSubscriptionsPerSocket : ℕ := 50
def maxGridMarketsPerSocket : ℕ := 200

/-- A call of the route, at the point where it waits. -/
inductive Call where
  | idle
  /-- `connect`, at the accept, at the market's lock and at the socket's own lock. -/
  | accepting (market : MarketKey) (ip : Option Ip) (user : Option UserId)
  | connecting (market : MarketKey) (ip : Option Ip) (user : Option UserId)
  | registering (market : MarketKey) (ip : Option Ip) (user : Option UserId)
  /-- `subscribe_to_market`, at the socket's lock and at the market's. -/
  | subscribing (market : MarketKey)
  | joining (market : MarketKey)
  /-- `unsubscribe_from_market`, at the socket's lock and at the market's. -/
  | unsubscribing (market : MarketKey)
  | parting (market : MarketKey)
  /-- `set_grid`, when the stale channels are released and when the fresh ones are acquired. -/
  | dropping (previous accepted : Finset MarketKey)
  | adding (previous accepted : Finset MarketKey)
deriving DecidableEq

/-- A `disconnect`, at the point where it waits. -/
inductive Exit where
  /-- At the socket's lock. -/
  | locking
  /-- At the lock of `market`; `rest` comes after it, and `all` are to be released then. -/
  | clearing (market : MarketKey) (rest all : List MarketKey)
  /-- The release of one market is passed on to Redis, `rest` are still to be released. -/
  | releasing (rest : List MarketKey)
deriving DecidableEq

/-- What the maps that are keyed by socket hold for one socket, and what it is busy with. -/
structure Peer where
  /-- `_ws_subscriptions`. -/
  subscriptions : Option (Finset MarketKey)
  /-- `_ws_locks`. -/
  lock : Bool
  /-- `_ws_last_seen`. -/
  lastSeen : Bool
  /-- `_grid_subs`. -/
  grid : Option (Finset MarketKey)
  /-- `_grid_channels`. -/
  channels : Option (Finset MarketKey)
  /-- `_grid_pending`. -/
  pending : Bool
  /-- `_ws_ip`. -/
  ip : Option (Option Ip)
  /-- `_ws_user`. -/
  user : Option (Option UserId)
  call : Call
  exits : List Exit

def Peer.unknown : Peer := ⟨none, false, false, none, none, false, none, none, .idle, []⟩

/-- The markets the socket is subscribed to. -/
def Peer.subscribed (peer : Peer) : Finset MarketKey := peer.subscriptions.getD ∅

/-- The markets of the socket's grid. -/
def Peer.shown (peer : Peer) : Finset MarketKey := peer.grid.getD ∅

/-- The grid channels the socket holds. -/
def Peer.holding (peer : Peer) : Finset MarketKey := peer.channels.getD ∅

/-- A map from markets to sockets, without empty entries. -/
abbrev Index := MarketKey → Option (Finset Socket)

namespace Index

def members (index : Index) (market : MarketKey) : Finset Socket := (index market).getD ∅

def join (index : Index) (socket : Socket) (markets : Finset MarketKey) : Index := fun market =>
  if market ∈ markets then some (insert socket (index.members market)) else index market

/-- An entry that becomes empty is deleted. -/
def part (index : Index) (socket : Socket) (markets : Finset MarketKey) : Index := fun market =>
  if market ∈ markets then
    if (index.members market).erase socket = ∅ then none
    else some ((index.members market).erase socket)
  else index market

end Index

structure Hub where
  peers : Socket → Peer
  /-- `_market_subs`. -/
  marketSubs : Index
  /-- `_grid_subscribers`. -/
  gridSubscribers : Index
  ipConnections : Ip → ℕ
  userConnections : UserId → ℕ
  /-- The markets that have a lock. -/
  marketLocks : Finset MarketKey
  refs : Refs
  /-- The sockets that have been accepted. -/
  known : Finset Socket
  /-- The sockets that `disconnect` has been called for. -/
  departed : Finset Socket

def Hub.empty : Hub :=
  ⟨fun _ => .unknown, fun _ => none, fun _ => none, fun _ => 0, fun _ => 0, ∅, fun _ => 0, ∅, ∅⟩

/-- `MarketLockTable.release_if_idle`: a lock that is held stays. -/
def releaseIfIdle (locks : Finset MarketKey) (market : MarketKey) (locked : Bool) :
    Finset MarketKey :=
  if locked then locks else locks.erase market

/-- The channels of some markets. -/
def channelsOf (markets : Finset MarketKey) : Finset Channel := markets.image .events

def tally {κ : Type} [DecidableEq κ] (key : Option κ) (counts : κ → ℕ) : κ → ℕ := fun other =>
  if key = some other then counts other + 1 else counts other

def untally {κ : Type} [DecidableEq κ] (key : Option κ) (counts : κ → ℕ) : κ → ℕ := fun other =>
  if key = some other then counts other - 1 else counts other

/-! # Grids -/

/-- The markets that `subscribe_grid` accepts: those with a name, up to the cap. -/
def acceptedMarkets (marketIds : List MarketKey) : Finset MarketKey :=
  let accepted := (marketIds.filter fun market => market ≠ "").toFinset
  if accepted.card ≤ maxGridMarketsPerSocket then accepted
  else ((accepted.sort (· ≤ ·)).take maxGridMarketsPerSocket).toFinset

/-- `clear_grid`. -/
def Peer.clearGrid (peer : Peer) : Peer := { peer with grid := none, pending := false }

/-- `subscribe_grid`, as far as the socket's own maps go. -/
def Peer.subscribeGrid (peer : Peer) (accepted : Finset MarketKey) : Peer :=
  { peer.clearGrid with grid := if accepted = ∅ then none else some accepted }

/-- `set_grid` once the stale channels are dealt with. -/
def Peer.addFresh (peer : Peer) (previous accepted : Finset MarketKey) : Peer :=
  if accepted \ previous = ∅ then { peer with channels := some accepted, call := .idle }
  else { peer with call := .adding previous accepted }

/-- `set_grid` up to its first wait. -/
def Peer.setGrid (peer : Peer) (accepted : Finset MarketKey) : Peer :=
  if peer.shown \ accepted = ∅ then (peer.subscribeGrid accepted).addFresh peer.shown accepted
  else { peer.subscribeGrid accepted with call := .dropping peer.shown accepted }

namespace Hub

def setPeer (hub : Hub) (socket : Socket) (peer : Peer) : Hub :=
  { hub with peers := Function.update hub.peers socket peer }

section SetPeer

variable (hub : Hub) {socket other : Socket} (peer : Peer)

@[simp] theorem setPeer_self : (hub.setPeer socket peer).peers socket = peer := by
  simp [setPeer]

@[simp] theorem setPeer_other (different : other ≠ socket) :
    (hub.setPeer socket peer).peers other = hub.peers other := by
  simp [setPeer, different]

@[simp] theorem setPeer_marketSubs :
    (hub.setPeer socket peer).marketSubs = hub.marketSubs := rfl

@[simp] theorem setPeer_gridSubscribers :
    (hub.setPeer socket peer).gridSubscribers = hub.gridSubscribers := rfl

@[simp] theorem setPeer_marketLocks :
    (hub.setPeer socket peer).marketLocks = hub.marketLocks := rfl

@[simp] theorem setPeer_refs : (hub.setPeer socket peer).refs = hub.refs := rfl

end SetPeer

def setGrid (hub : Hub) (socket : Socket) (accepted : Finset MarketKey) : Hub :=
  let peer := hub.peers socket
  { hub.setPeer socket (peer.setGrid accepted) with
    gridSubscribers := (hub.gridSubscribers.part socket peer.shown).join socket accepted
    refs :=
      if peer.shown \ accepted = ∅ then hub.refs.acquire (channelsOf (accepted \ peer.shown))
      else hub.refs.release (channelsOf (peer.shown \ accepted)) }

/-- `release_grid`. -/
def releaseGrid (hub : Hub) (socket : Socket) : Hub :=
  let peer := hub.peers socket
  { hub.setPeer socket { peer.clearGrid with channels := none } with
    gridSubscribers := hub.gridSubscribers.part socket peer.shown
    refs := hub.refs.release (channelsOf peer.holding) }

/-! # Leaving -/

def setExits (hub : Hub) (socket : Socket) (exits : List Exit) : Hub :=
  hub.setPeer socket { hub.peers socket with exits }

/-- The socket leaves a market's subscribers.  The lock is held, so that it is not dropped. -/
def partMarket (hub : Hub) (socket : Socket) (market : MarketKey) : Hub :=
  { hub with
    marketSubs := hub.marketSubs.part socket {market}
    marketLocks :=
      if (hub.marketSubs.members market).erase socket = ∅ then
        releaseIfIdle hub.marketLocks market true
      else hub.marketLocks }

/-- `disconnect` from the release of the markets on; `before` and `after` are other exits. -/
def releaseNext (hub : Hub) (socket : Socket) (before after : List Exit) :
    List MarketKey → Hub
  | [] => (hub.releaseGrid socket).setExits socket (before ++ after)
  | market :: rest =>
      { hub.setExits socket (before ++ .releasing rest :: after) with
        refs := hub.refs.release (channelsOf {market}) }

/-- `disconnect` from the markets' subscriber sets on; sentinels are not released. -/
def clearNext (hub : Hub) (socket : Socket) (before after : List Exit) (all : List MarketKey) :
    List MarketKey → Hub
  | [] => hub.releaseNext socket before after (all.filter fun market => !sentinel market)
  | market :: rest =>
      { hub.setExits socket (before ++ .clearing market rest all :: after) with
        marketLocks := insert market hub.marketLocks }

/-- `disconnect` once it has the socket's lock. -/
def popSocket (hub : Hub) (socket : Socket) (before after : List Exit) (markets : List MarketKey) :
    Hub :=
  let peer := hub.peers socket
  let popped :=
    { hub.setPeer socket { peer with subscriptions := none, ip := none, user := none } with
      ipConnections := untally peer.ip.join hub.ipConnections
      userConnections := untally peer.user.join hub.userConnections }
  popped.clearNext socket before after markets markets

/-- `disconnect` up to the socket's lock. -/
def startLeaving (hub : Hub) (socket : Socket) : Hub :=
  let peer := hub.peers socket
  { hub.setPeer socket { peer.clearGrid with lock := false, lastSeen := false } with
    gridSubscribers := hub.gridSubscribers.part socket peer.shown
    departed := insert socket hub.departed }

end Hub

/-! # Steps -/

inductive Action where
  | connect (socket : Socket) (market : MarketKey) (ip : Option Ip) (user : Option UserId)
  | touch (socket : Socket)
  | subscribe (socket : Socket) (market : MarketKey)
  | unsubscribe (socket : Socket) (market : MarketKey)
  | setGrid (socket : Socket) (marketIds : List MarketKey)
  | releaseGrid (socket : Socket)
  /-- The route's call goes on. -/
  | resume (socket : Socket)
  | disconnect (socket : Socket)
  /-- One of the socket's exits goes on. -/
  | exit (socket : Socket) (stage : Exit)
  /-- A price of the market is buffered for the grids that show it. -/
  | buffer (market : MarketKey)
  | flush
deriving DecidableEq

/-- The market ids of a set, in an order of their own. -/
def Lists (markets : List MarketKey) (set : Finset MarketKey) : Prop :=
  markets.Nodup ∧ ∀ market, market ∈ markets ↔ market ∈ set

inductive Moves (hub : Hub) : Action → Hub → Prop
  | connect {socket : Socket} {market : MarketKey} {ip : Option Ip} {user : Option UserId}
      (fresh : socket ∉ hub.known)
      (ipRoom : ∀ address ∈ ip, hub.ipConnections address < maxConnectionsPerIp)
      (userRoom : ∀ account ∈ user, hub.userConnections account < maxConnectionsPerUser) :
      Moves hub (.connect socket market ip user)
        { hub.setPeer socket { hub.peers socket with call := .accepting market ip user } with
          known := insert socket hub.known }
  | accepted {socket : Socket} {market : MarketKey} {ip : Option Ip} {user : Option UserId}
      (waits : (hub.peers socket).call = .accepting market ip user) :
      Moves hub (.resume socket)
        { hub.setPeer socket { hub.peers socket with call := .connecting market ip user } with
          marketLocks := insert market hub.marketLocks }
  | connected {socket : Socket} {market : MarketKey} {ip : Option Ip} {user : Option UserId}
      (waits : (hub.peers socket).call = .connecting market ip user) :
      Moves hub (.resume socket)
        { hub.setPeer socket
            { hub.peers socket with lock := true, call := .registering market ip user } with
          marketSubs := hub.marketSubs.join socket {market} }
  | registered {socket : Socket} {market : MarketKey} {ip : Option Ip} {user : Option UserId}
      (waits : (hub.peers socket).call = .registering market ip user) :
      Moves hub (.resume socket)
        { hub.setPeer socket
            { hub.peers socket with
              subscriptions := some (insert market (hub.peers socket).subscribed)
              lastSeen := true
              ip := some ip
              user := some user
              call := .idle } with
          ipConnections := tally ip hub.ipConnections
          userConnections := tally user hub.userConnections
          refs := hub.refs.acquire (channelsOf {market}) }
  | touch {socket : Socket} (known : socket ∈ hub.known)
      (idle : (hub.peers socket).call = .idle) :
      Moves hub (.touch socket) (hub.setPeer socket { hub.peers socket with lastSeen := true })
  | subscribe {socket : Socket} {market : MarketKey} (known : socket ∈ hub.known)
      (idle : (hub.peers socket).call = .idle) :
      Moves hub (.subscribe socket market)
        (hub.setPeer socket { hub.peers socket with lock := true, call := .subscribing market })
  /-- The socket is not registered, has the market already, or has too many. -/
  | declined {socket : Socket} {market : MarketKey}
      (waits : (hub.peers socket).call = .subscribing market)
      (declines : ∀ subscriptions ∈ (hub.peers socket).subscriptions,
        market ∈ subscriptions ∨ maxSubscriptionsPerSocket ≤ subscriptions.card) :
      Moves hub (.resume socket) (hub.setPeer socket { hub.peers socket with call := .idle })
  | recorded {socket : Socket} {market : MarketKey} {subscriptions : Finset MarketKey}
      (waits : (hub.peers socket).call = .subscribing market)
      (found : (hub.peers socket).subscriptions = some subscriptions)
      (new : market ∉ subscriptions) (room : subscriptions.card < maxSubscriptionsPerSocket) :
      Moves hub (.resume socket)
        { hub.setPeer socket
            { hub.peers socket with
              subscriptions := some (insert market subscriptions), call := .joining market } with
          marketLocks := insert market hub.marketLocks }
  | joined {socket : Socket} {market : MarketKey}
      (waits : (hub.peers socket).call = .joining market) :
      Moves hub (.resume socket)
        { hub.setPeer socket { hub.peers socket with call := .idle } with
          marketSubs := hub.marketSubs.join socket {market}
          refs := hub.refs.acquire (channelsOf {market}) }
  | unsubscribe {socket : Socket} {market : MarketKey} (known : socket ∈ hub.known)
      (idle : (hub.peers socket).call = .idle) :
      Moves hub (.unsubscribe socket market)
        (hub.setPeer socket { hub.peers socket with lock := true, call := .unsubscribing market })
  | unneeded {socket : Socket} {market : MarketKey}
      (waits : (hub.peers socket).call = .unsubscribing market)
      (absent : market ∉ (hub.peers socket).subscribed) :
      Moves hub (.resume socket) (hub.setPeer socket { hub.peers socket with call := .idle })
  | struck {socket : Socket} {market : MarketKey} {subscriptions : Finset MarketKey}
      (waits : (hub.peers socket).call = .unsubscribing market)
      (found : (hub.peers socket).subscriptions = some subscriptions)
      (present : market ∈ subscriptions) :
      Moves hub (.resume socket)
        { hub.setPeer socket
            { hub.peers socket with
              subscriptions := some (subscriptions.erase market), call := .parting market } with
          marketLocks := insert market hub.marketLocks }
  | parted {socket : Socket} {market : MarketKey}
      (waits : (hub.peers socket).call = .parting market) :
      Moves hub (.resume socket)
        { (hub.partMarket socket market).setPeer socket
            { hub.peers socket with call := .idle } with
          refs := hub.refs.release (channelsOf {market}) }
  | setGrid {socket : Socket} {marketIds : List MarketKey} (known : socket ∈ hub.known)
      (idle : (hub.peers socket).call = .idle) :
      Moves hub (.setGrid socket marketIds) (hub.setGrid socket (acceptedMarkets marketIds))
  | dropped {socket : Socket} {previous accepted : Finset MarketKey}
      (waits : (hub.peers socket).call = .dropping previous accepted) :
      Moves hub (.resume socket)
        { hub.setPeer socket ((hub.peers socket).addFresh previous accepted) with
          refs := hub.refs.acquire (channelsOf (accepted \ previous)) }
  | added {socket : Socket} {previous accepted : Finset MarketKey}
      (waits : (hub.peers socket).call = .adding previous accepted) :
      Moves hub (.resume socket)
        (hub.setPeer socket { hub.peers socket with channels := some accepted, call := .idle })
  | releaseGrid {socket : Socket} (known : socket ∈ hub.known)
      (idle : (hub.peers socket).call = .idle) :
      Moves hub (.releaseGrid socket) (hub.releaseGrid socket)
  | disconnect {socket : Socket} (known : socket ∈ hub.known)
      (locked : (hub.peers socket).lock = true) :
      Moves hub (.disconnect socket)
        ((hub.startLeaving socket).setExits socket ((hub.peers socket).exits ++ [.locking]))
  /-- There is no lock to wait for. -/
  | disconnectUnlocked {socket : Socket} {markets : List MarketKey} (known : socket ∈ hub.known)
      (unlocked : (hub.peers socket).lock = false)
      (lists : Lists markets (hub.peers socket).subscribed) :
      Moves hub (.disconnect socket)
        ((hub.startLeaving socket).popSocket socket (hub.peers socket).exits [] markets)
  | popped {socket : Socket} {before after : List Exit} {markets : List MarketKey}
      (waits : (hub.peers socket).exits = before ++ .locking :: after)
      (lists : Lists markets (hub.peers socket).subscribed) :
      Moves hub (.exit socket .locking) (hub.popSocket socket before after markets)
  | cleared {socket : Socket} {before after : List Exit} {market : MarketKey}
      {rest all : List MarketKey}
      (waits : (hub.peers socket).exits = before ++ .clearing market rest all :: after) :
      Moves hub (.exit socket (.clearing market rest all))
        ((hub.partMarket socket market).clearNext socket before after all rest)
  | released {socket : Socket} {before after : List Exit} {rest : List MarketKey}
      (waits : (hub.peers socket).exits = before ++ .releasing rest :: after) :
      Moves hub (.exit socket (.releasing rest)) (hub.releaseNext socket before after rest)
  | buffer {market : MarketKey} :
      Moves hub (.buffer market)
        { hub with peers := fun socket =>
            if socket ∈ hub.gridSubscribers.members market then
              { hub.peers socket with pending := true }
            else hub.peers socket }
  | flush : Moves hub .flush
      { hub with peers := fun socket => { hub.peers socket with pending := false } }

end PredictX.ConnectionManager
