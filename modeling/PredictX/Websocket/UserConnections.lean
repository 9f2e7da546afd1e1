import PredictX.Websocket.MarketFeed

namespace PredictX

open PredictX.MarketFeed

/-! # Channels

`RedisPubSub._refs`.  What the live client is subscribed to follows from the counts and is left
out.
-/

namespace RedisPubSub

inductive Channel where
  | events (market : MarketKey)
  | fills (user : UserId)
  | notifications (user : UserId)
deriving DecidableEq, Repr

abbrev Refs := Channel → ℕ

def Refs.acquire (refs : Refs) (channels : Finset Channel) : Refs := fun channel =>
  if channel ∈ channels then refs channel + 1 else refs channel

/-- A count that would fall below one is removed. -/
def Refs.release (refs : Refs) (channels : Finset Channel) : Refs := fun channel =>
  if channel ∈ channels then refs channel - 1 else refs channel

/-- The two private channels of a user. -/
def privateChannels (user : UserId) : Finset Channel := {.fills user, .notifications user}

end RedisPubSub

abbrev Socket := ℕ

namespace UserConnections

open PredictX.RedisPubSub

/-! # Notification sockets

`UserConnectionManager`, its route and the heartbeat.  The users' locks are never held across an
`await`, so taking one does not wait, and between two real waits a handler runs as one step.  When
a socket was last seen only decides which sockets are reaped, and any of them may be.
-/

/-- Where the route of a socket stands. -/
inductive Route where
  | connecting
  | reading (user : UserId)
  | ended (user : UserId)
deriving DecidableEq, Repr

structure Hub where
  routes : Socket → Route
  /-- `_user_socks`. -/
  userSocks : UserId → Finset Socket
  /-- `_ws_to_user`. -/
  wsToUser : Socket → Option UserId
  refs : Refs

def Hub.empty : Hub := ⟨fun _ => .connecting, fun _ => ∅, fun _ => none, fun _ => 0⟩

/-- `disconnect`. -/
def Hub.disconnect (hub : Hub) (socket : Socket) (user : UserId) : Hub :=
  { hub with
    userSocks := Function.update hub.userSocks user ((hub.userSocks user).erase socket)
    wsToUser := Function.update hub.wsToUser socket none }

def Hub.unsubscribeUser (hub : Hub) (user : UserId) : Hub :=
  { hub with refs := hub.refs.release (privateChannels user) }

def Hub.register (hub : Hub) (socket : Socket) (user : UserId) : Hub :=
  { hub with
    userSocks := Function.update hub.userSocks user (insert socket (hub.userSocks user))
    wsToUser := Function.update hub.wsToUser socket (some user)
    refs := hub.refs.acquire (privateChannels user) }

def Hub.moveTo (hub : Hub) (socket : Socket) (route : Route) : Hub :=
  { hub with routes := Function.update hub.routes socket route }

inductive Action where
  | connect (socket : Socket) (user : UserId)
  /-- The read loop ends with an exception: the client closed the socket, or something failed. -/
  | leave (socket : Socket)
  /-- A payload that is too large: the loop is left by a `break`. -/
  | oversized (socket : Socket)
  /-- `broadcast_to_user` could not send to the socket. -/
  | sendFailed (socket : Socket)
  | reap (socket : Socket)
deriving DecidableEq, Repr

inductive Moves (hub : Hub) : Action → Hub → Prop
  | connect {socket : Socket} {user : UserId} (connecting : hub.routes socket = .connecting) :
      Moves hub (.connect socket user) ((hub.register socket user).moveTo socket (.reading user))
  | leave {socket : Socket} {user : UserId} (reading : hub.routes socket = .reading user) :
      Moves hub (.leave socket)
        (((hub.disconnect socket user).unsubscribeUser user).moveTo socket (.ended user))
  | oversized {socket : Socket} {user : UserId} (reading : hub.routes socket = .reading user) :
      Moves hub (.oversized socket) (hub.moveTo socket (.ended user))
  /-- The socket was among the user's when the broadcast began. -/
  | sendFailed {socket : Socket} {user : UserId}
      (known : hub.routes socket = .reading user ∨ hub.routes socket = .ended user) :
      Moves hub (.sendFailed socket) (hub.disconnect socket user)
  | reap {socket : Socket} {user : UserId} (owner : hub.wsToUser socket = some user) :
      Moves hub (.reap socket) ((hub.disconnect socket user).unsubscribeUser user)
  /-- The socket has gone by itself since it was found dead. -/
  | spare {socket : Socket} (gone : hub.wsToUser socket = none) : Moves hub (.reap socket) hub

end UserConnections

end PredictX
