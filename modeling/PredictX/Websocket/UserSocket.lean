import PredictX.Models
import PredictX.Websocket.SharedSocket

namespace PredictX.UserSocket

open PredictX.SharedSocket (WSStatus ReadyState)

/-! The private socket that a browser tab shares among a user's components.

The tab is followed event by event, every callback run to its end.  Entries of the registry,
sockets and timers are numbered as they are made and keep their number when they are dropped, so
that a callback of a dropped entry still finds the entry that it closed over.  The delays and the
`send` of the hook decide nothing here and are left out.
-/

abbrev ConnId := ℕ
abbrev SubscriberId := ℕ
abbrev TimerId := ℕ

inductive Frame where
  /-- `__ws_resync__`, which the client itself hands out. -/
  | resync
  | server (data : ℕ)
deriving DecidableEq, Repr

/-- What the server sends. -/
inductive Incoming where
  | malformed
  | ping (ts : ℕ)
  | frame (data : ℕ)
deriving DecidableEq, Repr

structure WebSocket where
  userId : UserId
  /-- The entry that its handlers close over. -/
  conn : ConnId
  /-- `closed` once the close event has been dispatched. -/
  readyState : ReadyState
  /-- The handlers are attached. -/
  attached : Bool
  /-- The pongs that it has sent. -/
  pongs : List ℕ
deriving DecidableEq, Repr

namespace WebSocket

/-- The number stands for no socket yet. -/
def unmade : WebSocket := ⟨0, 0, .closed, false, []⟩

/-- An event of the socket can still run one of its handlers. -/
def Alive (socket : WebSocket) : Prop :=
  socket.attached = true ∧ socket.readyState ≠ .closed

instance (socket : WebSocket) : Decidable socket.Alive := inferInstanceAs (Decidable (_ ∧ _))

def becomes (socket : WebSocket) (readyState : ReadyState) : WebSocket :=
  { socket with readyState }

def close (socket : WebSocket) : WebSocket :=
  if socket.readyState = .closed then socket else socket.becomes .closing

def detach (socket : WebSocket) : WebSocket :=
  { socket with attached := false }

/-- A socket that is not open drops what it is given, or throws, which is caught. -/
def pong (socket : WebSocket) (ts : ℕ) : WebSocket :=
  if socket.readyState = .opened then { socket with pongs := socket.pongs ++ [ts] } else socket

end WebSocket

structure SharedConnection where
  ws : Option ℕ
  status : WSStatus
  /-- In the order in which they were added. -/
  subscribers : List SubscriberId
  retries : ℕ
  retry : Option TimerId
  linger : Option TimerId
  everConnected : Bool
  recoveryBound : Bool
deriving DecidableEq, Repr

def createConnection : SharedConnection :=
  ⟨none, .disconnected, [], 0, none, none, false, false⟩

/-- What a timer runs. -/
inductive Callback where
  | retry (conn : ConnId) (userId : UserId)
  | linger (userId : UserId)
deriving DecidableEq, Repr

/-- What has happened to the subscribers, and which entries have connected. -/
inductive Entry where
  | onMessage (subscriber : SubscriberId) (frame : Frame)
  | onStatus (subscriber : SubscriberId) (status : WSStatus)
  | opened (userId : UserId) (conn : ConnId)
deriving DecidableEq, Repr

structure Tab where
  /-- The registry. -/
  connections : UserId → Option ConnId
  conns : ConnId → SharedConnection
  connCount : ℕ
  sockets : ℕ → WebSocket
  socketCount : ℕ
  /-- The timers that have neither fired nor been cleared. -/
  timers : TimerId → Option Callback
  timerCount : ℕ
  /-- What `bindRecovery` has bound, in the order in which the listeners are called. -/
  recoveries : List (ConnId × UserId)
  log : List Entry

namespace Tab

def initial : Tab where
  connections := fun _ => none
  conns := fun _ => createConnection
  connCount := 0
  sockets := fun _ => .unmade
  socketCount := 0
  timers := fun _ => none
  timerCount := 0
  recoveries := []
  log := []

variable (tab : Tab) (conn : ConnId) (userId : UserId)

def atConn (update : SharedConnection → SharedConnection) : Tab :=
  { tab with conns := Function.update tab.conns conn (update (tab.conns conn)) }

def atSocket (ws : ℕ) (update : WebSocket → WebSocket) : Tab :=
  { tab with sockets := Function.update tab.sockets ws (update (tab.sockets ws)) }

def note (entries : List Entry) : Tab :=
  { tab with log := tab.log ++ entries }

/-- `setTimeout`; the new timer is the one numbered `timerCount` before. -/
def setTimeout (callback : Callback) : Tab :=
  { tab with
    timers := Function.update tab.timers tab.timerCount (some callback)
    timerCount := tab.timerCount + 1 }

def clearTimeout (timer : TimerId) : Tab :=
  { tab with timers := Function.update tab.timers timer none }

/-- Deliver a frame to every subscriber. -/
def emit (frame : Frame) : Tab :=
  tab.note ((tab.conns conn).subscribers.map (.onMessage · frame))

def setStatus (status : WSStatus) : Tab :=
  if (tab.conns conn).status = status then tab
  else
    (tab.atConn conn fun entry => { entry with status }).note
      ((tab.conns conn).subscribers.map (.onStatus · status))

/-- `new WebSocket`; the new socket is the one numbered `socketCount` before. -/
def newSocket (socket : WebSocket) : Tab :=
  { tab with
    sockets := Function.update tab.sockets tab.socketCount socket
    socketCount := tab.socketCount + 1 }

/-- `open`. -/
def openSocket : Tab :=
  let announced := tab.setStatus conn .connecting
  (announced.newSocket ⟨userId, conn, .connecting, true, []⟩).atConn conn
    ({ · with ws := some announced.socketCount })

/-! # What the handlers of a socket do -/

def onopen (ws : ℕ) : Tab :=
  if (tab.conns conn).ws ≠ some ws then tab
  else
    let connected := (tab.setStatus conn .connected).atConn conn ({ · with retries := 0 })
    let told :=
      if (connected.conns conn).everConnected then connected.emit conn .resync else connected
    told.atConn conn ({ · with everConnected := true })

def onmessage (ws : ℕ) : Incoming → Tab
  | .malformed => tab
  | .ping ts => tab.atSocket ws (·.pong ts)
  | .frame data => tab.emit conn (.server data)

def onclose (ws : ℕ) : Tab :=
  if (tab.conns conn).ws ≠ some ws then tab
  else
    let lost := (tab.atConn conn ({ · with ws := none })).setStatus conn .disconnected
    if (lost.conns conn).subscribers = [] then lost
    else
      (lost.setTimeout (.retry conn userId)).atConn conn fun entry =>
        { entry with retries := entry.retries + 1, retry := some lost.timerCount }

/-- What the reconnect timer runs. -/
def onRetry : Tab :=
  let due := tab.atConn conn ({ · with retry := none })
  if (due.conns conn).subscribers ≠ [] ∧ (due.conns conn).ws = none then
    due.openSocket conn userId
  else due

/-! # Recovery, `acquire` and what it returns -/

/-- `if (conn.retry) { clearTimeout(conn.retry); conn.retry = null }`. -/
def clearRetry : Tab :=
  match (tab.conns conn).retry with
  | none => tab
  | some timer => (tab.clearTimeout timer).atConn conn ({ · with retry := none })

/-- Detach and close the socket, if there is one. -/
def drop (held : Option ℕ) : Tab :=
  match held with
  | none => tab
  | some ws => tab.atSocket ws fun socket => socket.detach.close

def recover (force : Bool) : Tab :=
  let entry := tab.conns conn
  if entry.subscribers = [] then tab
  else if force = false ∧ entry.ws = none ∧ entry.retry = none then tab
  else
    let cleared := tab.clearRetry conn
    let dropped := cleared.drop (cleared.conns conn).ws
    (dropped.atConn conn ({ · with ws := none, retries := 0 })).openSocket conn userId

def bindRecovery : Tab :=
  if (tab.conns conn).recoveryBound then tab
  else
    { tab with recoveries := tab.recoveries ++ [(conn, userId)] }.atConn conn
      ({ · with recoveryBound := true })

/-- The user's entry, made when there is none. -/
def entryOf : ConnId × Tab :=
  match tab.connections userId with
  | some conn => (conn, tab)
  | none =>
      (tab.connCount,
        { tab with
          connections := Function.update tab.connections userId (some tab.connCount)
          conns := Function.update tab.conns tab.connCount createConnection
          connCount := tab.connCount + 1 })

def clearLinger : Tab :=
  match (tab.conns conn).linger with
  | none => tab
  | some timer => (tab.clearTimeout timer).atConn conn ({ · with linger := none })

/-- `Set.add`, and the subscriber is told the status. -/
def addSubscriber (subscriber : SubscriberId) : Tab :=
  (tab.atConn conn fun entry =>
    { entry with
      subscribers :=
        if subscriber ∈ entry.subscribers then entry.subscribers
        else entry.subscribers ++ [subscriber] }).note
    [.onStatus subscriber (tab.conns conn).status]

def acquire (subscriber : SubscriberId) : Tab :=
  let (conn, found) := tab.entryOf userId
  let bound := ((found.clearLinger conn).addSubscriber conn subscriber).bindRecovery conn userId
  if (bound.conns conn).ws = none ∧ (bound.conns conn).retry = none then
    bound.openSocket conn userId
  else bound

/-- The closure that `acquire` returns. -/
def release (subscriber : SubscriberId) : Tab :=
  match tab.connections userId with
  | none => tab
  | some conn =>
      let left := tab.atConn conn fun entry =>
        { entry with subscribers := entry.subscribers.erase subscriber }
      if (left.conns conn).subscribers ≠ [] then left
      else
        (left.setTimeout (.linger userId)).atConn conn ({ · with linger := some left.timerCount })

/-- `if (live.retry) clearTimeout(live.retry)`. -/
def stopRetry : Tab :=
  match (tab.conns conn).retry with
  | none => tab
  | some timer => tab.clearTimeout timer

/-- The user's entry is deleted. -/
def delete : Tab :=
  { tab with connections := Function.update tab.connections userId none }

/-- What the linger timer runs. -/
def onLinger : Tab :=
  match tab.connections userId with
  | none => tab
  | some conn =>
      if (tab.conns conn).subscribers ≠ [] then tab
      else
        let stopped := (tab.delete userId).stopRetry conn
        (stopped.atConn conn ({ · with ws := none, status := .disconnected })).drop
          (stopped.conns conn).ws

def fire : Callback → Tab
  | .retry conn userId => tab.onRetry conn userId
  | .linger userId => tab.onLinger userId

end Tab

/-! # Events -/

inductive Event where
  | acquire (userId : UserId) (subscriber : SubscriberId)
  | release (userId : UserId) (subscriber : SubscriberId)
  | opens (ws : ℕ)
  | message (ws : ℕ) (incoming : Incoming)
  | closing (ws : ℕ)
  | errs (ws : ℕ)
  | closes (ws : ℕ)
  | timer (timer : TimerId)
  | online
  | visible
deriving DecidableEq, Repr

/-- One event, with what it calls run to its end.  A closure that `acquire` has returned may be
called at any time and more than once, timers fire in any order, and sockets that have been
dropped go on to close. -/
inductive Happens : Tab → Event → Tab → Prop
  | acquire {tab : Tab} (userId : UserId) (subscriber : SubscriberId) :
      Happens tab (.acquire userId subscriber) (tab.acquire userId subscriber)
  | release {tab : Tab} (userId : UserId) (subscriber : SubscriberId) :
      Happens tab (.release userId subscriber) (tab.release userId subscriber)
  | opens {tab : Tab} {ws : ℕ} (connecting : (tab.sockets ws).readyState = .connecting)
      (attached : (tab.sockets ws).attached = true) :
      Happens tab (.opens ws)
        (((tab.atSocket ws (·.becomes .opened)).onopen (tab.sockets ws).conn ws).note
          [.opened (tab.sockets ws).userId (tab.sockets ws).conn])
  | opensDetached {tab : Tab} {ws : ℕ} (connecting : (tab.sockets ws).readyState = .connecting)
      (detached : (tab.sockets ws).attached = false) :
      Happens tab (.opens ws) (tab.atSocket ws (·.becomes .opened))
  | message {tab : Tab} {ws : ℕ} (incoming : Incoming)
      (opened : (tab.sockets ws).readyState = .opened)
      (attached : (tab.sockets ws).attached = true) :
      Happens tab (.message ws incoming) (tab.onmessage (tab.sockets ws).conn ws incoming)
  /-- The server, or the network, has begun to close. -/
  | closing {tab : Tab} {ws : ℕ} (alive : (tab.sockets ws).readyState ≠ .closed) :
      Happens tab (.closing ws) (tab.atSocket ws (·.becomes .closing))
  | errs {tab : Tab} {ws : ℕ} (alive : (tab.sockets ws).readyState ≠ .closed)
      (attached : (tab.sockets ws).attached = true) :
      Happens tab (.errs ws) (tab.atSocket ws (·.close))
  | closes {tab : Tab} {ws : ℕ} (alive : (tab.sockets ws).readyState ≠ .closed)
      (attached : (tab.sockets ws).attached = true) :
      Happens tab (.closes ws) ((tab.atSocket ws (·.becomes .closed)).onclose
        (tab.sockets ws).conn (tab.sockets ws).userId ws)
  | closesDetached {tab : Tab} {ws : ℕ} (alive : (tab.sockets ws).readyState ≠ .closed)
      (detached : (tab.sockets ws).attached = false) :
      Happens tab (.closes ws) (tab.atSocket ws (·.becomes .closed))
  | timer {tab : Tab} {timer : TimerId} {callback : Callback}
      (due : tab.timers timer = some callback) :
      Happens tab (.timer timer) ((tab.clearTimeout timer).fire callback)
  /-- Every listener that has been bound is called. -/
  | online {tab : Tab} :
      Happens tab .online
        (tab.recoveries.foldl (fun tab bound => tab.recover bound.1 bound.2 true) tab)
  | visible {tab : Tab} :
      Happens tab .visible
        (tab.recoveries.foldl (fun tab bound => tab.recover bound.1 bound.2 false) tab)

end PredictX.UserSocket
