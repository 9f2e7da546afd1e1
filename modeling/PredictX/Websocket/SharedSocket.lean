import PredictX.Data.Bulk
import PredictX.Data.Run
import PredictX.Websocket.MarketSocket

namespace PredictX.SharedSocket

open PredictX.Data PredictX.MarketFeed PredictX.MarketSocket

/-! The one socket that a browser tab holds for all its markets.

The connection is followed event by event: what a component asks for, what a socket reports, and
the timers.  A timer stands in its field while it is pending, so a field whose handle has been
cleared or has fired is empty here.  The frames received and their numbers are in `MarketSocket`;
the registries of status and grid handlers are left out, as they decide nothing.
-/

inductive WSStatus where
  | connecting
  | connected
  | disconnected
  | error
deriving DecidableEq, Repr

inductive ReadyState where
  | connecting
  | opened
  | closing
  | closed
deriving DecidableEq, Repr

/-- A frame of the browser's. -/
inductive ClientFrame where
  | subscribe (market : MarketKey)
  | unsubscribe (market : MarketKey)
  | grid (markets : List MarketKey)
deriving DecidableEq, Repr

structure WebSocket where
  /-- The market in the URL. -/
  market : MarketKey
  readyState : ReadyState
  sent : List ClientFrame
deriving DecidableEq, Repr

namespace WebSocket

def Live (socket : WebSocket) : Prop :=
  socket.readyState = .connecting ∨ socket.readyState = .opened

instance (socket : WebSocket) : Decidable socket.Live := inferInstanceAs (Decidable (_ ∨ _))

def becomes (socket : WebSocket) (readyState : ReadyState) : WebSocket :=
  { socket with readyState }

def send (socket : WebSocket) (frames : List ClientFrame) : WebSocket :=
  { socket with sent := socket.sent ++ frames }

def close (socket : WebSocket) : WebSocket :=
  if socket.readyState = .closed then socket else socket.becomes .closing

end WebSocket

structure MarketSub where
  market : MarketKey
  handlers : Finset ℕ
  wsSubscribed : Bool
deriving DecidableEq

structure SharedConnection where
  /-- The sockets that the tab has made, in order. -/
  sockets : List WebSocket
  ws : Option ℕ
  status : WSStatus
  subs : Table MarketSub.market
  /-- The calls in the promise chains of `subLocks` that have not run. -/
  subLocks : List MarketKey
  retries : ℕ
  /-- The pending timer, and the market it connects to. -/
  reconnectTimer : Option MarketKey
  serverSubs : List MarketKey
  lastConnectedMarket : Option MarketKey
  intentionalCloseSocket : Option ℕ
  /-- The timer is pending. -/
  closeTimer : Bool
  everConnected : Bool
  declaredGrid : List MarketKey
  /-- The resync frames that a reconnect owes the markets. -/
  resyncs : List Resync

namespace SharedConnection

def initial : SharedConnection :=
  ⟨[], none, .disconnected, .empty, [], 0, none, [], none, none, false, false, [], []⟩

def atSocket (conn : SharedConnection) (ws : ℕ) (update : WebSocket → WebSocket) :
    SharedConnection :=
  { conn with sockets := conn.sockets.modify ws update }

/-- `ws?.readyState === OPEN`. -/
def sendWs (conn : SharedConnection) (frame : ClientFrame) : SharedConnection :=
  match conn.ws with
  | none => conn
  | some ws =>
      conn.atSocket ws fun socket =>
        if socket.readyState = .opened then socket.send [frame] else socket

/-- `Set.add` in the order of insertion. -/
def addMember (members : List MarketKey) (market : MarketKey) : List MarketKey :=
  if market ∈ members then members else members ++ [market]

/-- The market's subscribe frame is on record as sent. -/
def recordSubscribe (conn : SharedConnection) (market : MarketKey) : SharedConnection :=
  { conn with
    subs := conn.subs.modify market fun sub => { sub with wsSubscribed := true }
    serverSubs := addMember conn.serverSubs market }

def wsSubscribe (conn : SharedConnection) (market : MarketKey) : SharedConnection :=
  { conn with subLocks := conn.subLocks ++ [market] }

/-- The function that `wsSubscribe` runs under the market's lock. -/
def wsSubscribeLocked (conn : SharedConnection) (market : MarketKey) : SharedConnection :=
  match conn.subs.find? market with
  | none => conn
  | some sub =>
      if sub.wsSubscribed then conn else (conn.sendWs (.subscribe market)).recordSubscribe market

def wsUnsubscribe (conn : SharedConnection) (market : MarketKey) : SharedConnection :=
  if market ∈ conn.serverSubs then
    let sent := conn.sendWs (.unsubscribe market)
    { sent with
      serverSubs := sent.serverSubs.filter fun other => other ≠ market
      subs := sent.subs.modify market fun sub => { sub with wsSubscribed := false } }
  else conn

def connect (conn : SharedConnection) (firstMarketId : MarketKey) : SharedConnection :=
  if conn.ws ≠ none then conn
  else
    { conn with
      reconnectTimer := none
      closeTimer := false
      lastConnectedMarket := some firstMarketId
      sockets := conn.sockets ++ [⟨firstMarketId, .connecting, []⟩]
      ws := some conn.sockets.length
      intentionalCloseSocket := none
      status := .connecting }

/-- The markets that are subscribed to and not replayed. -/
def pending (conn : SharedConnection) : List MarketKey :=
  (conn.subs.rows.filter fun sub =>
    !sub.wsSubscribed && decide (sub.market ∉ conn.serverSubs)).map MarketSub.market

/-- What `onopen` sends: the replayed set twice. -/
def openFrames (conn : SharedConnection) : List ClientFrame :=
  conn.serverSubs.map .subscribe ++ conn.serverSubs.map .subscribe ++
    (if conn.declaredGrid = [] then [] else [.grid conn.declaredGrid]) ++
    conn.pending.map .subscribe

def onopen (conn : SharedConnection) (ws : ℕ) : SharedConnection :=
  let replayed := (conn.atSocket ws fun socket => socket.send conn.openFrames)
  let subscribed := conn.pending.foldl recordSubscribe replayed
  { subscribed with
    retries := 0
    status := .connected
    resyncs :=
      if conn.everConnected then
        conn.resyncs ++ conn.subs.rows.map fun sub => ⟨sub.market, "reconnect"⟩
      else conn.resyncs
    everConnected := true }

/-- The market that a lost socket is reconnected to. -/
def reconnectMarket (conn : SharedConnection) : MarketKey :=
  ((conn.lastConnectedMarket.or conn.serverSubs.head?).or
    (conn.subs.rows.head?.map MarketSub.market)).getD "default"

def onclose (conn : SharedConnection) (ws : ℕ) : SharedConnection :=
  if conn.ws ≠ some ws then conn
  else
    let closed := { conn with ws := none, status := .disconnected }
    if conn.intentionalCloseSocket = some ws then
      { closed with intentionalCloseSocket := none, everConnected := false }
    else
      { closed with
        retries := conn.retries + 1
        reconnectTimer := some conn.reconnectMarket }

def onerror (conn : SharedConnection) (ws : ℕ) : SharedConnection :=
  if conn.ws ≠ some ws then conn
  else { conn with status := .error }.atSocket ws WebSocket.close

/-! # What components ask for -/

def addHandler (conn : SharedConnection) (market : MarketKey) (handler : ℕ) : SharedConnection :=
  { conn with
    subs := (conn.subs.insert ⟨market, ∅, false⟩).modify market fun sub =>
      { sub with handlers := insert handler sub.handlers } }

def subscribe (conn : SharedConnection) (market : MarketKey) (handler : ℕ) : SharedConnection :=
  let added := conn.addHandler market handler
  if added.ws = none then added.connect market
  else { added with lastConnectedMarket := some market }.wsSubscribe market

/-- The closure that `subscribe` returns. -/
def unsubscribe (conn : SharedConnection) (market : MarketKey) (handler : ℕ) : SharedConnection :=
  match conn.subs.find? market with
  | none => conn
  | some sub =>
      let left := sub.handlers.erase handler
      if left = ∅ then
        let gone := { conn with subs := conn.subs.erase market }.wsUnsubscribe market
        if gone.subs.rows = [] then { gone with closeTimer := true } else gone
      else
        { conn with subs := conn.subs.modify market fun sub => { sub with handlers := left } }

/-- The deferred close. -/
def closeIfEmpty (conn : SharedConnection) : SharedConnection :=
  let fired := { conn with closeTimer := false }
  if conn.subs.rows ≠ [] then fired
  else
    let closed :=
      match conn.ws with
      | none => fired
      | some ws => fired.atSocket ws WebSocket.close
    { closed with
      reconnectTimer := none
      intentionalCloseSocket := conn.ws
      ws := none
      status := .disconnected
      retries := 0 }

/-- `GRID_ANCHOR_MARKET`. -/
def gridAnchorMarket : MarketKey := "__grid__"

def sendGrid (conn : SharedConnection) (markets : List MarketKey) : SharedConnection :=
  let connected := if conn.ws = none then conn.connect gridAnchorMarket else conn
  { connected.sendWs (.grid markets) with declaredGrid := markets }

/-- The tracked socket is connecting or open. -/
def Healthy (conn : SharedConnection) : Prop :=
  ∃ ws ∈ conn.ws, ∃ socket ∈ conn.sockets[ws]?, socket.Live

instance (conn : SharedConnection) : Decidable conn.Healthy :=
  match known : conn.ws with
  | none => isFalse (by simp [Healthy, known])
  | some ws =>
      match made : conn.sockets[ws]? with
      | none => isFalse (by simp [Healthy, known, made])
      | some socket => decidable_of_iff socket.Live (by simp [Healthy, known, made])

def recover (conn : SharedConnection) : SharedConnection :=
  if conn.subs.rows = [] then conn
  else if conn.Healthy then conn
  else
    let reset := { conn with retries := 0, reconnectTimer := none }
    match conn.lastConnectedMarket.or (conn.subs.rows.head?.map MarketSub.market) with
    | none => reset
    | some market => if market = "" then reset else reset.connect market

end SharedConnection

/-! # Events -/

inductive Event where
  | subscribe (market : MarketKey) (handler : ℕ)
  | unsubscribe (market : MarketKey) (handler : ℕ)
  | sendGrid (markets : List MarketKey)
  | recover
  | opens (ws : ℕ)
  | closing (ws : ℕ)
  | closes (ws : ℕ)
  | errs (ws : ℕ)
  | reconnectTimer
  | closeTimer
  | subLock (market : MarketKey)
deriving DecidableEq, Repr

/-- One event on the tab's connection, with its handler run to the end.  The functions of the
promise chains may run in any order and after any event. -/
inductive Happens : SharedConnection → Event → SharedConnection → Prop
  /-- `useMarketSocket` does not subscribe without a market. -/
  | subscribe {conn : SharedConnection} {market : MarketKey} (handler : ℕ) (named : market ≠ "") :
      Happens conn (.subscribe market handler) (conn.subscribe market handler)
  | unsubscribe {conn : SharedConnection} (market : MarketKey) (handler : ℕ) :
      Happens conn (.unsubscribe market handler) (conn.unsubscribe market handler)
  | sendGrid {conn : SharedConnection} (markets : List MarketKey) :
      Happens conn (.sendGrid markets) (conn.sendGrid markets)
  | recover {conn : SharedConnection} : Happens conn .recover conn.recover
  | opens {conn : SharedConnection} {ws : ℕ} {socket : WebSocket}
      (made : conn.sockets[ws]? = some socket) (connecting : socket.readyState = .connecting) :
      Happens conn (.opens ws) ((conn.atSocket ws (·.becomes .opened)).onopen ws)
  /-- The server, or the network, has begun to close. -/
  | closing {conn : SharedConnection} {ws : ℕ} {socket : WebSocket}
      (made : conn.sockets[ws]? = some socket) (alive : socket.readyState ≠ .closed) :
      Happens conn (.closing ws) (conn.atSocket ws (·.becomes .closing))
  | closes {conn : SharedConnection} {ws : ℕ} {socket : WebSocket}
      (made : conn.sockets[ws]? = some socket) (alive : socket.readyState ≠ .closed) :
      Happens conn (.closes ws) ((conn.atSocket ws (·.becomes .closed)).onclose ws)
  | errs {conn : SharedConnection} (ws : ℕ) : Happens conn (.errs ws) (conn.onerror ws)
  | reconnectTimer {conn : SharedConnection} {market : MarketKey}
      (due : conn.reconnectTimer = some market) :
      Happens conn .reconnectTimer ({ conn with reconnectTimer := none }.connect market)
  | closeTimer {conn : SharedConnection} (due : conn.closeTimer = true) :
      Happens conn .closeTimer conn.closeIfEmpty
  | subLock {conn : SharedConnection} {market : MarketKey} (queued : market ∈ conn.subLocks) :
      Happens conn (.subLock market)
        ({ conn with subLocks := conn.subLocks.erase market }.wsSubscribeLocked market)

/-! # The server -/

/-- What a frame asks of the markets that the socket is subscribed to. -/
def obeys (members : Finset MarketKey) : ClientFrame → Finset MarketKey
  | .subscribe market => if market = "" then members else insert market members
  | .unsubscribe market => members.erase market
  | .grid _ => members

/-- A frame as the server reads it, which refuses a subscription past the cap. -/
def serverReads (cap : ℕ) (members : Finset MarketKey) : ClientFrame → Finset MarketKey
  | .subscribe market =>
      if market = "" ∨ market ∈ members ∨ cap ≤ members.card then members
      else insert market members
  | .unsubscribe market => members.erase market
  | .grid _ => members

/-- The markets that the socket has asked for, its URL's included. -/
def WebSocket.asked (socket : WebSocket) : Finset MarketKey :=
  socket.sent.foldl obeys {socket.market}

/-- The server's subscriptions once it has read all that the socket has sent. -/
def WebSocket.served (socket : WebSocket) (cap : ℕ) : Finset MarketKey :=
  socket.sent.foldl (serverReads cap) {socket.market}

/-- No frame asks for more than the cap allows. -/
def WebSocket.UnderCap (socket : WebSocket) (cap : ℕ) : Prop :=
  ∀ frames, frames <+: socket.sent → (frames.foldl obeys {socket.market}).card ≤ cap

end PredictX.SharedSocket
