import PredictX.Websocket.MarketFeed

namespace PredictX.MarketSocket

open PredictX.MarketFeed

/-! The browser's end of a market socket, and the heartbeat it answers.

A frame is a JSON object, and a field is read by its name.  Of a connection only what the sequence
numbers touch is kept: the handlers, the reconnects and the grid are left out.
-/

inductive Value where
  | text (value : String)
  | number (value : ℕ)
  | marks (value : List (MarketKey × ℕ))
deriving DecidableEq, Repr

abbrev Frame := List (String × Value)

def Frame.text (frame : Frame) (field : String) : Option String :=
  match frame.lookup field with
  | some (.text value) => some value
  | _ => none

def Frame.number (frame : Frame) (field : String) : Option ℕ :=
  match frame.lookup field with
  | some (.number value) => some value
  | _ => none

def Frame.marks (frame : Frame) (field : String) : Option (List (MarketKey × ℕ)) :=
  match frame.lookup field with
  | some (.marks value) => some value
  | _ => none

/-! # The server's probe -/

/-- `market_id.startswith("__")`. -/
def sentinel (market : MarketKey) : Bool := "__".toList.isPrefixOf market.toList

/-- `seq_snapshot`: the markets of a socket that this node has fanned out. -/
def seqSnapshot (subscriptions : List MarketKey) (lastSeq : MarketKey → Option ℕ) :
    List (MarketKey × ℕ) :=
  subscriptions.filterMap fun market =>
    if sentinel market then none else (lastSeq market).map fun seq => (market, seq)

/-- The payload of `_ping_many`. -/
def pingPayload (ts : ℕ) (snapshot : List (MarketKey × ℕ)) : Frame :=
  [("type", .text "ping"), ("ts", .number ts)] ++
    if snapshot = [] then [] else [("seq", .marks snapshot)]

/-! # The client -/

structure Resync where
  market : MarketKey
  reason : String
deriving DecidableEq, Repr

structure Connection where
  lastSeq : MarketKey → Option ℕ
  subs : Finset MarketKey
  /-- The resync frames handed to the markets' handlers. -/
  resyncs : List Resync
  pongs : List (Option ℕ)

namespace Connection

/-- A market without a subscription has no handler to tell. -/
def emitResync (conn : Connection) (market : MarketKey) (reason : String) : Connection :=
  if market ∈ conn.subs then { conn with resyncs := conn.resyncs ++ [⟨market, reason⟩] } else conn

theorem emitResync_lastSeq (conn : Connection) (market : MarketKey) (reason : String) :
    (conn.emitResync market reason).lastSeq = conn.lastSeq := by
  unfold emitResync
  split <;> rfl

def setLastSeq (conn : Connection) (market : MarketKey) (seq : ℕ) : Connection :=
  { conn with lastSeq := Function.update conn.lastSeq market (some seq) }

def checkForGap (conn : Connection) (market : MarketKey) (seq : ℕ) : Connection :=
  match conn.lastSeq market with
  | none => conn.setLastSeq market seq
  | some prev =>
      if seq ≤ prev then conn
      else if prev + 1 < seq then (conn.setLastSeq market seq).emitResync market "gap"
      else conn.setLastSeq market seq

/-- One entry of the beacon. -/
def reconcileMark (conn : Connection) (mark : MarketKey × ℕ) : Connection :=
  match conn.lastSeq mark.1 with
  | none => conn
  | some ours =>
      if ours < mark.2 then (conn.setLastSeq mark.1 mark.2).emitResync mark.1 "beacon" else conn

def reconcileAgainstBeacon (conn : Connection) (serverSeq : List (MarketKey × ℕ)) : Connection :=
  serverSeq.foldl reconcileMark conn

def onmessage (conn : Connection) (frame : Frame) : Connection :=
  if frame.text "type" = some "ping" then
    let reconciled :=
      match frame.marks "serverSeq" with
      | none => conn
      | some serverSeq => conn.reconcileAgainstBeacon serverSeq
    { reconciled with pongs := reconciled.pongs ++ [frame.number "ts"] }
  else if frame.text "type" = some "market:prices_batch" then conn
  else
    match frame.text "market_id" with
    | none => conn
    | some market =>
        if market = "" then conn
        else if frame.text "type" ∈
            [some "__ws_status__", some "__ws_resync__", some "__ws_gap__"] then conn
        else if market ∈ conn.subs then
          match frame.number "seq" with
          | none => conn
          | some seq => conn.checkForGap market seq
        else conn

/-- The market has a handler. -/
def subscribe (conn : Connection) (market : MarketKey) : Connection :=
  { conn with subs := insert market conn.subs }

/-- The market's last handler is gone, and its number is forgotten. -/
def unsubscribe (conn : Connection) (market : MarketKey) : Connection :=
  { conn with
    subs := conn.subs.erase market
    lastSeq := Function.update conn.lastSeq market none }

end Connection

end PredictX.MarketSocket
