import PredictX.Websocket.ConnectionManager
import PredictX.Websocket.GridFeed

namespace PredictX.GridBuffer

open PredictX.Data PredictX.MarketFeed PredictX.ConnectionManager
open PredictX.GridFeed (GridFrame MarketEvent)

/-! The grid buffers of a node, one for each socket.

An event's payload is built once and put into every buffer, so what the loop over the sockets
adds to it later also shows in the buffers that have it already.  The sockets that watch a single
market, the marks for the beacon and the ids and names of a resolution are left out.
-/

abbrev Pending (π : Type) := Socket → MarketKey → Option (GridFrame π)

/-- An event that a socket's grid is to be told of. -/
structure Seen (π : Type) where
  /-- None: it is a `market:resolved`. -/
  prices : Option π
  seq : ℕ
deriving DecidableEq, Repr

/-- What a flush sends to a socket, beside the events of each market that it answers for. -/
structure Delivery (π : Type) where
  prices : MarketKey → Option (GridFrame π)
  windows : MarketKey → List (Seen π)

structure Manager (π : Type) where
  /-- `_grid_subs`; empty: the socket has no entry. -/
  gridSubs : Socket → Finset MarketKey
  /-- `_grid_subscribers`. -/
  gridSubscribers : MarketKey → Finset Socket
  /-- `_grid_pending`. -/
  gridPending : Pending π
  /-- The events since the socket's last flush or since it declared its grid. -/
  windows : Socket → MarketKey → List (Seen π)
  received : Socket → List (Delivery π)

def Manager.empty {π : Type} : Manager π where
  gridSubs := fun _ => ∅
  gridSubscribers := fun _ => ∅
  gridPending := fun _ _ => none
  windows := fun _ _ => []
  received := fun _ => []

section Loop

variable {π : Type}

/-- The loop of `_buffer_grid_event`: the payload, and the sockets that hold it so far. -/
structure Loop (π : Type) where
  payload : GridFrame π
  holders : List Socket

/-- The loop's body. -/
def Loop.visit (pending : Pending π) (loop : Loop π) (socket : Socket) : Loop π :=
  match pending socket loop.payload.market with
  | none => { loop with holders := socket :: loop.holders }
  | some existing =>
      match existing.prices with
      | none => loop
      | some _ =>
          match loop.payload.seqFrom with
          | some _ => { loop with holders := socket :: loop.holders }
          | none =>
              { payload := { loop.payload with seqFrom := some existing.first }
                holders := socket :: loop.holders }

/-- `_buffer_grid_event`, where the sockets come in some order. -/
def bufferGridEvent (pending : Pending π) (order : List Socket) (market : MarketKey)
    (prices : Option π) (seq : ℕ) : Pending π :=
  let loop := order.foldl (Loop.visit pending) ⟨⟨market, prices, seq, none⟩, []⟩
  fun socket other =>
    if other = market ∧ socket ∈ loop.holders then some loop.payload else pending socket other

end Loop

section Operations

variable {π : Type}

/-- The windows of those that have declared the market get one more event. -/
def Manager.widen (manager : Manager π) (market : MarketKey) (seen : Seen π) :
    Socket → MarketKey → List (Seen π) :=
  fun socket other =>
    if other = market ∧ market ∈ manager.gridSubs socket then
      manager.windows socket other ++ [seen]
    else manager.windows socket other

/-- `broadcast_to_market`, of a price or of a resolution. -/
def Manager.buffer (manager : Manager π) (order : List Socket) (market : MarketKey)
    (seen : Seen π) : Manager π :=
  { manager with
    gridPending := bufferGridEvent manager.gridPending order market seen.prices seen.seq
    windows := manager.widen market seen }

def Manager.broadcastToMarket (manager : Manager π) (order : List Socket) (market : MarketKey)
    (event : MarketEvent π) (seq : ℕ) : Manager π :=
  match event with
  | .price prices => manager.buffer order market ⟨some prices, seq⟩
  | .resolved => manager.buffer order market ⟨none, seq⟩
  | .other _ => manager

def Manager.flushGrid (manager : Manager π) : Manager π :=
  { manager with
    gridPending := fun _ _ => none
    windows := fun _ _ => []
    received := fun socket =>
      manager.received socket ++ [⟨manager.gridPending socket, manager.windows socket⟩] }

def Manager.clearGrid (manager : Manager π) (socket : Socket) : Manager π :=
  { manager with
    gridSubs := Function.update manager.gridSubs socket ∅
    gridSubscribers := fun market =>
      if market ∈ manager.gridSubs socket then (manager.gridSubscribers market).erase socket
      else manager.gridSubscribers market
    gridPending := Function.update manager.gridPending socket fun _ => none
    windows := Function.update manager.windows socket fun _ => [] }

/-- The window holds a resolution. -/
def Ended (window : List (Seen π)) : Prop := ∃ seen ∈ window, seen.prices = none

instance (window : List (Seen π)) : Decidable (Ended window) :=
  decidable_of_iff (window.any fun seen => seen.prices.isNone) (by simp [Ended])

/-- `subscribe_grid`: a window begins anew, but a resolution is still to be told. -/
def Manager.subscribeGrid (manager : Manager π) (socket : Socket) (marketIds : List MarketKey) :
    Manager π :=
  let accepted := acceptedMarkets marketIds
  let cleared := manager.clearGrid socket
  { cleared with
    gridSubs := Function.update cleared.gridSubs socket accepted
    gridSubscribers := fun market =>
      if market ∈ accepted then insert socket (cleared.gridSubscribers market)
      else cleared.gridSubscribers market
    windows := Function.update cleared.windows socket fun market =>
      if market ∈ accepted ∧ Ended (manager.windows socket market) then
        manager.windows socket market
      else [] }

end Operations

inductive Action (π : Type) where
  | broadcast (order : List Socket) (market : MarketKey) (event : MarketEvent π) (seq : ℕ)
  | flush
  | subscribe (socket : Socket) (marketIds : List MarketKey)
  | clear (socket : Socket)
deriving DecidableEq, Repr

inductive Moves {π : Type} : Manager π → Action π → Manager π → Prop
  | broadcast {manager : Manager π} {order : List Socket} {market : MarketKey}
      (event : MarketEvent π) (seq : ℕ) (once : order.Nodup)
      (all : order.toFinset = manager.gridSubscribers market) :
      Moves manager (.broadcast order market event seq)
        (manager.broadcastToMarket order market event seq)
  | flush {manager : Manager π} : Moves manager .flush manager.flushGrid
  | subscribe {manager : Manager π} (socket : Socket) (marketIds : List MarketKey) :
      Moves manager (.subscribe socket marketIds) (manager.subscribeGrid socket marketIds)
  | clear {manager : Manager π} (socket : Socket) :
      Moves manager (.clear socket) (manager.clearGrid socket)

section Loop

variable {π : Type} {pending : Pending π} {loop : Loop π} {market : MarketKey}
  {order : List Socket} {socket : Socket}

/-- The socket waits for no resolution of the market. -/
def Open (pending : Pending π) (market : MarketKey) (socket : Socket) : Prop :=
  ∀ existing ∈ pending socket market, existing.prices.isSome

/-- Where a socket's entry begins. -/
def begins (pending : Pending π) (market : MarketKey) (socket : Socket) : Option ℕ :=
  (pending socket market).map GridFrame.first

instance (socket : Socket) : Decidable (Open pending market socket) :=
  inferInstanceAs (Decidable (∀ existing ∈ pending socket market, _))

theorem open_none (absent : pending socket market = none) : Open pending market socket := by
  simp [Open, absent]

theorem open_some {existing : GridFrame π} (found : pending socket market = some existing) :
    Open pending market socket ↔ existing.prices.isSome := by
  simp [Open, found]

/-- A visit sets `seq_from` at most once, and hands the payload to a socket that waits for no
resolution. -/
theorem visit_eq (pending : Pending π) (loop : Loop π) (socket : Socket) :
    loop.visit pending socket =
      if Open pending loop.payload.market socket then
        { payload :=
            { loop.payload with
              seqFrom := loop.payload.seqFrom.or (begins pending loop.payload.market socket) }
          holders := socket :: loop.holders }
      else loop := by
  unfold Loop.visit begins
  cases found : pending socket loop.payload.market with
  | none =>
      rw [if_pos (open_none found)]
      simp
  | some existing =>
      cases priced : existing.prices with
      | none =>
          have closed : ¬Open pending loop.payload.market socket := by
            rw [open_some found, priced]
            exact Bool.false_ne_true
          rw [if_neg closed]
          simp only [priced]
      | some prices =>
          have isOpen : Open pending loop.payload.market socket := by
            rw [open_some found, priced]
            rfl
          rw [if_pos isOpen]
          simp only [priced]
          rcases loop with ⟨⟨market, prices, seq, seqFrom⟩, holders⟩
          cases seqFrom <;> rfl

/-- The payload ends up with where the first of its holders begins. -/
theorem foldl_visit (pending : Pending π) (order : List Socket) (loop : Loop π) :
    order.foldl (Loop.visit pending) loop =
      let takers := order.filter fun socket => Open pending loop.payload.market socket
      { payload :=
          { loop.payload with
            seqFrom := loop.payload.seqFrom.or
              (takers.findSome? (begins pending loop.payload.market)) }
        holders := takers.reverse ++ loop.holders } := by
  induction order generalizing loop with
  | nil => simp
  | cons socket rest ih =>
      rw [List.foldl_cons, ih, visit_eq]
      by_cases isOpen : Open pending loop.payload.market socket
      · cases starts : begins pending loop.payload.market socket <;> simp [isOpen, starts]
      · simp [isOpen]

variable {prices : Option π} {seq : ℕ}

/-- Where the payload of an event begins, if it is not at the event itself. -/
def carried (pending : Pending π) (order : List Socket) (market : MarketKey) : Option ℕ :=
  (order.filter fun socket => Open pending market socket).findSome? (begins pending market)

theorem bufferGridEvent_eq (pending : Pending π) (order : List Socket) (market : MarketKey)
    (prices : Option π) (seq : ℕ) (socket : Socket) (other : MarketKey) :
    bufferGridEvent pending order market prices seq socket other =
      if other = market ∧ socket ∈ order ∧ Open pending market socket then
        some ⟨market, prices, seq, carried pending order market⟩
      else pending socket other := by
  unfold bufferGridEvent
  rw [foldl_visit]
  simp [carried]

/-- The payload begins where an open socket's entry does, if one of them has an entry. -/
theorem carried_eq_some {first : ℕ} (starts : carried pending order market = some first) :
    ∃ socket ∈ order, Open pending market socket ∧ begins pending market socket = some first := by
  obtain ⟨socket, member, isFirst⟩ := List.exists_of_findSome?_eq_some starts
  obtain ⟨inOrder, isOpen⟩ := List.mem_filter.mp member
  exact ⟨socket, inOrder, of_decide_eq_true isOpen, isFirst⟩

theorem carried_eq_none (starts : carried pending order market = none) (member : socket ∈ order)
    (isOpen : Open pending market socket) : begins pending market socket = none :=
  List.findSome?_eq_none_iff.mp starts socket
    (List.mem_filter.mpr ⟨member, decide_eq_true isOpen⟩)

end Loop

end PredictX.GridBuffer
