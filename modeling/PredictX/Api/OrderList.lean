import PredictX.Data.Paging
import PredictX.Models

namespace PredictX.OrderList

open PredictX.Data

/-! `list_orders`.

A row is an order with the outcome and the market that its foreign keys lead to; none of them can
be missing.  `market_id` has been read as an id, and the numbers of an entry are left as they are
before they are written out as text.
-/

def sideText : Side → String
  | .buy => "buy"
  | .sell => "sell"

def orderTypeText : OrderType → String
  | .market => "market"
  | .limit => "limit"
  | .fillOrKill => "fill_or_kill"

def statusText : OrderStatus → String
  | .pending => "pending"
  | .partiallyFilled => "partial"
  | .filled => "filled"
  | .cancelled => "cancelled"
  | .expired => "expired"

structure OrderRow where
  order : Order
  outcome : OutcomeName
  marketSlug : String
  marketQuestion : String
deriving DecidableEq, Repr

/-- An entry of `orders`. -/
structure OrderItem where
  id : OrderId
  marketId : MarketId
  marketSlug : String
  marketQuestion : String
  outcome : OutcomeName
  side : String
  orderType : String
  amount : ℚ
  remainingAmount : ℚ
  price : ℚ
  status : String
  sharesBought : Option ℚ
  sharesSold : Option ℚ
  feesPaid : Option ℚ
  createdAt : Timestamp
  executedAt : Option Timestamp
deriving DecidableEq, Repr

/-- `str(value) if value else None`. -/
def unlessZero (value : Option ℚ) : Option ℚ := value.filter fun number => number ≠ 0

def orderItem (row : OrderRow) : OrderItem where
  id := row.order.id
  marketId := row.order.marketId
  marketSlug := row.marketSlug
  marketQuestion := row.marketQuestion
  outcome := row.outcome
  side := sideText row.order.side
  orderType := orderTypeText row.order.orderType
  amount := row.order.amount
  remainingAmount := row.order.remainingAmount
  price := row.order.price
  status := statusText row.order.status
  sharesBought := unlessZero row.order.sharesBought
  sharesSold := unlessZero row.order.sharesSold
  feesPaid := unlessZero row.order.feesPaid
  createdAt := row.order.createdAt
  executedAt := row.order.executedAt

/-- The query's filters; an absent one and an empty one are treated alike. -/
structure Filters where
  status : String
  side : String
  orderType : String
  marketId : Option MarketId
  dateFrom : List Char
  dateTo : List Char
deriving DecidableEq, Repr

structure OrderPage where
  orders : List OrderItem
  total : ℕ
  pageSize : ℕ
  hasMore : Bool
  nextCursor : Option (List Char)
deriving DecidableEq, Repr

inductive Refusal where
  | invalidDateFrom (text : List Char)
  | invalidDateTo (text : List Char)
  | invalidCursor (text : List Char)
deriving DecidableEq, Repr

variable (times : CursorText Timestamp)

/-- `datetime.fromisoformat` on a parameter that may be absent. -/
def parseTime (refusal : List Char → Refusal) (text : List Char) :
    Except Refusal (Option Timestamp) :=
  if text = [] then .ok none
  else
    match times.read text with
    | none => .error (refusal text)
    | some time => .ok (some time)

/-- The `WHERE` clauses but for the one of the cursor. -/
def isMatching (user : UserId) (filters : Filters) (dateFrom dateTo : Option Timestamp)
    (order : Order) : Bool :=
  order.userId = user &&
  (filters.status = "" || statusText order.status = filters.status) &&
  (filters.side = "" || sideText order.side = filters.side) &&
  (filters.orderType = "" || orderTypeText order.orderType = filters.orderType) &&
  filters.marketId.all (fun market => order.marketId = market) &&
  dateFrom.all (fun earliest => earliest ≤ order.createdAt) &&
  dateTo.all fun latest => order.createdAt ≤ latest

/-- `list_orders`.  `ordered` is the order in which the database returns rows, newest first. -/
def listOrders (ordered : List OrderRow → List OrderRow) (rows : List OrderRow) (user : UserId)
    (filters : Filters) (pageSize : ℕ) (cursor : Option (List Char)) :
    Except Refusal OrderPage := do
  let dateFrom ← parseTime times .invalidDateFrom filters.dateFrom
  let dateTo ← parseTime times .invalidDateTo filters.dateTo
  let bound ← parseTime times .invalidCursor (cursor.getD [])
  let matching := rows.filter fun row =>
    isMatching user filters dateFrom dateTo row.order &&
      bound.all fun before => row.order.createdAt < before
  -- One row more than the page holds.
  let queried := (ordered matching).take (pageSize + 1)
  let hasMore := pageSize < queried.length
  let shown := queried.take pageSize
  return {
    orders := shown.map orderItem
    total := matching.length
    pageSize := pageSize
    hasMore := hasMore
    nextCursor :=
      if hasMore then shown.getLast?.map fun last => times.write last.order.createdAt else none }

end PredictX.OrderList
