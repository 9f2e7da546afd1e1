import PredictX.Services.MarketService

namespace PredictX.CacheService

open PredictX.Data PredictX.MarketService

/-! `build_orderbook`: the book that the clients are shown.

The query groups the pending orders of the market by outcome, side and price; the loop then sorts
the groups into the books of the outcomes, which are kept by name.
-/

structure Level where
  price : ℚ
  size : ℚ
deriving DecidableEq, Repr

structure Book where
  bids : List Level
  asks : List Level
deriving DecidableEq, Repr

structure GroupKey where
  outcomeId : OutcomeId
  side : Side
  price : ℚ
deriving DecidableEq, Repr

def groupKey (order : Order) : GroupKey := ⟨order.outcomeId, order.side, order.price⟩

structure GroupRow where
  key : GroupKey
  totalSize : ℚ
deriving DecidableEq, Repr

/-- The `ORDER BY`: "buy" comes before "sell", and the highest price first. -/
def GroupKey.Precedes (left right : GroupKey) : Prop :=
  left.outcomeId < right.outcomeId ∨ left.outcomeId = right.outcomeId ∧
    (left.side = .buy ∧ right.side = .sell ∨ left.side = right.side ∧ right.price ≤ left.price)

instance : DecidableRel GroupKey.Precedes := fun left right =>
  inferInstanceAs (Decidable (left.outcomeId < right.outcomeId ∨
    left.outcomeId = right.outcomeId ∧
      (left.side = .buy ∧ right.side = .sell ∨
        left.side = right.side ∧ right.price ≤ left.price)))

/-- The `WHERE` clause. -/
def isShown (market : MarketId) (order : Order) : Bool :=
  order.marketId = market && order.status = .pending &&
    (order.orderType = .limit || order.orderType = .fillOrKill)

/-- The `GROUP BY` and its sums. -/
def groupRows (rows : List Order) : List GroupRow :=
  ((rows.map groupKey).dedup.insertionSort GroupKey.Precedes).map fun key =>
    ⟨key, ((rows.filter fun order => groupKey order = key).map Order.remainingAmount).sum⟩

/-- What a bid has left is a budget; it is shown in shares at its price. -/
def GroupRow.level (row : GroupRow) : Level where
  price := row.key.price
  size :=
    if row.key.side = .buy ∧ row.key.price ≠ 0 then row.totalSize / row.key.price
    else row.totalSize

def Book.add (book : Book) (row : GroupRow) : Book :=
  match row.key.side with
  | .buy => { book with bids := book.bids ++ [row.level] }
  | .sell => { book with asks := book.asks ++ [row.level] }

/-- The dictionary of the outcomes' books. -/
abbrev Orderbook := OutcomeName → Option Book

def outcomeName (outcomes : List Outcome) (id : OutcomeId) : OutcomeName :=
  match outcomes.find? fun outcome => outcome.id = id with
  | none => .named "unknown"
  | some outcome => outcome.name

def Orderbook.add (outcomes : List Outcome) (orderbook : Orderbook) (row : GroupRow) : Orderbook :=
  match orderbook (outcomeName outcomes row.key.outcomeId) with
  | none => orderbook
  | some book =>
      Function.update orderbook (outcomeName outcomes row.key.outcomeId) (some (book.add row))

def buildOrderbook (db : Database) (market : MarketId) : Orderbook :=
  let outcomes := outcomesOf db market
  let empty : Orderbook := fun name =>
    if outcomes.any fun outcome => outcome.name = name then some ⟨[], []⟩ else none
  (groupRows (db.orders.rows.filter (isShown market))).foldl (Orderbook.add outcomes) empty

end PredictX.CacheService
