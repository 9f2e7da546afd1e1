import PredictX.Services.MarketService
import PredictX.Positions
import PredictX.Data.Except

namespace PredictX

open PredictX.Data

namespace MatchingEngine

/-! # The matching engine

`find_matches` lists the makers, `execute_match` trades with one of them, and two
loops offer a taker to the list: one for an incoming order and one for a resting
order that the sweep picked up.
-/

structure MatchDetails where
  matchPrice : ℚ
  matchShares : ℚ
  matchUsdc : ℚ
  makerOrderId : OrderId
  makerUserId : UserId
  side : Side
  outcome : Option OutcomeName
  skipped : Bool
deriving DecidableEq, Repr

/-- The best price for a taker on `side` comes first, the oldest order within it. -/
def Precedes (side : Side) (left right : Order) : Prop :=
  (match side with
    | .buy => left.price < right.price
    | .sell => right.price < left.price) ∨
  left.price = right.price ∧ left.createdAt ≤ right.createdAt

instance (side : Side) : DecidableRel (Precedes side) := fun left right =>
  match side with
  | .buy => inferInstanceAs (Decidable (left.price < right.price ∨
      left.price = right.price ∧ left.createdAt ≤ right.createdAt))
  | .sell => inferInstanceAs (Decidable (right.price < left.price ∨
      left.price = right.price ∧ left.createdAt ≤ right.createdAt))

/-- `price_filter`. -/
def priceCrosses (side : Side) (limitPrice : Option ℚ) (price : ℚ) : Bool :=
  match side, limitPrice with
  | _, none => true
  | .buy, some limit => price ≤ limit
  | .sell, some limit => limit ≤ price

/-- The `WHERE` clause of `find_matches`. -/
def isMatch (market : MarketId) (outcome : OutcomeId) (side : Side) (limitPrice : Option ℚ)
    (taker : UserId) (order : Order) : Bool :=
  order.marketId = market && order.outcomeId = outcome && order.side = side.opposite &&
    order.status.isOpen && 0 < order.remainingAmount &&
    priceCrosses side limitPrice order.price && order.userId ≠ taker

/-- The makers for a taker.  The filter and the order are SQL's, so they see the
`flushed` rows; the objects returned are the session's, with its `current` values. -/
def findMatches (flushed current : Table Order.id) (market : MarketId) (outcome : OutcomeId)
    (side : Side) (limitPrice : Option ℚ) (taker : UserId) : List Order :=
  ((flushed.rows.filter (isMatch market outcome side limitPrice taker)).insertionSort
      (Precedes side)).filterMap fun row => current.find? row.id

def buyerOf (maker : Order) (taker : UserId) : UserId :=
  match maker.side with
  | .buy => maker.userId
  | .sell => taker

def sellerOf (maker : Order) (taker : UserId) : UserId :=
  match maker.side with
  | .buy => taker
  | .sell => maker.userId

def positionKey (maker : Order) (user : UserId) : PositionKey :=
  ⟨user, maker.marketId, maker.outcomeId⟩

/-- The pool that earns a match's fee: the maker's own outcome pool, else the
market's binary pool. -/
def feePool (pools : Table LiquidityPool.key) (maker : Order) : Option LiquidityPool :=
  match pools.find? ⟨maker.marketId, some maker.outcomeId⟩ with
  | some pool => some pool
  | none => pools.find? ⟨maker.marketId, none⟩

/-- The withheld fee enters the escrow and its sub-ledger.  It is positive here, so
`credit_collateral` does not refuse it. -/
def creditFee (pools : Table LiquidityPool.key) (maker : Order) (fee : ℚ) :
    Table LiquidityPool.key :=
  match feePool pools maker with
  | none => pools
  | some pool =>
      if 0 < fee then
        pools.modify pool.key fun row =>
          { row with collateral := row.collateral + fee, protocolFees := row.protocolFees + fee }
      else pools

/-- The maker's row after a match that took `spent` of its remaining amount. -/
def fillMaker (now : Timestamp) (spent : ℚ) (order : Order) : Order :=
  let remaining := order.remainingAmount - spent
  if remaining ≤ 0 then
    { order with remainingAmount := remaining, status := .filled, executedAt := some now }
  else { order with remainingAmount := remaining, status := .partiallyFilled }

/-- What a match takes off the maker's remaining amount: USDC of a buy, shares of
a sell. -/
def makerSpent (maker : Order) (shares usdc : ℚ) : ℚ :=
  match maker.side with
  | .buy => usdc
  | .sell => shares

/-- `locked_release`, with the maker's remaining amount already reduced. -/
def lockedRelease (maker : Order) (shares usdc : ℚ) : ℚ :=
  min (maker.amount - (maker.remainingAmount - usdc)) (shares * maker.price)

/-- The wallets after a match.  A missing wallet is passed over. -/
def payMatch (wallets : Table Wallet.userId) (maker : Order) (taker : UserId)
    (shares usdc fee : ℚ) : Table Wallet.userId :=
  let paid := (wallets.modify (buyerOf maker taker) (Wallet.debit usdc)
    (Wallet.debit_userId usdc)).modify (sellerOf maker taker) (Wallet.credit (usdc - fee))
  match maker.side with
  | .buy => paid.modify maker.userId (Wallet.release (lockedRelease maker shares usdc))
  | .sell => paid

/-- The buyer's new average price; an empty position is written as zero. -/
def buyerAverage (shares usdc : ℚ) (position : Position) : ℚ :=
  let total := position.sharesHeld + shares
  if 0 < total then (position.averagePrice * position.sharesHeld + usdc) / total else 0

/-- The shares go from the seller's position to the buyer's. -/
def moveShares (positions : Table Position.key) (maker : Order) (taker : UserId)
    (shares usdc : ℚ) : Table Position.key :=
  match maker.side with
  | .buy =>
      Position.acquire (Position.dispose positions (positionKey maker taker) shares usdc)
        (positionKey maker maker.userId) shares usdc (buyerAverage shares usdc)
  | .sell =>
      Position.dispose (Position.acquire positions (positionKey maker taker) shares usdc
        (buyerAverage shares usdc)) (positionKey maker maker.userId) shares usdc

/-- One trade row for the maker and one for the taker. -/
def matchTrades (now : Timestamp) (outcome : Option OutcomeName) (maker : Order) (taker : UserId)
    (shares price : ℚ) : List Trade :=
  [⟨maker.userId, maker.marketId, outcome, maker.side, price, shares, now⟩,
    ⟨taker, maker.marketId, outcome, maker.side.opposite, price, shares, now⟩]

/-- The buyer guard: an unfunded buyer fails the trade. -/
def checkBuyer (wallet : Option Wallet) (usdc : ℚ) : Except Error Unit :=
  match wallet with
  | none => .ok ()
  | some wallet =>
      if wallet.available < usdc then .error (.insufficientBalance wallet.available usdc)
      else .ok ()

/-- `execute_match`.  The fee is credited before the guards run, and a seller
without the shares skips the match. -/
def executeMatch (now : Timestamp) (db : Database) (maker : Order) (taker : UserId)
    (shares price : ℚ) : Except Error (Database × MatchDetails) :=
  let outcome := (db.outcomes.find? maker.outcomeId).map Outcome.name
  let usdc := shares * price
  let fee := usdc * protocolFeeRate
  let credited := { db with pools := creditFee db.pools maker fee }
  match checkBuyer (db.wallets.find? (buyerOf maker taker)) usdc with
  | .error reason => .error reason
  | .ok () =>
      if Position.held db.positions (positionKey maker (sellerOf maker taker)) < shares then
        .ok (credited,
          { matchPrice := price, matchShares := 0, matchUsdc := 0
            makerOrderId := maker.id, makerUserId := maker.userId
            side := maker.side, outcome, skipped := true })
      else
        .ok ({ credited with
            wallets := payMatch db.wallets maker taker shares usdc fee
            orders := db.orders.modify maker.id
              (fillMaker now (makerSpent maker shares usdc))
              (by intro order; unfold fillMaker; dsimp only; split <;> rfl)
            positions := moveShares db.positions maker taker shares usdc
            trades := db.trades ++ matchTrades now outcome maker taker shares price },
          { matchPrice := price, matchShares := shares, matchUsdc := usdc
            makerOrderId := maker.id, makerUserId := maker.userId
            side := maker.side, outcome, skipped := false })

/-- What the two matching loops do differently: the quantity offered to the next
maker (`none` ends the loop), and what an executed match adds to the loop's own
variables and to the taker's row. -/
structure Taker (σ : Type) where
  userId : UserId
  quantity : σ → Order → Except Error (Option ℚ)
  record : σ → MatchDetails → σ
  store : MatchDetails → Table Order.id → Table Order.id

/-- `for maker in matches`. -/
def offer {σ : Type} (now : Timestamp) (taker : Taker σ) :
    List Order → Database → σ → Except Error (Database × σ)
  | [], db, fill => .ok (db, fill)
  | maker :: makers, db, fill =>
      match taker.quantity fill maker with
      | .error reason => .error reason
      | .ok none => .ok (db, fill)
      | .ok (some quantity) =>
          match executeMatch now db maker taker.userId quantity maker.price with
          | .error reason => .error reason
          | .ok (after, details) =>
              if details.skipped then offer now taker makers after fill
              else
                offer now taker makers
                  { after with orders := taker.store details after.orders }
                  (taker.record fill details)

structure BookFill where
  matchedShares : ℚ
  matchedUsdc : ℚ
  matchDetails : List MatchDetails
deriving DecidableEq, Repr

def BookFill.empty : BookFill := ⟨0, 0, []⟩

def BookFill.add (fill : BookFill) (details : MatchDetails) : BookFill :=
  ⟨fill.matchedShares + details.matchShares, fill.matchedUsdc + details.matchUsdc,
    fill.matchDetails ++ [details]⟩

/-- The quantity an incoming order takes from a maker.  A buy is a USDC budget; a
sell is a share count and its makers are budgets. -/
def bookQuantity (side : Side) (amount : ℚ) (fill : BookFill) (maker : Order) :
    Except Error (Option ℚ) :=
  match side with
  | .buy =>
      if maker.price = 0 then .error .divisionByZero
      else
        let maxBuyable := (amount - fill.matchedUsdc) / maker.price
        if maxBuyable ≤ 0 then .ok none
        else
          let quantity := min maker.remainingAmount maxBuyable
          if quantity = 0 then .ok none else .ok (some quantity)
  | .sell =>
      let remainingShares := amount - fill.matchedShares
      if remainingShares ≤ 0 then .ok none
      else
        let affordable := if 0 < maker.price then maker.remainingAmount / maker.price else 0
        let quantity := min affordable remainingShares
        if quantity = 0 then .ok none else .ok (some quantity)

def bookTaker (side : Side) (amount : ℚ) (user : UserId) : Taker BookFill where
  userId := user
  quantity := bookQuantity side amount
  record := BookFill.add
  store := fun _ orders => orders

def matchOrderAgainstBook (now : Timestamp) (db : Database) (market : MarketId)
    (outcome : OutcomeId) (side : Side) (amount : ℚ) (limitPrice : Option ℚ) (user : UserId) :
    Except Error (Database × BookFill) :=
  offer now (bookTaker side amount user)
    (findMatches db.orders db.orders market outcome side limitPrice user) db .empty

/-- `executed` is what the loop traded; the source's own list of details stays
empty and nothing reads it. -/
structure PendingFill where
  remaining : ℚ
  executed : List MatchDetails
deriving DecidableEq, Repr

/-- The quantity a resting order takes from a maker.  A resting sell is capped by
the maker's remaining amount itself, whatever its unit. -/
def pendingQuantity (side : Side) (fill : PendingFill) (maker : Order) : Option ℚ :=
  if fill.remaining ≤ 0 then none
  else
    let quantity :=
      match side with
      | .buy =>
          min maker.remainingAmount
            (if 0 < maker.price then fill.remaining / maker.price else 0)
      | .sell => min maker.remainingAmount fill.remaining
    if quantity ≤ 0 then none else some quantity

/-- What a match takes off the resting taker: USDC of a buy, shares of a sell. -/
def takerSpent (side : Side) (details : MatchDetails) : ℚ :=
  match side with
  | .buy => details.matchUsdc
  | .sell => details.matchShares

/-- The resting taker's row after a match. -/
def fillTaker (now : Timestamp) (spent : ℚ) (order : Order) : Order :=
  let remaining := order.remainingAmount - spent
  if remaining ≤ 0 then
    { order with remainingAmount := remaining, status := .filled, executedAt := some now }
  else
    { order with
      remainingAmount := remaining
      status := if order.status = .filled then .filled else .partiallyFilled }

theorem fillTaker_id (now : Timestamp) (spent : ℚ) (order : Order) :
    (fillTaker now spent order).id = order.id := by
  unfold fillTaker
  dsimp only
  split <;> rfl

def pendingTaker (now : Timestamp) (order : Order) : Taker PendingFill where
  userId := order.userId
  quantity := fun fill maker => .ok (pendingQuantity order.side fill maker)
  record := fun fill details =>
    ⟨fill.remaining - takerSpent order.side details, fill.executed ++ [details]⟩
  store := fun details orders =>
    orders.modify order.id (fillTaker now (takerSpent order.side details))
      (fillTaker_id now _)

def matchPendingOrder (now : Timestamp) (flushed : Table Order.id) (db : Database)
    (order : Order) (market : MarketId) (outcome : OutcomeId) :
    Except Error (Database × PendingFill) :=
  offer now (pendingTaker now order)
    (findMatches flushed db.orders market outcome order.side (some order.price) order.userId)
    db ⟨order.remainingAmount, []⟩

end MatchingEngine

end PredictX
