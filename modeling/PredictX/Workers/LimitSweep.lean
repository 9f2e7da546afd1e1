import PredictX.Services.OrderService

namespace PredictX.LimitSweep

open PredictX.Data PredictX.Amm PredictX.MarketService PredictX.MatchingEngine
open PredictX.OrderService

/-! The order workers: `expire_stale_orders` and `check_limit_order_execution`.

The sweep's session does not autoflush, so its queries see the rows of the last
commit while the objects they return carry what the session has changed since.  A
market group that raises goes back to the last commit and the next group goes on.
-/

/-- `order_type in ("limit", "fill_or_kill")`. -/
def restsInBook (order : Order) : Bool := order.orderType ≠ .market

def markExpired (now : Timestamp) (order : Order) : Order :=
  { order with status := .expired, executedAt := some now }

theorem released_userId (order : Order) (wallet : Wallet) :
    (wallet.release order.remainingAmount).userId = wallet.userId := rfl

/-- Expire one order; only a buy has funds to release. -/
def expireOrder (now : Timestamp) (db : Database) (order : Order) : Database :=
  { db with
    orders := db.orders.modify order.id (markExpired now)
    wallets := match order.side with
      | .sell => db.wallets
      | .buy => db.wallets.modify order.userId (Wallet.release order.remainingAmount)
          (released_userId order) }

/-- `expires_at and expires_at <= now`. -/
def hasExpired (now : Timestamp) (order : Order) : Bool :=
  order.expiresAt.any fun expiry => expiry ≤ now

/-- The `WHERE` clause of the expiry sweep. -/
def isStale (now : Timestamp) (order : Order) : Bool :=
  restsInBook order && order.status.isOpen && hasExpired now order

/-- `expire_stale_orders`.  It commits every 500 rows; the chunks expire the same rows
as one pass. -/
def expireStaleOrders (now : Timestamp) (db : Database) : Database :=
  (db.orders.rows.filter (isStale now)).foldl (expireOrder now) db

/-- The rows of the last commit and the session's own values. -/
structure Session where
  committed : Database
  current : Database

namespace Session

def start (db : Database) : Session := ⟨db, db⟩

def commit (session : Session) : Session := ⟨session.current, session.current⟩

def rollback (session : Session) : Session := ⟨session.committed, session.committed⟩

end Session

/-- What the sweep resolved for one order before it trades. -/
structure Turn where
  market : MarketId
  order : Order
  outcome : Outcome
  poolKey : PoolKey
  parimutuel : Bool
  amm : BinaryAMM
  ammSide : ShareSide

/-- `can_fill`. -/
def Turn.canFill (turn : Turn) : Bool :=
  canFillAmm turn.order.side (turn.amm.price turn.ammSide) (some turn.order.price)

def Turn.positionKey (turn : Turn) : PositionKey :=
  ⟨turn.order.userId, turn.market, turn.outcome.id⟩

/-- The sweep charges the protocol fee on `remaining * price`. -/
def sweepFee (leg : AmmLeg) : ℚ := leg.quantity * leg.quote.price * protocolFeeRate

/-- The pool row after the sweep's AMM leg; a parimutuel pool keeps its `no_shares`. -/
def writeSweepLeg (pools : Table LiquidityPool.key) (turn : Turn) (leg : AmmLeg) (delta : ℚ) :
    Table LiquidityPool.key :=
  pools.modify turn.poolKey fun pool =>
    { pool with
      collateral := pool.collateral + delta
      protocolFees := pool.protocolFees + sweepFee leg
      yesShares := leg.amm.yesShares
      noShares := if turn.parimutuel then pool.noShares else leg.amm.noShares }

/-- The order's row after its AMM leg. -/
def fillResting (now : Timestamp) (leg : AmmLeg) (order : Order) : Order :=
  { fillTaker now leg.quantity order with
    sharesBought := match leg.side with
      | .buy => some leg.shares
      | .sell => none
    sharesSold := match leg.side with
      | .buy => none
      | .sell => some leg.shares
    feesPaid := some (order.feesPaid.getD 0 + leg.quote.fee) }

theorem fillResting_id (now : Timestamp) (leg : AmmLeg) (order : Order) :
    (fillResting now leg order).id = order.id := fillTaker_id now leg.quantity order

/-- What both legs of the sweep write besides wallets, positions and the pool. -/
def recordLeg (now : Timestamp) (turn : Turn) (leg : AmmLeg) (db : Database) : Database :=
  { db with
    orders := db.orders.modify turn.order.id (fillResting now leg) (fillResting_id now leg)
    markets := db.markets.modify turn.market fun market =>
      { market with
        totalVolume := market.totalVolume + leg.quantity, numTrades := market.numTrades + 1 }
    trades := db.trades ++
      [⟨turn.order.userId, turn.market, some turn.outcome.name, leg.side,
        leg.quote.price, leg.quantity, now⟩]
    transactions := db.transactions ++
      [{ userId := turn.order.userId
         type := match leg.side with
           | .buy => .tradeBuy
           | .sell => .tradeSell
         amount := match leg.side with
           | .buy => -leg.quantity
           | .sell => leg.quote.collateralIn
         balanceAfter := walletBalance db turn.order.userId
         reference := .order turn.order.id }] }

/-- The wallet of a resting buyer: the spend leaves the balance and the reservation. -/
def payResting (remaining : ℚ) (wallet : Wallet) : Wallet :=
  { wallet with
    balance := wallet.balance - remaining
    lockedBalance :=
      if 0 < wallet.lockedBalance then max 0 (wallet.lockedBalance - remaining)
      else wallet.lockedBalance }

/-- The AMM leg of a resting buy; `none` when the order is passed over. -/
def sweepBuy (now : Timestamp) (db : Database) (turn : Turn) (remaining : ℚ) :
    Except Error (Option (Database × AmmLeg)) :=
  match db.wallets.find? turn.order.userId with
  | none => .ok none
  | some wallet =>
      if wallet.available < remaining then .ok none
      else
        match turn.amm.buy turn.ammSide remaining with
        | .error reason => .error reason
        | .ok (amm, quote) =>
            let leg : AmmLeg := ⟨.buy, remaining, quote, amm⟩
            .ok (some (recordLeg now turn leg
              { db with
                wallets := db.wallets.modify turn.order.userId (payResting remaining)
                positions := Position.acquire db.positions turn.positionKey quote.sharesOut
                  remaining (stepAverage quote.sharesOut remaining)
                pools := writeSweepLeg db.pools turn leg remaining }, leg))

theorem credited_userId (quote : AMMQuote) (wallet : Wallet) :
    (wallet.credit quote.collateralIn).userId = wallet.userId := rfl

/-- The AMM leg of a resting sell. -/
def sweepSell (now : Timestamp) (db : Database) (turn : Turn) (remaining : ℚ) :
    Except Error (Option (Database × AmmLeg)) :=
  match db.wallets.find? turn.order.userId with
  | none => .ok none
  | some _ =>
      if Position.held db.positions turn.positionKey < remaining then .ok none
      else
        match turn.amm.sell turn.ammSide remaining with
        | .error reason => .error reason
        | .ok (amm, quote) =>
            let leg : AmmLeg := ⟨.sell, remaining, quote, amm⟩
            match db.pools.find? turn.poolKey with
            | none => .error (.validation .marketNoLiquidity)
            | some pool =>
                match pool.debitCollateral id quote.collateralIn with
                | .error reason => .error reason
                | .ok debited =>
                    .ok (some (recordLeg now turn leg
                      { db with
                        wallets := db.wallets.modify turn.order.userId
                          (Wallet.credit quote.collateralIn) (credited_userId quote)
                        positions := Position.dispose db.positions turn.positionKey remaining
                          quote.collateralIn
                        pools := writeSweepLeg db.pools turn leg
                          (debited.collateral - pool.collateral) }, leg))

def sweepLeg (now : Timestamp) (db : Database) (turn : Turn) (remaining : ℚ) :
    Except Error (Option (Database × AmmLeg)) :=
  match turn.order.side with
  | .buy => sweepBuy now db turn remaining
  | .sell => sweepSell now db turn remaining

/-- The outcome, the pool and the AMM of an order; `none` when it is passed over. -/
def takeTurn (db : Database) (market : MarketId) (parimutuel : Bool) (order : Order) :
    Option Turn :=
  match db.outcomes.find? order.outcomeId with
  | none => none
  | some outcome =>
      match resolvePool db market outcome.id parimutuel with
      | .error _ => none
      | .ok pool =>
          let amm := tradingAmm db market outcome pool parimutuel
          some ⟨market, order, outcome, poolKey market outcome.id parimutuel, parimutuel, amm.1,
            amm.2⟩

/-- What one order's turn in the sweep did: the session after it and its fills. -/
structure Processed where
  session : Session
  executed : List MatchDetails
  ammLeg : Option AmmLeg

/-- The book leg and then the AMM leg of one order. -/
def tradeOrder (now : Timestamp) (session : Session) (turn : Turn) : Except Error Processed :=
  match matchPendingOrder now session.committed.orders session.current turn.order turn.market
      turn.outcome.id with
  | .error reason => .error reason
  | .ok (matched, fill) =>
      let after : Session := ⟨session.committed, matched⟩
      if 0 < fill.remaining then
        if turn.canFill then
          match sweepLeg now matched turn fill.remaining with
          | .error reason => .error reason
          | .ok none => .ok ⟨after, fill.executed, none⟩
          | .ok (some (traded, leg)) =>
              .ok ⟨⟨session.committed, traded⟩, fill.executed, some leg⟩
        else
          let filled := (matched.orders.find? turn.order.id).any fun row => row.status = .filled
          .ok ⟨if filled then after else after.commit, fill.executed, none⟩
      else .ok ⟨after, fill.executed, none⟩

/-- The loop body for one order of a market group. -/
def processOrder (now : Timestamp) (market : MarketId) (parimutuel : Bool) (session : Session)
    (orderId : OrderId) : Except Error Processed :=
  match session.current.orders.find? orderId with
  | none => .ok ⟨session, [], none⟩
  | some order =>
      if order.status.isOpen = false then .ok ⟨session, [], none⟩
      else if hasExpired now order then
        .ok ⟨Session.commit ⟨session.committed, expireOrder now session.current order⟩, [], none⟩
      else
        match takeTurn session.current market parimutuel order with
        | none => .ok ⟨session, [], none⟩
        | some turn => tradeOrder now session turn

/-- `for order in market_orders`, with the group's commit at its end. -/
def sweepOrders (now : Timestamp) (market : MarketId) (parimutuel : Bool) :
    List OrderId → Session → Session
  | [], session => session.commit
  | orderId :: rest, session =>
      match processOrder now market parimutuel session orderId with
      | .error _ => session.rollback
      | .ok processed => sweepOrders now market parimutuel rest processed.session

/-- One market group. -/
def sweepMarket (now : Timestamp) (session : Session) (market : MarketId)
    (orders : List OrderId) : Session :=
  match session.current.markets.find? market with
  | none => session.rollback
  | some row =>
      if row.status ≠ .active then session.rollback
      else
        sweepOrders now market (isParimutuel (outcomesOf session.current market)) orders session

/-- The `WHERE` clause of the sweep; `dirty` is `none` when Redis is unavailable. -/
def isSwept (dirty : Option (List MarketId)) (order : Order) : Bool :=
  restsInBook order && order.status.isOpen && 0 < order.remainingAmount &&
    match dirty with
    | none => true
    | some markets => order.marketId ∈ markets

/-- `by_market`: the groups in the order their markets first appear. -/
def groups (scanned : List Order) : List (MarketId × List OrderId) :=
  (scanned.map Order.marketId).eraseDups.map fun market =>
    (market, (scanned.filter fun order => order.marketId = market).map Order.id)

/-- `check_limit_order_execution` over the rows its query returned.  Once a group was rolled back
the objects of the others have expired, so in the source these raise; here they take their turn. -/
def checkLimitOrderExecution (now : Timestamp) (scanned : List Order) (db : Database) :
    Database :=
  ((groups scanned).foldl (fun session group => sweepMarket now session group.1 group.2)
    (Session.start db)).committed

/-- The query's rows, in the unspecified order the database returns them. -/
def Scanned (dirty : Option (List MarketId)) (db : Database) (scanned : List Order) : Prop :=
  scanned.Perm (db.orders.rows.filter (isSwept dirty))

end PredictX.LimitSweep
