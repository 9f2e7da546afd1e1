import PredictX.Services.OutcomePrices
import PredictX.Workers.LimitSweep

namespace PredictX.LimitSweep

open PredictX.Data PredictX.Amm PredictX.MarketService PredictX.MatchingEngine
open PredictX.OrderService

/-! What `check_limit_order_execution` tells the outside.

The block that publishes a fill and counts it stands after the loop over a group's orders, and the
function's variables outlive the loop: it reads what the last turn has left, and of a variable that
this turn did not assign what an earlier turn, or an earlier group, left.  Publishing itself is
taken not to fail; the order book's pushes, the position updates and the stored notifications are
left out.
-/

/-- The variables that the block reads, `none` while they are unbound or `None`. -/
structure Locals where
  reLocked : Option OrderId
  outcome : Option Outcome
  pool : Option PoolKey
  orderSide : Option Side
  orderAmount : Option ℚ
  remaining : Option ℚ
  ammPriceVal : Option ℚ

def Locals.unbound : Locals := ⟨none, none, none, none, none, none, none⟩

/-- What is assigned once the order's pool has been resolved. -/
def bindTrade (now : Timestamp) (market : MarketId) (session : Session) (order : Order)
    (outcome : Outcome) (leg : Option AmmLeg) (locals : Locals) : Locals :=
  let begun := { locals with
    orderSide := some order.side
    orderAmount := some order.remainingAmount }
  match matchPendingOrder now session.committed.orders session.current order market outcome.id with
  | .error _ => begun
  | .ok (_, fill) =>
      { begun with
        remaining := some fill.remaining
        ammPriceVal := some ((leg.map fun leg => leg.quote.price).getD 0) }

/-- What an order's turn assigns, up to where it leaves the loop's body. -/
def bindTurn (now : Timestamp) (market : MarketId) (parimutuel : Bool) (session : Session)
    (orderId : OrderId) (leg : Option AmmLeg) (locals : Locals) : Locals :=
  match session.current.orders.find? orderId with
  | none => { locals with reLocked := none }
  | some order =>
      let locked := { locals with reLocked := some orderId }
      if order.status.isOpen = false then locked
      else if hasExpired now order then locked
      else
        match session.current.outcomes.find? order.outcomeId with
        | none => { locked with outcome := none }
        | some outcome =>
            let found := { locked with outcome := some outcome }
            match resolvePool session.current market outcome.id parimutuel with
            | .error _ => found
            | .ok _ =>
                bindTrade now market session order outcome leg
                  { found with pool := some (poolKey market outcome.id parimutuel) }

/-- The payload of `publish_price_update`. -/
structure PriceUpdate where
  market : MarketId
  yesPrice : ℚ
  noPrice : ℚ
  volume : ℚ
  outcomePrices : Option (List (OutcomeName × ℚ))
deriving DecidableEq, Repr

/-- The payload of `publish_order_fill`, and the user whose channel it goes to. -/
structure FillNotice where
  userId : UserId
  orderId : OrderId
  marketId : MarketId
  status : OrderStatus
  side : Side
  shares : ℚ
  price : ℚ
deriving DecidableEq, Repr

/-- An order that its own turn has filled, and what the turn has taken off it. -/
structure Filled where
  orderId : OrderId
  marketId : MarketId
  userId : UserId
  side : Side
  quantity : ℚ
deriving DecidableEq, Repr

/-- What is published, and the fills themselves. -/
inductive Event where
  | filled (filled : Filled)
  | price (update : PriceUpdate)
  | orderFill (notice : FillNotice)
deriving DecidableEq, Repr

/-- The prices that are published; a variable that is unbound, or is `None`, raises. -/
def publishedPrices (db : Database) (market : MarketId) (parimutuel : Bool) (locals : Locals) :
    Option PriceUpdate :=
  match db.markets.find? market with
  | none => none
  | some row =>
      if parimutuel then
        match locals.outcome with
        | none => none
        | some outcome =>
            let prices := outcomePrices (loadOutcomePools db market)
            let yes := ((prices.find? fun item => item.1 = some outcome.id).map Prod.snd).getD 0
            let named := prices.filterMap fun item =>
              ((outcomesOf db market).find? fun outcome => some outcome.id = item.1).map
                fun outcome => (outcome.name, item.2)
            some ⟨market, yes, 1 - yes, row.totalVolume, some named⟩
      else
        match locals.pool.bind db.pools.find? with
        | none => none
        | some pool =>
            let total := pool.yesShares + pool.noShares
            some ⟨market, if 0 < total then pool.yesShares / total else 1 / 2,
              if 0 < total then pool.noShares / total else 1 / 2, row.totalVolume, none⟩

/-- The fill that is published; a variable that is unbound raises inside the `try`. -/
def fillNotice (market : MarketId) (order : Order) (locals : Locals) : Option FillNotice :=
  match locals.orderSide, locals.orderAmount, locals.remaining, locals.ammPriceVal with
  | some side, some amount, some remaining, some ammPrice =>
      some ⟨order.userId, order.id, market, order.status, side, amount - remaining,
        if 0 < ammPrice then ammPrice else order.price⟩
  | _, _, _, _ => none

/-- The block after a group's loop, with what it publishes and counts; an error carries the session
that it leaves after the rollback. -/
def announce (market : MarketId) (parimutuel : Bool) (session : Session) (locals : Locals) :
    Except Session (List Event × ℕ) :=
  match locals.reLocked.bind session.current.orders.find? with
  | none => .error session.rollback
  | some order =>
      if order.status ≠ .filled then .ok ([], 0)
      else
        match publishedPrices session.current market parimutuel locals with
        | none => .error session.commit
        | some update =>
            .ok (.price update :: ((fillNotice market order locals).map Event.orderFill).toList, 1)

/-- The variables of `_run`, what has been published, and how many groups have raised. -/
structure Sweep where
  session : Session
  locals : Locals
  log : List Event
  executed : ℕ
  raised : ℕ

/-- The fill of one turn, read off the order's row. -/
def filledInTurn (market : MarketId) (before after : Database) (orderId : OrderId) :
    Option Filled :=
  match before.orders.find? orderId, after.orders.find? orderId with
  | some row, some next =>
      if row.status ≠ .filled ∧ next.status = .filled then
        some ⟨orderId, market, row.userId, row.side, row.remainingAmount - next.remainingAmount⟩
      else none
  | _, _ => none

/-- `for order in market_orders`; an error carries what the group has done when it raises. -/
def sweepTurns (now : Timestamp) (market : MarketId) (parimutuel : Bool) :
    List OrderId → Sweep → Except Sweep Sweep
  | [], sweep => .ok sweep
  | orderId :: rest, sweep =>
      match processOrder now market parimutuel sweep.session orderId with
      | .error _ =>
          .error { sweep with
            locals := bindTurn now market parimutuel sweep.session orderId none sweep.locals }
      | .ok processed =>
          sweepTurns now market parimutuel rest
            { sweep with
              session := processed.session
              locals := bindTurn now market parimutuel sweep.session orderId processed.ammLeg
                sweep.locals
              log := sweep.log ++ ((filledInTurn market sweep.session.current
                processed.session.current orderId).map Event.filled).toList }

/-- One market group, with its notification. -/
def sweepBatch (now : Timestamp) (sweep : Sweep) (market : MarketId) (orders : List OrderId) :
    Sweep :=
  match sweep.session.current.markets.find? market with
  | none => { sweep with session := sweep.session.rollback }
  | some row =>
      if row.status ≠ .active then { sweep with session := sweep.session.rollback }
      else
        let parimutuel := isParimutuel (outcomesOf sweep.session.current market)
        match sweepTurns now market parimutuel orders sweep with
        | .error raising =>
            { raising with
              session := raising.session.rollback
              raised := raising.raised + 1 }
        | .ok swept =>
            match announce market parimutuel swept.session swept.locals with
            | .error session => { swept with session, raised := swept.raised + 1 }
            | .ok (events, count) =>
                { swept with
                  session := swept.session.commit
                  log := swept.log ++ events
                  executed := swept.executed + count }

/-- The whole sweep over the rows its query returned; it answers with `executed` and the number of
these rows. -/
def sweepReport (now : Timestamp) (scanned : List Order) (db : Database) : Sweep :=
  (groups scanned).foldl (fun sweep group => sweepBatch now sweep group.1 group.2)
    ⟨.start db, .unbound, [], 0, 0⟩

end PredictX.LimitSweep
