import PredictX.Services.MatchingEngine

namespace PredictX.OrderService

open PredictX.Data PredictX.Amm PredictX.MarketService PredictX.MatchingEngine

/-! Placing and cancelling orders.

`execute_order` resolves the venue, offers the order to the book, and then either
sends the remainder to the AMM or rests it.  Publishing, notifications and cache
invalidation come after the commit and are left out.
-/

/-- `float(x)` of a decimal. -/
def toFloat (x : ℚ) : ℚ := roundSig 2 53 x

/-- A request the schema let through. -/
structure OrderRequest where
  marketId : MarketId
  outcome : OutcomeName
  side : Side
  orderType : OrderType
  amount : ℚ
  price : Option ℚ
  expiresAt : Option Timestamp
  postOnly : Bool
  clientOrderId : Option String
  maxSlippage : Option ℚ
  minSharesOut : Option ℚ
  expectedPrice : Option ℚ
  quoteId : Option String
  amount_pos : 0 < amount
  amount_grid : OnGrid scale amount
  price_bounds : ∀ limit ∈ price, 0 ≤ limit ∧ limit ≤ 1
deriving DecidableEq

/-- What Redis answers for a quote id. -/
inductive QuoteLookup where
  | unavailable
  | missing
  | corrupted
  | found (expiresAt : Timestamp) (userId : Option UserId)
deriving DecidableEq, Repr

structure Env where
  now : Timestamp
  quote : UserId → String → QuoteLookup

inductive ResultStatus where
  | duplicate
  | pending
  | partiallyFilled
  | filled
deriving DecidableEq, Repr

structure OrderResult where
  orderId : OrderId
  status : ResultStatus
  side : Side
  outcome : OutcomeName
  shares : ℚ
  price : ℚ
  priceBefore : ℚ
  priceAfter : ℚ
  yesPriceAfter : ℚ
  noPriceAfter : ℚ
  slippage : ℚ
  fee : ℚ
  walletBalance : ℚ
deriving DecidableEq, Repr

/-- Where an order trades: what steps 1 and 5 resolve. -/
structure Venue where
  market : Market
  outcome : Outcome
  pool : LiquidityPool
  amm : BinaryAMM
  ammSide : ShareSide

/-- `price_before`. -/
def Venue.priceBefore (venue : Venue) : ℚ := venue.amm.price venue.ammSide

def Venue.positionKey (venue : Venue) (user : UserId) : PositionKey :=
  ⟨user, venue.market.id, venue.outcome.id⟩

/-- The AMM's part of a fill: `quantity` is the USDC or the shares sent to it. -/
structure AmmLeg where
  side : Side
  quantity : ℚ
  quote : AMMQuote
  amm : BinaryAMM
deriving DecidableEq

namespace AmmLeg

/-- `amm_shares`. -/
def shares (leg : AmmLeg) : ℚ :=
  match leg.side with
  | .buy => leg.quote.sharesOut
  | .sell => leg.quantity

/-- What the leg adds to `total_usdc_spent`. -/
def spent (leg : AmmLeg) : ℚ :=
  match leg.side with
  | .buy => leg.quantity
  | .sell => 0

/-- `sell_proceeds_amm`. -/
def proceeds (leg : AmmLeg) : ℚ :=
  match leg.side with
  | .buy => 0
  | .sell => leg.quote.collateralIn

/-- `trade_value`. -/
def tradeValue (leg : AmmLeg) : ℚ :=
  match leg.side with
  | .buy => leg.quantity
  | .sell => leg.quote.collateralIn

/-- `protocol_fee`. -/
def protocolFee (leg : AmmLeg) : ℚ := leg.tradeValue * protocolFeeRate

/-- A column of an optional leg, zero when none ran. -/
def total (leg : Option AmmLeg) (column : AmmLeg → ℚ) : ℚ := (leg.map column).getD 0

end AmmLeg

/-- A committed call: the database, the response, and the fills behind it. -/
structure Execution where
  db : Database
  result : OrderResult
  matchDetails : List MatchDetails
  ammLeg : Option AmmLeg

/-- `outcome_map.get(name)`: of two outcomes with one name the last wins. -/
def outcomeNamed (outcomes : List Outcome) (name : OutcomeName) : Option Outcome :=
  (outcomes.filter fun outcome => outcome.name = name).getLast?

def openVenue (env : Env) (db : Database) (marketId : MarketId) (name : OutcomeName) :
    Except Error Venue :=
  match db.markets.find? marketId with
  | none => .error .notFound
  | some market =>
      if market.status ≠ .active then .error .marketClosed
      else if market.closesAt ≤ env.now then .error .marketClosed
      else
        let outcomes := outcomesOf db market.id
        match outcomeNamed outcomes name with
        | none => .error (.validation .validationError)
        | some outcome =>
            match resolvePool db market.id outcome.id (isParimutuel outcomes) with
            | .error reason => .error reason
            | .ok pool =>
                let amm := tradingAmm db market.id outcome pool (isParimutuel outcomes)
                .ok ⟨market, outcome, pool, amm.1, amm.2⟩

/-- The order already stored under the request's `client_order_id`. -/
def duplicateOf (db : Database) (user : UserId) (data : OrderRequest) : Option Order :=
  match data.clientOrderId with
  | none => none
  | some key =>
      if key = "" then none
      else db.orders.rows.find? fun order =>
        order.userId = user && order.clientOrderId = some key

def checkQuote (env : Env) (user : UserId) (quoteId : Option String) : Except Error Unit :=
  match quoteId with
  | none => .ok ()
  | some key =>
      if key = "" then .ok ()
      else
        match env.quote user key with
        | .unavailable => .error (.validation .quoteUnavailable)
        | .missing => .error (.validation .quoteNotFound)
        | .corrupted => .error (.validation .quoteCorrupted)
        | .found expiresAt owner =>
            if expiresAt < env.now then .error (.validation .quoteExpired)
            else if owner ≠ some user then .error (.validation .quoteForbidden)
            else .ok ()

/-- Step 4: a seller holds what she sells. -/
def checkHoldings (db : Database) (user : UserId) (venue : Venue) (data : OrderRequest) :
    Except Error Unit :=
  match data.side with
  | .buy => .ok ()
  | .sell =>
      if Position.held db.positions (venue.positionKey user) < data.amount then
        .error (.validation .insufficientShares)
      else .ok ()

/-- What the book left of the order, in the order's own unit. -/
def remainder (data : OrderRequest) (book : BookFill) : ℚ :=
  match data.side with
  | .buy => max (data.amount - book.matchedUsdc) 0
  | .sell => max (data.amount - book.matchedShares) 0

inductive Route where
  | amm
  | rest
deriving DecidableEq, Repr

/-- `can_fill_amm`: one comparison of the spot price, as floats. -/
def canFillAmm (side : Side) (priceBefore : ℚ) (limitPrice : Option ℚ) : Bool :=
  let limit := toFloat (limitPrice.getD 0)
  match side with
  | .buy => toFloat priceBefore ≤ limit
  | .sell => limit ≤ toFloat priceBefore

/-- The refusal of a post-only order. -/
def postOnlyCrosses (data : OrderRequest) (priceBefore : ℚ) : Bool :=
  match data.price with
  | none => false
  | some limit =>
      data.postOnly &&
        match data.side with
        | .buy => toFloat limit < toFloat priceBefore
        | .sell => toFloat priceBefore < toFloat limit

/-- Where a remainder goes. -/
def route (venue : Venue) (data : OrderRequest) : Except Error Route :=
  if data.side = .buy ∧ venue.priceBefore ≤ 0 then .error (.validation .validationError)
  else if data.orderType = .market then .ok .amm
  else if postOnlyCrosses data venue.priceBefore then .error (.validation .postOnlyWouldCross)
  else if canFillAmm data.side venue.priceBefore data.price then .ok .amm
  else if data.orderType = .fillOrKill then .error (.validation .orderNotFillable)
  else .ok .rest

def nextOrderId (db : Database) : OrderId := (db.orders.rows.map Order.id).foldr max 0 + 1

/-- Insert an order; `uq_orders_user_client_order` refuses a second use of a key. -/
def insertOrder (db : Database) (order : Order) : Except Error (Table Order.id) :=
  if order.clientOrderId.isSome && db.orders.rows.any (fun other =>
      other.userId = order.userId && other.clientOrderId = order.clientOrderId) then
    .error .integrity
  else .ok (db.orders.insert order)

/-- The reservation of a resting buy. -/
def lockFunds (wallets : Table Wallet.userId) (user : UserId) (side : Side) (amount : ℚ) :
    Except Error (Table Wallet.userId) :=
  match side with
  | .sell => .ok wallets
  | .buy =>
      match wallets.find? user with
      | none => .error (.validation .validationError)
      | some wallet =>
          if wallet.available < amount then
            .error (.insufficientBalance wallet.available amount)
          else
            .ok (wallets.modify user (Wallet.lock amount))

def walletBalance (db : Database) (user : UserId) : ℚ :=
  ((db.wallets.find? user).map Wallet.balance).getD 0

/-- The row of a resting order. -/
def restingRow (env : Env) (db : Database) (user : UserId) (venue : Venue) (data : OrderRequest)
    (book : BookFill) (limit : ℚ) : Order where
  id := nextOrderId db
  userId := user
  marketId := venue.market.id
  outcomeId := venue.outcome.id
  side := data.side
  orderType := data.orderType
  amount := data.amount
  price := limit
  remainingAmount := remainder data book
  status := if book.matchedShares = 0 then .pending else .partiallyFilled
  expiresAt := data.expiresAt
  sharesBought := none
  sharesSold := none
  feesPaid := none
  clientOrderId := data.clientOrderId
  createdAt := env.now
  executedAt := none

/-- The reservation is a movement of the available balance, so it is recorded. -/
def lockEntry (db : Database) (user : UserId) (data : OrderRequest) (book : BookFill)
    (order : OrderId) : Transaction where
  userId := user
  type := .limitOrderLock
  amount := match data.side with
    | .buy => -remainder data book
    | .sell => 0
  balanceAfter := walletBalance db user
  reference := .order order

/-- The resting branch; an order without a price fails `NOT NULL`. -/
def restOrder (env : Env) (db : Database) (user : UserId) (venue : Venue) (data : OrderRequest)
    (book : BookFill) : Except Error Execution := do
  let wallets ← lockFunds db.wallets user data.side (remainder data book)
  match data.price with
  | none => .error .integrity
  | some limit =>
      let order := restingRow env db user venue data book limit
      let orders ← insertOrder db order
      let total := venue.amm.total
      .ok
        { db :=
            { db with
              wallets
              orders
              transactions := db.transactions ++ [lockEntry db user data book order.id] }
          result :=
            { orderId := order.id
              status := if 0 < book.matchedShares then .partiallyFilled else .pending
              side := data.side
              outcome := data.outcome
              shares := book.matchedShares
              price := limit
              priceBefore := venue.priceBefore
              priceAfter := venue.priceBefore
              yesPriceAfter := if 0 < total then venue.amm.yesShares / total else 0
              noPriceAfter := if 0 < total then venue.amm.noShares / total else 0
              slippage := 0
              fee := 0
              walletBalance := walletBalance db user }
          matchDetails := book.matchDetails
          ammLeg := none }

/-- The pool row after an AMM leg moved `delta` into its escrow. -/
def writeLeg (pools : Table LiquidityPool.key) (key : PoolKey) (leg : AmmLeg) (delta : ℚ) :
    Table LiquidityPool.key :=
  pools.modify key fun pool =>
    { pool with
      collateral := pool.collateral + delta
      protocolFees := pool.protocolFees + leg.protocolFee
      yesShares := leg.amm.yesShares
      noShares := leg.amm.noShares }

/-- The AMM buy leg: the spend enters the escrow. -/
def ammBuy (db : Database) (user : UserId) (venue : Venue) (remaining : ℚ) :
    Except Error (Database × AmmLeg) :=
  match db.wallets.find? user with
  | none => .error (.validation .validationError)
  | some wallet =>
      if wallet.available < remaining then
        .error (.insufficientBalance wallet.available remaining)
      else
        match venue.amm.buy venue.ammSide remaining with
        | .error reason => .error reason
        | .ok (amm, quote) =>
            let leg : AmmLeg := ⟨.buy, remaining, quote, amm⟩
            .ok ({ db with
                wallets := db.wallets.modify user (Wallet.debit remaining)
                  (Wallet.debit_userId remaining)
                pools := writeLeg db.pools venue.pool.key leg remaining }, leg)

/-- The AMM sell leg: the proceeds leave the escrow, which must hold them. -/
def ammSell (db : Database) (user : UserId) (venue : Venue) (remaining : ℚ) :
    Except Error (Database × AmmLeg) :=
  if Position.held db.positions (venue.positionKey user) < remaining then
    .error (.validation .insufficientShares)
  else
    match venue.amm.sell venue.ammSide remaining with
    | .error reason => .error reason
    | .ok (amm, quote) =>
        let leg : AmmLeg := ⟨.sell, remaining, quote, amm⟩
        match db.pools.find? venue.pool.key with
        | none => .error (.validation .marketNoLiquidity)
        | some pool =>
            match pool.debitCollateral id quote.collateralIn with
            | .error reason => .error reason
            | .ok debited =>
                .ok ({ db with
                    wallets := db.wallets.modify user (Wallet.credit quote.collateralIn)
                    positions := Position.dispose db.positions (venue.positionKey user) remaining
                      quote.collateralIn
                    pools := writeLeg db.pools venue.pool.key leg
                      (debited.collateral - pool.collateral) }, leg)

def runAmmLeg (db : Database) (user : UserId) (venue : Venue) (side : Side) (remaining : ℚ) :
    Except Error (Database × AmmLeg) :=
  match side with
  | .buy => ammBuy db user venue remaining
  | .sell => ammSell db user venue remaining

/-- Step 6. -/
def slippageExceeded (data : OrderRequest) (totalShares actualPrice : ℚ) : Bool :=
  0 < totalShares &&
    (data.minSharesOut.any (fun minimum => totalShares < minimum) ||
      match data.maxSlippage, data.expectedPrice with
      | some tolerance, some reference =>
          let expected := toFloat reference
          let actual := toFloat actualPrice
          0 < expected &&
            (match data.side with
              | .buy => tolerance < toFloat (toFloat (actual - expected) / expected)
              | .sell => tolerance < toFloat (toFloat (expected - actual) / expected))
      | _, _ => false)

/-- Step 8: the reward of a pending referral, best effort.  Two pending rows raise
`MultipleResultsFound`, which is swallowed. -/
def creditReferral (db : Database) (user : UserId) : Database :=
  let isPending : Referral → Bool := fun referral =>
    referral.referredId = some user && !referral.completed
  match db.referrals.filter isPending with
  | [referral] =>
      match referral.referrerId with
      | none => db
      | some referrer =>
          match db.wallets.find? referrer with
          | none => db
          | some wallet =>
              { db with
                wallets := db.wallets.modify referrer (Wallet.credit referralRewardAmount)
                referrals := db.referrals.map fun row =>
                  if isPending row then
                    { row with completed := true, rewardAmount := referralRewardAmount }
                  else row
                transactions := db.transactions ++
                  [⟨referrer, .referralReward, referralRewardAmount,
                    wallet.balance + referralRewardAmount, .referral user⟩] }
  | _ => db

/-- Step 7's average price; an empty position keeps the one it has. -/
def stepAverage (shares cost : ℚ) (position : Position) : ℚ :=
  let total := position.sharesHeld + shares
  if 0 < total then (position.averagePrice * position.sharesHeld + cost) / total
  else position.averagePrice

/-- Step 7 for positions: a buy is credited the whole fill. -/
def creditFill (positions : Table Position.key) (user : UserId) (venue : Venue) (side : Side)
    (shares cost : ℚ) : Table Position.key :=
  match side with
  | .sell => positions
  | .buy => Position.acquire positions (venue.positionKey user) shares cost
      (stepAverage shares cost)

/-- Everything `finish` needs to know about the fill. -/
structure Fill where
  book : BookFill
  leg : Option AmmLeg

namespace Fill

def totalShares (fill : Fill) : ℚ := fill.book.matchedShares + AmmLeg.total fill.leg AmmLeg.shares

/-- `total_usdc_spent`. -/
def spent (fill : Fill) : ℚ := fill.book.matchedUsdc + AmmLeg.total fill.leg AmmLeg.spent

/-- `total_usdc_received`. -/
def received (fill : Fill) : ℚ := fill.book.matchedUsdc + AmmLeg.total fill.leg AmmLeg.proceeds

/-- `amm_price_val`. -/
def ammPrice (fill : Fill) : ℚ := AmmLeg.total fill.leg fun leg => leg.quote.price

/-- `amm_fee`. -/
def ammFee (fill : Fill) : ℚ := AmmLeg.total fill.leg fun leg => leg.quote.fee

/-- The fill in the order's own unit. -/
def filled (fill : Fill) (side : Side) : ℚ :=
  match side with
  | .buy => fill.spent
  | .sell => fill.totalShares

def averagePrice (fill : Fill) : ℚ :=
  if 0 < fill.totalShares then fill.spent / fill.totalShares else 0

/-- `actual_price`, for a fill with shares in it. -/
def actualPrice (fill : Fill) (side : Side) : ℚ :=
  match side with
  | .buy => fill.averagePrice
  | .sell => fill.ammPrice

end Fill

/-- The row of a filled order. -/
def filledRow (env : Env) (db : Database) (user : UserId) (venue : Venue) (data : OrderRequest)
    (fill : Fill) : Order where
  id := nextOrderId db
  userId := user
  marketId := venue.market.id
  outcomeId := venue.outcome.id
  side := data.side
  orderType := data.orderType
  amount := data.amount
  price := if 0 < fill.ammPrice then fill.ammPrice else data.price.getD 0
  remainingAmount := 0
  status := .filled
  expiresAt := none
  sharesBought := match data.side with
    | .buy => some fill.totalShares
    | .sell => none
  sharesSold := match data.side with
    | .buy => none
    | .sell => some fill.totalShares
  feesPaid := some fill.ammFee
  clientOrderId := data.clientOrderId
  createdAt := env.now
  executedAt := some env.now

/-- The taker's trade rows: one for each match and one for the AMM leg. -/
def takerTrades (env : Env) (user : UserId) (venue : Venue) (data : OrderRequest) (fill : Fill) :
    List Trade :=
  (fill.book.matchDetails.map fun details =>
    { userId := user, marketId := venue.market.id, outcome := details.outcome, side := data.side
      price := details.matchPrice, amount := details.matchShares, executedAt := env.now }) ++
  if 0 < AmmLeg.total fill.leg AmmLeg.shares then
    [{ userId := user, marketId := venue.market.id, outcome := some data.outcome, side := data.side
       price := fill.ammPrice, amount := AmmLeg.total fill.leg AmmLeg.shares
       executedAt := env.now }]
  else []

/-- Step 7: everything a fill writes.  The transaction's reference is read off the
order before it has been flushed, so it names none. -/
def saveFill (env : Env) (db : Database) (user : UserId) (venue : Venue) (data : OrderRequest)
    (fill : Fill) (orders : Table Order.id) : Database :=
  let entry : Transaction :=
    { userId := user
      type := match data.side with
        | .buy => .tradeBuy
        | .sell => .tradeSell
      amount := match data.side with
        | .buy => -fill.spent
        | .sell => fill.received
      balanceAfter := walletBalance db user
      reference := .none }
  { db with
    orders
    positions := creditFill db.positions user venue data.side fill.totalShares fill.spent
    markets := db.markets.modify venue.market.id fun market =>
      { market with
        totalVolume := market.totalVolume + match data.side with
          | .buy => fill.spent
          | .sell => fill.received
        numTrades := market.numTrades + 1 }
    trades := db.trades ++ takerTrades env user venue data fill
    transactions := db.transactions ++ [entry] }

/-- Steps 6 to 9. -/
def finish (env : Env) (db : Database) (user : UserId) (venue : Venue) (data : OrderRequest)
    (fill : Fill) : Except Error Execution :=
  if data.orderType = .fillOrKill ∧ fill.filled data.side < data.amount then
    .error (.validation .orderNotFillable)
  else if slippageExceeded data fill.totalShares (fill.actualPrice data.side) then
    .error .slippageExceeded
  else
    let order := filledRow env db user venue data fill
    match insertOrder db order with
    | .error reason => .error reason
    | .ok orders =>
        let committed := creditReferral (saveFill env db user venue data fill orders) user
        let after := (fill.leg.map AmmLeg.amm).getD venue.amm
        .ok
          { db := committed
            result :=
              { orderId := order.id
                status := .filled
                side := data.side
                outcome := data.outcome
                shares := fill.totalShares
                price := fill.averagePrice
                priceBefore := venue.priceBefore
                priceAfter := if 0 < fill.ammPrice then fill.ammPrice else fill.averagePrice
                yesPriceAfter := if 0 < after.total then after.yesShares / after.total else 0
                noPriceAfter := if 0 < after.total then after.noShares / after.total else 0
                slippage := AmmLeg.total fill.leg fun leg => leg.quote.slippage
                fee := fill.ammFee
                walletBalance := walletBalance committed user }
            matchDetails := fill.book.matchDetails
            ammLeg := fill.leg }

/-- The response to a repeated `client_order_id`. -/
def duplicate (db : Database) (user : UserId) (data : OrderRequest) (existing : Order) :
    Execution where
  db := db
  result :=
    { orderId := existing.id
      status := .duplicate
      side := data.side
      outcome := data.outcome
      -- Python's `or` passes over zero as well as `None`.
      shares :=
        if existing.sharesBought.getD 0 ≠ 0 then existing.sharesBought.getD 0
        else existing.sharesSold.getD 0
      price := existing.price
      priceBefore := 0
      priceAfter := 0
      yesPriceAfter := 0
      noPriceAfter := 0
      slippage := 0
      fee := existing.feesPaid.getD 0
      walletBalance := walletBalance db user }
  matchDetails := []
  ammLeg := none

/-- Steps 5 to 9 of an order that passed its checks. -/
def fillOrder (env : Env) (db : Database) (user : UserId) (venue : Venue) (data : OrderRequest) :
    Except Error Execution := do
  let (matched, book) ← matchOrderAgainstBook env.now db venue.market.id venue.outcome.id
    data.side data.amount data.price user
  if 0 < remainder data book then
    match ← route venue data with
    | .rest => restOrder env matched user venue data book
    | .amm =>
        let (traded, leg) ← runAmmLeg matched user venue data.side (remainder data book)
        finish env traded user venue data ⟨book, some leg⟩
  else finish env matched user venue data ⟨book, none⟩

def executeOrder (env : Env) (db : Database) (user : UserId) (data : OrderRequest) :
    Except Error Execution := do
  if data.price.any (fun price => price ≤ 0) then .error (.validation .invalidPrice)
  else
    let venue ← openVenue env db data.marketId data.outcome
    if (db.wallets.find? user).isNone then .error (.validation .validationError)
    else
      match duplicateOf db user data with
      | some existing => .ok (duplicate db user data existing)
      | none =>
          checkQuote env user data.quoteId
          checkHoldings db user venue data
          fillOrder env db user venue data

/-- `cancel_order`: only a buy has funds to release. -/
def cancelOrder (env : Env) (db : Database) (user : UserId) (orderId : OrderId) :
    Except Error Database :=
  match db.orders.find? orderId, db.wallets.find? user with
  | some order, some _ =>
      if order.userId = user ∧ order.status.isOpen then
        .ok { db with
          orders := db.orders.modify orderId fun order =>
            { order with status := .cancelled, executedAt := some env.now }
          wallets := match order.side with
            | .buy => db.wallets.modify user (Wallet.release order.remainingAmount)
            | .sell => db.wallets }
      else .error .notFound
  | _, _ => .error .notFound

end PredictX.OrderService
