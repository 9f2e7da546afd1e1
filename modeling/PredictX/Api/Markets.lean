import PredictX.Services.MarketService

namespace PredictX.Markets

open PredictX.Data PredictX.MarketService

/-! Creating and rejecting a market.

A market gets one pool per outcome, or a single one when its outcomes are a real YES/NO pair,
and the seed makes its author the first provider of each.  Ids are fresh: they occur in no
row of the database.
-/

/-- A request the schema let through: outcomes are numbered from zero and named apart. -/
structure CreateMarketRequest where
  closesAt : Timestamp
  initialLiquidity : ℚ
  initialProbability : Option ℚ
  outcomesCreate : Option (List (OutcomeName × ℕ))
  liquidity_nonneg : 0 ≤ initialLiquidity
  probability_bounds : ∀ probability ∈ initialProbability,
    1 / 100 ≤ probability ∧ probability ≤ 99 / 100
  outcomes_count : ∀ outcomes ∈ outcomesCreate, 2 ≤ outcomes.length ∧ outcomes.length ≤ 50
  outcomes_index : ∀ outcomes ∈ outcomesCreate,
    (outcomes.map Prod.snd).Perm (List.range outcomes.length)
  outcomes_names : ∀ outcomes ∈ outcomesCreate, (outcomes.map Prod.fst).Nodup

/-- The caller, and whether her slug is in use already. -/
structure Author where
  userId : UserId
  isAdmin : Bool
  isEmailVerified : Bool
  slugTaken : Bool
deriving DecidableEq, Repr

/-- Every market id in the database. -/
def marketIds (db : Database) : List MarketId :=
  db.markets.rows.map Market.id ++ db.outcomes.rows.map Outcome.marketId ++
    db.pools.rows.map LiquidityPool.marketId ++ db.positions.rows.map Position.marketId ++
    db.orders.rows.map Order.marketId ++
    db.lpShares.rows.map fun share => share.pool.marketId

/-- Every outcome id in the database. -/
def outcomeIds (db : Database) : List OutcomeId :=
  db.outcomes.rows.map Outcome.id ++ db.pools.rows.filterMap LiquidityPool.outcomeId ++
    db.positions.rows.map Position.outcomeId ++ db.orders.rows.map Order.outcomeId ++
    db.lpShares.rows.filterMap fun share => share.pool.outcomeId

/-- An id above those in use. -/
def above (ids : List ℕ) : ℕ := ids.foldr max 0 + 1

/-- The rows of the outcomes, with consecutive fresh ids. -/
def outcomeRows (db : Database) (market : MarketId) (request : CreateMarketRequest) :
    List Outcome :=
  (request.outcomesCreate.getD [(.yes, 0), (.no, 1)]).mapIdx fun offset outcome =>
    ⟨above (outcomeIds db) + offset, market, outcome.1, outcome.2⟩

def newMarket (author : Author) (id : MarketId) (request : CreateMarketRequest) : Market where
  id := id
  status := if author.isAdmin then .active else .pendingReview
  closesAt := request.closesAt
  resolvedAt := none
  winningOutcomeId := none
  proposedOutcomeId := none
  disputeDeadline := none
  totalLiquidity := 0
  totalVolume := 0
  numTrades := 0

def newPool (market : MarketId) (outcome : Option OutcomeId) : LiquidityPool where
  marketId := market
  outcomeId := outcome
  yesShares := 0
  noShares := 0
  collateral := 0
  feeRate := tradingFeeRate
  lpTokenSupply := 0
  protocolFees := 0

def newPools (market : MarketId) (outcomes : List Outcome) : List LiquidityPool :=
  if isParimutuel outcomes then outcomes.map fun outcome => newPool market (some outcome.id)
  else [newPool market none]

/-- An even part of the seed for each outcome. -/
def seedOutcome (share : ℚ) (pool : LiquidityPool) : LiquidityPool :=
  { pool with
    yesShares := pool.yesShares + share
    collateral := pool.collateral + share
    lpTokenSupply := share * 2 }

/-- The seed of a binary pool, priced at the probability if one is given. -/
def seedBinary (amount : ℚ) (probability : Option ℚ) (pool : LiquidityPool) : LiquidityPool :=
  let yes := match probability with
    | some probability => amount * probability
    | none => amount / 2
  let no := match probability with
    | some probability => amount * (1 - probability)
    | none => amount / 2
  { pool with
    yesShares := pool.yesShares + yes
    noShares := pool.noShares + no
    collateral := pool.collateral + amount
    lpTokenSupply := amount * 2 }

/-- The exact parts of the seed; their columns keep eight decimals. -/
def seedPools (request : CreateMarketRequest) (outcomes : List Outcome)
    (pools : List LiquidityPool) : List LiquidityPool :=
  if isParimutuel outcomes then
    pools.map (seedOutcome (request.initialLiquidity / pools.length))
  else pools.map (seedBinary request.initialLiquidity request.initialProbability)

/-- The author's provider row of a seeded pool. -/
def seedShare (user : UserId) (pool : LiquidityPool) : LPShare :=
  ⟨pool.key, user, pool.lpTokenSupply, pool.collateral⟩

def addAll {ρ κ : Type} [DecidableEq κ] {key : ρ → κ} (table : Table key) (rows : List ρ) :
    Table key :=
  rows.foldl Table.insert table

def addLiquidityTotal (amount : ℚ) (market : Market) : Market :=
  { market with totalLiquidity := market.totalLiquidity + amount }

/-- The seed is skipped when the wallet does not hold it. -/
def canSeed (db : Database) (author : Author) (request : CreateMarketRequest) : Bool :=
  0 < request.initialLiquidity &&
    (db.wallets.find? author.userId).any fun wallet => request.initialLiquidity ≤ wallet.balance

/-- `create_market`; the id it returns is the new market's. -/
def createMarket (now : Timestamp) (author : Author) (db : Database)
    (request : CreateMarketRequest) : Except Error (Database × MarketId) :=
  if ¬ author.isAdmin ∧ ¬ author.isEmailVerified then .error .forbidden
  else if request.closesAt ≤ now then .error (.validation .validationError)
  else if request.initialProbability.isSome ∧ request.initialLiquidity ≤ 0 then
    .error (.validation .validationError)
  else if author.slugTaken then .error (.validation .validationError)
  else
    let marketId := above (marketIds db)
    let outcomes := outcomeRows db marketId request
    let market := newMarket author marketId request
    let pools := newPools marketId outcomes
    if canSeed db author request then
      let seeded := seedPools request outcomes pools
      .ok ({ db with
          markets := db.markets.insert (addLiquidityTotal request.initialLiquidity market)
          outcomes := addAll db.outcomes outcomes
          pools := addAll db.pools seeded
          lpShares := addAll db.lpShares (seeded.map (seedShare author.userId))
          wallets := db.wallets.modify author.userId (Wallet.debit request.initialLiquidity) },
        marketId)
    else
      .ok ({ db with
          markets := db.markets.insert market
          outcomes := addAll db.outcomes outcomes
          pools := addAll db.pools pools }, marketId)

/-- The compare-and-set of a moderator's decision. -/
def moderate (db : Database) (market : MarketId) (status : MarketStatus) : Except Error Database :=
  match db.markets.find? market with
  | none => .error .notFound
  | some row =>
      if row.status ≠ .pendingReview then .error (.validation .validationError)
      else .ok { db with markets := db.markets.modify market fun row => { row with status } }

/-- `reject_market`. -/
def rejectMarket (db : Database) (market : MarketId) : Except Error Database :=
  moderate db market .rejected

/-- `approve_market`. -/
def approveMarket (now : Timestamp) (db : Database) (market : MarketId) : Except Error Database :=
  match db.markets.find? market with
  | none => .error .notFound
  | some row =>
      if row.status ≠ .pendingReview then .error (.validation .validationError)
      else if row.closesAt ≤ now then .error (.validation .validationError)
      else moderate db market .active

end PredictX.Markets
