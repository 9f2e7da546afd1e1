import PredictX.Amm.Engine

namespace PredictX.MarketService

open PredictX.Data PredictX.Amm

/-! Which pool an outcome trades against, and the AMM that prices it. -/

/-- A market's outcomes by `outcome_index`. -/
def outcomesOf (db : Database) (market : MarketId) : List Outcome :=
  (db.outcomes.rows.filter fun outcome => outcome.marketId = market).insertionSort
    fun left right => left.outcomeIndex ≤ right.outcomeIndex

/-- True when the market has no real YES/NO pair.  Decided by name. -/
def isParimutuel (outcomes : List Outcome) : Bool :=
  !(outcomes.any (fun outcome => outcome.name = .yes) &&
    outcomes.any (fun outcome => outcome.name = .no))

/-- Every per-outcome pool of a market, ordered by outcome. -/
def loadOutcomePools (db : Database) (market : MarketId) : List LiquidityPool :=
  (db.outcomes.rows.insertionSort fun left right =>
      left.outcomeIndex ≤ right.outcomeIndex).filterMap
    fun outcome => db.pools.find? ⟨market, some outcome.id⟩

/-- The AMM of one outcome: its own shares against the rest of the market. -/
def buildOutcomeAmm (pools : List LiquidityPool) (outcome : OutcomeId) : BinaryAMM × ℚ :=
  let total := (pools.map LiquidityPool.yesShares).sum
  let target := pools.find? fun pool => pool.outcomeId = some outcome
  let own := (target.map LiquidityPool.yesShares).getD 0
  let feeRate := (target.map LiquidityPool.feeRate).getD (2 / 100)
  (BinaryAMM.init own (max (total - own) 0) feeRate, total)

/-- The AMM over a binary pool. -/
def poolAmm (pool : LiquidityPool) : BinaryAMM :=
  BinaryAMM.init pool.yesShares pool.noShares pool.feeRate

/-- Binary markets: the name picks the reserve. -/
def shareSide (name : OutcomeName) : ShareSide :=
  match name with
  | .yes => .yes
  | .no | .named _ => .no

/-- The key of the pool row an order on `outcome` mutates. -/
def poolKey (market : MarketId) (outcome : OutcomeId) (parimutuel : Bool) : PoolKey :=
  ⟨market, if parimutuel then some outcome else none⟩

/-- `OrderService._resolve_pool`. -/
def resolvePool (db : Database) (market : MarketId) (outcome : OutcomeId) (parimutuel : Bool) :
    Except Error LiquidityPool :=
  match db.pools.find? (poolKey market outcome parimutuel) with
  | none => .error (.validation .marketNoLiquidity)
  | some pool => .ok pool

/-- The AMM an order on `outcome` trades with, and the side it trades on: a
parimutuel outcome is always the YES side of its own AMM. -/
def tradingAmm (db : Database) (market : MarketId) (outcome : Outcome) (pool : LiquidityPool)
    (parimutuel : Bool) : BinaryAMM × ShareSide :=
  if parimutuel then ((buildOutcomeAmm (loadOutcomePools db market) outcome.id).1, .yes)
  else (poolAmm pool, shareSide outcome.name)

theorem resolvePool_ok {db : Database} {market : MarketId} {outcome : OutcomeId}
    {parimutuel : Bool} {pool : LiquidityPool}
    (resolved : resolvePool db market outcome parimutuel = .ok pool) :
    db.pools.find? (poolKey market outcome parimutuel) = some pool := by
  unfold resolvePool at resolved
  split at resolved
  · contradiction
  · cases resolved
    assumption

end PredictX.MarketService
