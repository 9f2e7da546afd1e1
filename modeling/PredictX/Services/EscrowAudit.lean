import PredictX.Workers.Settlement

namespace PredictX.EscrowAudit

open PredictX.Data PredictX.Settlement

/-! `audit_escrow_invariants`: the nightly check of every pool's escrow.

A violation keeps the amounts it reports; the market's slug and the extra fields of the log
line are left out.
-/

inductive Kind where
  | poolMissing
  | escrowBelowObligations
  | feesExceedEscrow
  | lpSupplyDrift
  | negativeCollateral
deriving DecidableEq, Repr

def Kind.detail : Kind → String
  | .poolMissing =>
      "positions are owed to winners but the market has no liquidity pool to fund them from"
  | .escrowBelowObligations =>
      "the escrow cannot fund settlement of the largest open side plus protocol fees"
  | .feesExceedEscrow => "recorded protocol fees exceed the escrow backing them"
  | .lpSupplyDrift => "LP share rows total more tokens than lp_token_supply"
  | .negativeCollateral => "pool escrow is negative"

structure EscrowViolation where
  marketId : MarketId
  kind : Kind
  owed : ℚ
  available : ℚ
  shortfall : ℚ
deriving DecidableEq, Repr

/-- The outcomes of a market with unsettled rows: the groups of the first query. -/
def sides (db : Database) (market : MarketId) : List OutcomeId :=
  ((unsettled db market).map Position.outcomeId).dedup

/-- The shares of one group. -/
def sideShares (db : Database) (market : MarketId) (outcome : OutcomeId) : ℚ :=
  (((unsettled db market).filter fun position => position.outcomeId = outcome).map
    Position.sharesHeld).sum

/-- The live tokens of one pool: the second query. -/
def liveTokens (db : Database) (pool : PoolKey) : ℚ :=
  ((liveShares db pool).map LPShare.lpTokens).sum

/-- `worst_outcome`, the largest side. -/
def worstOutcome (db : Database) (market : MarketId) : Option OutcomeId :=
  (sides db market).argmax (sideShares db market)

def below (market : MarketId) (kind : Kind) (owed available : ℚ) : List EscrowViolation :=
  if available < owed then [⟨market, kind, owed, available, owed - available⟩] else []

/-- The invariants of one pool. -/
def auditPool (db : Database) (pool : LiquidityPool) : List EscrowViolation :=
  (match worstOutcome db pool.marketId with
    | none => []
    | some worst =>
        below pool.marketId .escrowBelowObligations
          (sideShares db pool.marketId worst + pool.protocolFees) pool.collateral) ++
  below pool.marketId .feesExceedEscrow pool.protocolFees pool.collateral ++
  below pool.marketId .lpSupplyDrift (liveTokens db pool.key) pool.lpTokenSupply ++
  (if pool.collateral < 0 then
    [⟨pool.marketId, .negativeCollateral, 0, pool.collateral, -pool.collateral⟩] else [])

/-- `wanted`: no list means every market. -/
def wanted (marketIds : Option (List MarketId)) (market : MarketId) : Bool :=
  match marketIds with
  | none => true
  | some ids => ids.contains market

/-- The pools that are scanned: the join drops a pool without a market row. -/
def scanned (db : Database) (marketIds : Option (List MarketId)) : List LiquidityPool :=
  db.pools.rows.filter fun pool =>
    (db.markets.find? pool.marketId).isSome && wanted marketIds pool.marketId

/-- The markets with unsettled positions. -/
def owedMarkets (db : Database) : List MarketId :=
  ((db.positions.rows.filter fun position => position.settledAt = none).map
    Position.marketId).dedup

def auditMissing (db : Database) (marketIds : Option (List MarketId)) (market : MarketId) :
    List EscrowViolation :=
  let total := ((sides db market).map (sideShares db market)).sum
  if !(scanned db marketIds).any (fun pool => pool.marketId = market) && wanted marketIds market then
    [⟨market, .poolMissing, total, 0, total⟩]
  else []

/-- `audit_escrow_invariants`. -/
def auditEscrowInvariants (db : Database) (marketIds : Option (List MarketId)) :
    List EscrowViolation :=
  (owedMarkets db).flatMap (auditMissing db marketIds) ++
    (scanned db marketIds).flatMap (auditPool db)

end PredictX.EscrowAudit
