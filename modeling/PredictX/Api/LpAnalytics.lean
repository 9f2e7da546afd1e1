import PredictX.Services.LiquidityService

namespace PredictX.LpAnalytics

open PredictX.Data

/-! `get_lp_analytics`.

The query has no `ORDER BY`, so a page is over the rows in the order in which the database returns
them.  `days` stands for the whole days between the share's `created_at` and the pool's
`updated_at`; the market's slug and question are left out.
-/

/-- A row of the query: a share, its pool and its market. -/
structure Row where
  share : LPShare
  pool : LiquidityPool
  market : Market
deriving DecidableEq

/-- `.where(LPShare.user_id == user.id, LPShare.lp_tokens > 0)`. -/
def isListed (user : UserId) (share : LPShare) : Bool :=
  share.userId = user && 0 < share.lpTokens

/-- The joins; a share whose pool or market is missing has no row. -/
def joined (db : Database) (share : LPShare) : Option Row :=
  match db.pools.find? share.pool with
  | none => none
  | some pool => (db.markets.find? pool.marketId).map fun market => ⟨share, pool, market⟩

namespace Row

variable (row : Row)

def sharePct : ℚ :=
  if 0 < row.pool.lpTokenSupply then row.share.lpTokens / row.pool.lpTokenSupply else 0

def poolValue : ℚ := row.pool.yesShares + row.pool.noShares

def positionValue : ℚ := row.poolValue * row.sharePct

def feesEarned : ℚ := row.pool.protocolFees * row.sharePct

def netValue : ℚ := row.positionValue - row.share.collateralDeposited

def apr (days : Row → ℕ) : ℚ :=
  if 0 < row.share.collateralDeposited then
    row.netValue / row.share.collateralDeposited * (365 / max 1 (days row)) * 100
  else 0

def yesPrice : ℚ := if 0 < row.poolValue then row.pool.yesShares / row.poolValue else 1 / 2

def noPrice : ℚ := if 0 < row.poolValue then row.pool.noShares / row.poolValue else 1 / 2

end Row

/-- An entry of `positions`. -/
structure LpPosition where
  marketId : MarketId
  lpTokens : ℚ
  collateralDeposited : ℚ
  positionValue : ℚ
  sharePct : ℚ
  feesEarned : ℚ
  netPnl : ℚ
  estimatedApr : ℚ
  poolYesPrice : ℚ
  poolNoPrice : ℚ

def lpPosition (days : Row → ℕ) (row : Row) : LpPosition where
  marketId := row.market.id
  lpTokens := row.share.lpTokens
  collateralDeposited := row.share.collateralDeposited
  positionValue := row.positionValue
  sharePct := row.sharePct * 100
  feesEarned := row.feesEarned
  netPnl := row.netValue
  estimatedApr := row.apr days
  poolYesPrice := row.yesPrice
  poolNoPrice := row.noPrice

/-- The rows of all pages, from the shares in the order of the database. -/
def lpRows (db : Database) (user : UserId) (scanned : List LPShare) : List Row :=
  (scanned.filter (isListed user)).filterMap (joined db)

structure Analytics where
  positions : List LpPosition
  total : ℕ
  page : ℕ
  pageSize : ℕ
  hasMore : Bool
  totalValue : ℚ
  totalDeposited : ℚ
  totalPnl : ℚ

/-- `get_lp_analytics`.  The count joins the pools only. -/
def getLpAnalytics (db : Database) (user : UserId) (days : Row → ℕ) (page pageSize : ℕ)
    (scanned : List LPShare) : Analytics :=
  let total := (scanned.filter fun share =>
    isListed user share && (db.pools.find? share.pool).isSome).length
  let positions := (((lpRows db user scanned).drop ((page - 1) * pageSize)).take pageSize).map
    (lpPosition days)
  let totalValue := (positions.map LpPosition.positionValue).sum
  let totalDeposited := (positions.map LpPosition.collateralDeposited).sum
  { positions
    total
    page
    pageSize
    hasMore := page * pageSize < total
    totalValue
    totalDeposited
    totalPnl := totalValue - totalDeposited }

end PredictX.LpAnalytics
