import PredictX.Data.Paging
import PredictX.Services.OutcomePrices

namespace PredictX.PositionList

open PredictX.Data PredictX.MarketService

/-! `list_positions`.

`float` is the conversion of a decimal to a double and the rounding of the arithmetic on doubles.
The numbers of an entry are left as they are before they are written out as text.
-/

structure PositionRow where
  id : ℕ
  position : Position
  createdAt : Timestamp
deriving DecidableEq, Repr

structure MarketText where
  slug : String
  question : String
deriving DecidableEq, Repr

/-- What the batch queries find. -/
structure Related where
  markets : MarketId → Option MarketText
  outcomes : OutcomeId → Option Outcome
  /-- `MarketService.load_all_pools`. -/
  pools : MarketId → List LiquidityPool

structure PositionResponse where
  id : ℕ
  marketId : MarketId
  marketSlug : String
  marketQuestion : Option String
  /-- `none` is the empty text. -/
  outcome : Option OutcomeName
  sharesHeld : ℚ
  averagePrice : ℚ
  realizedPnl : ℚ
  unrealizedPnl : ℚ
  currentPrice : ℚ
deriving DecidableEq, Repr

structure PositionPage where
  positions : List PositionResponse
  total : ℚ
  page : ℕ
  pageSize : ℕ
  hasMore : Bool
deriving DecidableEq, Repr

/-- `Position.user_id == user.id, Position.shares_held > 0`. -/
def isOpen (user : UserId) (row : PositionRow) : Bool :=
  row.position.userId = user && 0 < row.position.sharesHeld

/-- The entry of `binary_pools`: the last pool without an outcome. -/
def binaryPool (pools : List LiquidityPool) : Option LiquidityPool :=
  (pools.filter fun pool => pool.outcomeId = none).getLast?

variable (float : ℚ → ℚ) (related : Related)

/-- `float(pool.yes_shares) + float(pool.no_shares)`. -/
def reserves (pool : LiquidityPool) : ℚ := float (float pool.yesShares + float pool.noShares)

def yesPrice (pool : LiquidityPool) : ℚ :=
  if 0 < reserves float pool then float (float pool.yesShares / reserves float pool) else 1 / 2

/-- The entry of `outcome_prices` for the position, 0.5 where there is none. -/
def currentPrice (position : Position) : ℚ :=
  match binaryPool (related.pools position.marketId) with
  | some pool =>
      match related.outcomes position.outcomeId with
      | none => 1 / 2
      | some outcome =>
          if outcome.marketId ≠ position.marketId then 1 / 2
          else if outcome.name = .yes then yesPrice float pool
          else float (1 - yesPrice float pool)
  | none =>
      match (outcomePrices (related.pools position.marketId)).find?
          fun entry => entry.1 = some position.outcomeId with
      | none => 1 / 2
      | some entry => float entry.2

def positionResponse (row : PositionRow) : PositionResponse :=
  let market := related.markets row.position.marketId
  let price := currentPrice float related row.position
  { id := row.id
    marketId := row.position.marketId
    marketSlug := (market.map MarketText.slug).getD ""
    marketQuestion := market.map MarketText.question
    outcome := (related.outcomes row.position.outcomeId).map Outcome.name
    sharesHeld := row.position.sharesHeld
    averagePrice := row.position.averagePrice
    realizedPnl := row.position.realizedPnl
    unrealizedPnl :=
      float (float row.position.sharesHeld * float (price - float row.position.averagePrice))
    currentPrice := price }

/-- What `total` holds after the loop over the markets: a binary market's reserves are added up in
the variable that held the count. -/
def totalAfter (markets : List MarketId) (total : ℚ) : ℚ :=
  markets.foldl (fun total market =>
    match binaryPool (related.pools market) with
    | some pool => reserves float pool
    | none => total) total

/-- `list_positions`.  `ordered` is the order in which the database returns rows, newest first, and
`visited` the one in which a set of market ids becomes a list. -/
def listPositions (ordered : List PositionRow → List PositionRow)
    (visited : List MarketId → List MarketId) (rows : List PositionRow) (user : UserId)
    (page pageSize : ℕ) : PositionPage :=
  let matching := rows.filter (isOpen user)
  let positions := ((ordered matching).drop ((page - 1) * pageSize)).take pageSize
  if positions = [] then
    { positions := []
      total := matching.length
      page := page
      pageSize := pageSize
      hasMore := false }
  else
    let markets := visited (positions.map fun row => row.position.marketId).dedup
    let total := totalAfter float related markets matching.length
    { positions := positions.map (positionResponse float related)
      total := total
      page := page
      pageSize := pageSize
      hasMore := ((page * pageSize : ℕ) : ℚ) < total }

end PredictX.PositionList
