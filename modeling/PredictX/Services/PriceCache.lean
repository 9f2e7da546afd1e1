import PredictX.Data.Dict
import PredictX.Services.OutcomePrices

namespace PredictX.PriceCache

open PredictX.Data PredictX.MarketService

/-! The `market:{id}:price` hashes.

A hash is the pair of prices in it; its other fields and its time to live are left out.  Prices are
exact numbers: what is written as text is read back as it was.
-/

/-- What Redis holds for each market. -/
abbrev PriceHashes := MarketId → Option (ℚ × ℚ)

/-- `(0.5, 0.5)`. -/
def evenPrices : ℚ × ℚ := (1 / 2, 1 / 2)

/-- A pool's prices by its own two reserves. -/
def ownPrices (pool : LiquidityPool) : ℚ × ℚ :=
  let total := pool.yesShares + pool.noShares
  if 0 < total then (pool.yesShares / total, pool.noShares / total) else evenPrices

/-- `get_market_prices_from_db`. -/
def getMarketPricesFromDb (db : Database) (market : MarketId) : ℚ × ℚ :=
  match db.pools.find? ⟨market, none⟩ with
  | some pool => ownPrices pool
  | none =>
      -- A parimutuel market: the leading outcome against everything else.
      match ((outcomePrices (loadOutcomePools db market)).map Prod.snd).max? with
      | none => evenPrices
      | some lead => (lead, 1 - lead)

/-- How the pipeline that fills the cache ends. -/
inductive CacheWrite where
  | done
  /-- It raises, before or after Redis has taken it. -/
  | failed (applied : Bool)
  /-- The circuit breaker does not run it. -/
  | refused
deriving DecidableEq, Repr

structure PriceAnswer where
  prices : Dict MarketId (ℚ × ℚ)
  hashes : PriceHashes

/-- `pools`, from the rows in the order in which the query yields them. -/
def batchPools (rows : List LiquidityPool) (missing : List MarketId) :
    Dict MarketId LiquidityPool :=
  .ofItems ((rows.filter fun pool => pool.marketId ∈ missing).map fun pool =>
    (pool.marketId, pool))

/-- The loop of `_write_all`, as far as `prices` goes. -/
def writePrices (pools : Dict MarketId LiquidityPool) (missing : List MarketId)
    (prices : Dict MarketId (ℚ × ℚ)) : Dict MarketId (ℚ × ℚ) :=
  missing.foldl (fun prices market =>
    match pools.get? market with
    | none => prices
    | some pool => prices.set market (ownPrices pool)) prices

/-- The pipeline of `_write_all`. -/
def writeHashes (pools : Dict MarketId LiquidityPool) (missing : List MarketId)
    (hashes : PriceHashes) : PriceHashes := fun market =>
  if market ∈ missing then ((pools.get? market).map ownPrices).or (hashes market)
  else hashes market

/-- The loop that runs when `_write_all` has failed. -/
def recoverPrices (pools : Dict MarketId LiquidityPool) (missing : List MarketId)
    (prices : Dict MarketId (ℚ × ℚ)) : Dict MarketId (ℚ × ℚ) :=
  missing.foldl (fun prices market =>
    match pools.get? market with
    | none => prices.setDefault market evenPrices
    | some pool => prices.set market (ownPrices pool)) prices

/-- What the cache knows of the markets. -/
def cachedPrices (cached : PriceHashes) (marketIds : List MarketId) : Dict MarketId (ℚ × ℚ) :=
  marketIds.foldl (fun prices market =>
    match cached market with
    | none => prices
    | some pair => prices.set market pair) .empty

/-- `prices` and the hashes once the misses have been read from `rows`. -/
def priceMisses (write : CacheWrite) (rows : List LiquidityPool) (missing : List MarketId)
    (prices : Dict MarketId (ℚ × ℚ)) (hashes : PriceHashes) : PriceAnswer :=
  let pools := batchPools rows missing
  match write with
  | .done => ⟨writePrices pools missing prices, writeHashes pools missing hashes⟩
  | .failed applied =>
      ⟨recoverPrices pools missing (writePrices pools missing prices),
        if applied then writeHashes pools missing hashes else hashes⟩
  | .refused => ⟨recoverPrices pools missing prices, hashes⟩

/-- `get_market_prices_batch`; `readable` tells whether the cache could be read. -/
def getMarketPricesBatch (readable : Bool) (write : CacheWrite) (rows : List LiquidityPool)
    (hashes : PriceHashes) (marketIds : List MarketId) : PriceAnswer :=
  let cached : PriceHashes := if readable then hashes else fun _ => none
  let prices := cachedPrices cached marketIds
  let missing := marketIds.filter fun market => (cached market).isNone
  let answer :=
    if missing = [] then ⟨prices, hashes⟩ else priceMisses write rows missing prices hashes
  { answer with
    prices := marketIds.foldl (fun prices market => prices.setDefault market evenPrices)
      answer.prices }

/-! # Prices of pools -/

theorem ownPrices_snd (pool : LiquidityPool) : (ownPrices pool).2 = 1 - (ownPrices pool).1 := by
  unfold ownPrices
  dsimp only
  split
  · rename_i positive
    rw [eq_sub_iff_add_eq, ← add_div, add_comm, div_self positive.ne']
  · norm_num [evenPrices]

theorem ownPrices_inj {pool other : LiquidityPool} :
    ownPrices pool = ownPrices other ↔ (ownPrices pool).1 = (ownPrices other).1 := by
  refine ⟨congrArg Prod.fst, fun same => Prod.ext same ?_⟩
  rw [ownPrices_snd, ownPrices_snd, same]

end PredictX.PriceCache
