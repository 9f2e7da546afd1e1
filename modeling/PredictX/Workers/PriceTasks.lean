import PredictX.PriceHistory
import PredictX.Services.PriceCache
import PredictX.Workers.SweepNotices

namespace PredictX.PriceTasks

open PredictX.Data PredictX.MarketService PredictX.PriceCache

/-! `sync_amm_prices` and `snapshot_price_history`.

The publisher of the node runs what it is given later, so the hash that `publish_price_update`
writes may be written before the pipeline of the task or after it.
-/

def activeMarkets (db : Database) : List Market :=
  db.markets.rows.filter fun market => market.status = .active

/-! # sync_amm_prices -/

/-- An entry of `priced`. -/
structure Priced where
  market : Market
  prices : ℚ × ℚ
  outcomePrices : Option (List (OutcomeName × ℚ))
deriving DecidableEq, Repr

/-- `{names[k]: v for k, v in per_outcome.items() if k in names}`. -/
def namedPrices (db : Database) (market : MarketId) (perOutcome : List (Option OutcomeId × ℚ)) :
    Dict OutcomeName ℚ :=
  .ofItems (perOutcome.filterMap fun item =>
    (db.outcomes.rows.find? fun outcome =>
      outcome.marketId = market && some outcome.id = item.1).map fun outcome =>
        (outcome.name, item.2))

def priceMarket (db : Database) (market : Market) : Priced :=
  match db.pools.find? ⟨market.id, none⟩ with
  | some pool => ⟨market, ownPrices pool, none⟩
  | none =>
      let perOutcome := outcomePrices (loadOutcomePools db market.id)
      match (perOutcome.map Prod.snd).max? with
      | none => ⟨market, evenPrices, none⟩
      | some lead => ⟨market, (lead, 1 - lead), some (namedPrices db market.id perOutcome).rows⟩

/-- A key of a reply: text when the client decodes responses, bytes when it does not. -/
inductive ReplyKey where
  | str (name : String)
  | bytes (name : String)
deriving DecidableEq, Repr

/-- `r.hgetall(key)`. -/
def hgetall (decodeResponses : Bool) (hash : Option (ℚ × ℚ)) : Dict ReplyKey ℚ :=
  let key := if decodeResponses then ReplyKey.str else ReplyKey.bytes
  match hash with
  | none => .empty
  | some (yesPrice, noPrice) => .ofItems [(key "yes_price", yesPrice), (key "no_price", noPrice)]

/-- `prev_yes` and `prev_no`: looked up by bytes. -/
def previousPrices (cached : Dict ReplyKey ℚ) : ℚ × ℚ :=
  if cached.rows = [] then evenPrices
  else ((cached.get? (.bytes "yes_price")).getD (1 / 2),
    (cached.get? (.bytes "no_price")).getD (1 / 2))

/-- `price_changed`, on exact numbers where the task compares binary64 ones. -/
def Differs (current previous : ℚ × ℚ) : Prop :=
  1 / 10000 < |current.1 - previous.1| ∨ 1 / 10000 < |current.2 - previous.2|

instance (current previous : ℚ × ℚ) : Decidable (Differs current previous) :=
  inferInstanceAs (Decidable (_ ∨ _))

def Priced.update (priced : Priced) : LimitSweep.PriceUpdate :=
  ⟨priced.market.id, priced.prices.1, priced.prices.2, priced.market.totalVolume,
    priced.outcomePrices⟩

/-- What one run publishes. -/
def published (decodeResponses : Bool) (db : Database) (hashes : PriceHashes) :
    List LimitSweep.PriceUpdate :=
  (((activeMarkets db).map (priceMarket db)).filter fun priced =>
    Differs priced.prices (previousPrices (hgetall decodeResponses (hashes priced.market.id)))).map
      Priced.update

/-- The `HSET` of `publish_price_update`. -/
def writeUpdate (hashes : PriceHashes) (update : LimitSweep.PriceUpdate) : PriceHashes :=
  Function.update hashes update.market (some (update.yesPrice, update.noPrice))

/-- The pipeline of the task. -/
def writePriced (hashes : PriceHashes) (priced : Priced) : PriceHashes :=
  Function.update hashes priced.market.id (some priced.prices)

/-- What a run leaves in Redis, when the publisher writes `early` before the pipeline and `late`
after it. -/
def syncAmmPrices (db : Database) (early late : List LimitSweep.PriceUpdate)
    (hashes : PriceHashes) : PriceHashes :=
  late.foldl writeUpdate
    (((activeMarkets db).map (priceMarket db)).foldl writePriced (early.foldl writeUpdate hashes))

/-! # snapshot_price_history -/

/-- The prices of a market's outcomes that a snapshot records. -/
def snapshotPrices (db : Database) (market : MarketId) (outcomes : List Outcome) :
    Dict OutcomeId ℚ :=
  match db.pools.find? ⟨market, none⟩ with
  | some binary =>
      .ofItems (outcomes.map fun outcome =>
        (outcome.id,
          if outcome.name = .yes then (ownPrices binary).1 else (ownPrices binary).2))
  | none =>
      match loadOutcomePools db market with
      | [] => .ofItems (outcomes.map fun outcome => (outcome.id, 1 / (outcomes.length : ℚ)))
      | pools => .ofItems ((outcomePrices pools).filterMap fun item =>
          item.1.map fun outcome => (outcome, item.2))

inductive Failure where
  /-- `'UUID' object is not subscriptable`. -/
  | typeError
deriving DecidableEq, Repr

/-- `r[index]`, of a market id. -/
def subscript (_id : MarketId) (_index : ℕ) : Except Failure ℕ := .error .typeError

/-- `existing_pairs`, from the first column of each row of the query. -/
def existingPairs (firstColumn : List MarketId) : Except Failure (List (MarketId × OutcomeId)) :=
  firstColumn.mapM fun id => do
    let market ← subscript id 0
    let outcome ← subscript id 1
    .ok (market, outcome)

/-- The snapshots of one market. -/
def marketSnapshots (now : Timestamp) (db : Database) (existing : List (MarketId × OutcomeId))
    (market : Market) : List PriceHistory :=
  let outcomes := db.outcomes.rows.filter fun outcome => outcome.marketId = market.id
  let prices := snapshotPrices db market.id outcomes
  outcomes.filterMap fun outcome =>
    if (market.id, outcome.id) ∈ existing then none
    else (prices.get? outcome.id).map fun price =>
      ⟨market.id, outcome.id, price, market.totalVolume, now⟩

/-- The first column of the query for the rows of this minute; `distinct` is over both columns. -/
def existingRows (now : Timestamp) (history : List PriceHistory) : List MarketId :=
  (((history.filter (PriceHistory.inMinute now)).map PriceHistory.pair).dedup).map Prod.fst

/-- `snapshot_price_history`: the table after the run, if it does not raise. -/
def snapshotPriceHistory (now : Timestamp) (db : Database) (history : List PriceHistory) :
    Except Failure (List PriceHistory) :=
  match activeMarkets db with
  | [] => .ok history
  | markets => do
      let existing ← existingPairs (existingRows now history)
      .ok (history ++ markets.flatMap (marketSnapshots now db existing))

end PredictX.PriceTasks
