import PredictX.Services.PriceCache

namespace PredictX.PriceCache

open PredictX.Data PredictX.MarketService

/-! The batch of prices against the single market's.

The batch keeps one pool row of each market, the last one that the query yields, and prices it by
its own two reserves.  Of a parimutuel market that is one outcome's row, whichever came last.
-/

/-- The price of the leading outcome, from what its pools hold. -/
def IsLeadingPrice (pools : List LiquidityPool) (price : ℚ) : Prop :=
  let total := (pools.map LiquidityPool.yesShares).sum
  if pools = [] then price = 1 / 2
  else if total = 0 then price = 1 / (pools.length : ℚ)
  else (∃ pool ∈ pools, price = pool.yesShares / total) ∧
    ∀ pool ∈ pools, pool.yesShares / total ≤ price

/-- The row of a market that the batch keeps. -/
def survivor (rows : List LiquidityPool) (market : MarketId) : Option LiquidityPool :=
  (rows.filter fun pool => pool.marketId = market).getLast?

/-- The row that is kept has the price of the binary pool, or else of the leading outcome. -/
def PricedAlike (db : Database) (rows : List LiquidityPool) (market : MarketId) : Prop :=
  ∀ pool, survivor rows market = some pool →
    match db.pools.find? ⟨market, none⟩ with
    | some binary => (ownPrices pool).1 = (ownPrices binary).1
    | none => IsLeadingPrice (loadOutcomePools db market) (ownPrices pool).1

section Single

variable {db : Database} {market : MarketId} {price : ℚ}

theorem prices_funded {pools : List LiquidityPool}
    (funded : (pools.map LiquidityPool.yesShares).sum ≠ 0) :
    (outcomePrices pools).map Prod.snd =
      pools.map fun pool => pool.yesShares / (pools.map LiquidityPool.yesShares).sum := by
  unfold outcomePrices
  dsimp only
  rw [if_neg funded, List.map_map]
  rfl

theorem prices_unfunded {pools : List LiquidityPool} (stocked : pools ≠ [])
    (unfunded : (pools.map LiquidityPool.yesShares).sum = 0) :
    (outcomePrices pools).map Prod.snd = pools.map fun _ => 1 / (pools.length : ℚ) := by
  have least : max pools.length 1 = pools.length := max_eq_left (List.length_pos_iff.mpr stocked)
  unfold outcomePrices
  dsimp only
  rw [if_pos unfunded, List.map_map, least]
  rfl

/-- The leading price is the greatest one. -/
theorem isLeadingPrice_iff {pools : List LiquidityPool} (stocked : pools ≠ []) :
    IsLeadingPrice pools price ↔
      ((outcomePrices pools).map Prod.snd).max? = some price := by
  rw [List.max?_eq_some_iff]
  unfold IsLeadingPrice
  dsimp only
  rw [if_neg stocked]
  split
  · rename_i unfunded
    rw [prices_unfunded stocked unfunded]
    obtain ⟨pool, rest, rfl⟩ := List.exists_cons_of_ne_nil stocked
    constructor
    · rintro rfl
      simp
    · rintro ⟨member, -⟩
      obtain ⟨_, -, isPrice⟩ := List.mem_map.mp member
      exact isPrice.symm
  · rename_i funded
    rw [prices_funded funded]
    refine and_congr ?_ ?_
    · simp only [List.mem_map, eq_comm]
    · simp only [List.mem_map, forall_exists_index, and_imp, forall_apply_eq_imp_iff₂]

/-- A market without a binary pool is priced by its leader. -/
theorem fromDb_leading (multi : db.pools.find? ⟨market, none⟩ = none) :
    (getMarketPricesFromDb db market).1 = price ↔
      IsLeadingPrice (loadOutcomePools db market) price := by
  unfold getMarketPricesFromDb
  rw [multi]
  by_cases stocked : loadOutcomePools db market = []
  · rw [stocked]
    simp [IsLeadingPrice, outcomePrices, evenPrices, eq_comm]
  · rw [isLeadingPrice_iff stocked]
    cases isLead : ((outcomePrices (loadOutcomePools db market)).map Prod.snd).max? with
    | none =>
        have none_ := List.max?_eq_none_iff.mp isLead
        have ids := OutcomePools.outcomePrices_ids (loadOutcomePools db market)
        rw [List.map_eq_nil_iff.mp none_] at ids
        exact absurd (List.map_eq_nil_iff.mp ids.symm) stocked
    | some lead => simp

theorem getMarketPricesFromDb_snd :
    (getMarketPricesFromDb db market).2 = 1 - (getMarketPricesFromDb db market).1 := by
  unfold getMarketPricesFromDb
  split
  · exact ownPrices_snd _
  · split
    · norm_num [evenPrices]
    · rfl

end Single

/-! # The batch -/

section Batch

variable {db : Database} {rows : List LiquidityPool} {hashes : PriceHashes}
  {marketIds missing : List MarketId} {market : MarketId} {write : CacheWrite} {readable : Bool}

/-- What the batch makes of a market that is not cached. -/
def missedPrices (rows : List LiquidityPool) (market : MarketId) : ℚ × ℚ :=
  ((survivor rows market).map ownPrices).getD evenPrices

theorem get?_batchPools (member : market ∈ missing) :
    (batchPools rows missing).get? market = survivor rows market := by
  unfold batchPools survivor
  rw [Dict.get?_ofItems, List.filter_map, List.getLast?_map, Option.map_map, List.filter_filter]
  have same : (rows.filter fun pool => decide (pool.marketId = market) &&
      decide (pool.marketId ∈ missing)) = rows.filter fun pool => pool.marketId = market := by
    refine List.filter_congr fun pool _ => ?_
    by_cases isMarket : pool.marketId = market
    · simp [isMarket, member]
    · simp [isMarket]
  have unchanged : (Prod.snd ∘ fun pool : LiquidityPool => (pool.marketId, pool)) = id := rfl
  rw [unchanged, Option.map_id_fun, id_eq]
  exact congrArg List.getLast? same

theorem get?_writePrices (pools : Dict MarketId LiquidityPool) (missing : List MarketId)
    (prices : Dict MarketId (ℚ × ℚ)) :
    (writePrices pools missing prices).get? market =
      if market ∈ missing then ((pools.get? market).map ownPrices).or (prices.get? market)
      else prices.get? market := by
  induction missing generalizing prices with
  | nil => rfl
  | cons first rest ih =>
      unfold writePrices at ih ⊢
      rw [List.foldl_cons, ih]
      cases found : pools.get? first with
      | none =>
          by_cases same : market = first
          · simp [same, found]
          · simp [same]
      | some pool =>
          by_cases same : market = first
          · simp [same, found, Dict.get?_set_self]
          · simp [same, Dict.get?_set_ne same]

theorem get?_recoverPrices (pools : Dict MarketId LiquidityPool) (missing : List MarketId)
    (prices : Dict MarketId (ℚ × ℚ)) :
    (recoverPrices pools missing prices).get? market =
      if market ∈ missing then
        some (((pools.get? market).map ownPrices).getD ((prices.get? market).getD evenPrices))
      else prices.get? market := by
  induction missing generalizing prices with
  | nil => rfl
  | cons first rest ih =>
      unfold recoverPrices at ih ⊢
      rw [List.foldl_cons, ih]
      cases found : pools.get? first with
      | none =>
          by_cases same : market = first
          · simp [same, found, Dict.get?_setDefault]
          · simp [same, Dict.get?_setDefault]
      | some pool =>
          by_cases same : market = first
          · simp [same, found, Dict.get?_set_self]
          · simp [same, Dict.get?_set_ne same]

theorem get?_defaults (markets : List MarketId) (prices : Dict MarketId (ℚ × ℚ)) :
    (markets.foldl (fun prices market => prices.setDefault market evenPrices) prices).get? market =
      if market ∈ markets then some ((prices.get? market).getD evenPrices)
      else prices.get? market := by
  induction markets generalizing prices with
  | nil => rfl
  | cons first rest ih =>
      rw [List.foldl_cons, ih, Dict.get?_setDefault]
      by_cases same : market = first
      · simp [same]
      · simp [same]

theorem cachedPrices_empty {cached : PriceHashes}
    (empty : ∀ market ∈ marketIds, cached market = none) :
    cachedPrices cached marketIds = Table.empty := by
  unfold cachedPrices
  induction marketIds with
  | nil => rfl
  | cons first rest ih =>
      rw [List.foldl_cons, empty first List.mem_cons_self]
      exact ih fun market member => empty market (List.mem_cons_of_mem _ member)

theorem missing_all {cached : PriceHashes} (empty : ∀ market ∈ marketIds, cached market = none) :
    marketIds.filter (fun market => (cached market).isNone) = marketIds :=
  List.filter_eq_self.mpr fun market member => by rw [empty market member]; rfl

theorem priceMisses_prices (member : market ∈ missing) :
    ((priceMisses write rows missing .empty hashes).prices.get? market).getD evenPrices =
      missedPrices rows market := by
  cases write with
  | done => simp [priceMisses, get?_writePrices, member, get?_batchPools, missedPrices]
  | failed applied =>
      simp only [priceMisses, get?_recoverPrices, get?_writePrices, if_pos member,
        get?_batchPools member, Option.getD_some, missedPrices, Dict.get?_empty, Option.or_none]
      cases survivor rows market <;> rfl
  | refused =>
      simp [priceMisses, get?_recoverPrices, member, get?_batchPools, missedPrices]

/-- A batch of markets that are not cached reads all of them. -/
theorem getMarketPricesBatch_eq (empty : ∀ market ∈ marketIds, hashes market = none)
    (member : market ∈ marketIds) :
    getMarketPricesBatch readable write rows hashes marketIds =
      { priceMisses write rows marketIds .empty hashes with
        prices := marketIds.foldl (fun prices market => prices.setDefault market evenPrices)
          (priceMisses write rows marketIds .empty hashes).prices } := by
  have unread : ∀ market ∈ marketIds,
      (if readable then hashes else fun _ => none : PriceHashes) market = none := by
    intro market member
    cases readable
    · rfl
    · exact empty market member
  have some_ : marketIds ≠ [] := List.ne_nil_of_mem member
  unfold getMarketPricesBatch
  simp only [cachedPrices_empty unread, missing_all unread, if_neg some_]

theorem getMarketPricesBatch_prices (empty : ∀ market ∈ marketIds, hashes market = none)
    (member : market ∈ marketIds) :
    (getMarketPricesBatch readable write rows hashes marketIds).prices.get? market =
      some (missedPrices rows market) := by
  rw [getMarketPricesBatch_eq empty member]
  dsimp only
  rw [get?_defaults, if_pos member, priceMisses_prices member]

theorem getMarketPricesBatch_hashes (empty : ∀ market ∈ marketIds, hashes market = none)
    (member : market ∈ marketIds) :
    (getMarketPricesBatch readable .done rows hashes marketIds).hashes market =
      (survivor rows market).map ownPrices := by
  rw [getMarketPricesBatch_eq empty member]
  simp only [priceMisses, writeHashes, if_pos member, get?_batchPools member, empty market member,
    Option.or_none]

theorem survivor_none (reads : rows.Perm db.pools.rows) :
    survivor rows market = none ↔ ∀ pool ∈ db.pools.rows, pool.marketId ≠ market := by
  unfold survivor
  rw [List.getLast?_eq_none_iff, List.filter_eq_nil_iff]
  simp only [decide_eq_true_eq]
  exact ⟨fun none_ pool member => none_ pool (reads.mem_iff.mpr member),
    fun none_ pool member => none_ pool (reads.mem_iff.mp member)⟩

theorem fromDb_unpooled (none_ : ∀ pool ∈ db.pools.rows, pool.marketId ≠ market) :
    getMarketPricesFromDb db market = evenPrices := by
  have unfound : ∀ outcome, db.pools.find? ⟨market, outcome⟩ = none := by
    intro outcome
    rw [Table.find?_eq_none]
    intro pool member same
    exact none_ pool member (congrArg PoolKey.marketId same)
  have noPools : loadOutcomePools db market = [] := by
    unfold loadOutcomePools
    rw [List.filterMap_eq_nil_iff]
    exact fun outcome _ => unfound (some outcome.id)
  unfold getMarketPricesFromDb
  rw [unfound none, noPools]
  rfl

/-- The kept row gives the market's prices. -/
theorem pricedAlike_iff (reads : rows.Perm db.pools.rows) :
    PricedAlike db rows market ↔
      missedPrices rows market = getMarketPricesFromDb db market := by
  unfold PricedAlike missedPrices
  cases isSurvivor : survivor rows market with
  | none =>
      rw [fromDb_unpooled ((survivor_none reads).mp isSurvivor)]
      simp
  | some pool =>
      simp only [Option.some_inj, forall_eq', Option.map_some, Option.getD_some]
      cases binary : db.pools.find? ⟨market, none⟩ with
      | some binaryPool =>
          rw [getMarketPricesFromDb, binary]
          exact ownPrices_inj.symm
      | none =>
          rw [← fromDb_leading binary]
          refine ⟨fun same => Prod.ext same.symm ?_, fun same => (congrArg Prod.fst same).symm⟩
          rw [ownPrices_snd, getMarketPricesFromDb_snd, same]

/-- The batch returns what the single lookup returns, and leaves it in the cache, exactly when the
row it keeps is priced alike; nothing is left of a market without pools. -/
theorem batch_agrees_iff (reads : rows.Perm db.pools.rows)
    (empty : ∀ market ∈ marketIds, hashes market = none) (member : market ∈ marketIds) :
    ((getMarketPricesBatch readable write rows hashes marketIds).prices.get? market =
        some (getMarketPricesFromDb db market) ↔ PricedAlike db rows market) ∧
    ((getMarketPricesBatch readable .done rows hashes marketIds).hashes market =
        some (getMarketPricesFromDb db market) ↔
      PricedAlike db rows market ∧ ∃ pool ∈ db.pools.rows, pool.marketId = market) := by
  rw [getMarketPricesBatch_prices empty member, getMarketPricesBatch_hashes empty member,
    pricedAlike_iff reads, Option.some_inj]
  refine ⟨Iff.rfl, ?_⟩
  unfold missedPrices
  cases isSurvivor : survivor rows market with
  | none =>
      have none_ := (survivor_none reads).mp isSurvivor
      refine iff_of_false (by simp) ?_
      rintro ⟨-, pool, isPool, same⟩
      exact none_ pool isPool same
  | some pool =>
      have isPool : pool ∈ rows.filter fun pool => pool.marketId = market :=
        List.mem_of_getLast? isSurvivor
      rw [List.mem_filter, decide_eq_true_eq] at isPool
      have pooled : ∃ pool ∈ db.pools.rows, pool.marketId = market :=
        ⟨pool, reads.mem_iff.mp isPool.1, isPool.2⟩
      simp [pooled]

/-- A market all of whose rows are one binary pool is priced alike. -/
theorem binary_is_priced_alike (reads : rows.Perm db.pools.rows)
    (binary : ∀ pool ∈ db.pools.rows, pool.marketId = market → pool.outcomeId = none) :
    PricedAlike db rows market := by
  intro pool isSurvivor
  have isPool : pool ∈ rows.filter fun pool => pool.marketId = market :=
    List.mem_of_getLast? isSurvivor
  rw [List.mem_filter, decide_eq_true_eq] at isPool
  have stored := reads.mem_iff.mp isPool.1
  have found : db.pools.find? ⟨market, none⟩ = some pool := by
    have own := Table.find?_key_of_mem stored
    rwa [LiquidityPool.key, isPool.2, binary pool stored isPool.2] at own
  rw [found]

end Batch

/-- One active market, with the pools and the outcomes it is given. -/
def oneMarket (pools : Table LiquidityPool.key) (outcomes : Table Outcome.id) : Database where
  wallets := .empty
  positions := .empty
  orders := .empty
  pools := pools
  lpShares := .empty
  markets := .single ⟨1, .active, 1000, none, none, none, none, 100, 0, 0⟩
  outcomes := outcomes
  disputes := .empty
  referrals := []
  trades := []
  transactions := []
  systemUser := none

/-- Two horses, the first of which leads. -/
def raceMarket : Database :=
  oneMarket ⟨[⟨1, some 1, 60, 40, 100, 2 / 100, 100, 0⟩, ⟨1, some 2, 40, 60, 100, 2 / 100, 100, 0⟩],
      by simp [LiquidityPool.key]⟩
    ⟨[⟨1, 1, .named "first", 0⟩, ⟨2, 1, .named "second", 1⟩], by decide⟩

theorem batch_agrees_iff_first :
    (getMarketPricesBatch true .done raceMarket.pools.rows.reverse (fun _ => none) [1]).prices.get? 1 =
      some (getMarketPricesFromDb raceMarket 1) ↔
    PricedAlike raceMarket raceMarket.pools.rows.reverse 1 :=
  (batch_agrees_iff (List.reverse_perm _) (fun _ _ => rfl) (by decide)).1

/-- The second horse's row comes last: the batch takes its prices for the market's. -/
theorem batch_takes_the_last_row :
    (getMarketPricesBatch true .done raceMarket.pools.rows (fun _ => none) [1]).prices.get? 1 =
      some (2 / 5, 3 / 5) ∧
    (getMarketPricesBatch true .done raceMarket.pools.rows (fun _ => none) [1]).hashes 1 =
      some (2 / 5, 3 / 5) ∧
    getMarketPricesFromDb raceMarket 1 = (3 / 5, 2 / 5) := by
  refine ⟨by decide +kernel, by decide +kernel, by decide +kernel⟩

end PredictX.PriceCache
