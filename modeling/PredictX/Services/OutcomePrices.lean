import PredictX.Data.Proportion
import PredictX.Services.MarketService

namespace PredictX.MarketService

open PredictX.Data PredictX.Amm

/-! Parimutuel prices.

Each outcome is priced at its part of the shares in all pools of the market, and the AMM an
order on it trades with is built to quote the same.
-/

/-- Price per outcome from its pool, as the items of the dict. -/
def outcomePrices (pools : List LiquidityPool) : List (Option OutcomeId × ℚ) :=
  let total := (pools.map LiquidityPool.yesShares).sum
  if total = 0 then
    -- Nothing funded: an even split.
    pools.map fun pool => (pool.outcomeId, (1 : ℚ) / (max pools.length 1 : ℕ))
  else pools.map fun pool => (pool.outcomeId, pool.yesShares / total)

/-- The pools of a market, no two of one outcome. -/
abbrev OutcomePools := Table LiquidityPool.outcomeId

namespace OutcomePools

variable (pools : OutcomePools)

def NonNegative : Prop := ∀ pool ∈ pools.rows, 0 ≤ pool.yesShares

def total : ℚ := pools.sum LiquidityPool.yesShares

/-- The prices are a distribution, and each is what the AMM of its outcome quotes. -/
structure PricedAsQuoted : Prop where
  whole : ((outcomePrices pools.rows).map Prod.snd).sum = 1
  quoted : ∀ pool ∈ pools.rows, ∀ outcome, pool.outcomeId = some outcome →
    (some outcome, (buildOutcomeAmm pools.rows outcome).1.price .yes) ∈ outcomePrices pools.rows

variable {pools}

theorem outcomePrices_funded (funded : pools.total ≠ 0) :
    outcomePrices pools.rows =
      pools.rows.map fun pool =>
        (pool.outcomeId, pools.proportion LiquidityPool.yesShares pool) :=
  if_neg funded

theorem outcomePrices_empty (empty : pools.total = 0) :
    outcomePrices pools.rows =
      pools.rows.map fun pool => (pool.outcomeId, (1 : ℚ) / (max pools.rows.length 1 : ℕ)) :=
  if_pos empty

theorem outcomePrices_ids (pools : List LiquidityPool) :
    (outcomePrices pools).map Prod.fst = pools.map LiquidityPool.outcomeId := by
  simp only [outcomePrices]
  split <;> simp [Function.comp_def]

theorem mem_outcomePrices (funded : pools.total ≠ 0) {outcome : Option OutcomeId} {price : ℚ} :
    (outcome, price) ∈ outcomePrices pools.rows ↔
      ∃ pool ∈ pools.rows, pool.outcomeId = outcome ∧
        pools.proportion LiquidityPool.yesShares pool = price := by
  rw [outcomePrices_funded funded]
  simp only [List.mem_map, Prod.mk.injEq]

/-- The prices sum to one, also of pools that hold nothing. -/
theorem sum_outcomePrices (stocked : pools.rows ≠ []) :
    ((outcomePrices pools.rows).map Prod.snd).sum = 1 := by
  by_cases empty : pools.total = 0
  · have length : (pools.rows.length : ℚ) ≠ 0 := by
      simpa [List.length_eq_zero_iff] using stocked
    have least : max pools.rows.length 1 = pools.rows.length :=
      max_eq_left (List.length_pos_iff.mpr stocked)
    rw [outcomePrices_empty empty, least, List.map_map]
    have constant : (Prod.snd ∘ fun pool : LiquidityPool =>
        (pool.outcomeId, 1 / (pools.rows.length : ℚ))) = fun _ => 1 / (pools.rows.length : ℚ) := rfl
    rw [constant, List.map_const', List.sum_replicate, nsmul_eq_mul, mul_one_div_cancel length]
  · rw [outcomePrices_funded empty, List.map_map]
    exact Table.sum_proportion empty

theorem find?_of_mem {pool : LiquidityPool} {outcome : OutcomeId} (member : pool ∈ pools.rows)
    (isPool : pool.outcomeId = some outcome) :
    pools.rows.find? (fun pool => pool.outcomeId = some outcome) = some pool := by
  have found : pools.find? pool.outcomeId = some pool := Table.find?_key_of_mem member
  rwa [isPool] at found

theorem le_total {pool : LiquidityPool} (nonneg : pools.NonNegative)
    (member : pool ∈ pools.rows) : pool.yesShares ≤ pools.total :=
  Table.le_sum nonneg member

/-- The reserves of an outcome's AMM: its own shares and the rest of the market's. -/
theorem buildOutcomeAmm_reserves {pool : LiquidityPool} {outcome : OutcomeId}
    (nonneg : pools.NonNegative) (member : pool ∈ pools.rows)
    (isPool : pool.outcomeId = some outcome) :
    (buildOutcomeAmm pools.rows outcome).1.reserve .yes = pool.yesShares ∧
      (buildOutcomeAmm pools.rows outcome).1.total = pools.total := by
  have rest : 0 ≤ pools.total - pool.yesShares := sub_nonneg.mpr (le_total nonneg member)
  have own := nonneg pool member
  have isAmm : (buildOutcomeAmm pools.rows outcome).1 =
      BinaryAMM.init pool.yesShares (max (pools.total - pool.yesShares) 0) pool.feeRate := by
    unfold buildOutcomeAmm
    rw [find?_of_mem member isPool]
    rfl
  rw [isAmm]
  simp only [BinaryAMM.reserve, BinaryAMM.total, BinaryAMM.init]
  rw [max_eq_right own, max_eq_left rest, max_eq_right rest]
  exact ⟨rfl, by ring⟩

theorem pricedAsQuoted (nonneg : pools.NonNegative) (funded : 0 < pools.total) :
    pools.PricedAsQuoted := by
  refine ⟨sum_outcomePrices ?_, fun pool member outcome isPool => ?_⟩
  · intro none_
    unfold total Table.sum at funded
    rw [none_] at funded
    simp at funded
  · obtain ⟨own, whole⟩ := buildOutcomeAmm_reserves nonneg member isPool
    refine (mem_outcomePrices funded.ne').mpr ⟨pool, member, isPool, ?_⟩
    rw [BinaryAMM.price, own, whole, if_neg funded.ne']
    rfl

end OutcomePools

/-! # The pools of a market -/

theorem filterMap_keys_sublist {α β γ : Type} (rows : List α) (look : α → Option β)
    (key : β → γ) (label : α → γ)
    (agrees : ∀ row found, look row = some found → key found = label row) :
    ((rows.filterMap look).map key).Sublist (rows.map label) := by
  induction rows with
  | nil => exact .slnil
  | cons row rest ih =>
      cases found : look row with
      | none =>
          rw [List.filterMap_cons_none found, List.map_cons]
          exact ih.cons _
      | some stored =>
          rw [List.filterMap_cons_some found, List.map_cons, List.map_cons, agrees row stored found]
          exact ih.cons_cons _

/-- `load_outcome_pools`, with the outcomes known to differ. -/
def outcomePools (db : Database) (market : MarketId) : OutcomePools where
  rows := loadOutcomePools db market
  unique := by
    have labels : ((db.outcomes.rows.insertionSort fun left right =>
        left.outcomeIndex ≤ right.outcomeIndex).map fun outcome => some outcome.id).Nodup := by
      have ids : (db.outcomes.rows.map fun outcome => some outcome.id).Nodup := by
        have distinct := db.outcomes.unique.map (Option.some_injective _)
        rwa [List.map_map] at distinct
      exact ((List.perm_insertionSort _ _).map _).nodup_iff.mpr ids
    refine (filterMap_keys_sublist _ _ _ _ fun outcome pool found => ?_).nodup labels
    exact congrArg PoolKey.outcomeId (Table.key_of_find? found)

variable {db : Database} {market : MarketId}

theorem mem_outcomePools {pool : LiquidityPool} : pool ∈ (outcomePools db market).rows ↔
    ∃ outcome ∈ db.outcomes.rows, db.pools.find? ⟨market, some outcome.id⟩ = some pool := by
  simp [outcomePools, loadOutcomePools]

end PredictX.MarketService
