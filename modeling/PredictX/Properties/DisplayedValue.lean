import PredictX.Api.LpAnalytics
import PredictX.Properties.PairNeutrality

namespace PredictX.LpAnalytics

open PredictX.Data PredictX.LiquidityService

/-! The value of a provider's share, as it is displayed and as it is paid.

The display takes a share of the two reserves, a withdrawal pays a share of the escrow.  Both are
the same fraction, so they agree where the reserves add up to the escrow and nowhere else.
-/

section Value

variable {db : Database} {user : UserId} {scanned : List LPShare} {row : Row}
  {pool : LiquidityPool}

theorem mem_lpRows (member : row ∈ lpRows db user scanned) :
    row.share ∈ scanned ∧ row.share.userId = user ∧ 0 < row.share.lpTokens ∧
      db.pools.find? row.share.pool = some row.pool ∧
      db.markets.find? row.pool.marketId = some row.market := by
  obtain ⟨share, listed, isRow⟩ := List.mem_filterMap.mp member
  obtain ⟨inScan, shown⟩ := List.mem_filter.mp listed
  obtain ⟨owner, positive⟩ : share.userId = user ∧ 0 < share.lpTokens := by
    simpa [isListed] using shown
  unfold joined at isRow
  split at isRow
  · contradiction
  rename_i pool found
  obtain ⟨market, marketFound, rfl⟩ := Option.map_eq_some_iff.mp isRow
  exact ⟨inScan, owner, positive, found, marketFound⟩

/-- The providers of a pool, as the query joins them. -/
def providers (db : Database) (pool : LiquidityPool) : List Row :=
  (db.lpShares.rows.filterMap (joined db)).filter fun row =>
    row.pool = pool && 0 < row.share.lpTokens

/-- The reserves add up to the escrow; a pool without tokens displays nothing. -/
def Backed (pool : LiquidityPool) : Prop :=
  if 0 < pool.lpTokenSupply then pool.yesShares + pool.noShares = pool.collateral
  else pool.collateral = 0

theorem positionValue_of_supplied (supplied : 0 < row.pool.lpTokenSupply) :
    row.positionValue =
      (row.pool.yesShares + row.pool.noShares) * (row.share.lpTokens / row.pool.lpTokenSupply) := by
  rw [Row.positionValue, Row.poolValue, Row.sharePct, if_pos supplied]

theorem positionValue_of_unsupplied (unsupplied : ¬ 0 < row.pool.lpTokenSupply) :
    row.positionValue = 0 := by
  rw [Row.positionValue, Row.sharePct, if_neg unsupplied, mul_zero]

/-- What leaving with all tokens pays. -/
theorem removeLiquidity_all {market : MarketId} {tolerance : ℚ} {outcome : Option OutcomeName}
    {withdrawn : Withdrawn} (resolved : resolveLiquidityPool db market outcome = .ok row.pool)
    (ran : removeLiquidity db user market row.share.lpTokens tolerance outcome = .ok withdrawn) :
    withdrawn.totalRedeemed =
      row.pool.collateral * (row.share.lpTokens / row.pool.lpTokenSupply) ∧
      row.pool.lpTokenSupply ≠ 0 := by
  obtain ⟨_, pool, _, _, _, _, _, found, _, _, _, supplied, _, _, rfl⟩ := removeLiquidity_ok ran
  cases Except.ok.inj (found.symm.trans resolved)
  exact ⟨rfl, supplied⟩

theorem displayed_eq_redeemed_iff (positive : 0 < row.share.lpTokens)
    (supplied : row.pool.lpTokenSupply ≠ 0) :
    row.positionValue = row.pool.collateral * (row.share.lpTokens / row.pool.lpTokenSupply) ↔
      Backed row.pool := by
  have fraction : row.share.lpTokens / row.pool.lpTokenSupply ≠ 0 :=
    div_ne_zero positive.ne' supplied
  unfold Backed
  by_cases whole : 0 < row.pool.lpTokenSupply
  · rw [positionValue_of_supplied whole, if_pos whole]
    exact mul_left_inj' fraction
  · rw [positionValue_of_unsupplied whole, if_neg whole, zero_eq_mul]
    exact or_iff_left fraction

/-- The values that are displayed to the providers of one pool. -/
theorem sum_positionValue (rows : List Row) (ofPool : ∀ row ∈ rows, row.pool = pool)
    (supplied : 0 < pool.lpTokenSupply) :
    (rows.map Row.positionValue).sum =
      (pool.yesShares + pool.noShares) *
        ((rows.map fun row => row.share.lpTokens).sum / pool.lpTokenSupply) := by
  induction rows with
  | nil => simp
  | cons row rest ih =>
      rw [List.forall_mem_cons] at ofPool
      obtain ⟨rfl, others⟩ := ofPool
      simp only [List.map_cons, List.sum_cons]
      rw [ih others, positionValue_of_supplied supplied]
      ring

theorem sum_displayed_iff
    (total : ((providers db pool).map fun row => row.share.lpTokens).sum = pool.lpTokenSupply) :
    ((providers db pool).map Row.positionValue).sum = pool.collateral ↔ Backed pool := by
  have shown : ∀ row ∈ providers db pool, row.pool = pool ∧ 0 < row.share.lpTokens := by
    intro row member
    simpa using (List.mem_filter.mp member).2
  unfold Backed
  by_cases supplied : 0 < pool.lpTokenSupply
  · rw [if_pos supplied, sum_positionValue _ (fun row member => (shown row member).1) supplied,
      total, div_self supplied.ne', mul_one]
  · rw [if_neg supplied]
    cases isRows : providers db pool with
    | nil =>
        rw [List.map_nil, List.sum_nil]
        exact eq_comm
    | cons row rest =>
        -- Rows with tokens add up to a positive supply.
        have others : 0 ≤ (rest.map fun row => row.share.lpTokens).sum := by
          refine List.sum_nonneg fun value member => ?_
          obtain ⟨other, otherMember, rfl⟩ := List.mem_map.mp member
          exact (shown other (isRows ▸ List.mem_cons_of_mem _ otherMember)).2.le
        have own := (shown row (isRows ▸ List.mem_cons_self)).2
        rw [isRows, List.map_cons, List.sum_cons] at total
        exact absurd (total ▸ add_pos_of_pos_of_nonneg own others) supplied

/-- What a provider is shown is what leaving with all her tokens pays, and what all providers are
shown is what the escrow holds, exactly when the pool's reserves add up to its escrow. -/
theorem displayed_is_redeemable_iff (db : Database) (days : Row → ℕ) (pool : LiquidityPool) :
    (∀ user scanned, ∀ row ∈ lpRows db user scanned, row.pool = pool →
      ∀ tolerance outcome withdrawn,
        resolveLiquidityPool db row.market.id outcome = .ok pool →
        removeLiquidity db user row.market.id row.share.lpTokens tolerance outcome =
          .ok withdrawn →
        ((lpPosition days row).positionValue = withdrawn.totalRedeemed ↔ Backed pool)) ∧
    (((providers db pool).map fun row => row.share.lpTokens).sum = pool.lpTokenSupply →
      (((providers db pool).map fun row => (lpPosition days row).positionValue).sum =
        pool.collateral ↔ Backed pool)) := by
  constructor
  · intro user scanned row member isPool tolerance outcome withdrawn resolved ran
    subst isPool
    obtain ⟨paid, supplied⟩ := removeLiquidity_all resolved ran
    rw [paid]
    exact displayed_eq_redeemed_iff (mem_lpRows member).2.2.1 supplied
  · exact fun total => sum_displayed_iff total

end Value

/-! # A split between two providers and their market -/

/-- A seeded pool of two providers, before user 3 splits ten dollars. -/
def sharedMarket : Database :=
  { OrderService.quotedMarket with
    wallets := ⟨[⟨1, 0, 0⟩, ⟨2, 0, 0⟩, ⟨3, 100, 0⟩], by decide⟩
    positions := .empty
    orders := .empty
    pools := ⟨[⟨1, none, 50, 50, 100, 2 / 100, 200, 0⟩], by decide⟩
    lpShares := ⟨[⟨⟨1, none⟩, 1, 100, 50⟩, ⟨⟨1, none⟩, 2, 100, 50⟩], by decide⟩ }

def seededPool : LiquidityPool := ⟨1, none, 50, 50, 100, 2 / 100, 200, 0⟩

/-- The first provider's row. -/
def firstRow : Row where
  share := ⟨⟨1, none⟩, 1, 100, 50⟩
  pool := seededPool
  market := ⟨1, .active, 1000, none, none, none, none, 100, 0, 0⟩

/-- Before the split the first provider is shown what she would be paid. -/
theorem seeded_value_is_redeemable :
    ∃ withdrawn, removeLiquidity sharedMarket 1 1 100 1 none = .ok withdrawn ∧
      firstRow ∈ lpRows sharedMarket 1 sharedMarket.lpShares.rows ∧
      (lpPosition (fun _ => 1) firstRow).positionValue = withdrawn.totalRedeemed ∧
      ((providers sharedMarket seededPool).map fun row =>
        (lpPosition (fun _ => 1) row).positionValue).sum = seededPool.collateral := by
  have ran : succeedsWith (removeLiquidity sharedMarket 1 1 100 1 none) (fun _ => true) = true := by
    decide +kernel
  obtain ⟨withdrawn, ran, -⟩ := succeedsWith_iff.mp ran
  have backed : Backed seededPool := by
    unfold Backed seededPool
    decide +kernel
  have member : firstRow ∈ lpRows sharedMarket 1 sharedMarket.lpShares.rows := by
    decide +kernel
  obtain ⟨each, together⟩ := displayed_is_redeemable_iff sharedMarket (fun _ => 1) seededPool
  exact ⟨withdrawn, ran, member,
    (each 1 _ firstRow member rfl 1 none withdrawn rfl ran).mpr backed,
    (together (by decide +kernel)).mpr backed⟩

/-- The split adds 19.60 to the reserves and ten dollars to the escrow: the first provider is
shown 59.80 and is paid 55. -/
theorem split_parts_display_from_payout :
    ∃ result withdrawn, SplitMerge.split sharedMarket 3 1 10 = .ok result ∧
      removeLiquidity result.db 1 1 100 1 none = .ok withdrawn ∧
      ∃ row ∈ lpRows result.db 1 result.db.lpShares.rows,
        row.share.lpTokens = 100 ∧ row.market.id = 1 ∧
        (lpPosition (fun _ => 1) row).positionValue ≠ withdrawn.totalRedeemed := by
  have ran : succeedsWith (SplitMerge.split sharedMarket 3 1 10) (fun result =>
      succeedsWith (removeLiquidity result.db 1 1 100 1 none) fun withdrawn =>
        withdrawn.totalRedeemed = 55 &&
          (lpRows result.db 1 result.db.lpShares.rows).any fun row =>
            row.share.lpTokens = 100 && row.market.id = 1 && row.positionValue = 598 / 10) =
        true := by
    decide +kernel
  obtain ⟨result, splits, facts⟩ := succeedsWith_iff.mp ran
  obtain ⟨withdrawn, removes, facts⟩ := succeedsWith_iff.mp facts
  simp only [Bool.and_eq_true, List.any_eq_true, decide_eq_true_eq] at facts
  obtain ⟨paid, row, member, ⟨tokens, market⟩, shown⟩ := facts
  refine ⟨result, withdrawn, splits, removes, row, member, tokens, market, ?_⟩
  rw [show (lpPosition (fun _ => 1) row).positionValue = row.positionValue from rfl, shown, paid]
  decide +kernel

end PredictX.LpAnalytics
