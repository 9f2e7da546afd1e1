import PredictX.Properties.SettlementPayouts

namespace PredictX.Settlement

open PredictX.Data

/-! Settlement in the default decimal context.

Every stored amount has eight decimals and twelve digits before the point, so sums and
differences of stored amounts fit the 28 digits of the context.  A quotient need not: a
rate that was rounded up, times all the tokens, is more than the residual.
-/

/-- The default context: 28 digits, ties to even. -/
def decimal : ℚ → ℚ := roundSig 10 28

/-- The largest value of a `Numeric(20, 8)` column. -/
def columnBound : ℚ := 10 ^ 12

/-- A non-negative `Numeric(20, 8)` value. -/
structure Stored (x : ℚ) : Prop where
  grid : OnGrid scale x
  nonneg : 0 ≤ x
  lt : x < columnBound

instance (x : ℚ) : Decidable (Stored x) :=
  decidable_of_iff (OnGrid scale x ∧ 0 ≤ x ∧ x < columnBound)
    ⟨fun ⟨grid, nonneg, lt⟩ => ⟨grid, nonneg, lt⟩, fun stored => ⟨stored.1, stored.2, stored.3⟩⟩

theorem exactOn_decimal : ExactOn decimal (OnGrid scale) columnBound := by
  have exact_ : ExactOn (roundSig 10 28) (OnGrid (10 ^ 8)) columnBound :=
    exactOn_grid (by norm_num) (by norm_num [columnBound])
  exact exact_

/-! # Relative errors -/

/-- Half a unit in the 28th digit. -/
def halfUnit : ℚ := 1 / (2 * 10 ^ 27)

theorem decimal_close (x : ℚ) (nonneg : 0 ≤ x) :
    x * (1 - halfUnit) ≤ decimal x ∧ decimal x ≤ x * (1 + halfUnit) := by
  have distance : |roundSig 10 28 x - x| ≤ _ := abs_roundSig_sub_le (by norm_num) nonneg
  have error := abs_le.mp distance
  have unit : ((10 : ℕ) : ℚ) ^ (1 - (28 : ℕ) : ℤ) / 2 = halfUnit := by
    norm_num [halfUnit]
  rw [unit] at error
  unfold decimal
  constructor <;> linarith [error.1, error.2]

/-- Tokens that fall short of the supply by one grid step leave room for the rounding of
ten million providers. -/
theorem margin_of_lt {total supply : ℚ} {count : ℕ} (totalStored : OnGrid scale total)
    (totalNonneg : 0 ≤ total) (supplyStored : Stored supply) (less : total < supply)
    (few : count ≤ 10 ^ 7) :
    total * (1 + halfUnit) ^ 2 ≤ supply * (1 - halfUnit) ^ count := by
  have step : total + 1 / 10 ^ 8 ≤ supply := by
    obtain ⟨low, rfl⟩ := (onGrid_iff scale_pos).mp totalStored
    obtain ⟨high, rfl⟩ := (onGrid_iff scale_pos).mp supplyStored.grid
    have scaleValue : (scale : ℚ) = 10 ^ 8 := by norm_num [scale]
    rw [scaleValue] at less ⊢
    have units : low < high := by
      have scaled := (div_lt_div_iff_of_pos_right (by norm_num)).mp less
      exact_mod_cast scaled
    have next : (low : ℚ) + 1 ≤ high := by exact_mod_cast units
    rw [← add_div]
    exact (div_le_div_iff_of_pos_right (by norm_num)).mpr next
  have below := supplyStored.lt
  have supplyNonneg := supplyStored.nonneg
  have countCast : (count : ℚ) ≤ 10 ^ 7 := by exact_mod_cast few
  have unitNonneg : (0 : ℚ) ≤ halfUnit := by norm_num [halfUnit]
  have bernoulli : 1 - count * halfUnit ≤ (1 - halfUnit) ^ count := by
    have bound := one_add_mul_le_pow (a := -halfUnit) (by norm_num [halfUnit]) count
    rwa [mul_neg, ← sub_eq_add_neg, ← sub_eq_add_neg] at bound
  have lost : supply * (count * halfUnit) ≤ columnBound * (10 ^ 7 * halfUnit) := by
    refine mul_le_mul below.le (mul_le_mul_of_nonneg_right countCast unitNonneg)
      (mul_nonneg (Nat.cast_nonneg _) unitNonneg) (by norm_num [columnBound])
  have kept : supply - columnBound * (10 ^ 7 * halfUnit) ≤ supply * (1 - halfUnit) ^ count := by
    have scaled := mul_le_mul_of_nonneg_left bernoulli supplyNonneg
    linarith
  have grown : total * (1 + halfUnit) ^ 2 ≤ total + columnBound * (3 * halfUnit) := by
    have square : (1 + halfUnit) ^ 2 ≤ 1 + 3 * halfUnit := by norm_num [halfUnit]
    have scaled := mul_le_mul_of_nonneg_left square totalNonneg
    have excess : total * (3 * halfUnit) ≤ columnBound * (3 * halfUnit) :=
      mul_le_mul_of_nonneg_right (by linarith) (by linarith)
    linarith
  have room : columnBound * (3 * halfUnit) + columnBound * (10 ^ 7 * halfUnit) ≤ 1 / 10 ^ 8 := by
    norm_num [columnBound, halfUnit]
  linarith

/-! # Completion -/

section Completion

variable {scan : Scan} {db : Database} {market : MarketId} {winning : OutcomeId}
  {pool : LiquidityPool} {now : Timestamp}

/-- The obligations pass their checks and every amount is a stored one. -/
structure Funded (scan : Scan) (db : Database) (market : MarketId) (winning : OutcomeId) :
    Prop where
  reads : scan.Reads db market winning
  shares : ∀ position ∈ unsettled db market, Stored position.sharesHeld
  unpooled : settlementPool db.pools market winning = none → owed db market winning ≤ 0
  collateral : ∀ pool, settlementPool db.pools market winning = some pool →
    Stored pool.collateral
  fees : ∀ pool, settlementPool db.pools market winning = some pool → Stored pool.protocolFees
  supply : ∀ pool, settlementPool db.pools market winning = some pool →
    Stored pool.lpTokenSupply
  tokens : ∀ pool, settlementPool db.pools market winning = some pool →
    ∀ share ∈ liveShares db pool.key, Stored share.lpTokens
  covered : ∀ pool, settlementPool db.pools market winning = some pool →
    owed db market winning + pool.protocolFees ≤ pool.collateral
  within : ∀ pool, settlementPool db.pools market winning = some pool →
    Settlement.tokens db pool.key ≤ pool.lpTokenSupply

/-- What the winners who have wallets and the treasury leave for the providers. -/
def providersFund (scan : Scan) (db : Database) (winning : OutcomeId) (pool : LiquidityPool) : ℚ :=
  pool.collateral -
    ((wins (openTreasury db).2.wallets winning scan.positions).map Payout.debited).sum -
    pool.protocolFees

/-- The tokens leave a margin, or the rate is not rounded up and only the last provider's
share is rounded. -/
def SharesOut (fund supply : ℚ) (weights : List ℚ) : Prop :=
  (weights.sum < supply ∧ weights.length ≤ 10 ^ 7) ∨
    (decimal (fund / supply) ≤ fund / supply ∧
      PaidExactly decimal (decimal (fund / supply)) weights fund)

namespace Funded

theorem positions (funded : Funded scan db market winning) :
    ∀ row ∈ scan.positions, Stored row.sharesHeld :=
  fun row member => funded.shares row (funded.reads.positions.mem_iff.mp member)

theorem sum_owed (funded : Funded scan db market winning) :
    (scan.positions.map (payoutOf winning)).sum = owed db market winning :=
  funded.reads.sum_owed

theorem winnerTotal_eq (funded : Funded scan db market winning)
    (below : owed db market winning ≤ columnBound) :
    winnerTotal decimal winning scan.positions = owed db market winning := by
  have winners := sum_winners winning fun row member => (funded.positions row member).nonneg
  have stored : ∀ x ∈ (scan.positions.filter fun position =>
      position.outcomeId = winning && 0 < position.sharesHeld).map Position.sharesHeld,
      Stored x := by
    intro x member
    obtain ⟨row, rowMember, rfl⟩ := List.mem_map.mp member
    exact funded.positions row (List.mem_of_mem_filter rowMember)
  rw [winnerTotal, roundedSum_eq exactOn_decimal (fun x member => (stored x member).grid)
    (fun x member => (stored x member).nonneg) (by rwa [winners, funded.sum_owed]), winners,
    funded.sum_owed]

theorem wins_le_owed (funded : Funded scan db market winning) (wallets : Table Wallet.userId) :
    ((wins wallets winning scan.positions).map Payout.debited).sum ≤ owed db market winning := by
  rw [← funded.sum_owed]
  exact wins_le_sum wallets fun row member => (funded.positions row member).nonneg

/-- Without a pool there is nobody to pay. -/
theorem completes_none (funded : Funded scan db market winning) (now : Timestamp) {row : Market}
    (found : db.markets.find? market = some row) (recorded : row.winningOutcomeId = some winning)
    (noPool : settlementPool db.pools market winning = none) :
    ∃ settled, settleMarket decimal now false scan db market winning = .ok (some settled) := by
  have nothing := funded.unpooled noPool
  have idle : wins (openLedger db market winning).wallets winning scan.positions = [] :=
    wins_eq_nil _ (fun row member => (funded.positions row member).nonneg)
      (funded.sum_owed ▸ nothing)
  obtain ⟨paid, paidOk, paidPool⟩ := settlePositions_idle decimal now market idle
  have paidNone : paid.pool = none := paidPool.trans noPool
  have stages : Stages decimal now scan db market winning paid paid paid := by
    refine ⟨paidOk, ?_, ?_⟩
    · rw [sweepFees, paidNone]
    · rw [redeemShares, paidNone]
  have total := funded.winnerTotal_eq (nothing.trans (by norm_num [columnBound]))
  refine ⟨_, settleMarket_stages found recorded ?_ stages⟩
  rw [noPool, preflight, total]
  exact if_neg (not_lt.mpr nothing)

section Pool

variable (funded : Funded scan db market winning)
  (isPool : settlementPool db.pools market winning = some pool)

include funded isPool

theorem preflight_ok :
    preflight decimal winning scan.positions (settlementPool db.pools market winning) =
      .ok () := by
  have covered := funded.covered pool isPool
  have collateral := funded.collateral pool isPool
  have fees := funded.fees pool isPool
  have owedGrid : OnGrid scale (owed db market winning) := by
    rw [← funded.sum_owed]
    refine exactOn_decimal.sum fun x member => ?_
    obtain ⟨row, rowMember, rfl⟩ := List.mem_map.mp member
    unfold payoutOf
    split
    · exact (funded.positions row rowMember).grid
    · exact exactOn_decimal.zero
  have owedNonneg : 0 ≤ owed db market winning := by
    rw [← funded.sum_owed]
    refine List.sum_nonneg fun x member => ?_
    obtain ⟨row, rowMember, rfl⟩ := List.mem_map.mp member
    exact payoutOf_nonneg (funded.positions row rowMember).nonneg
  have total := funded.winnerTotal_eq (by linarith [collateral.lt, fees.nonneg])
  have required : decimal (owed db market winning + pool.protocolFees) =
      owed db market winning + pool.protocolFees :=
    exactOn_decimal.round_eq (exactOn_decimal.add owedGrid fees.grid)
      (add_nonneg owedNonneg fees.nonneg) (covered.trans collateral.lt.le)
  rw [isPool, preflight, total, required]
  exact if_neg (not_lt.mpr covered)

/-- What is left for the providers is a stored amount. -/
theorem providersFund_stored :
    OnGrid scale (providersFund scan db winning pool) ∧
      0 ≤ providersFund scan db winning pool ∧
      providersFund scan db winning pool ≤ columnBound := by
  have covered := funded.covered pool isPool
  have collateral := funded.collateral pool isPool
  have fees := funded.fees pool isPool
  have paid := funded.wins_le_owed (openTreasury db).2.wallets
  have paidNonneg := wins_debited_nonneg winning (openTreasury db).2.wallets scan.positions
  have paidGrid : OnGrid scale
      ((wins (openTreasury db).2.wallets winning scan.positions).map Payout.debited).sum := by
    refine exactOn_decimal.sum fun x member => ?_
    obtain ⟨payout, payoutMember, rfl⟩ := List.mem_map.mp member
    obtain ⟨row, rowMember, won⟩ := List.mem_filterMap.mp payoutMember
    obtain ⟨_, _, _, rfl⟩ := win_eq_some.mp won
    change OnGrid scale (payoutOf winning row)
    unfold payoutOf
    split
    · exact (funded.positions row rowMember).grid
    · exact exactOn_decimal.zero
  unfold providersFund
  refine ⟨exactOn_decimal.sub (exactOn_decimal.sub collateral.grid paidGrid) fees.grid, ?_, ?_⟩
  · linarith
  · linarith [collateral.lt, fees.nonneg]

/-- The winners' and the treasury's stages need no rounding. -/
theorem first_stages (now : Timestamp) :
    ∃ paid swept, scan.positions.foldlM (settlePosition decimal now market winning)
        (openLedger db market winning) = .ok paid ∧
      sweepFees decimal market (openTreasury db).1 paid = .ok swept ∧
      swept.pool = some { pool with
        collateral := providersFund scan db winning pool, protocolFees := 0 } := by
  have covered := funded.covered pool isPool
  have collateral := funded.collateral pool isPool
  have fees := funded.fees pool isPool
  have atMost := funded.wins_le_owed (openTreasury db).2.wallets
  obtain ⟨fundGrid, fundNonneg, fundLe⟩ := funded.providersFund_stored isPool
  have enough : ((wins (openLedger db market winning).wallets winning scan.positions).map
      Payout.debited).sum ≤ pool.collateral := by
    rw [openLedger_wallets]
    linarith [fees.nonneg]
  obtain ⟨paid, paidOk, paidPool⟩ := settlePositions_spec now market exactOn_decimal isPool
    collateral.grid collateral.lt.le (fun row member => (funded.positions row member).grid) enough
  rw [openLedger_wallets] at paidPool
  have left : decimal (providersFund scan db winning pool) =
      providersFund scan db winning pool :=
    exactOn_decimal.round_eq fundGrid fundNonneg fundLe
  obtain ⟨swept, sweptOk, sweptPool⟩ := sweepFees_spec decimal market (openTreasury db).1
    paidPool fees.nonneg (by dsimp only; linarith) left
  exact ⟨paid, swept, paidOk, sweptOk, sweptPool⟩

/-- The providers' shares fit the fund. -/
theorem shares_fit
    (sharesOut : SharesOut (providersFund scan db winning pool) pool.lpTokenSupply
      (scan.lpShares.map LPShare.lpTokens)) :
    (drain decimal (perToken decimal { pool with
        collateral := providersFund scan db winning pool, protocolFees := 0 })
      (scan.lpShares.map LPShare.lpTokens) (providersFund scan db winning pool)).isSome =
        true := by
  obtain ⟨fundGrid, fundNonneg, fundLe⟩ := funded.providersFund_stored isPool
  have read := funded.reads.lpShares pool isPool
  have stored : ∀ x ∈ scan.lpShares.map LPShare.lpTokens, Stored x := by
    intro x member
    obtain ⟨share, shareMember, rfl⟩ := List.mem_map.mp member
    exact funded.tokens pool isPool share (read.mem_iff.mp shareMember)
  have total : (scan.lpShares.map LPShare.lpTokens).sum = Settlement.tokens db pool.key :=
    (read.map _).sum_eq
  have within := funded.within pool isPool
  have nonneg := fun x member => (stored x member).nonneg
  have supplyStored := funded.supply pool isPool
  set fund := providersFund scan db winning pool
  set weights := scan.lpShares.map LPShare.lpTokens
  unfold perToken
  split
  swap
  · -- Without tokens the rate is zero and nothing is drained.
    have drained := drain_of_margin halfUnit (by norm_num [halfUnit])
      (by norm_num [halfUnit]) decimal_close le_rfl nonneg fundNonneg
      (by rw [mul_zero, zero_mul]
          exact mul_nonneg fundNonneg (pow_nonneg (by norm_num [halfUnit]) _))
    exact drained
  rename_i supplyPos
  dsimp only at supplyPos ⊢
  have quotient : 0 ≤ fund / pool.lpTokenSupply := div_nonneg fundNonneg supplyPos.le
  have rateNonneg : 0 ≤ decimal (fund / pool.lpTokenSupply) := roundSig_nonneg quotient
  rcases sharesOut with ⟨less, few⟩ | ⟨notUp, exactly⟩
  · have sumNonneg : 0 ≤ weights.sum := List.sum_nonneg nonneg
    have grid : OnGrid scale weights.sum :=
      exactOn_decimal.sum fun x member => (stored x member).grid
    have margin := margin_of_lt grid sumNonneg supplyStored less few
    refine drain_of_margin halfUnit (by norm_num [halfUnit])
      (by norm_num [halfUnit]) decimal_close rateNonneg nonneg fundNonneg ?_
    have rateLe := (decimal_close _ quotient).2
    calc weights.sum * decimal (fund / pool.lpTokenSupply) * (1 + halfUnit)
        ≤ weights.sum * (fund / pool.lpTokenSupply * (1 + halfUnit)) * (1 + halfUnit) := by
          refine mul_le_mul_of_nonneg_right ?_ (by norm_num [halfUnit])
          exact mul_le_mul_of_nonneg_left rateLe sumNonneg
      _ = weights.sum * (1 + halfUnit) ^ 2 * (fund / pool.lpTokenSupply) := by ring
      _ ≤ pool.lpTokenSupply * (1 - halfUnit) ^ weights.length *
          (fund / pool.lpTokenSupply) := mul_le_mul_of_nonneg_right margin quotient
      _ = fund * (1 - halfUnit) ^ weights.length := by
          field_simp
  · refine drain_of_paidExactly (fun x y => roundSig_le (by norm_num)) rateNonneg nonneg ?_
      (exactOn_decimal.round_eq fundGrid fundNonneg fundLe) exactly
    calc weights.sum * decimal (fund / pool.lpTokenSupply)
        ≤ weights.sum * (fund / pool.lpTokenSupply) :=
          mul_le_mul_of_nonneg_left notUp (List.sum_nonneg nonneg)
      _ ≤ pool.lpTokenSupply * (fund / pool.lpTokenSupply) :=
          mul_le_mul_of_nonneg_right (total ▸ within) quotient
      _ = fund := mul_div_cancel₀ fund supplyPos.ne'

theorem completes_pool (now : Timestamp) {row : Market}
    (found : db.markets.find? market = some row) (recorded : row.winningOutcomeId = some winning)
    (sharesOut : SharesOut (providersFund scan db winning pool) pool.lpTokenSupply
      (scan.lpShares.map LPShare.lpTokens)) :
    ∃ settled, settleMarket decimal now false scan db market winning = .ok (some settled) := by
  obtain ⟨paid, swept, paidOk, sweptOk, sweptPool⟩ := funded.first_stages isPool now
  obtain ⟨left, drained⟩ := Option.isSome_iff_exists.mp (funded.shares_fit isPool sharesOut)
  have read := funded.reads.lpShares pool isPool
  have within := funded.within pool isPool
  have supply := funded.supply pool isPool
  have total : (scan.lpShares.map LPShare.lpTokens).sum = Settlement.tokens db pool.key :=
    (read.map _).sum_eq
  have stored : ∀ x ∈ scan.lpShares.map LPShare.lpTokens, Stored x := by
    intro x member
    obtain ⟨share, shareMember, rfl⟩ := List.mem_map.mp member
    exact funded.tokens pool isPool share (read.mem_iff.mp shareMember)
  have outstanding : roundedSum decimal (scan.lpShares.map LPShare.lpTokens) =
      Settlement.tokens db pool.key := by
    rw [roundedSum_eq exactOn_decimal (fun x member => (stored x member).grid)
      (fun x member => (stored x member).nonneg) (by linarith [supply.lt]), total]
  obtain ⟨final, finalOk, _⟩ := redeemLoop_spec sweptPool drained
  have stages : Stages decimal now scan db market winning paid swept final := by
    refine ⟨paidOk, sweptOk, ?_⟩
    unfold redeemShares
    simp only [sweptPool, outstanding]
    rw [if_neg (not_lt.mpr within)]
    exact finalOk
  exact ⟨_, settleMarket_stages found recorded (funded.preflight_ok isPool) stages⟩

end Pool

end Funded

/-- A funded settlement completes in the decimal context when the providers' shares leave a
margin or are not rounded up. -/
theorem settlement_completes (funded : Funded scan db market winning)
    (sharesOut : ∀ pool, settlementPool db.pools market winning = some pool →
      SharesOut (providersFund scan db winning pool) pool.lpTokenSupply
        (scan.lpShares.map LPShare.lpTokens)) (now : Timestamp) (done : Bool) :
    ∃ result, settleMarket decimal now done scan db market winning = .ok result := by
  by_cases isDone : done = true
  · exact ⟨none, by simp [settleMarket, isDone]⟩
  rw [Bool.not_eq_true] at isDone
  subst isDone
  cases found : db.markets.find? market with
  | none => exact ⟨none, by simp [settleMarket, found]⟩
  | some row =>
      by_cases recorded : row.winningOutcomeId = some winning
      · cases isPool : settlementPool db.pools market winning with
        | none =>
            obtain ⟨settled, ok⟩ := funded.completes_none now found recorded isPool
            exact ⟨some settled, ok⟩
        | some pool =>
            obtain ⟨settled, ok⟩ := funded.completes_pool isPool now found recorded
              (sharesOut pool isPool)
            exact ⟨some settled, ok⟩
      · exact ⟨none, by simp [settleMarket, found, recorded]⟩

end Completion

/-! # One provider, two residuals

A pool with three tokens, all held by user 4.
-/

def threeTokens : Table LPShare.key := ⟨[⟨⟨1, none⟩, 4, 3, 3⟩], by decide⟩

theorem threeTokens_funded {collateral : ℚ} (stored : Stored collateral) :
    Funded (scanOf (decided .empty collateral 0 3 threeTokens))
      (decided .empty collateral 0 3 threeTokens) 1 1 := by
  have amounts : Stored 0 ∧ Stored 3 := by decide +kernel
  have noPosition : ∀ position ∈ unsettled (decided .empty collateral 0 3 threeTokens) 1,
      Stored position.sharesHeld :=
    fun position member => absurd (List.mem_of_mem_filter member) List.not_mem_nil
  refine ⟨scanOf_reads _ _ _ _ _, noPosition, ?_, ?_, ?_, ?_, ?_, ?_, ?_⟩
  · intro noPool
    exact absurd noPool (by rw [decided_pool]; simp)
  all_goals
    intro pool isPool
    cases (decided_pool _ _ _ _ _).symm.trans isPool
  · exact stored
  · exact amounts.1
  · exact amounts.2
  · intro share member
    have row : share ∈ threeTokens.rows := List.mem_of_mem_filter member
    cases List.mem_singleton.mp row
    exact amounts.2
  · change (0 : ℚ) + 0 ≤ collateral
    linarith [stored.nonneg]
  · change tokens (decided .empty 0 0 0 threeTokens) ⟨1, none⟩ ≤ 3
    decide +kernel

/-- Six dollars in three tokens divide without rounding. -/
theorem six_dollars_fit :
    ∃ result, settleMarket decimal 1 false (scanOf (decided .empty 6 0 3 threeTokens))
      (decided .empty 6 0 3 threeTokens) 1 1 = .ok result := by
  refine settlement_completes (threeTokens_funded (by decide +kernel)) (fun pool isPool => ?_) 1
    false
  cases (decided_pool _ _ _ _ _).symm.trans isPool
  exact .inr ⟨by decide +kernel, paidExactly_singleton _ _ _ _⟩

/-- Five dollars in three tokens: the rate is rounded up, and three times the rate is more
than five. -/
theorem five_dollars_do_not_fit :
    Funded (scanOf (decided .empty 5 0 3 threeTokens)) (decided .empty 5 0 3 threeTokens) 1 1 ∧
      settleMarket decimal 1 false (scanOf (decided .empty 5 0 3 threeTokens))
        (decided .empty 5 0 3 threeTokens) 1 1 = .error .escrowShortfall := by
  refine ⟨threeTokens_funded (by decide +kernel), ?_⟩
  have failed : (match settleMarket decimal 1 false (scanOf (decided .empty 5 0 3 threeTokens))
      (decided .empty 5 0 3 threeTokens) 1 1 with
      | .error .escrowShortfall => true
      | _ => false) = true := by
    decide +kernel
  split at failed
  · assumption
  · exact absurd failed (by simp)

end PredictX.Settlement
