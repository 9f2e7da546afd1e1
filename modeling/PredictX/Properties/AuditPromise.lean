import PredictX.Services.EscrowAudit
import PredictX.Api.Resolution
import PredictX.Properties.SettlementPayouts

namespace PredictX.EscrowAudit

open PredictX.Data PredictX.Settlement PredictX.Resolution

/-! What a clean audit promises.

The audit checks every pool against the market's largest side, and the settlement pays out
of one pool.  They agree whenever that pool exists: the audit is content with any pool of
the market, the settlement is not.
-/

def recordWinner (winning : OutcomeId) (row : Market) : Market :=
  { row with winningOutcomeId := some winning }

/-- The market decided for one of its outcomes, everything else as it stands. -/
def decidedFor (db : Database) (market : MarketId) (winning : OutcomeId) : Database :=
  { db with markets := db.markets.modify market (recordWinner winning) }

section Exact

variable {scan : Scan} {db : Database} {market : MarketId} {winning : OutcomeId}
  {pool : LiquidityPool} {row : Market}

theorem settles_unpooled (now : Timestamp) (found : db.markets.find? market = some row)
    (recorded : row.winningOutcomeId = some winning) (reads : scan.Reads db market winning)
    (shares : ∀ position ∈ unsettled db market, 0 ≤ position.sharesHeld)
    (noPool : settlementPool db.pools market winning = none)
    (nothing : owed db market winning ≤ 0) :
    ∃ settled, settleMarket id now false scan db market winning = .ok (some settled) := by
  have nonneg : ∀ row ∈ scan.positions, 0 ≤ row.sharesHeld := fun row member =>
    shares row (reads.positions.mem_iff.mp member)
  have idle : wins (openLedger db market winning).wallets winning scan.positions = [] :=
    wins_eq_nil _ nonneg (reads.sum_owed ▸ nothing)
  obtain ⟨paid, paidOk, paidPool⟩ := settlePositions_idle id now market idle
  have paidNone : paid.pool = none := paidPool.trans noPool
  have stages : Stages id now scan db market winning paid paid paid :=
    ⟨paidOk, by rw [sweepFees, paidNone], by rw [redeemShares, paidNone]⟩
  refine ⟨_, settleMarket_stages found recorded ?_ stages⟩
  rw [noPool, preflight, reads.winnerTotal_eq shares]
  exact if_neg (not_lt.mpr nothing)

theorem settles_pooled (now : Timestamp) (found : db.markets.find? market = some row)
    (recorded : row.winningOutcomeId = some winning) (reads : scan.Reads db market winning)
    (shares : ∀ position ∈ unsettled db market, 0 ≤ position.sharesHeld)
    (isPool : settlementPool db.pools market winning = some pool) (fees : 0 ≤ pool.protocolFees)
    (covered : owed db market winning + pool.protocolFees ≤ pool.collateral)
    (within : tokens db pool.key ≤ pool.lpTokenSupply) :
    ∃ settled, settleMarket id now false scan db market winning = .ok (some settled) := by
  have nonneg : ∀ row ∈ scan.positions, 0 ≤ row.sharesHeld := fun row member =>
    shares row (reads.positions.mem_iff.mp member)
  have paidAtMost : ((wins (openLedger db market winning).wallets winning scan.positions).map
      Payout.debited).sum ≤ _ := wins_le_sum _ nonneg
  rw [reads.sum_owed] at paidAtMost
  obtain ⟨paid, paidOk, paidPool⟩ := settlePositions_spec now market
    (exactOn_id pool.collateral) isPool trivial le_rfl (fun _ _ => trivial) (by linarith)
  obtain ⟨swept, sweptOk, sweptPool⟩ := sweepFees_spec id market (openTreasury db).1
    paidPool fees (by dsimp only; linarith) rfl
  obtain ⟨final, finalOk, _⟩ := (reads.redeemShares_fund isPool (by dsimp only; linarith)
    sweptPool).2 within
  refine ⟨_, settleMarket_stages found recorded ?_ ⟨paidOk, sweptOk, finalOk⟩⟩
  rw [isPool, preflight, reads.winnerTotal_eq shares]
  exact if_neg (not_lt.mpr covered)

end Exact

section Audit

variable {db : Database} {market : MarketId} {marketIds : Option (List MarketId)}
  {pool : LiquidityPool} {winning : OutcomeId}

theorem owed_eq_sideShares (db : Database) (market : MarketId) (winning : OutcomeId) :
    owed db market winning = sideShares db market winning := by
  unfold owed sideShares
  induction unsettled db market with
  | nil => rfl
  | cons position rest ih =>
      rw [List.map_cons, List.sum_cons, ih, payoutOf, List.filter_cons]
      by_cases winner : position.outcomeId = winning
      · simp [winner]
      · simp [winner]

/-- An outcome without unsettled rows is owed nothing. -/
theorem owed_of_not_mem (absent : winning ∉ sides db market) : owed db market winning = 0 := by
  refine List.sum_eq_zero fun value member => ?_
  obtain ⟨position, positionMember, rfl⟩ := List.mem_map.mp member
  refine if_neg fun winner => absent ?_
  rw [sides, List.mem_dedup, ← winner]
  exact List.mem_map_of_mem positionMember

theorem le_of_below_eq_nil {kind : Kind} {amount available : ℚ}
    (quiet : below market kind amount available = []) : amount ≤ available := by
  by_contra more
  simp [below, not_le.mp more] at quiet

/-- What the audit found in order about one pool. -/
structure InOrder (db : Database) (pool : LiquidityPool) : Prop where
  covered : ∀ winning, owed db pool.marketId winning + pool.protocolFees ≤ pool.collateral
  within : tokens db pool.key ≤ pool.lpTokenSupply

theorem inOrder_of_quiet (quiet : auditPool db pool = []) : InOrder db pool := by
  simp only [auditPool, List.append_eq_nil_iff] at quiet
  obtain ⟨⟨⟨obligations, fees⟩, drift⟩, _⟩ := quiet
  refine ⟨fun winning => ?_, le_of_below_eq_nil drift⟩
  by_cases side : winning ∈ sides db pool.marketId
  · cases worst : worstOutcome db pool.marketId with
    | none =>
        have none_ : sides db pool.marketId = [] := List.argmax_eq_none.mp worst
        rw [none_] at side
        exact absurd side List.not_mem_nil
    | some outcome =>
        rw [worst] at obligations
        have largest := le_of_below_eq_nil obligations
        have atMost : sideShares db pool.marketId winning ≤
            sideShares db pool.marketId outcome := List.le_of_mem_argmax side worst
        rw [owed_eq_sideShares]
        linarith
  · rw [owed_of_not_mem side, zero_add]
    exact le_of_below_eq_nil fees

theorem auditPool_marketId {violation : EscrowViolation} (member : violation ∈ auditPool db pool) :
    violation.marketId = pool.marketId := by
  have names : ∀ {kind : Kind} {amount available : ℚ},
      violation ∈ below pool.marketId kind amount available →
        violation.marketId = pool.marketId := by
    intro kind amount available reported
    unfold below at reported
    split at reported
    · rw [List.mem_singleton.mp reported]
    · exact absurd reported List.not_mem_nil
  simp only [auditPool, List.mem_append] at member
  rcases member with ((obligations | fees) | drift) | negative
  · split at obligations
    · exact absurd obligations List.not_mem_nil
    · exact names obligations
  · exact names fees
  · exact names drift
  · split at negative
    · rw [List.mem_singleton.mp negative]
    · exact absurd negative List.not_mem_nil

/-- A market without violations has all its pools in order. -/
theorem inOrder_of_clean (asked : wanted marketIds market = true)
    (exists_ : (db.markets.find? market).isSome = true)
    (clean : ∀ violation ∈ auditEscrowInvariants db marketIds, violation.marketId ≠ market)
    (member : pool ∈ db.pools.rows) (ofMarket : pool.marketId = market) : InOrder db pool := by
  have isScanned : pool ∈ scanned db marketIds := by
    simp only [scanned, List.mem_filter, Bool.and_eq_true]
    exact ⟨member, ofMarket ▸ exists_, ofMarket ▸ asked⟩
  refine inOrder_of_quiet (List.eq_nil_iff_forall_not_mem.mpr fun violation reported => ?_)
  refine clean violation (List.mem_append_right _ ?_) ((auditPool_marketId reported).trans ofMarket)
  exact List.mem_flatMap.mpr ⟨pool, isScanned, reported⟩

theorem settlementPool_mem (isPool : settlementPool db.pools market winning = some pool) :
    pool ∈ db.pools.rows ∧ pool.marketId = market := by
  unfold settlementPool at isPool
  split at isPool
  · rename_i own
    cases isPool
    exact ⟨Table.mem_of_find? own, congrArg PoolKey.marketId (Table.key_of_find? own)⟩
  · exact ⟨Table.mem_of_find? isPool, congrArg PoolKey.marketId (Table.key_of_find? isPool)⟩

/-- After a clean audit every settlement is funded exactly when every outcome with
unsettled shares has a pool to be paid from. -/
theorem clean_audit_funds_iff {row : Market} (found : db.markets.find? market = some row)
    (shares : ∀ position ∈ unsettled db market, 0 ≤ position.sharesHeld)
    (fees : ∀ pool ∈ db.pools.rows, 0 ≤ pool.protocolFees)
    (asked : wanted marketIds market = true)
    (clean : ∀ violation ∈ auditEscrowInvariants db marketIds, violation.marketId ≠ market) :
    (∀ winning, (outcomeOf db market winning).isSome = true →
      ∀ now scan, scan.Reads db market winning →
        settleMarket id now false scan (decidedFor db market winning) market winning ≠
          .error .escrowShortfall) ↔
    ∀ winning, (outcomeOf db market winning).isSome = true → 0 < owed db market winning →
      (settlementPool db.pools market winning).isSome = true := by
  have decided : ∀ winning, (decidedFor db market winning).markets.find? market =
      some (recordWinner winning row) := by
    intro winning
    unfold decidedFor
    rw [Table.find?_modify_self, found]
    rfl
  constructor
  · intro funded winning isOutcome positive
    by_contra unpooled
    have noPool : settlementPool db.pools market winning = none := by
      simpa using unpooled
    have reads : Scan.Reads ⟨unsettled db market, []⟩ db market winning :=
      ⟨.refl _, fun pool isPool => absurd (noPool.symm.trans isPool) (by simp)⟩
    refine funded winning isOutcome 0 _ reads ?_
    have checked : preflight id winning (unsettled db market)
        (settlementPool db.pools market winning) = .error .escrowShortfall := by
      have total := reads.winnerTotal_eq shares
      dsimp only at total
      rw [noPool, preflight, total]
      exact if_pos positive
    have samePools : (decidedFor db market winning).pools = db.pools := rfl
    simp only [settleMarket, Bool.false_eq_true, if_false, decided winning, recordWinner, ne_eq,
      not_true_eq_false, samePools, checked]
  · intro pooled winning isOutcome now scan reads failed
    cases isPool : settlementPool db.pools market winning with
    | none =>
        have nothing : owed db market winning ≤ 0 := by
          by_contra positive
          have some_ := pooled winning isOutcome (not_le.mp positive)
          rw [isPool] at some_
          contradiction
        obtain ⟨settled, ok⟩ := settles_unpooled now (decided winning) rfl
          ⟨reads.positions, reads.lpShares⟩ shares isPool nothing
        exact absurd (failed.symm.trans ok) (by simp)
    | some pool =>
        obtain ⟨member, ofMarket⟩ := settlementPool_mem isPool
        obtain ⟨covered, within⟩ := inOrder_of_clean asked (by rw [found]; rfl) clean member ofMarket
        have enough := covered winning
        rw [ofMarket] at enough
        obtain ⟨settled, ok⟩ := settles_pooled now (decided winning) rfl
          ⟨reads.positions, reads.lpShares⟩ shares isPool (fees pool member) enough within
        exact absurd (failed.symm.trans ok) (by simp)

end Audit

/-! # A market with one of its pools missing

Users 2 and 3 hold shares of outcomes 1 and 2; only the pools listed exist.
-/

def namedMarket (pools : Table LiquidityPool.key) : Database :=
  { decided twoHolders 0 0 0 .empty with
    pools := pools
    outcomes := ⟨[⟨1, 1, .named "red", 0⟩, ⟨2, 1, .named "blue", 1⟩], by decide⟩ }

def ownPool (outcome : OutcomeId) : LiquidityPool :=
  ⟨1, some outcome, 100, 0, 100, 2 / 100, 0, 0⟩

/-- Outcome 2 has holders and no pool; the audit reports nothing and the settlement fails. -/
theorem unpooled_outcome_passes_audit :
    auditEscrowInvariants (namedMarket ⟨[ownPool 1], by decide⟩) none = [] ∧
      (outcomeOf (namedMarket ⟨[ownPool 1], by decide⟩) 1 2).isSome = true ∧
      settleMarket id 1 false (scanOf (namedMarket ⟨[ownPool 1], by decide⟩))
        (decidedFor (namedMarket ⟨[ownPool 1], by decide⟩) 1 2) 1 2 =
          .error .escrowShortfall := by
  refine ⟨by decide +kernel, by decide +kernel, ?_⟩
  have failed : (match settleMarket id 1 false (scanOf (namedMarket ⟨[ownPool 1], by decide⟩))
      (decidedFor (namedMarket ⟨[ownPool 1], by decide⟩) 1 2) 1 2 with
      | .error .escrowShortfall => true
      | _ => false) = true := by
    decide +kernel
  split at failed
  · assumption
  · exact absurd failed (by simp)

/-- With both pools in place every outcome can be settled. -/
theorem pooled_outcomes_are_funded :
    0 < owed (namedMarket ⟨[ownPool 1, ownPool 2], by decide⟩) 1 2 ∧
    ∀ winning, (outcomeOf (namedMarket ⟨[ownPool 1, ownPool 2], by decide⟩) 1 winning).isSome =
        true →
      ∀ now scan, scan.Reads (namedMarket ⟨[ownPool 1, ownPool 2], by decide⟩) 1 winning →
        settleMarket id now false scan
          (decidedFor (namedMarket ⟨[ownPool 1, ownPool 2], by decide⟩) 1 winning) 1 winning ≠
            .error .escrowShortfall := by
  have asked : wanted none 1 = true := rfl
  have clean : ∀ violation ∈
      auditEscrowInvariants (namedMarket ⟨[ownPool 1, ownPool 2], by decide⟩) none,
      violation.marketId ≠ 1 := by
    decide +kernel
  refine ⟨by decide +kernel, ?_⟩
  refine (clean_audit_funds_iff rfl (by decide +kernel) (by decide +kernel) asked clean).mpr ?_
  intro winning isOutcome _
  obtain ⟨outcome, isRow⟩ := Option.isSome_iff_exists.mp isOutcome
  unfold outcomeOf at isRow
  split at isRow
  · contradiction
  rename_i row found
  have member : row = ⟨1, 1, .named "red", 0⟩ ∨ row = ⟨2, 1, .named "blue", 1⟩ := by
    simpa [namedMarket] using Table.mem_of_find? found
  rw [← Table.key_of_find? found]
  rcases member with rfl | rfl
  · decide +kernel
  · decide +kernel

end PredictX.EscrowAudit
