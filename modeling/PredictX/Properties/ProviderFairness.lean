import PredictX.Properties.ProviderLedger
import PredictX.Properties.EscrowSolvency
import PredictX.Properties.PayOnce

namespace PredictX.Providers

open PredictX.Data PredictX.MarketService PredictX.LiquidityService PredictX.Settlement

/-! Whether the providers of a binary pool are treated alike.

A provider's tokens are a fraction of the supply, and the supply is what the provider rows
add up to.  A settlement burns the rows and leaves the supply, but then the escrow it shared
out is empty and the market trades no more.
-/

/-- The tokens of a pool's provider rows. -/
def poolTokens (shares : Table LPShare.key) (pool : PoolKey) : ℚ :=
  shares.sum fun share => if share.pool = pool then share.lpTokens else 0

/-- What holds of pools and providers in every reachable state. -/
structure Sound (db : Database) : Prop where
  reserves : ∀ pool ∈ db.pools.rows, 0 ≤ pool.yesShares ∧ 0 ≤ pool.noShares
  tokens : ∀ share ∈ db.lpShares.rows, 0 ≤ share.lpTokens
  supply : ∀ pool ∈ db.pools.rows, pool.lpTokenSupply = poolTokens db.lpShares pool.key ∨
    pool.collateral ≤ 0 ∧ ¬ Trading db.markets pool.marketId
  undecided : ∀ row ∈ db.markets.rows, Live row → row.winningOutcomeId = none

section Tokens

variable {shares : Table LPShare.key} {key : LPShareKey} {pool : PoolKey} {minted amount : ℚ}

theorem poolTokens_creditShare :
    poolTokens (creditShare shares key minted amount) pool =
      poolTokens shares pool + if key.pool = pool then minted else 0 := by
  unfold creditShare poolTokens
  cases found : shares.find? key with
  | some share =>
      have isKey := Table.key_of_find? found
      refine Table.sum_modify_add found ?_
      rw [← isKey]
      by_cases same : share.pool = pool
      · simp [addTokens, LPShare.key, same]
      · simp [addTokens, LPShare.key, same]
  | none =>
      exact Table.sum_insert (⟨key.pool, key.userId, minted, amount⟩ : LPShare) found

theorem find?_creditShare {other : LPShareKey} (apart : other ≠ key) :
    (creditShare shares key minted amount).find? other = shares.find? other := by
  unfold creditShare
  split
  · exact Table.find?_modify_ne apart
  · exact Table.find?_insert_ne (⟨key.pool, key.userId, minted, amount⟩ : LPShare) apart

theorem creditShare_nonneg (nonneg : ∀ share ∈ shares.rows, 0 ≤ share.lpTokens)
    (mintedNonneg : 0 ≤ minted) :
    ∀ share ∈ (creditShare shares key minted amount).rows, 0 ≤ share.lpTokens := by
  unfold creditShare
  split
  · intro share member
    obtain ⟨old, oldMember, rfl⟩ := Table.mem_modify.mp member
    split
    · exact add_nonneg (nonneg old oldMember) mintedNonneg
    · exact nonneg old oldMember
  · intro share member
    rcases Table.mem_insert member with old | rfl
    · exact nonneg share old
    · exact mintedNonneg

theorem poolTokens_burnTokens {share : LPShare} {lpTokens redeemed : ℚ}
    (found : shares.find? key = some share) :
    poolTokens (shares.modify key (burnTokens lpTokens redeemed)) pool =
      poolTokens shares pool - if key.pool = pool then lpTokens else 0 := by
  unfold poolTokens
  rw [sub_eq_add_neg]
  refine Table.sum_modify_add found ?_
  rw [← Table.key_of_find? found]
  by_cases same : share.pool = pool
  · simp [burnTokens, LPShare.key, same, sub_eq_add_neg]
  · simp [burnTokens, LPShare.key, same]

/-- A provider has at most the tokens of her pool. -/
theorem lpTokens_le_poolTokens (nonneg : ∀ share ∈ shares.rows, 0 ≤ share.lpTokens)
    {share : LPShare} (member : share ∈ shares.rows) :
    share.lpTokens ≤ poolTokens shares share.pool := by
  have each : ∀ other ∈ shares.rows,
      0 ≤ if other.pool = share.pool then other.lpTokens else 0 := by
    intro other row
    split
    · exact nonneg other row
    · exact le_rfl
  have part : _ ≤ poolTokens shares share.pool := Table.le_sum each member
  simpa using part

end Tokens

section Steps

variable {db after : Database}

/-- A step without a deposit or a withdrawal. -/
theorem Sound.linked (sound : Sound db) (pools : Table.Linked (Kept db.markets) db.pools after.pools)
    (markets : Table.Linked Lasts db.markets after.markets)
    (tokens : ∀ share ∈ after.lpShares.rows, 0 ≤ share.lpTokens)
    (supply : ∀ pool ∈ after.pools.rows,
      poolTokens after.lpShares pool.key = poolTokens db.lpShares pool.key ∨
        pool.collateral ≤ 0 ∧ ¬ Trading after.markets pool.marketId) : Sound after := by
  refine ⟨fun pool member => ?_, tokens, fun pool member => ?_, fun row member live => ?_⟩
  · obtain ⟨old, found, kept⟩ := pools.backward (Table.find?_key_of_mem member)
    exact kept.reserves (sound.reserves old (Table.mem_of_find? found))
  · rcases supply pool member with same | idle
    · obtain ⟨old, found, kept⟩ := pools.backward (Table.find?_key_of_mem member)
      have isKey : old.key = pool.key := Table.key_of_find? found
      rw [same, kept.supply, ← isKey, kept.market]
      rcases sound.supply old (Table.mem_of_find? found) with whole | ⟨empty, dead⟩
      · exact .inl whole
      · refine .inr ⟨?_, fun trading => dead (.of_linked markets trading)⟩
        exact (kept.escrow.resolve_left dead).trans empty
    · exact .inr idle
  · obtain ⟨old, found, lasts⟩ := markets.backward (Table.find?_key_of_mem member)
    obtain ⟨oldLive, winner⟩ := lasts live
    rw [winner]
    exact sound.undecided old (Table.mem_of_find? found) oldLive

theorem Sound.moves (sound : Sound db) (moved : Moves db.markets db after) : Sound after := by
  refine sound.linked moved.pools (moved.markets.mono Aged.lasts) ?_ fun pool _ => .inl ?_
  · rw [moved.lpShares]
    exact sound.tokens
  · rw [moved.lpShares]

theorem Sound.supply_of_trading (sound : Sound db) {pool : LiquidityPool}
    (found : db.pools.find? pool.key = some pool) (trading : Trading db.markets pool.marketId) :
    pool.lpTokenSupply = poolTokens db.lpShares pool.key :=
  (sound.supply pool (Table.mem_of_find? found)).resolve_right fun idle => idle.2 trading

/-- A call that rewrites one pool of a trading market and the market's total. -/
theorem Sound.rewrite (sound : Sound db) {pool : LiquidityPool} {market : MarketId}
    {change : LiquidityPool → LiquidityPool} (total : Market → Market)
    (keeps : ∀ row, (change row).key = row.key) (keepsId : ∀ row, (total row).id = row.id)
    (found : db.pools.find? pool.key = some pool)
    (pools : after.pools = db.pools.modify pool.key change keeps)
    (markets : after.markets = db.markets.modify market total keepsId)
    (status : ∀ row, (total row).status = row.status ∧
      (total row).winningOutcomeId = row.winningOutcomeId)
    (reserves : 0 ≤ (change pool).yesShares ∧ 0 ≤ (change pool).noShares)
    (tokens : ∀ share ∈ after.lpShares.rows, 0 ≤ share.lpTokens)
    (supply : (change pool).lpTokenSupply = poolTokens after.lpShares pool.key)
    (others : ∀ key, key ≠ pool.key → poolTokens after.lpShares key = poolTokens db.lpShares key) :
    Sound after := by
  have linked : Table.Linked Lasts db.markets after.markets := by
    rw [markets]
    refine .modifyAny (fun row => (Aged.refl row).lasts) keepsId fun row _ live => ?_
    obtain ⟨sameStatus, sameWinner⟩ := status row
    refine ⟨?_, sameWinner⟩
    unfold Live at live ⊢
    rwa [sameStatus] at live
  have row : ∀ other, after.pools.find? other.key = some other →
      other = change pool ∧ other.key = pool.key ∨
        db.pools.find? other.key = some other ∧ other.key ≠ pool.key := by
    intro other here
    rw [pools] at here
    by_cases same : other.key = pool.key
    · rw [same, Table.find?_modify_self, found, Option.map_some] at here
      exact .inl ⟨(Option.some.inj here).symm, same⟩
    · rw [Table.find?_modify_ne same] at here
      exact .inr ⟨here, same⟩
  refine ⟨fun other member => ?_, tokens, fun other member => ?_, fun other member live => ?_⟩
  · rcases row other (Table.find?_key_of_mem member) with ⟨rfl, _⟩ | ⟨here, _⟩
    · exact reserves
    · exact sound.reserves other (Table.mem_of_find? here)
  · rcases row other (Table.find?_key_of_mem member) with ⟨rfl, same⟩ | ⟨here, apart⟩
    · rw [same]
      exact .inl supply
    · rw [others _ apart]
      rcases sound.supply other (Table.mem_of_find? here) with same | ⟨empty, dead⟩
      · exact .inl same
      · exact .inr ⟨empty, fun trading => dead (.of_linked linked trading)⟩
  · obtain ⟨old, here, lasts⟩ := linked.backward (Table.find?_key_of_mem member)
    obtain ⟨oldLive, winner⟩ := lasts live
    rw [winner]
    exact sound.undecided old (Table.mem_of_find? here) oldLive

theorem lpTokensMinted_nonneg {pool : LiquidityPool} {amount minted : ℚ} (nonneg : 0 ≤ amount)
    (priced : lpTokensMinted pool amount = .ok minted) : 0 ≤ minted := by
  unfold lpTokensMinted at priced
  split at priced
  · rename_i supplied
    split at priced
    · contradiction
    rename_i funded
    cases priced
    exact div_nonneg (mul_nonneg nonneg supplied.le) (not_le.mp funded).le
  · cases priced
    linarith

theorem Sound.deposit (sound : Sound db) {user : UserId} {market : MarketId}
    {amount tolerance : ℚ} {outcome : Option OutcomeName} {deposited : Deposited}
    (ran : addLiquidity db user market amount tolerance outcome = .ok deposited) :
    Sound deposited.db := by
  obtain ⟨row, pool, wallet, minted, marketFound, active, resolved, _, _, priced, nonneg, rfl⟩ :=
    addLiquidity_ok ran
  obtain ⟨found, ofMarket, _⟩ := resolveLiquidityPool_ok resolved
  have trading : Trading db.markets pool.marketId := ofMarket ▸ ⟨row, marketFound, .inl active⟩
  have mintedNonneg := lpTokensMinted_nonneg nonneg priced
  obtain ⟨yes, no⟩ := sound.reserves pool (Table.mem_of_find? found)
  refine sound.rewrite (addTotalLiquidity amount) (BinaryMarket.writeLiquidity_key _)
    (fun _ => rfl) found rfl rfl (fun _ => ⟨rfl, rfl⟩) ?_
    (creditShare_nonneg sound.tokens mintedNonneg) ?_ fun key apart => ?_
  · rw [BinaryMarket.writeLiquidity_deposit]
    have grows : 0 ≤ (growReserves amount pool).yesShares ∧
        0 ≤ (growReserves amount pool).noShares := by
      unfold growReserves
      dsimp only
      split
      · exact ⟨by positivity, by positivity⟩
      · exact ⟨by positivity, by positivity⟩
    exact grows
  · rw [BinaryMarket.writeLiquidity_deposit]
    change pool.lpTokenSupply + minted = poolTokens (creditShare _ _ _ _) pool.key
    rw [poolTokens_creditShare, if_pos rfl, sound.supply_of_trading found trading]
  · change poolTokens (creditShare _ _ _ _) key = _
    rw [poolTokens_creditShare, if_neg (Ne.symm apart), add_zero]

theorem Sound.withdraw (sound : Sound db) {user : UserId} {market : MarketId}
    {lpTokens tolerance : ℚ} {outcome : Option OutcomeName} {withdrawn : Withdrawn}
    (positive : 0 < lpTokens)
    (ran : removeLiquidity db user market lpTokens tolerance outcome = .ok withdrawn) :
    Sound withdrawn.db := by
  obtain ⟨row, pool, _, share, left, marketFound, active, resolved, _, held, enough, supplied, _,
    debited, rfl⟩ := removeLiquidity_ok ran
  obtain ⟨found, ofMarket, _⟩ := resolveLiquidityPool_ok resolved
  obtain ⟨isLeft, _⟩ := debitCollateral_eq debited
  have trading : Trading db.markets pool.marketId := ofMarket ▸ ⟨row, marketFound, .inl active⟩
  have supply := sound.supply_of_trading found trading
  have isKey : share.key = ⟨pool.key, user⟩ := Table.key_of_find? held
  have ofPool : share.pool = pool.key := congrArg LPShareKey.pool isKey
  have atMost : lpTokens ≤ pool.lpTokenSupply := by
    rw [supply, ← ofPool]
    exact enough.trans (lpTokens_le_poolTokens sound.tokens (Table.mem_of_find? held))
  have fraction : lpTokens / pool.lpTokenSupply ≤ 1 :=
    (div_le_one (positive.trans_le atMost)).mpr atMost
  obtain ⟨yes, no⟩ := sound.reserves pool (Table.mem_of_find? found)
  refine sound.rewrite (dropTotalLiquidity (pool.collateral * (lpTokens / pool.lpTokenSupply)))
    (BinaryMarket.writeLiquidity_key _) (fun _ => rfl) found rfl rfl
    (fun _ => ⟨rfl, rfl⟩) ?_ (fun other member => ?_) ?_ fun key apart => ?_
  · rw [isLeft]
    exact ⟨sub_nonneg.mpr (mul_le_of_le_one_right yes fraction),
      sub_nonneg.mpr (mul_le_of_le_one_right no fraction)⟩
  · dsimp only at member
    obtain ⟨old, oldMember, rfl⟩ := Table.mem_modify.mp member
    split
    · rename_i same
      have isShare : old = share := by
        have here := Table.find?_key_of_mem oldMember
        rw [same, isKey, held] at here
        exact (Option.some.inj here).symm
      rw [isShare]
      exact sub_nonneg.mpr enough
    · exact sound.tokens old oldMember
  · rw [isLeft]
    dsimp only [writeLiquidity, shrinkReserves]
    rw [isKey, poolTokens_burnTokens held, if_pos rfl, supply]
  · dsimp only
    rw [isKey, poolTokens_burnTokens held, if_neg (Ne.symm apart), sub_zero]

end Steps

/-! # Settlements -/

section Settle

variable {shares : Table LPShare.key} {wallets : Table Wallet.userId} {rows : List LPShare}
  {rate : ℚ} {pool : PoolKey}

theorem burnRows_idle (nothing : ∀ share ∈ rows, share.lpTokens * rate ≤ 0) :
    burnRows id wallets rate rows shares = shares := by
  induction rows with
  | nil => rfl
  | cons share rest ih =>
      obtain ⟨head, tail⟩ := List.forall_mem_cons.mp nothing
      rw [burnRows, List.foldl_cons, if_neg fun paid => paid.1.not_ge head]
      exact ih tail

theorem poolTokens_burnRows (apart : ∀ share ∈ rows, share.pool ≠ pool) :
    poolTokens (burnRows id wallets rate rows shares) pool = poolTokens shares pool := by
  induction rows generalizing shares with
  | nil => rfl
  | cons share rest ih =>
      obtain ⟨head, tail⟩ := List.forall_mem_cons.mp apart
      rw [burnRows, List.foldl_cons, ← burnRows, ih tail]
      split
      · refine Table.sum_modify_eq fun row isKey => ?_
        have other : row.pool ≠ pool := by
          rw [show row.pool = share.pool from congrArg LPShareKey.pool isKey]
          exact head
        rw [if_neg other, if_neg (show (burn row).pool ≠ pool from other)]
      · rfl

theorem burn_nonneg {key : LPShareKey} (nonneg : ∀ share ∈ shares.rows, 0 ≤ share.lpTokens) :
    ∀ share ∈ (shares.modify key burn).rows, 0 ≤ share.lpTokens := by
  intro share member
  obtain ⟨old, oldMember, rfl⟩ := Table.mem_modify.mp member
  split
  · exact le_rfl
  · exact nonneg old oldMember

theorem burnRows_nonneg (nonneg : ∀ share ∈ shares.rows, 0 ≤ share.lpTokens) :
    ∀ share ∈ (burnRows id wallets rate rows shares).rows, 0 ≤ share.lpTokens := by
  induction rows generalizing shares with
  | nil => exact nonneg
  | cons share rest ih =>
      rw [burnRows, List.foldl_cons, ← burnRows]
      split
      · exact ih (burn_nonneg nonneg)
      · exact ih nonneg

/-- The rows a settlement reads hold all tokens of the pool. -/
theorem sum_liveShares {db : Database} (nonneg : ∀ share ∈ db.lpShares.rows, 0 ≤ share.lpTokens) :
    ((liveShares db pool).map LPShare.lpTokens).sum = poolTokens db.lpShares pool := by
  unfold liveShares poolTokens Table.sum
  generalize db.lpShares.rows = rows at nonneg
  induction rows with
  | nil => rfl
  | cons share rest ih =>
      obtain ⟨head, tail⟩ := List.forall_mem_cons.mp nonneg
      rw [List.filter_cons, List.map_cons, List.sum_cons, ← ih tail]
      by_cases ofPool : share.pool = pool
      · by_cases live : 0 < share.lpTokens
        · simp [ofPool, live]
        · simp [ofPool, le_antisymm (not_lt.mp live) head]
      · simp [ofPool]

theorem drawn_id (payouts : List Payout) (collateral : ℚ) :
    drawn id payouts collateral = collateral - (payouts.map Payout.debited).sum := by
  unfold drawn
  induction payouts generalizing collateral with
  | nil => simp
  | cons payout rest ih =>
      rw [List.foldl_cons, ih, List.map_cons, List.sum_cons, id, sub_sub]

theorem sum_redemptions (positive : 0 < rate) (live : ∀ share ∈ rows, 0 < share.lpTokens) :
    ((rows.filterMap (redemption id wallets rate)).map Payout.debited).sum =
      (rows.map LPShare.lpTokens).sum * rate := by
  induction rows with
  | nil => simp
  | cons share rest ih =>
      obtain ⟨head, tail⟩ := List.forall_mem_cons.mp live
      have paid : 0 < id (share.lpTokens * rate) := mul_pos head positive
      rw [List.filterMap_cons, redemption, if_pos paid]
      simp only [List.map_cons, List.sum_cons, ih tail, add_mul, id]

theorem withdrawn_le {payouts : List Payout} {row : LiquidityPool}
    (nonneg : ∀ payout ∈ payouts, 0 ≤ payout.debited) :
    (withdrawn id payouts row).collateral ≤ row.collateral := by
  change drawn id payouts row.collateral ≤ row.collateral
  rw [drawn_id]
  refine sub_le_self _ (List.sum_nonneg ?_)
  simpa using nonneg

theorem redemptions_nonneg {pool : Option LiquidityPool} :
    ∀ payout ∈ redemptions id wallets pool rows, 0 ≤ payout.debited := by
  intro payout member
  obtain ⟨_, _, _, _, positive, rfl⟩ := mem_redemptions.mp member
  exact positive.le

variable {db : Database} {now : Timestamp} {scan : Scan} {market : MarketId}
  {winning : OutcomeId} {paid swept final : Ledger} {row : LiquidityPool} {settled : Settled}

/-- The pool as the providers find it. -/
theorem swept_pool (isPool : settlementPool db.pools market winning = some row)
    (stages : Stages id now scan db market winning paid swept final) :
    ∃ pool, swept.pool = some pool ∧ pool.key = row.key ∧
      pool.lpTokenSupply = row.lpTokenSupply ∧ pool.collateral ≤ row.collateral := by
  obtain ⟨first, _⟩ := settlePositions_paid stages.positions
  obtain ⟨second, _⟩ := sweepFees_paid stages.fees
  have escrow := second.escrow
  rw [first.escrow, show (openLedger db market winning).pool = some row from isPool,
    Option.map_some, Option.map_some] at escrow
  refine ⟨_, escrow, rfl, rfl, ?_⟩
  refine (withdrawn_le fun payout member => ?_).trans (withdrawn_le fun payout member => ?_)
  · obtain ⟨_, _, positive, rfl⟩ := mem_feePayout.mp member
    exact positive.le
  · obtain ⟨_, _, _, _, positive, rfl⟩ := mem_wins.mp member
    exact positive.le

/-- A settlement empties the escrow, unless there is no provider to share it. -/
theorem Sound.drained (sound : Sound db) (reads : scan.Reads db market winning)
    (isPool : settlementPool db.pools market winning = some row)
    (stages : Stages id now scan db market winning paid swept final) :
    ∃ pool, final.pool = some pool ∧ pool.key = row.key ∧ pool.collateral ≤ row.collateral ∧
      (pool.collateral ≤ 0 ∨
        final.lpShares = db.lpShares ∧ poolTokens db.lpShares row.key ≤ 0) := by
  obtain ⟨pool, isSwept, sameKey, sameSupply, less⟩ := swept_pool isPool stages
  obtain ⟨third, _⟩ := redeemShares_paid stages.shares
  have read := reads.lpShares row isPool
  have live : ∀ share ∈ scan.lpShares, 0 < share.lpTokens :=
    fun share member => liveShares_positive (read.mem_iff.mp member)
  have escrow := third.escrow
  rw [isSwept, Option.map_some] at escrow
  have shares := stages.shares_eq
  rw [isSwept] at shares
  dsimp only at shares
  have lowered : (withdrawn id (redemptions id swept.wallets (some pool) scan.lpShares)
      pool).collateral ≤ pool.collateral := withdrawn_le redemptions_nonneg
  refine ⟨_, escrow, sameKey, lowered.trans less, ?_⟩
  by_cases nothing : perToken id pool ≤ 0
  · have idle : final.lpShares = db.lpShares :=
      shares.trans (burnRows_idle fun share member =>
        mul_nonpos_of_nonneg_of_nonpos (live share member).le nothing)
    by_cases supplied : 0 < pool.lpTokenSupply
    · have isRate : perToken id pool = pool.collateral / pool.lpTokenSupply := if_pos supplied
      rw [isRate] at nothing
      have unfunded : pool.collateral ≤ 0 :=
        not_lt.mp fun positive => nothing.not_gt (div_pos positive supplied)
      exact .inl (lowered.trans unfunded)
    rcases sound.supply row (EscrowAudit.settlementPool_mem isPool).1 with whole | empty
    · exact .inr ⟨idle, by rw [← whole, ← sameSupply]; exact not_lt.mp supplied⟩
    · exact .inl (lowered.trans (less.trans empty.1))
  · left
    have positive := not_le.mp nothing
    have supplied : 0 < pool.lpTokenSupply := by
      by_contra none_
      rw [perToken, if_neg none_] at positive
      exact lt_irrefl _ positive
    have isRate : perToken id pool = pool.collateral / pool.lpTokenSupply := if_pos supplied
    have funded : 0 < pool.collateral := by
      rw [isRate] at positive
      exact (div_pos_iff_of_pos_right supplied).mp positive
    have whole : row.lpTokenSupply = poolTokens db.lpShares row.key := by
      refine (sound.supply row (EscrowAudit.settlementPool_mem isPool).1).resolve_right ?_
      exact fun empty => absurd (funded.trans_le less) empty.1.not_gt
    have tokens : (scan.lpShares.map LPShare.lpTokens).sum = pool.lpTokenSupply := by
      rw [(read.map LPShare.lpTokens).sum_eq, sum_liveShares sound.tokens, ← whole, sameSupply]
    change drawn id (scan.lpShares.filterMap _) pool.collateral ≤ 0
    rw [drawn_id, sum_redemptions positive live, tokens, isRate,
      mul_div_cancel₀ _ supplied.ne', sub_self]

theorem settlement_pools (isPool : settlementPool db.pools market winning = some row)
    {pool : LiquidityPool} (sameKey : pool.key = row.key)
    (less : pool.collateral ≤ row.collateral) :
    Table.Linked (Kept db.markets) db.pools (writePool db.pools (some pool)) := by
  have found : db.pools.find? pool.key = some row :=
    sameKey ▸ Table.find?_key_of_mem (EscrowAudit.settlementPool_mem isPool).1
  dsimp only [writePool]
  exact .modify (Kept.refl db.markets) _ found ⟨rfl, rfl, id, .inr less⟩

theorem Sound.settle (sound : Sound db) (reads : scan.Reads db market winning)
    (ran : settleMarket id now false scan db market winning = .ok (some settled)) :
    Sound settled.db := by
  obtain ⟨old, paid, swept, final, _, found, recorded, _, stages, rfl⟩ := settleMarket_ok ran
  have dead : ∀ row : Market, Aged row (markResolved now row) :=
    fun row => aged_of_dead (by simp [Live, markResolved]) (by simp [markResolved])
  have markets : Table.Linked Aged db.markets (db.markets.modify market (markResolved now)) :=
    .modifyAny Aged.refl _ fun row _ => dead row
  have shares := stages.shares_eq
  cases isPool : settlementPool db.pools market winning with
  | none =>
      have none_ : swept.pool = none ∧ final.pool = none := by
        obtain ⟨first, _⟩ := settlePositions_paid stages.positions
        obtain ⟨second, _⟩ := sweepFees_paid stages.fees
        have opened : (openLedger db market winning).pool = none := isPool
        refine ⟨?_, ?_⟩
        · rw [second.escrow, first.escrow, opened]
          rfl
        · rw [stages.paid.escrow, opened]
          rfl
      rw [none_.1] at shares
      refine sound.moves ⟨shares, ?_, markets⟩
      dsimp only [commitLedger]
      rw [none_.2]
      exact .refl (Kept.refl db.markets) _
  | some row =>
      obtain ⟨pool, isFinal, sameKey, less, rest⟩ := sound.drained reads isPool stages
      have pools : Table.Linked (Kept db.markets) db.pools
          (commitLedger now market (openTreasury db).2 final).pools := by
        dsimp only [commitLedger]
        rw [isFinal]
        exact settlement_pools isPool sameKey less
      rcases rest with empty | ⟨same, _⟩
      rotate_left
      · exact sound.moves ⟨same, pools, markets⟩
      obtain ⟨sweptPool, isSwept, _⟩ := swept_pool isPool stages
      rw [isSwept] at shares
      refine sound.linked pools (markets.mono Aged.lasts) ?_ fun other member => ?_
      · change ∀ share ∈ final.lpShares.rows, _
        rw [shares]
        exact burnRows_nonneg sound.tokens
      by_cases apart : other.key = row.key
      · refine .inr ⟨?_, ?_⟩
        · have written : (commitLedger now market (openTreasury db).2 final).pools.find? row.key =
              some { row with collateral := pool.collateral, protocolFees := pool.protocolFees } := by
            change (writePool db.pools final.pool).find? row.key = _
            rw [isFinal, writePool, ← sameKey, Table.find?_modify_self, sameKey,
              Table.find?_key_of_mem (EscrowAudit.settlementPool_mem isPool).1]
            rfl
          rw [← apart, Table.find?_key_of_mem member] at written
          rw [Option.some.inj written]
          exact empty
        · rintro ⟨resolved, here, live⟩
          have ofMarket : other.marketId = market :=
            (congrArg PoolKey.marketId apart).trans (EscrowAudit.settlementPool_mem isPool).2
          change (db.markets.modify market (markResolved now)).find? _ = _ at here
          rw [ofMarket, Table.find?_modify_self, found] at here
          cases here
          simp [Live, markResolved] at live
      · left
        change poolTokens final.lpShares _ = _
        rw [shares]
        refine poolTokens_burnRows fun share read => ?_
        have scanned := (reads.lpShares row isPool).mem_iff.mp read
        have ofPool : share.pool = row.key := by
          simp only [liveShares, List.mem_filter, Bool.and_eq_true, decide_eq_true_eq] at scanned
          exact scanned.2.1
        rw [ofPool]
        exact Ne.symm apart

end Settle

/-! # New markets -/

section Create

open PredictX.Markets

variable {now : Timestamp} {author : Author} {db made : Database} {market : MarketId}
  {request : CreateMarketRequest} {row : Market} {added : List LiquidityPool}
  {granted : List LPShare} {pool : LiquidityPool}

theorem newPools_unsupplied {outcomes : List Outcome} (member : pool ∈ newPools market outcomes) :
    pool.lpTokenSupply = 0 := by
  unfold newPools at member
  split at member
  · obtain ⟨_, _, rfl⟩ := List.mem_map.mp member
    rfl
  · rw [List.mem_singleton.mp member]
    rfl

theorem seedPools_supplied {outcomes : List Outcome} {pools : List LiquidityPool}
    (member : pool ∈ seedPools request outcomes pools) : 0 ≤ pool.lpTokenSupply := by
  have nonneg := request.liquidity_nonneg
  unfold seedPools at member
  split at member
  · obtain ⟨_, _, rfl⟩ := List.mem_map.mp member
    dsimp only [seedOutcome]
    positivity
  · obtain ⟨_, _, rfl⟩ := List.mem_map.mp member
    dsimp only [seedBinary]
    positivity

/-- One row for each pool grants each pool its supply. -/
theorem sum_granted {user : UserId} {pools : List LiquidityPool}
    (distinct : (pools.map LiquidityPool.key).Nodup) (member : pool ∈ pools) :
    ((pools.map (seedShare user)).map fun share =>
      if share.pool = pool.key then share.lpTokens else 0).sum = pool.lpTokenSupply := by
  induction pools with
  | nil => cases member
  | cons head rest ih =>
      rw [List.map_cons, List.nodup_cons] at distinct
      rw [List.map_cons, List.map_cons, List.sum_cons]
      rcases List.mem_cons.mp member with rfl | later
      · have others : ((rest.map (seedShare user)).map fun share =>
            if share.pool = pool.key then share.lpTokens else 0).sum = 0 := by
          refine List.sum_eq_zero fun tokens counted => ?_
          rw [List.map_map] at counted
          obtain ⟨other, otherMember, rfl⟩ := List.mem_map.mp counted
          refine if_neg fun same => distinct.1 ?_
          exact List.mem_map.mpr ⟨other, otherMember, same⟩
        rw [others, add_zero]
        exact if_pos rfl
      · have apart : (seedShare user head).pool ≠ pool.key :=
          fun same => distinct.1 (List.mem_map.mpr ⟨pool, later, same.symm⟩)
        rw [if_neg apart, zero_add, ih distinct.2 later]

theorem Created.poolTokens (created : Created author db made market request row added granted)
    (key : PoolKey) : poolTokens made.lpShares key = poolTokens db.lpShares key +
      (granted.map fun share => if share.pool = key then share.lpTokens else 0).sum := by
  unfold Providers.poolTokens Table.sum
  rw [created.lpShares, List.map_append, List.sum_append]

/-- No provider of the new market is older than it. -/
theorem Created.unprovided (created : Created author db made market request row added granted)
    {key : PoolKey} (ofMarket : key.marketId = market) :
    Providers.poolTokens db.lpShares key = 0 := by
  refine List.sum_eq_zero fun tokens counted => ?_
  obtain ⟨share, member, rfl⟩ := List.mem_map.mp counted
  refine if_neg fun same => ?_
  have used : share.pool.marketId ∈ marketIds db := by
    simp only [marketIds, List.mem_append, List.mem_map]
    exact .inr ⟨share, member, rfl⟩
  exact created.fresh _ used (same ▸ ofMarket)

theorem Created.supply_added (created : Created author db made market request row added granted)
    (member : pool ∈ added) : pool.lpTokenSupply = Providers.poolTokens made.lpShares pool.key := by
  rw [Created.poolTokens created, Created.unprovided created (created.ofMarket pool member),
    zero_add]
  rcases created.seed with ⟨isNew, isGranted⟩ | ⟨_, _, isGranted⟩
  · rw [isGranted]
    exact newPools_unsupplied (isNew ▸ member)
  · rw [isGranted]
    exact (sum_granted created.distinct member).symm

theorem Created.supply_old (created : Created author db made market request row added granted)
    {key : PoolKey} (apart : key.marketId ≠ market) :
    Providers.poolTokens made.lpShares key = Providers.poolTokens db.lpShares key := by
  rw [Created.poolTokens created, add_eq_left]
  refine List.sum_eq_zero fun tokens counted => ?_
  obtain ⟨share, member, rfl⟩ := List.mem_map.mp counted
  refine if_neg fun same => ?_
  rcases created.seed with ⟨_, isGranted⟩ | ⟨_, _, isGranted⟩
  · rw [isGranted] at member
    cases member
  · rw [isGranted] at member
    obtain ⟨pool, poolMember, rfl⟩ := List.mem_map.mp member
    exact apart (same ▸ created.ofMarket pool poolMember)

theorem Sound.create (sound : Sound db)
    (ran : createMarket now author db request = .ok (made, market)) : Sound made := by
  obtain ⟨row, added, granted, created⟩ := createMarket_ok ran
  have older : ∀ pool ∈ db.pools.rows, pool.marketId ≠ market := by
    intro pool member
    refine created.fresh _ ?_
    simp only [marketIds, List.mem_append, List.mem_map]
    exact .inl (.inl (.inl (.inr ⟨pool, member, rfl⟩)))
  refine ⟨fun pool member => ?_, fun share member => ?_, fun pool member => ?_,
    fun other member live => ?_⟩
  · rw [created.pools, List.mem_append] at member
    rcases member with old | new
    · exact sound.reserves pool old
    · have untraded := created.untraded pool new
      exact ⟨untraded.yesShares, untraded.noShares⟩
  · rw [created.lpShares, List.mem_append] at member
    rcases member with old | new
    · exact sound.tokens share old
    rcases created.seed with ⟨_, isGranted⟩ | ⟨_, isSeeded, isGranted⟩
    · rw [isGranted] at new
      cases new
    · rw [isGranted] at new
      obtain ⟨pool, poolMember, rfl⟩ := List.mem_map.mp new
      exact seedPools_supplied (isSeeded ▸ poolMember)
  · rw [created.pools, List.mem_append] at member
    rcases member with old | new
    · rw [Created.supply_old created (older pool old)]
      rcases sound.supply pool old with whole | ⟨empty, dead⟩
      · exact .inl whole
      · refine .inr ⟨empty, fun trading => dead ?_⟩
        obtain ⟨other, found, live⟩ := trading
        refine ⟨other, ?_, live⟩
        obtain ⟨member, isId⟩ := Table.find?_eq_some.mp found
        rw [created.markets, List.mem_append] at member
        refine Table.find?_eq_some.mpr ⟨member.resolve_right fun new => ?_, isId⟩
        rw [List.mem_singleton.mp new, created.newRow.id] at isId
        exact older pool old isId.symm
    · exact .inl (Created.supply_added created new)
  · rw [created.markets, List.mem_append] at member
    rcases member with old | new
    · exact sound.undecided other old live
    · rw [List.mem_singleton.mp new]
      exact created.newRow.undecided

end Create

theorem Sound.reject {db after : Database} {market : MarketId} (sound : Sound db)
    (ran : Markets.rejectMarket db market = .ok after) : Sound after := by
  obtain ⟨_, _, _, rfl⟩ := Markets.moderate_ok ran
  refine sound.linked (.refl (Kept.refl db.markets) _) ?_ sound.tokens fun _ _ => .inl rfl
  dsimp only
  refine .modifyAny (fun row => (Aged.refl row).lasts) _ fun row _ live => ?_
  simp [Live] at live

theorem Sound.effect {db after : Database} (sound : Sound db) (effect : Effect db after) :
    Sound after := by
  cases effect with
  | moves moved => exact sound.moves moved
  | deposit ran => exact sound.deposit ran
  | withdraw positive ran => exact sound.withdraw positive ran
  | settle reads ran => exact sound.settle reads ran
  | create ran => exact sound.create ran

theorem Sound.commits {platform after : Platform} {event : Event} (sound : Sound platform.db)
    (reads : event.Reads platform.db) (committed : event.Commits platform after) :
    Sound after.db := by
  rcases event_effect reads committed with effect | ⟨market, _, rejects⟩
  · exact sound.effect effect
  · exact sound.reject rejects

theorem sound_fresh {platform : Platform} (fresh : platform.Fresh) : Sound platform.db := by
  rcases fresh with ⟨markets, pools, lpShares, _⟩
  refine ⟨?_, ?_, ?_, ?_⟩
  · rw [pools]
    exact fun _ member => absurd member List.not_mem_nil
  · rw [lpShares]
    exact fun _ member => absurd member List.not_mem_nil
  · rw [pools]
    exact fun _ member => absurd member List.not_mem_nil
  · rw [markets]
    exact fun _ member => absurd member List.not_mem_nil

theorem sound_run {start platform : Platform} {events : List Event} (fresh : start.Fresh)
    (run : Event.Runs (fun _ _ => True) start events platform) : Sound platform.db := by
  refine run.invariant (fun platform : Platform => Sound platform.db) ?_ ?_
  · intro state event after guarded committed sound
    exact sound.commits guarded.1 committed
  · exact sound_fresh fresh

/-! # Terms of a binary pool -/

/-- What the provider can redeem. -/
def redeemable (pool : LiquidityPool) (share : LPShare) : ℚ :=
  share.lpTokens * (pool.collateral / pool.lpTokenSupply)

/-- A token is worth what it was, and the price stands. -/
structure SameTerms (pool after : LiquidityPool) : Prop where
  worth : after.collateral / after.lpTokenSupply = pool.collateral / pool.lpTokenSupply
  price : 0 < pool.yesShares + pool.noShares → after.yesShares / (after.yesShares + after.noShares) =
    pool.yesShares / (pool.yesShares + pool.noShares)
  spot : spotPrices after = spotPrices pool

/-- The last provider left. -/
structure Emptied (pool : LiquidityPool) : Prop where
  collateral : pool.collateral = 0
  supply : pool.lpTokenSupply = 0
  yesShares : pool.yesShares = 0
  noShares : pool.noShares = 0

/-- Nobody but `user` has other tokens than before or can redeem another amount. -/
def OthersKeep (user : UserId) (before after : Database) (pool next : LiquidityPool) : Prop :=
  ∀ other ≠ user, ∀ share, before.lpShares.find? ⟨pool.key, other⟩ = some share →
    after.lpShares.find? ⟨pool.key, other⟩ = some share ∧
      redeemable next share = redeemable pool share

section Terms

variable {pool : LiquidityPool} {amount minted lpTokens : ℚ}

theorem spotPrices_scaled {after : LiquidityPool} {factor : ℚ} (positive : 0 < factor)
    (yes : after.yesShares = pool.yesShares * factor)
    (no : after.noShares = pool.noShares * factor) :
    after.yesShares / (after.yesShares + after.noShares) =
        pool.yesShares / (pool.yesShares + pool.noShares) ∧
      spotPrices after = spotPrices pool := by
  have total : after.yesShares + after.noShares = (pool.yesShares + pool.noShares) * factor := by
    rw [yes, no, add_mul]
  have share : ∀ side : ℚ, side * factor / ((pool.yesShares + pool.noShares) * factor) =
      side / (pool.yesShares + pool.noShares) := fun side => mul_div_mul_right _ _ positive.ne'
  refine ⟨by rw [total, yes, share], ?_⟩
  unfold spotPrices
  simp only [total, mul_pos_iff_of_pos_right positive]
  split
  · rw [yes, no, share, share]
  · rfl

theorem lpTokensMinted_eq (funded : 0 < pool.collateral) (supplied : 0 < pool.lpTokenSupply)
    (priced : lpTokensMinted pool amount = .ok minted) :
    minted = amount * pool.lpTokenSupply / pool.collateral := by
  unfold lpTokensMinted at priced
  rw [if_pos supplied, if_neg funded.not_ge] at priced
  exact (Except.ok.inj priced).symm

theorem depositInto_terms (unnamed : pool.outcomeId = none) (funded : 0 < pool.collateral)
    (supplied : 0 < pool.lpTokenSupply) (reserves : 0 ≤ pool.yesShares ∧ 0 ≤ pool.noShares)
    (nonneg : 0 ≤ amount) (priced : lpTokensMinted pool amount = .ok minted) :
    SameTerms pool (depositInto amount minted pool) ∧
      0 < (depositInto amount minted pool).lpTokenSupply := by
  have isMinted := lpTokensMinted_eq funded supplied priced
  have grown : 0 < pool.lpTokenSupply + minted :=
    add_pos_of_pos_of_nonneg supplied (lpTokensMinted_nonneg nonneg priced)
  refine ⟨?_, grown⟩
  have worth : (pool.collateral + amount) / (pool.lpTokenSupply + minted) =
      pool.collateral / pool.lpTokenSupply := by
    rw [div_eq_div_iff grown.ne' supplied.ne', isMinted]
    field_simp
  by_cases positive : 0 < pool.yesShares + pool.noShares
  · have factor : 0 < 1 + amount / (pool.yesShares + pool.noShares) := by positivity
    have grows : (growReserves amount pool).yesShares =
          pool.yesShares * (1 + amount / (pool.yesShares + pool.noShares)) ∧
        (growReserves amount pool).noShares =
          pool.noShares * (1 + amount / (pool.yesShares + pool.noShares)) := by
      unfold growReserves
      dsimp only
      rw [if_pos ⟨unnamed, positive⟩]
      constructor
      · dsimp only
        ring
      · dsimp only
        ring
    have scaled := spotPrices_scaled factor
      (show (depositInto amount minted pool).yesShares = _ from grows.1) grows.2
    exact ⟨worth, fun _ => scaled.1, scaled.2⟩
  · have yes : pool.yesShares = 0 := by linarith [reserves.1, reserves.2]
    have no : pool.noShares = 0 := by linarith [reserves.1, reserves.2]
    have grows : (growReserves amount pool).yesShares = amount / 2 ∧
        (growReserves amount pool).noShares = amount / 2 := by
      unfold growReserves
      dsimp only
      rw [if_neg fun both => positive both.2]
      exact ⟨by rw [yes, zero_add], by rw [no, zero_add]⟩
    refine ⟨worth, fun some_ => absurd some_ positive, ?_⟩
    unfold spotPrices
    dsimp only [depositInto]
    rw [grows.1, grows.2, if_neg positive, add_halves]
    split
    · rename_i more
      have half : amount / 2 / amount = 1 / 2 := by field_simp
      rw [half]
    · rfl

theorem shrinkReserves_terms (supplied : 0 < pool.lpTokenSupply)
    (atMost : lpTokens ≤ pool.lpTokenSupply) {after : LiquidityPool}
    (isAfter : after = { shrinkReserves lpTokens pool with
      collateral := pool.collateral - pool.collateral * (lpTokens / pool.lpTokenSupply) }) :
    SameTerms pool after ∧ 0 < after.lpTokenSupply ∨
      Emptied after ∧ lpTokens = pool.lpTokenSupply := by
  rcases atMost.lt_or_eq with some_ | all
  · left
    have factor : 0 < 1 - lpTokens / pool.lpTokenSupply :=
      sub_pos.mpr ((div_lt_one supplied).mpr some_)
    have left_ : 0 < pool.lpTokenSupply - lpTokens := sub_pos.mpr some_
    have yes : after.yesShares = pool.yesShares * (1 - lpTokens / pool.lpTokenSupply) := by
      rw [isAfter]
      dsimp only [shrinkReserves]
      ring
    have no : after.noShares = pool.noShares * (1 - lpTokens / pool.lpTokenSupply) := by
      rw [isAfter]
      dsimp only [shrinkReserves]
      ring
    have scaled := spotPrices_scaled factor yes no
    refine ⟨⟨?_, fun _ => scaled.1, scaled.2⟩, isAfter ▸ left_⟩
    rw [isAfter]
    dsimp only [shrinkReserves]
    rw [div_eq_div_iff left_.ne' supplied.ne']
    field_simp
  · refine .inr ⟨?_, all⟩
    rw [isAfter, all]
    have whole : pool.lpTokenSupply / pool.lpTokenSupply = 1 := div_self supplied.ne'
    refine ⟨?_, ?_, ?_, ?_⟩ <;> simp [shrinkReserves, whole]

end Terms

section Calls

variable {db : Database} {market : MarketId} {pool : LiquidityPool} {user : UserId}
  {amount lpTokens tolerance : ℚ} {outcome : Option OutcomeName}

theorem resolve_binary (binary : isParimutuel (outcomesOf db market) = false)
    (found : db.pools.find? ⟨market, none⟩ = some pool) {resolved : LiquidityPool}
    (ran : resolveLiquidityPool db market outcome = .ok resolved) : resolved = pool := by
  obtain ⟨here, ofMarket, unnamed⟩ := resolveLiquidityPool_ok ran
  have isKey : resolved.key = ⟨market, none⟩ := by
    rw [LiquidityPool.key, ofMarket, unnamed binary]
  rw [isKey, found] at here
  exact (Option.some.inj here).symm

theorem addLiquidity_fair (sound : Sound db)
    (binary : isParimutuel (outcomesOf db market) = false)
    (found : db.pools.find? ⟨market, none⟩ = some pool) (funded : 0 < pool.collateral)
    (supplied : 0 < pool.lpTokenSupply) {deposited : Deposited}
    (ran : addLiquidity db user market amount tolerance outcome = .ok deposited) :
    ∃ after, deposited.db.pools.find? ⟨market, none⟩ = some after ∧ SameTerms pool after ∧
      OthersKeep user db deposited.db pool after := by
  obtain ⟨_, resolved, _, minted, _, _, resolves, _, _, priced, nonneg, rfl⟩ := addLiquidity_ok ran
  cases resolve_binary binary found resolves
  have isKey : pool.key = ⟨market, none⟩ := Table.key_of_find? found
  have unnamed : pool.outcomeId = none := congrArg PoolKey.outcomeId isKey
  obtain ⟨terms, _⟩ := depositInto_terms unnamed funded supplied
    (sound.reserves pool (Table.mem_of_find? found)) nonneg priced
  refine ⟨depositInto amount minted pool, ?_, terms, fun other apart share held => ⟨?_, ?_⟩⟩
  · dsimp only
    rw [isKey, Table.find?_modify_self, found, Option.map_some,
      BinaryMarket.writeLiquidity_deposit]
  · have different : (⟨pool.key, other⟩ : LPShareKey) ≠ ⟨pool.key, user⟩ := by
      simpa using apart
    exact (find?_creditShare different).trans held
  · unfold redeemable
    rw [terms.worth]

theorem removeLiquidity_fair (sound : Sound db)
    (binary : isParimutuel (outcomesOf db market) = false)
    (found : db.pools.find? ⟨market, none⟩ = some pool) (funded : 0 < pool.collateral)
    (supplied : 0 < pool.lpTokenSupply) {withdrawn : Withdrawn} (positive : 0 < lpTokens)
    (ran : removeLiquidity db user market lpTokens tolerance outcome = .ok withdrawn) :
    ∃ after, withdrawn.db.pools.find? ⟨market, none⟩ = some after ∧
      (SameTerms pool after ∨ Emptied after) ∧ OthersKeep user db withdrawn.db pool after := by
  obtain ⟨_, resolved, _, share, left, _, _, resolves, _, held, enough, _, _, debited, rfl⟩ :=
    removeLiquidity_ok ran
  cases resolve_binary binary found resolves
  have isKey : pool.key = ⟨market, none⟩ := Table.key_of_find? found
  have shareKey : share.key = ⟨pool.key, user⟩ := Table.key_of_find? held
  have ofPool : share.pool = pool.key := congrArg LPShareKey.pool shareKey
  have whole : pool.lpTokenSupply = poolTokens db.lpShares pool.key :=
    (sound.supply pool (Table.mem_of_find? found)).resolve_right
      fun empty => absurd funded empty.1.not_gt
  have atMost : lpTokens ≤ pool.lpTokenSupply := by
    rw [whole, ← ofPool]
    exact enough.trans (lpTokens_le_poolTokens sound.tokens (Table.mem_of_find? held))
  have redeemed : 0 ≤ pool.collateral * (lpTokens / pool.lpTokenSupply) := by positivity
  obtain ⟨isLeft, _⟩ := debitCollateral_eq debited
  rw [max_eq_right redeemed] at isLeft
  have terms := shrinkReserves_terms supplied atMost isLeft
  have kept : ∀ other ≠ user, ∀ row, db.lpShares.find? ⟨pool.key, other⟩ = some row →
      (db.lpShares.modify share.key (burnTokens lpTokens
        (pool.collateral * (lpTokens / pool.lpTokenSupply)))).find? ⟨pool.key, other⟩ =
          some row := by
    intro other apart row here
    have different : (⟨pool.key, other⟩ : LPShareKey) ≠ share.key := by
      rw [shareKey]
      simpa using apart
    rw [Table.find?_modify_ne different]
    exact here
  refine ⟨left, ?_, terms.imp And.left And.left, fun other apart row here =>
    ⟨kept other apart row here, ?_⟩⟩
  · dsimp only
    rw [isKey, Table.find?_modify_self, found, Option.map_some, isLeft]
    rfl
  rcases terms with ⟨same, _⟩ | ⟨_, all⟩
  · unfold redeemable
    rw [same.worth]
  · -- The one who left held every token.
    have remains := kept other apart row here
    have nothing : row.lpTokens = 0 := by
      have after := (sound.withdraw positive ran).tokens
      refine le_antisymm ?_ (sound.tokens row (Table.mem_of_find? here))
      have most := lpTokens_le_poolTokens after (Table.mem_of_find? remains)
      have rowPool : row.pool = pool.key :=
        congrArg LPShareKey.pool (Table.key_of_find? here : row.key = ⟨pool.key, other⟩)
      dsimp only at most
      rwa [shareKey, poolTokens_burnTokens held, rowPool, if_pos rfl, ← whole, all, sub_self]
        at most
    unfold redeemable
    rw [nothing, zero_mul, zero_mul]

theorem addLiquidity_pool (binary : isParimutuel (outcomesOf db market) = false)
    (found : db.pools.find? ⟨market, none⟩ = some pool) {deposited : Deposited}
    (ran : addLiquidity db user market amount tolerance outcome = .ok deposited) :
    deposited.db.pools.find? ⟨market, none⟩ =
        some (depositInto amount deposited.lpTokensMinted pool) ∧
      lpTokensMinted pool amount = .ok deposited.lpTokensMinted ∧ 0 ≤ amount ∧
      deposited.db.outcomes = db.outcomes := by
  obtain ⟨_, resolved, _, minted, _, _, resolves, _, _, priced, nonneg, rfl⟩ := addLiquidity_ok ran
  cases resolve_binary binary found resolves
  refine ⟨?_, priced, nonneg, rfl⟩
  dsimp only
  rw [Table.key_of_find? found, Table.find?_modify_self, found, Option.map_some,
    BinaryMarket.writeLiquidity_deposit]

theorem removeLiquidity_pool (binary : isParimutuel (outcomesOf db market) = false)
    (found : db.pools.find? ⟨market, none⟩ = some pool) {withdrawn : Withdrawn}
    (ran : removeLiquidity db user market lpTokens tolerance outcome = .ok withdrawn) :
    withdrawn.totalRedeemed = pool.collateral * (lpTokens / pool.lpTokenSupply) ∧
      withdrawn.db.pools.find? ⟨market, none⟩ = some { shrinkReserves lpTokens pool with
        collateral := pool.collateral - max 0 withdrawn.totalRedeemed } := by
  obtain ⟨_, resolved, _, _, left, _, _, resolves, _, _, _, _, _, debited, rfl⟩ :=
    removeLiquidity_ok ran
  cases resolve_binary binary found resolves
  obtain ⟨isLeft, _⟩ := debitCollateral_eq debited
  refine ⟨rfl, ?_⟩
  dsimp only
  rw [Table.key_of_find? found, Table.find?_modify_self, found, Option.map_some, isLeft]
  rfl

/-- A deposit taken back at once. -/
theorem deposit_taken_back (binary : isParimutuel (outcomesOf db market) = false)
    (found : db.pools.find? ⟨market, none⟩ = some pool) (funded : 0 < pool.collateral)
    (supplied : 0 < pool.lpTokenSupply) {deposited : Deposited}
    (added : addLiquidity db user market amount tolerance outcome = .ok deposited)
    {remover : UserId} {later : ℚ} {named : Option OutcomeName} {withdrawn : Withdrawn}
    (removed : removeLiquidity deposited.db remover market deposited.lpTokensMinted later named =
      .ok withdrawn) :
    withdrawn.totalRedeemed = amount ∧ ∃ after,
      withdrawn.db.pools.find? ⟨market, none⟩ = some after ∧ after.collateral = pool.collateral ∧
        after.lpTokenSupply = pool.lpTokenSupply := by
  obtain ⟨middle, priced, nonneg, outcomes⟩ := addLiquidity_pool binary found added
  have isMinted := lpTokensMinted_eq funded supplied priced
  have grown : 0 < pool.lpTokenSupply + deposited.lpTokensMinted :=
    add_pos_of_pos_of_nonneg supplied (lpTokensMinted_nonneg nonneg priced)
  have stillBinary : isParimutuel (outcomesOf deposited.db market) = false := by
    unfold outcomesOf
    rw [outcomes]
    exact binary
  obtain ⟨isRedeemed, final⟩ := removeLiquidity_pool stillBinary middle removed
  have redeemed : withdrawn.totalRedeemed = amount := by
    rw [isRedeemed]
    change (pool.collateral + amount) * (deposited.lpTokensMinted /
      (pool.lpTokenSupply + deposited.lpTokensMinted)) = amount
    rw [isMinted] at grown ⊢
    field_simp
  rw [redeemed, max_eq_right nonneg] at final
  exact ⟨redeemed, _, final, add_sub_cancel_right _ _, add_sub_cancel_right _ _⟩

end Calls

/-- Providers of a binary market are treated alike, whatever happened before. -/
theorem providers_treated_alike {start platform : Platform} {events : List Event}
    (fresh : start.Fresh) (run : Event.Runs (fun _ _ => True) start events platform)
    {market : MarketId} {pool : LiquidityPool}
    (binary : isParimutuel (outcomesOf platform.db market) = false)
    (found : platform.db.pools.find? ⟨market, none⟩ = some pool) (funded : 0 < pool.collateral)
    (supplied : 0 < pool.lpTokenSupply) :
    pool.lpTokenSupply = poolTokens platform.db.lpShares pool.key ∧
    (∀ user amount tolerance outcome deposited,
      addLiquidity platform.db user market amount tolerance outcome = .ok deposited →
      ∃ after, deposited.db.pools.find? ⟨market, none⟩ = some after ∧ SameTerms pool after ∧
        OthersKeep user platform.db deposited.db pool after) ∧
    (∀ user lpTokens tolerance outcome withdrawn, 0 < lpTokens →
      removeLiquidity platform.db user market lpTokens tolerance outcome = .ok withdrawn →
      ∃ after, withdrawn.db.pools.find? ⟨market, none⟩ = some after ∧
        (SameTerms pool after ∨ Emptied after) ∧
        OthersKeep user platform.db withdrawn.db pool after) ∧
    (∀ user amount tolerance outcome deposited,
      addLiquidity platform.db user market amount tolerance outcome = .ok deposited →
      ∀ remover later named withdrawn,
        removeLiquidity deposited.db remover market deposited.lpTokensMinted later named =
          .ok withdrawn →
        withdrawn.totalRedeemed = amount ∧
          ∃ after, withdrawn.db.pools.find? ⟨market, none⟩ = some after ∧
            after.collateral = pool.collateral ∧ after.lpTokenSupply = pool.lpTokenSupply) := by
  have sound := sound_run fresh run
  refine ⟨?_, ?_, ?_, ?_⟩
  · exact (sound.supply pool (Table.mem_of_find? found)).resolve_right
      fun empty => absurd funded empty.1.not_gt
  · intro user amount tolerance outcome deposited ran
    exact addLiquidity_fair sound binary found funded supplied ran
  · intro user lpTokens tolerance outcome withdrawn positive ran
    exact removeLiquidity_fair sound binary found funded supplied positive ran
  · intro user amount tolerance outcome deposited added remover later named withdrawn removed
    exact deposit_taken_back binary found funded supplied added removed

/-- A seed of 100 and a split of 50; ten more dollars come in and leave again. -/
theorem ten_dollars_come_back :
    ∃ platform pool deposited withdrawn,
      Event.Runs (fun _ _ => True) ⟨BinaryMarket.emptyExchange, []⟩
        [.createMarket 0 BinaryMarket.administrator BinaryMarket.seededRequest,
          .operate (BinaryMarket.splitOf 50 pos_fifty grid_fifty)] platform ∧
      platform.db.pools.find? ⟨1, none⟩ = some pool ∧
      pool.lpTokenSupply = poolTokens platform.db.lpShares pool.key ∧
      addLiquidity platform.db 1 1 10 (5 / 100) none = .ok deposited ∧
      removeLiquidity deposited.db 1 1 deposited.lpTokensMinted (5 / 100) none = .ok withdrawn ∧
      withdrawn.totalRedeemed = 10 := by
  have made : succeedsWith (Markets.createMarket 0 BinaryMarket.administrator
      BinaryMarket.emptyExchange BinaryMarket.seededRequest) (fun made =>
        succeedsWith ((BinaryMarket.splitOf 50 pos_fifty grid_fifty).perform made.1)
          fun traded => isParimutuel (outcomesOf traded 1) = false &&
            (traded.pools.find? ⟨1, none⟩).any (fun pool =>
              0 < pool.collateral && 0 < pool.lpTokenSupply) &&
            succeedsWith (addLiquidity traded 1 1 10 (5 / 100) none) fun deposited =>
              succeedsWith (removeLiquidity deposited.db 1 1 deposited.lpTokensMinted (5 / 100)
                none) fun _ => true) = true := by
    decide +kernel
  obtain ⟨⟨start, market⟩, created, later⟩ := succeedsWith_iff.mp made
  obtain ⟨traded, splits, facts⟩ := succeedsWith_iff.mp later
  simp only [Bool.and_eq_true, decide_eq_true_eq, Option.any_eq_true] at facts
  obtain ⟨⟨binary, pool, found, funded, supplied⟩, deposits⟩ := facts
  obtain ⟨deposited, added, withdraws⟩ := succeedsWith_iff.mp deposits
  obtain ⟨withdrawn, removed, _⟩ := succeedsWith_iff.mp withdraws
  have creates : Event.Commits ⟨BinaryMarket.emptyExchange, []⟩
      (.createMarket 0 BinaryMarket.administrator BinaryMarket.seededRequest) ⟨start, []⟩ :=
    ⟨by rw [Event.perform, created]; rfl, rfl⟩
  have split_ : Event.Commits ⟨start, []⟩
      (.operate (BinaryMarket.splitOf 50 pos_fifty grid_fifty)) ⟨traded, []⟩ :=
    ⟨splits, rfl⟩
  have run : Event.Runs (fun _ _ => True) ⟨BinaryMarket.emptyExchange, []⟩
      [.createMarket 0 BinaryMarket.administrator BinaryMarket.seededRequest,
        .operate (BinaryMarket.splitOf 50 pos_fifty grid_fifty)] ⟨traded, []⟩ :=
    .act ⟨trivial, trivial⟩ creates (.act ⟨trivial, trivial⟩ split_ (.stop _))
  obtain ⟨supply, _, _, back⟩ :=
    providers_treated_alike ⟨rfl, rfl, rfl, rfl⟩ run binary found funded supplied
  exact ⟨_, pool, deposited, withdrawn, run, found, supply, added, removed,
    (back _ _ _ _ _ added _ _ _ _ removed).1⟩

end PredictX.Providers
