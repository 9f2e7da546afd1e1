import PredictX.Properties.ProviderFairness
import PredictX.Properties.ParimutuelSolvency

namespace PredictX.Providers

open PredictX.Data PredictX.MarketService PredictX.LiquidityService PredictX.Settlement

/-! Whether liquidity is left behind in a market that is ended.

A settlement shares out one pool, the winner's or the binary one, and a rejection shares out
none.  Afterwards no operation takes tokens of the other pools any more, so they have to be
empty by then.
-/

/-- The market is rejected, or resolved and its settlement committed. -/
def Terminal (platform : Platform) (market : MarketId) : Prop :=
  ∃ row, platform.db.markets.find? market = some row ∧
    (row.status = .rejected ∨ row.status = .resolved ∧ market ∈ platform.settled)

/-- Some event takes tokens of the provider. -/
def CanRedeem (platform : Platform) (share : LPShare) : Prop :=
  ∃ event after, event.Reads platform.db ∧ Event.Commits platform event after ∧
    ∃ left, after.db.lpShares.find? share.key = some left ∧ left.lpTokens < share.lpTokens

/-- Whoever has tokens of a funded pool of a finished market can still redeem them. -/
def NothingStranded (platform : Platform) : Prop :=
  ∀ market, Terminal platform market → ∀ pool ∈ platform.db.pools.rows, pool.marketId = market →
    0 < pool.collateral → ∀ share ∈ platform.db.lpShares.rows, share.pool = pool.key →
      0 < share.lpTokens → CanRedeem platform share

/-- No money, or nobody it belongs to. -/
def Drained (db : Database) (pool : LiquidityPool) : Prop :=
  pool.collateral ≤ 0 ∨ poolTokens db.lpShares pool.key ≤ 0

/-- A market ends with no liquidity but what the settlement shares out. -/
def EndsDrained (platform : Platform) : Event → Prop
  | .rejectMarket market =>
      ∀ pool ∈ platform.db.pools.rows, pool.marketId = market → Drained platform.db pool
  | .operate (.settle now scan market winning) =>
      market ∈ Event.settles platform.db (.operate (.settle now scan market winning)) →
        ∀ pool ∈ platform.db.pools.rows, pool.marketId = market →
          settlementPool platform.db.pools market winning ≠ some pool → Drained platform.db pool
  | _ => True

def Ended (db : Database) (market : MarketId) : Prop :=
  ∃ row, db.markets.find? market = some row ∧ ¬ Live row

def AllDrained (db : Database) (market : MarketId) : Prop :=
  ∀ pool ∈ db.pools.rows, pool.marketId = market → Drained db pool

section Settle

variable {db : Database} {now : Timestamp} {scan : Scan} {market : MarketId}
  {winning : OutcomeId} {settled : Settled} {shares : Table LPShare.key}
  {wallets : Table Wallet.userId} {rows : List LPShare} {rate : ℚ} {key : PoolKey}

theorem poolTokens_burnRows_le (nonneg : ∀ share ∈ shares.rows, 0 ≤ share.lpTokens) :
    poolTokens (burnRows id wallets rate rows shares) key ≤ poolTokens shares key := by
  induction rows generalizing shares with
  | nil => exact le_rfl
  | cons share rest ih =>
      rw [burnRows, List.foldl_cons, ← burnRows]
      split
      · refine (ih (burn_nonneg nonneg)).trans (Table.sum_modify_le fun row member => ?_)
        change (if row.pool = key then (0 : ℚ) else 0) ≤ if row.pool = key then row.lpTokens else 0
        split
        · exact nonneg row member
        · exact le_rfl
      · exact ih nonneg

/-- What a settlement left of each pool: the pool it shared out is drained. -/
theorem settled_pool (sound : Sound db) (reads : scan.Reads db market winning)
    (ran : settleMarket id now false scan db market winning = .ok (some settled))
    {pool : LiquidityPool} (member : pool ∈ settled.db.pools.rows) :
    ∃ old ∈ db.pools.rows, old.key = pool.key ∧ pool.collateral ≤ old.collateral ∧
      poolTokens settled.db.lpShares pool.key ≤ poolTokens db.lpShares pool.key ∧
      (settlementPool db.pools market winning = some old → Drained settled.db pool) := by
  obtain ⟨row, paid, swept, final, _, found, _, _, stages, rfl⟩ := settleMarket_ok ran
  have tokens : poolTokens final.lpShares pool.key ≤ poolTokens db.lpShares pool.key := by
    rw [stages.shares_eq]
    split
    · exact le_rfl
    · exact poolTokens_burnRows_le sound.tokens
  have here : (writePool db.pools final.pool).find? pool.key = some pool :=
    Table.find?_key_of_mem member
  cases isPool : settlementPool db.pools market winning with
  | none =>
      have unpooled : final.pool = none := by
        rw [stages.paid.escrow, show (openLedger db market winning).pool = none from isPool]
        rfl
      rw [unpooled] at here
      exact ⟨pool, Table.mem_of_find? here, rfl, le_rfl, tokens, by simp⟩
  | some shared =>
      obtain ⟨left, isLeft, sameKey, less, rest⟩ := sound.drained reads isPool stages
      have sharedFound := Table.find?_key_of_mem (EscrowAudit.settlementPool_mem isPool).1
      rw [isLeft] at here
      dsimp only [writePool] at here
      by_cases same : pool.key = shared.key
      · rw [same, sameKey, Table.find?_modify_self, sharedFound] at here
        cases here
        refine ⟨shared, Table.mem_of_find? sharedFound, rfl, less, tokens, fun _ => ?_⟩
        rcases rest with empty | ⟨kept, unheld⟩
        · exact .inl empty
        · exact .inr (tokens.trans unheld)
      · rw [sameKey, Table.find?_modify_ne same] at here
        refine ⟨pool, Table.mem_of_find? here, rfl, le_rfl, tokens, fun isShared => ?_⟩
        cases isShared
        exact absurd rfl same

theorem settled_ended
    (ran : settleMarket id now false scan db market winning = .ok (some settled)) :
    Ended settled.db market := by
  obtain ⟨row, _, _, _, _, found, _, _, _, rfl⟩ := settleMarket_ok ran
  refine ⟨markResolved now row, ?_, by simp [Live, markResolved]⟩
  change (db.markets.modify market (markResolved now)).find? market = _
  rw [Table.find?_modify_self, found]
  rfl

end Settle

/-! # Markets that are over stay drained -/

section Effects

variable {db after : Database} {market : MarketId}

theorem Ended.not_trading (ended : Ended db market) : ¬ Trading db.markets market := by
  rintro ⟨row, found, live⟩
  obtain ⟨old, oldFound, dead⟩ := ended
  cases oldFound.symm.trans found
  exact dead live

theorem Ended.linked (ended : Ended db market)
    (linked : Table.Linked Lasts db.markets after.markets) : Ended after market := by
  obtain ⟨row, found, dead⟩ := ended
  obtain ⟨new, newFound, lasts⟩ := linked.forward found
  exact ⟨new, newFound, fun live => dead (lasts live).1⟩

/-- A call that rewrites one pool of another market. -/
theorem AllDrained.rewrite (drained : AllDrained db market) {pool : LiquidityPool}
    {change : LiquidityPool → LiquidityPool} (keeps : ∀ row, (change row).key = row.key)
    (apart : pool.marketId ≠ market) (pools : after.pools = db.pools.modify pool.key change keeps)
    (others : ∀ key, key ≠ pool.key → poolTokens after.lpShares key = poolTokens db.lpShares key) :
    AllDrained after market := by
  intro row member ofMarket
  have different : row.key ≠ pool.key :=
    fun same => apart ((congrArg PoolKey.marketId same).symm.trans ofMarket)
  have here := Table.find?_key_of_mem member
  rw [pools, Table.find?_modify_ne different] at here
  unfold Drained
  rw [others _ different]
  exact drained row (Table.mem_of_find? here) ofMarket

/-- An effect ages the markets or adds one. -/
theorem Effect.markets (effect : Effect db after) :
    Table.Linked Aged db.markets after.markets ∨
      ∃ row, after.markets.rows = db.markets.rows ++ [row] ∧ row.status ≠ .rejected := by
  cases effect with
  | moves moved => exact .inl moved.markets
  | deposit ran =>
      obtain ⟨_, _, _, _, _, _, _, _, _, _, _, rfl⟩ := addLiquidity_ok ran
      left
      dsimp only
      exact .modifyAny Aged.refl _ fun _ _ => ⟨fun live => ⟨live, rfl⟩, id⟩
  | withdraw positive ran =>
      obtain ⟨_, _, _, _, _, _, _, _, _, _, _, _, _, _, rfl⟩ := removeLiquidity_ok ran
      left
      dsimp only
      exact .modifyAny Aged.refl _ fun _ _ => ⟨fun live => ⟨live, rfl⟩, id⟩
  | settle reads ran =>
      obtain ⟨_, _, _, _, _, _, _, _, _, rfl⟩ := settleMarket_ok ran
      left
      dsimp only [commitLedger]
      exact .modifyAny Aged.refl _ fun _ _ => aged_of_dead (by simp [Live, markResolved])
        (by simp [markResolved])
  | create ran =>
      obtain ⟨row, _, _, created⟩ := Markets.createMarket_ok ran
      refine .inr ⟨row, created.markets, ?_⟩
      rw [created.newRow.status]
      split <;> simp

theorem Effect.ended (effect : Effect db after) (ended : Ended db market) : Ended after market := by
  rcases effect.markets with aged | ⟨row, rows, _⟩
  · exact ended.linked (aged.mono Aged.lasts)
  · obtain ⟨old, found, dead⟩ := ended
    obtain ⟨member, isId⟩ := Table.find?_eq_some.mp found
    refine ⟨old, Table.find?_eq_some.mpr ⟨?_, isId⟩, dead⟩
    rw [rows]
    exact List.mem_append_left _ member

theorem Effect.rejected (effect : Effect db after) {row : Market}
    (found : after.markets.find? market = some row) (rejected : row.status = .rejected) :
    ∃ old, db.markets.find? market = some old ∧ old.status = .rejected := by
  rcases effect.markets with aged | ⟨new, rows, admitted⟩
  · obtain ⟨old, oldFound, same⟩ := aged.backward found
    exact ⟨old, oldFound, same.rejected rejected⟩
  · obtain ⟨member, isId⟩ := Table.find?_eq_some.mp found
    rw [rows, List.mem_append] at member
    refine ⟨row, Table.find?_eq_some.mpr ⟨member.resolve_right fun isNew => ?_, isId⟩, rejected⟩
    rw [List.mem_singleton.mp isNew] at rejected
    exact admitted rejected

theorem Effect.allDrained (sound : Sound db) (effect : Effect db after) (ended : Ended db market)
    (drained : AllDrained db market) : AllDrained after market := by
  have idle := ended.not_trading
  cases effect with
  | moves moved =>
      intro pool member ofMarket
      obtain ⟨old, found, kept⟩ := moved.pools.backward (Table.find?_key_of_mem member)
      have isKey : old.key = pool.key := Table.key_of_find? found
      have oldMarket : old.marketId = market := kept.market ▸ ofMarket
      have less := kept.escrow.resolve_left (oldMarket ▸ idle)
      unfold Drained
      rw [moved.lpShares, ← isKey]
      exact (drained old (Table.mem_of_find? found) oldMarket).imp less.trans id
  | deposit ran =>
      obtain ⟨row, pool, _, _, found, active, resolved, _, _, _, _, rfl⟩ := addLiquidity_ok ran
      obtain ⟨_, ofMarket, _⟩ := resolveLiquidityPool_ok resolved
      refine drained.rewrite (BinaryMarket.writeLiquidity_key _) ?_ rfl fun key apart => ?_
      · rintro rfl
        exact idle ⟨row, ofMarket ▸ found, .inl active⟩
      · change poolTokens (creditShare _ _ _ _) key = _
        rw [poolTokens_creditShare, if_neg (Ne.symm apart), add_zero]
  | withdraw positive ran =>
      obtain ⟨row, pool, _, share, _, found, active, resolved, _, held, _, _, _, _, rfl⟩ :=
        removeLiquidity_ok ran
      obtain ⟨_, ofMarket, _⟩ := resolveLiquidityPool_ok resolved
      refine drained.rewrite (BinaryMarket.writeLiquidity_key _) ?_ rfl fun key apart => ?_
      · rintro rfl
        exact idle ⟨row, ofMarket ▸ found, .inl active⟩
      · dsimp only
        rw [Table.key_of_find? held, poolTokens_burnTokens held, if_neg (Ne.symm apart), sub_zero]
  | settle reads ran =>
      intro pool member ofMarket
      obtain ⟨old, oldMember, isKey, less, tokens, _⟩ := settled_pool sound reads ran member
      have oldMarket : old.marketId = market := (congrArg PoolKey.marketId isKey).trans ofMarket
      rcases drained old oldMember oldMarket with empty | unheld
      · exact .inl (less.trans empty)
      · exact .inr (tokens.trans (isKey ▸ unheld))
  | create ran =>
      obtain ⟨row, added, granted, created⟩ := Markets.createMarket_ok ran
      intro pool member ofMarket
      have used : market ∈ Markets.marketIds db := by
        obtain ⟨row, found, _⟩ := ended
        simp only [Markets.marketIds, List.mem_append, List.mem_map]
        exact .inl (.inl (.inl (.inl (.inl ⟨row, Table.mem_of_find? found,
          Table.key_of_find? found⟩))))
      have older := created.fresh market used
      rw [created.pools, List.mem_append] at member
      have old := member.resolve_right fun new =>
        older (ofMarket.symm.trans (created.ofMarket pool new))
      unfold Drained
      rw [Created.supply_old created fun same => older (ofMarket.symm.trans same)]
      exact drained pool old ofMarket

end Effects

/-! # Runs -/

/-- The market was settled or rejected. -/
def Finished (platform : Platform) (market : MarketId) : Prop :=
  market ∈ platform.settled ∨
    ∃ row, platform.db.markets.find? market = some row ∧ row.status = .rejected

structure Clean (platform : Platform) : Prop where
  sound : Sound platform.db
  finished : ∀ market, Finished platform market →
    Ended platform.db market ∧ AllDrained platform.db market

section Run

variable {platform after : Platform} {event : Event} {market : MarketId}

theorem settles_settle (settles : market ∈ event.settles platform.db)
    (committed : event.Commits platform after) :
    ∃ now scan winning settled, event = .operate (.settle now scan market winning) ∧
      settleMarket id now false scan platform.db market winning = .ok (some settled) ∧
      after.db = settled.db := by
  unfold Event.settles at settles
  split at settles
  · rename_i now scan other winning
    split at settles
    · rename_i settled ran
      cases List.mem_singleton.mp settles
      refine ⟨now, scan, winning, settled, rfl, ran, ?_⟩
      have performed := committed.1
      simp only [Event.perform, Operation.perform, ran] at performed
      exact (Except.ok.inj performed).symm
    · cases settles
  · cases settles

theorem Clean.commits (clean : Clean platform) (reads : event.Reads platform.db)
    (drains : EndsDrained platform event) (committed : event.Commits platform after) :
    Clean after := by
  refine ⟨clean.sound.commits reads committed, fun market finished => ?_⟩
  rcases event_effect reads committed with effect | ⟨rejected, rfl, ran⟩
  · have before : Finished platform market →
        Ended after.db market ∧ AllDrained after.db market := by
      intro earlier
      obtain ⟨ended, drained⟩ := clean.finished market earlier
      exact ⟨effect.ended ended, effect.allDrained clean.sound ended drained⟩
    rcases finished with settled | ⟨row, found, rejected⟩
    · rw [committed.2, List.mem_append] at settled
      rcases settled with now_ | earlier
      · obtain ⟨now, scan, winning, settled, rfl, ran, isAfter⟩ := settles_settle now_ committed
        rw [isAfter]
        refine ⟨settled_ended ran, fun pool member ofMarket => ?_⟩
        · obtain ⟨old, oldMember, isKey, less, tokens, shared⟩ :=
            settled_pool clean.sound reads ran member
          have oldMarket : old.marketId = market :=
            (congrArg PoolKey.marketId isKey).trans ofMarket
          by_cases isShared : settlementPool platform.db.pools market winning = some old
          · exact shared isShared
          · rcases drains now_ old oldMember oldMarket isShared with empty | unheld
            · exact .inl (less.trans empty)
            · exact .inr (tokens.trans (isKey ▸ unheld))
      · exact before (.inl earlier)
    · exact before (.inr (effect.rejected found rejected))
  · obtain ⟨row, found, pending, isAfter⟩ := Markets.moderate_ok ran
    rw [isAfter]
    by_cases same : market = rejected
    · refine ⟨⟨{ row with status := .rejected }, ?_, by simp [Live]⟩, ?_⟩
      · rw [same, Table.find?_modify_self, found]
        rfl
      · rw [same]
        exact drains
    · have earlier : Finished platform market := by
        rcases finished with settled | ⟨other, otherFound, isRejected⟩
        · rw [committed.2] at settled
          exact .inl settled
        · rw [isAfter, Table.find?_modify_ne same] at otherFound
          exact .inr ⟨other, otherFound, isRejected⟩
      obtain ⟨⟨old, oldFound, dead⟩, drained⟩ := clean.finished market earlier
      refine ⟨⟨old, ?_, dead⟩, drained⟩
      rw [Table.find?_modify_ne same]
      exact oldFound

theorem Clean.nothingStranded (clean : Clean platform) : NothingStranded platform := by
  intro market terminal pool member ofMarket funded share shareMember ofPool positive
  have finished : Finished platform market := by
    obtain ⟨row, found, rejected | ⟨_, settled⟩⟩ := terminal
    · exact .inr ⟨row, found, rejected⟩
    · exact .inl settled
  rcases (clean.finished market finished).2 pool member ofMarket with empty | unheld
  · exact absurd funded empty.not_gt
  · have most := lpTokens_le_poolTokens clean.sound.tokens shareMember
    rw [ofPool] at most
    exact absurd positive (most.trans unheld).not_gt

theorem clean_fresh (fresh : platform.Fresh) : Clean platform := by
  refine ⟨sound_fresh fresh, ?_⟩
  rintro market (settled | ⟨row, found, _⟩)
  · rw [fresh.settled] at settled
    cases settled
  · rw [fresh.markets] at found
    cases found

/-- Nothing is stranded while every market ends drained. -/
theorem nothing_stranded {start : Platform} {events : List Event} (fresh : start.Fresh)
    (run : Event.Runs EndsDrained start events platform) : NothingStranded platform := by
  refine Clean.nothingStranded (run.invariant Clean ?_ (clean_fresh fresh))
  intro state event after guarded committed clean
  exact clean.commits guarded.1 guarded.2 committed

end Run

/-! # What is stranded -/

section Stranded

variable {db after : Database} {market : MarketId} {key : LPShareKey} {share : LPShare}

/-- The settlement of the market, if one is due, shares out another pool. -/
def Unshared (db : Database) (market : MarketId) (key : PoolKey) : Prop :=
  ∀ row winning pool, db.markets.find? market = some row → row.winningOutcomeId = some winning →
    settlementPool db.pools market winning = some pool → pool.key ≠ key

theorem find?_burnRows {shares : Table LPShare.key} {wallets : Table Wallet.userId}
    {rows : List LPShare} {rate : ℚ} (apart : ∀ row ∈ rows, row.pool ≠ key.pool) :
    (burnRows id wallets rate rows shares).find? key = shares.find? key := by
  induction rows generalizing shares with
  | nil => rfl
  | cons row rest ih =>
      obtain ⟨head, tail⟩ := List.forall_mem_cons.mp apart
      rw [burnRows, List.foldl_cons, ← burnRows, ih tail]
      split
      · exact Table.find?_modify_ne fun same => head (congrArg LPShareKey.pool same.symm)
      · rfl

theorem Effect.share_kept (effect : Effect db after) (ended : Ended db market)
    (ofMarket : key.pool.marketId = market) (unshared : Unshared db market key.pool)
    (found : db.lpShares.find? key = some share) : after.lpShares.find? key = some share := by
  have idle := ended.not_trading
  cases effect with
  | moves moved =>
      rw [moved.lpShares]
      exact found
  | deposit ran =>
      obtain ⟨row, pool, _, minted, rowFound, active, resolved, _, _, _, _, rfl⟩ :=
        addLiquidity_ok ran
      obtain ⟨_, poolMarket, _⟩ := resolveLiquidityPool_ok resolved
      have apart : pool.marketId ≠ market :=
        fun same => idle ⟨row, same ▸ poolMarket ▸ rowFound, .inl active⟩
      refine (find?_creditShare fun same => apart ?_).trans found
      rw [← ofMarket, same]
      rfl
  | withdraw positive ran =>
      obtain ⟨row, pool, _, old, _, rowFound, active, resolved, _, held, _, _, _, _, rfl⟩ :=
        removeLiquidity_ok ran
      obtain ⟨_, poolMarket, _⟩ := resolveLiquidityPool_ok resolved
      have apart : pool.marketId ≠ market :=
        fun same => idle ⟨row, same ▸ poolMarket ▸ rowFound, .inl active⟩
      dsimp only
      rw [Table.find?_modify_ne fun same => apart ?_]
      · exact found
      · rw [← ofMarket, same, Table.key_of_find? held]
        rfl
  | settle reads ran =>
      obtain ⟨row, paid, swept, final, _, rowFound, recorded, _, stages, rfl⟩ := settleMarket_ok ran
      change final.lpShares.find? key = some share
      rw [stages.shares_eq]
      split
      · exact found
      · rename_i isPool
        obtain ⟨before, isBefore, _⟩ := stages.pool_kept isPool
        refine (find?_burnRows fun other read same => ?_).trans found
        have scanned := (reads.lpShares before isBefore).mem_iff.mp read
        simp only [liveShares, List.mem_filter, Bool.and_eq_true, decide_eq_true_eq] at scanned
        have isKey : before.key = key.pool := scanned.2.1.symm.trans same
        have isMarket := (EscrowAudit.settlementPool_mem isBefore).2
        have sameMarket : key.pool.marketId = before.marketId :=
          (congrArg PoolKey.marketId isKey).symm
        rw [isMarket, ofMarket] at sameMarket
        subst sameMarket
        exact unshared row _ before rowFound recorded isBefore isKey
  | create ran =>
      obtain ⟨_, _, _, created⟩ := Markets.createMarket_ok ran
      obtain ⟨member, isKey⟩ := Table.find?_eq_some.mp found
      refine Table.find?_eq_some.mpr ⟨?_, isKey⟩
      rw [created.lpShares]
      exact List.mem_append_left _ member

/-- A live share of a funded pool that no settlement shares out stays where it is. -/
theorem stranded {platform : Platform} {pool : LiquidityPool} (terminal : Terminal platform market)
    (member : pool ∈ platform.db.pools.rows) (ofMarket : pool.marketId = market)
    (funded : 0 < pool.collateral) (shareMember : share ∈ platform.db.lpShares.rows)
    (ofPool : share.pool = pool.key) (live : 0 < share.lpTokens)
    (unshared : Unshared platform.db market pool.key) : ¬ NothingStranded platform := by
  intro nothing
  obtain ⟨event, after, reads, committed, left, found, less⟩ :=
    nothing market terminal pool member ofMarket funded share shareMember ofPool live
  have ended : Ended platform.db market := by
    obtain ⟨row, found, rejected | ⟨resolved, _⟩⟩ := terminal
    · exact ⟨row, found, by simp [Live, rejected]⟩
    · exact ⟨row, found, by simp [Live, resolved]⟩
  have here := Table.find?_key_of_mem shareMember
  have kept : after.db.lpShares.find? share.key = some share := by
    rcases event_effect reads committed with effect | ⟨_, _, ran⟩
    · refine effect.share_kept ended ?_ ?_ here
      · rw [← ofMarket]
        exact congrArg PoolKey.marketId ofPool
      · change Unshared platform.db market share.pool
        rw [ofPool]
        exact unshared
    · obtain ⟨_, _, _, isAfter⟩ := Markets.moderate_ok ran
      rw [isAfter]
      exact here
  cases kept.symm.trans found
  exact lt_irrefl _ less

end Stranded

/-- The rows the settlement of the first of four outcomes reads. -/
def firstScan : Scan := ⟨[], [⟨⟨1, some 1⟩, 1, 50, 25⟩]⟩

/-- A seed of 100 over four outcomes: the three pools that lost keep their 25 dollars. -/
theorem losing_pools_are_stranded :
    ∃ platform, Event.Runs (fun _ _ => True) ⟨BinaryMarket.emptyExchange, []⟩
      [.createMarket 0 BinaryMarket.administrator Parimutuel.fourWayRequest,
        .resolveMarket true ⟨true, true, true⟩ 5 1 1,
        .operate (.settle 6 firstScan 1 1)] platform ∧ ¬ NothingStranded platform := by
  have made : succeedsWith (Event.play ⟨BinaryMarket.emptyExchange, []⟩
      (.createMarket 0 BinaryMarket.administrator Parimutuel.fourWayRequest)) (fun seeded =>
        succeedsWith (Event.play seeded (.resolveMarket true ⟨true, true, true⟩ 5 1 1))
          fun resolved => (unsettled resolved.db 1).isEmpty &&
            (settlementPool resolved.db.pools 1 1).map LiquidityPool.key = some ⟨1, some 1⟩ &&
            liveShares resolved.db ⟨1, some 1⟩ = firstScan.lpShares &&
            succeedsWith (Event.play resolved (.operate (.settle 6 firstScan 1 1))) fun final =>
              (final.db.markets.find? 1).any (fun row =>
                row.status = .resolved && row.winningOutcomeId = some 1) &&
              1 ∈ final.settled &&
              (settlementPool final.db.pools 1 1).map LiquidityPool.key = some ⟨1, some 1⟩ &&
              (final.db.pools.find? ⟨1, some 2⟩).any (fun pool => 0 < pool.collateral) &&
              (final.db.lpShares.find? ⟨⟨1, some 2⟩, 1⟩).any fun share => 0 < share.lpTokens) =
                true := by
    decide +kernel
  obtain ⟨seeded, creates, facts⟩ := succeedsWith_iff.mp made
  obtain ⟨resolved, resolves, facts⟩ := succeedsWith_iff.mp facts
  simp only [Bool.and_eq_true, decide_eq_true_eq, List.isEmpty_iff] at facts
  obtain ⟨⟨⟨nobody, isPool⟩, live⟩, facts⟩ := facts
  obtain ⟨final, settles, facts⟩ := succeedsWith_iff.mp facts
  simp only [Bool.and_eq_true, decide_eq_true_eq, Option.any_eq_true] at facts
  obtain ⟨⟨⟨⟨⟨row, found, isResolved, recorded⟩, isSettled⟩, isFinal⟩, pool, poolFound, funded⟩,
    share, shareFound, positive⟩ := facts
  have reads : firstScan.Reads resolved.db 1 1 := by
    refine ⟨by rw [nobody]; rfl, fun before isBefore => ?_⟩
    rw [isBefore, Option.map_some, Option.some.injEq] at isPool
    rw [isPool, live]
  refine ⟨final, .act ⟨trivial, trivial⟩ (Event.commits_of_play creates)
    (.act ⟨trivial, trivial⟩ (Event.commits_of_play resolves)
      (.act ⟨reads, trivial⟩ (Event.commits_of_play settles) (.stop _))), ?_⟩
  have poolKey : pool.key = ⟨1, some 2⟩ := Table.key_of_find? poolFound
  have shareKey : share.key = ⟨⟨1, some 2⟩, 1⟩ := Table.key_of_find? shareFound
  refine stranded ⟨row, found, .inr ⟨isResolved, isSettled⟩⟩ (Table.mem_of_find? poolFound)
    (congrArg PoolKey.marketId poolKey) funded (Table.mem_of_find? shareFound)
    ((congrArg LPShareKey.pool shareKey).trans poolKey.symm) positive ?_
  intro other winning shared otherFound otherRecorded isShared
  cases found.symm.trans otherFound
  cases recorded.symm.trans otherRecorded
  rw [isShared, Option.map_some, Option.some.injEq] at isFinal
  rw [isFinal, poolKey]
  simp

/-- The rows the settlement of a seeded binary market reads. -/
def binaryScan : Scan := ⟨[], [⟨⟨1, none⟩, 1, 200, 100⟩]⟩

/-- A binary market has one pool, and its settlement leaves nothing in it. -/
theorem binary_market_ends_drained :
    ∃ platform, Event.Runs EndsDrained ⟨BinaryMarket.emptyExchange, []⟩
      [.createMarket 0 BinaryMarket.administrator BinaryMarket.seededRequest,
        .resolveMarket true ⟨true, true, true⟩ 5 1 1,
        .operate (.settle 6 binaryScan 1 1)] platform ∧ Terminal platform 1 ∧
      NothingStranded platform := by
  have made : succeedsWith (Event.play ⟨BinaryMarket.emptyExchange, []⟩
      (.createMarket 0 BinaryMarket.administrator BinaryMarket.seededRequest)) (fun seeded =>
        succeedsWith (Event.play seeded (.resolveMarket true ⟨true, true, true⟩ 5 1 1))
          fun resolved => (unsettled resolved.db 1).isEmpty &&
            (settlementPool resolved.db.pools 1 1).map LiquidityPool.key = some ⟨1, none⟩ &&
            liveShares resolved.db ⟨1, none⟩ = binaryScan.lpShares &&
            resolved.db.pools.rows.all (fun pool =>
              settlementPool resolved.db.pools 1 1 = some pool) &&
            succeedsWith (Event.play resolved (.operate (.settle 6 binaryScan 1 1))) fun final =>
              (final.db.markets.find? 1).any (fun row => row.status = .resolved) &&
              1 ∈ final.settled) = true := by
    decide +kernel
  obtain ⟨seeded, creates, facts⟩ := succeedsWith_iff.mp made
  obtain ⟨resolved, resolves, facts⟩ := succeedsWith_iff.mp facts
  simp only [Bool.and_eq_true, decide_eq_true_eq, List.isEmpty_iff, List.all_eq_true] at facts
  obtain ⟨⟨⟨⟨nobody, isPool⟩, live⟩, onlyPool⟩, facts⟩ := facts
  obtain ⟨final, settles, facts⟩ := succeedsWith_iff.mp facts
  simp only [Bool.and_eq_true, decide_eq_true_eq, Option.any_eq_true] at facts
  obtain ⟨⟨row, found, isResolved⟩, isSettled⟩ := facts
  have reads : binaryScan.Reads resolved.db 1 1 := by
    refine ⟨by rw [nobody]; rfl, fun before isBefore => ?_⟩
    rw [isBefore, Option.map_some, Option.some.injEq] at isPool
    rw [isPool, live]
  have run : Event.Runs EndsDrained ⟨BinaryMarket.emptyExchange, []⟩
      [.createMarket 0 BinaryMarket.administrator BinaryMarket.seededRequest,
        .resolveMarket true ⟨true, true, true⟩ 5 1 1,
        .operate (.settle 6 binaryScan 1 1)] final :=
    .act ⟨trivial, trivial⟩ (Event.commits_of_play creates)
      (.act ⟨trivial, trivial⟩ (Event.commits_of_play resolves)
        (.act ⟨reads, fun _ pool member _ other => absurd (onlyPool pool member) other⟩
          (Event.commits_of_play settles) (.stop _)))
  exact ⟨final, run, ⟨row, found, .inr ⟨isResolved, isSettled⟩⟩,
    nothing_stranded ⟨rfl, rfl, rfl, rfl⟩ run⟩

end PredictX.Providers
