import PredictX.Api.Events
import PredictX.Properties.BinaryMarket
import PredictX.Properties.AuditPromise

namespace PredictX.Providers

open PredictX.Data PredictX.Amm PredictX.MarketService PredictX.MatchingEngine
open PredictX.OrderService PredictX.LimitSweep PredictX.LiquidityService PredictX.Settlement

/-! What the events of the platform do to pools and their providers.

Only deposits, withdrawals and settlements write provider rows, and only a market that trades
takes money into its pools.  `Effect` says this once for every event but a rejection; what
holds of the providers over whole runs is derived from it.
-/

/-- The market trades, or may be approved to. -/
def Live (market : Market) : Prop :=
  market.status = .active ∨ market.status = .pendingReview

def Trading (markets : Table Market.id) (market : MarketId) : Prop :=
  ∃ row, markets.find? market = some row ∧ Live row

/-- A pool that took part in no deposit and no withdrawal. -/
structure Kept (markets : Table Market.id) (old new : LiquidityPool) : Prop where
  market : new.marketId = old.marketId
  supply : new.lpTokenSupply = old.lpTokenSupply
  reserves : 0 ≤ old.yesShares ∧ 0 ≤ old.noShares → 0 ≤ new.yesShares ∧ 0 ≤ new.noShares
  escrow : Trading markets old.marketId ∨ new.collateral ≤ old.collateral

/-- A market that went on or came to an end. -/
def Lasts (old new : Market) : Prop :=
  Live new → Live old ∧ new.winningOutcomeId = old.winningOutcomeId

structure Aged (old new : Market) : Prop where
  lasts : Lasts old new
  rejected : new.status = .rejected → old.status = .rejected

/-- Neither a provider row nor a token supply changed. -/
structure Moves (markets : Table Market.id) (before after : Database) : Prop where
  lpShares : after.lpShares = before.lpShares
  pools : Table.Linked (Kept markets) before.pools after.pools
  markets : Table.Linked Aged before.markets after.markets

section Relations

variable {markets : Table Market.id} {first second third : LiquidityPool}
  {before middle after : Database}

theorem Kept.refl (markets : Table Market.id) (pool : LiquidityPool) : Kept markets pool pool :=
  ⟨rfl, rfl, id, .inr le_rfl⟩

theorem Kept.trans (left : Kept markets first second) (right : Kept markets second third) :
    Kept markets first third := by
  refine ⟨right.market.trans left.market, right.supply.trans left.supply,
    right.reserves ∘ left.reserves, ?_⟩
  rcases right.escrow with trading | later
  · exact .inl (left.market ▸ trading)
  · rcases left.escrow with trading | earlier
    · exact .inl trading
    · exact .inr (later.trans earlier)

theorem Aged.refl (market : Market) : Aged market market := ⟨fun live => ⟨live, rfl⟩, id⟩

theorem Aged.trans {old new newer : Market} (left : Aged old new) (right : Aged new newer) :
    Aged old newer := by
  refine ⟨fun live => ?_, left.rejected ∘ right.rejected⟩
  obtain ⟨then_, winner⟩ := right.lasts live
  obtain ⟨before, earlier⟩ := left.lasts then_
  exact ⟨before, winner.trans earlier⟩

theorem Moves.refl (markets : Table Market.id) (db : Database) : Moves markets db db :=
  ⟨rfl, .refl (Kept.refl markets) _, .refl Aged.refl _⟩

theorem Moves.trans (left : Moves markets before middle) (right : Moves markets middle after) :
    Moves markets before after :=
  ⟨right.lpShares.trans left.lpShares, left.pools.trans Kept.trans right.pools,
    left.markets.trans Aged.trans right.markets⟩

theorem Moves.of_pools (lpShares : after.lpShares = before.lpShares)
    (pools : Table.Linked (Kept markets) before.pools after.pools)
    (sameMarkets : after.markets = before.markets) : Moves markets before after :=
  ⟨lpShares, pools, sameMarkets ▸ .refl Aged.refl _⟩

/-- Only rows that no provider depends on changed. -/
theorem Moves.of_same (lpShares : after.lpShares = before.lpShares)
    (pools : after.pools = before.pools) (sameMarkets : after.markets = before.markets) :
    Moves markets before after :=
  .of_pools lpShares (pools ▸ .refl (Kept.refl markets) _) sameMarkets

theorem Trading.of_linked {late : Table Market.id} {market : MarketId}
    (linked : Table.Linked Lasts markets late) (trading : Trading late market) :
    Trading markets market := by
  obtain ⟨row, found, live⟩ := trading
  obtain ⟨old, oldFound, lasts⟩ := linked.backward found
  exact ⟨old, oldFound, (lasts live).1⟩

end Relations

/-! # Trading -/

section Book

variable {σ : Type} {now : Timestamp} {taker : Taker σ} {db after : Database} {fill final : σ}
  {offers : List Offer} {markets : Table Market.id} {pools : Table LiquidityPool.key}

theorem creditFee_kept {maker : Order} (trading : Trading markets maker.marketId) (fee : ℚ) :
    Table.Linked (Kept markets) pools (creditFee pools maker fee) := by
  unfold creditFee
  split
  · exact .refl (Kept.refl markets) _
  rename_i pool found
  split
  · refine .modifyAny (Kept.refl markets) _ fun row isKey => ?_
    have ofMarket : row.marketId = maker.marketId :=
      (congrArg PoolKey.marketId isKey).trans (feePool_ok found).1
    exact ⟨rfl, rfl, id, .inl (ofMarket ▸ trading)⟩
  · exact .refl (Kept.refl markets) _

theorem trace_moves (trace : Trace now taker db fill offers after final)
    (makers : ∀ offer ∈ offers, Trading markets offer.maker.marketId) :
    Moves markets db after := by
  have same := trace.sameElsewhere
  refine .of_pools same.lpShares ?_ same.markets
  clear same
  induction trace with
  | done => exact .refl (Kept.refl markets) _
  | skip _ _ _ ih =>
      obtain ⟨head, later⟩ := List.forall_mem_cons.mp makers
      exact (creditFee_kept head _).trans Kept.trans (ih later)
  | deliver _ _ _ _ ih =>
      obtain ⟨head, later⟩ := List.forall_mem_cons.mp makers
      exact (creditFee_kept head _).trans Kept.trans (ih later)

end Book

section Orders

variable {env : Env} {db after : Database} {user : UserId} {data : OrderRequest}
  {execution : Execution}

theorem writeLeg_kept {markets : Table Market.id} {pools : Table LiquidityPool.key}
    {key : PoolKey} (trading : Trading markets key.marketId) (leg : AmmLeg) (delta : ℚ) :
    Table.Linked (Kept markets) pools (writeLeg pools key leg delta) := by
  unfold writeLeg
  refine .modifyAny (Kept.refl markets) _ fun row isKey => ?_
  refine ⟨rfl, rfl, fun _ => ⟨leg.amm.yes_nonneg, leg.amm.no_nonneg⟩, .inl ?_⟩
  have ofMarket : row.marketId = key.marketId := congrArg PoolKey.marketId isKey
  exact ofMarket ▸ trading

theorem finish_moves {venue : Venue} {fill : Fill} (markets : Table Market.id)
    (finished : finish env db user venue data fill = .ok execution) :
    Moves markets db execution.db := by
  obtain ⟨_, _, _, credited⟩ := creditReferral_frame (saveFill env db user venue data fill
    (db.orders.insert (filledRow env db user venue data fill))) user
  rw [(finish_ok finished).1, credited]
  refine ⟨rfl, .refl (Kept.refl markets) _, ?_⟩
  dsimp only [saveFill]
  exact .modifyAny Aged.refl _ fun _ _ => ⟨fun live => ⟨live, rfl⟩, id⟩

theorem executeOrder_moves (executed : executeOrder env db user data = .ok execution) :
    Moves db.markets db execution.db := by
  obtain ⟨venue, opened, _, _, ways⟩ := executeOrder_ok executed
  obtain ⟨found, active, _, _, resolved, _⟩ := openVenue_ok opened
  have isMarket : venue.market.id = data.marketId := Table.key_of_find? found
  have trading : Trading db.markets venue.market.id :=
    ⟨venue.market, isMarket ▸ found, .inl active⟩
  have poolTrading : Trading db.markets venue.pool.key.marketId := by
    rw [Table.key_of_find? resolved]
    exact trading
  rcases ways with ⟨_, _, rfl⟩ | ⟨_, _, filled⟩
  · exact .refl _ _
  obtain ⟨matched, book, trace, ends⟩ := fillOrder_ok filled
  have afterBook : Moves db.markets db matched := trace_moves trace fun offer member =>
    (bookPlan_venue db user venue data offer member).1 ▸ trading
  rcases ends with ⟨_, _, rested⟩ | ⟨_, _, traded, leg, ran, finished⟩ | ⟨_, finished⟩
  · obtain ⟨_, _, _, _, database, _⟩ := restOrder_ok rested
    rw [database]
    exact afterBook.trans (.of_same rfl rfl rfl)
  · refine (afterBook.trans ?_).trans (finish_moves db.markets finished)
    rw [(runAmmLeg_traded ran).2.2]
    exact .of_pools rfl (writeLeg_kept poolTrading leg leg.paid) rfl
  · exact afterBook.trans (finish_moves db.markets finished)

end Orders

/-! # The sweep -/

section Sweep

variable {now : Timestamp} {db : Database} {session : Session} {market : MarketId}

theorem writeSweepLeg_kept {markets : Table Market.id} {pools : Table LiquidityPool.key}
    {turn : Turn} (trading : Trading markets turn.poolKey.marketId) (leg : AmmLeg) (delta : ℚ) :
    Table.Linked (Kept markets) pools (writeSweepLeg pools turn leg delta) := by
  unfold writeSweepLeg
  refine .modifyAny (Kept.refl markets) _ fun row isKey => ?_
  have ofMarket : row.marketId = turn.poolKey.marketId := congrArg PoolKey.marketId isKey
  refine ⟨rfl, rfl, fun nonneg => ⟨leg.amm.yes_nonneg, ?_⟩, .inl (ofMarket ▸ trading)⟩
  dsimp only
  split
  · exact nonneg.2
  · exact leg.amm.no_nonneg

theorem sweepLeg_moves {markets : Table Market.id} {traded : Database} {turn : Turn}
    {remaining : ℚ} {leg : AmmLeg} (trading : Trading markets turn.poolKey.marketId)
    (ran : sweepLeg now db turn remaining = .ok (some (traded, leg))) :
    Moves markets db traded := by
  rcases (sweepLeg_ok ran).2 with ⟨_, _, _, _, rfl⟩ | ⟨_, _, _, _, _, _, rfl⟩
  · refine ⟨rfl, writeSweepLeg_kept trading leg remaining, ?_⟩
    dsimp only [recordLeg]
    exact .modifyAny Aged.refl _ fun _ _ => ⟨fun live => ⟨live, rfl⟩, id⟩
  · refine ⟨rfl, writeSweepLeg_kept trading leg (-leg.quote.collateralIn), ?_⟩
    dsimp only [recordLeg]
    exact .modifyAny Aged.refl _ fun _ _ => ⟨fun live => ⟨live, rfl⟩, id⟩

/-- What a session of the sweep has done so far. -/
structure Swept (now : Timestamp) (db : Database) (session : Session) : Prop where
  sweeping : Sweeping now db session
  committed : Moves db.markets db session.committed
  current : Moves db.markets db session.current

theorem Swept.commit (swept : Swept now db session) : Swept now db session.commit :=
  ⟨swept.sweeping.commit, swept.current, swept.current⟩

theorem Swept.rollback (swept : Swept now db session) : Swept now db session.rollback :=
  ⟨swept.sweeping.rollback, swept.committed, swept.committed⟩

theorem Swept.processOrder {parimutuel : Bool} {orderId : OrderId} {processed : Processed}
    (swept : Swept now db session) (trading : Trading db.markets market)
    (ran : processOrder now market parimutuel session orderId = .ok processed) :
    Swept now db processed.session := by
  have both : Moves db.markets db processed.session.committed ∧
      Moves db.markets db processed.session.current := by
    rcases processOrder_ok ran with ⟨rfl, _⟩ | ⟨order, _, _, _, rfl⟩ |
      ⟨order, turn, _, _, _, taken, traded⟩
    · exact ⟨swept.committed, swept.current⟩
    · have expired : Moves db.markets db (expireOrder now session.current order) :=
        swept.current.trans (.of_same rfl rfl rfl)
      exact ⟨expired, expired⟩
    · obtain ⟨isMarket, _, _, _, isKey, _⟩ := takeTurn_some taken
      obtain ⟨matched, fill, trace, _, ends⟩ := tradeOrder_ok traded
      have makers : ∀ offer ∈ pendingPlan now session turn.market turn.order turn.outcome.id,
          Trading db.markets offer.maker.marketId := by
        intro offer member
        obtain ⟨_, ofMarket, _⟩ := pendingPlan_maker swept.sweeping.consistent member
        rw [ofMarket, isMarket]
        exact trading
      have afterBook : Moves db.markets db matched := swept.current.trans (trace_moves trace makers)
      rcases ends with ⟨_, _, kept | committed⟩ | ⟨after, leg, _, _, _, legRan, final⟩
      · rw [kept]
        exact ⟨swept.committed, afterBook⟩
      · rw [committed]
        exact ⟨afterBook, afterBook⟩
      · rw [final]
        refine ⟨swept.committed, afterBook.trans (sweepLeg_moves ?_ legRan)⟩
        rw [isKey]
        exact trading
  exact ⟨swept.sweeping.turn ran, both.1, both.2⟩

theorem Swept.sweepOrders {parimutuel : Bool} (trading : Trading db.markets market)
    (ids : List OrderId) {session : Session} (swept : Swept now db session) :
    Swept now db (sweepOrders now market parimutuel ids session) := by
  induction ids generalizing session with
  | nil => exact swept.commit
  | cons orderId rest ih =>
      unfold LimitSweep.sweepOrders
      split
      · exact swept.rollback
      · rename_i processed ran
        exact ih (swept.processOrder trading ran)

theorem Swept.sweepMarket (swept : Swept now db session) (market : MarketId)
    (ids : List OrderId) : Swept now db (sweepMarket now session market ids) := by
  unfold LimitSweep.sweepMarket
  split
  · exact swept.rollback
  rename_i row found
  split
  · exact swept.rollback
  rename_i active
  have trading : Trading db.markets market :=
    .of_linked (swept.current.markets.mono Aged.lasts) ⟨row, found, .inl (not_not.mp active)⟩
  exact swept.sweepOrders trading ids

theorem checkLimitOrderExecution_moves (now : Timestamp) (scanned : List Order) (db : Database) :
    Moves db.markets db (checkLimitOrderExecution now scanned db) := by
  have reach : ∀ (batches : List (MarketId × List OrderId)) {session : Session},
      Swept now db session → Swept now db
        (batches.foldl (fun session group => sweepMarket now session group.1 group.2) session) := by
    intro batches
    induction batches with
    | nil => exact id
    | cons batch rest ih => exact fun swept => ih (swept.sweepMarket batch.1 batch.2)
  exact (reach _ ⟨.start, .refl _ _, .refl _ _⟩).committed

theorem expireStaleOrders_moves (now : Timestamp) (db : Database) :
    Moves db.markets db (expireStaleOrders now db) :=
  expireStaleOrders_preserves (fun after => Moves db.markets db after)
    (fun _ _ moved => moved.trans (.of_same rfl rfl rfl)) (.refl _ _)

end Sweep

/-! # Pairs, fees and claims -/

section Pairs

variable {db : Database} {user : UserId} {market : MarketId} {amount : ℚ}
  {result : SplitMerge.Result}

theorem pairOf_trading {first second : Outcome}
    (paired : SplitMerge.pairOf db market = .ok (first, second)) : Trading db.markets market := by
  obtain ⟨row, _, found, active, _⟩ := SplitMerge.pairOf_ok paired
  exact ⟨row, found, .inl active⟩

theorem split_moves (ran : SplitMerge.split db user market amount = .ok result) :
    Moves db.markets db result.db := by
  obtain ⟨_, _, _, paired, positive, _, _, rfl⟩ := SplitMerge.split_ok ran
  refine .of_pools rfl ?_ rfl
  dsimp only
  refine .modifyAny (Kept.refl db.markets) _ fun row isKey => ?_
  have ofMarket : row.marketId = market := congrArg PoolKey.marketId isKey
  have shares := afterFee_nonneg positive
  exact ⟨rfl, rfl, fun nonneg => ⟨add_nonneg nonneg.1 shares, add_nonneg nonneg.2 shares⟩,
    .inl (ofMarket ▸ pairOf_trading paired)⟩

theorem merge_moves (ran : SplitMerge.merge db user market amount = .ok result) :
    Moves db.markets db result.db := by
  obtain ⟨_, _, _, paired, _, _, _, _, _, rfl⟩ := SplitMerge.merge_ok ran
  refine .of_pools rfl ?_ rfl
  dsimp only
  refine .modifyAny (Kept.refl db.markets) _ fun row isKey => ?_
  have ofMarket : row.marketId = market := congrArg PoolKey.marketId isKey
  exact ⟨rfl, rfl, fun _ => ⟨le_max_left _ _, le_max_left _ _⟩,
    .inl (ofMarket ▸ pairOf_trading paired)⟩

theorem distributeProtocolFees_moves (db : Database) (scanned : List LiquidityPool) :
    Moves db.markets db (distributeProtocolFees db scanned) := by
  have each : ∀ (treasury : UserId) (middle : Database) (pool : LiquidityPool),
      Moves db.markets middle (distributePool treasury middle pool) := by
    intro treasury middle pool
    unfold distributePool
    split
    · exact .refl _ _
    split
    · refine .of_pools rfl ?_ rfl
      dsimp only
      exact .modifyAny (Kept.refl db.markets) _ fun _ _ => ⟨rfl, rfl, id, .inr le_rfl⟩
    · rename_i some_
      refine .of_pools rfl ?_ rfl
      dsimp only
      refine .modifyAny (Kept.refl db.markets) _ fun row _ => ⟨rfl, rfl, id, .inr ?_⟩
      exact sub_le_self _ (not_le.mp some_).le
  have along : ∀ (rows : List LiquidityPool) (treasury : UserId) {middle : Database},
      Moves db.markets db middle →
      Moves db.markets db (rows.foldl (distributePool treasury) middle) := by
    intro rows treasury
    induction rows with
    | nil => exact id
    | cons pool rest ih => exact fun moved => ih (moved.trans (each treasury _ pool))
  unfold distributeProtocolFees
  split
  · exact .refl _ _
  · exact along _ _ (.of_same rfl rfl rfl)

theorem claimWinnings_moves {now : Timestamp} {settled : Settled}
    (ran : claimWinnings id now user db market = .ok settled) :
    Moves db.markets db settled.db := by
  obtain ⟨_, _, paid⟩ := claimWinnings_ok ran
  obtain ⟨pool, position, _, isPool, _, positive, _, _, _, rfl⟩ := payClaim_ok paid
  refine .of_pools rfl ?_ rfl
  dsimp only [writePool]
  have found := Table.find?_key_of_mem (EscrowAudit.settlementPool_mem isPool).1
  refine .modify (Kept.refl db.markets) _ found ⟨rfl, rfl, id, .inr ?_⟩
  exact sub_le_self _ positive.le

end Pairs

/-! # Decisions about a market -/

section Decisions

open PredictX.Resolution PredictX.Markets

variable {db after : Database} {now : Timestamp} {market : MarketId} {outcome : OutcomeId}

/-- Only the market's row changed, and it did not come to life. -/
theorem Moves.of_market (update : Market → Market) (keeps : ∀ row, (update row).id = row.id)
    (aged : ∀ row, db.markets.find? market = some row → Aged row (update row))
    (lpShares : after.lpShares = db.lpShares) (pools : after.pools = db.pools)
    (markets : after.markets = db.markets.modify market update keeps) :
    Moves db.markets db after := by
  refine ⟨lpShares, pools ▸ .refl (Kept.refl db.markets) _, ?_⟩
  rw [markets]
  cases found : db.markets.find? market with
  | none =>
      rw [Table.modify_of_find?_none found]
      exact .refl Aged.refl _
  | some row => exact .modify Aged.refl keeps found (aged row found)

theorem aged_of_dead {old new : Market} (dead : ¬ Live new) (admitted : new.status ≠ .rejected) :
    Aged old new :=
  ⟨fun live => absurd live dead, fun rejected => absurd rejected admitted⟩

theorem approve_moves (ran : moderate db market .active = .ok after) :
    Moves db.markets db after := by
  obtain ⟨row, found, pending, rfl⟩ := moderate_ok ran
  refine .of_market (fun row => { row with status := .active }) (fun _ => rfl)
    (fun other here => ⟨fun _ => ?_, by simp⟩) rfl rfl rfl
  cases found.symm.trans here
  exact ⟨.inr pending, rfl⟩

theorem proposeResolution_moves {admin : Bool}
    (ran : proposeResolution admin now db market outcome = .ok after) :
    Moves db.markets db after := by
  obtain ⟨row, -, -, -, -, rfl⟩ := proposeResolution_ok ran
  exact .of_market (proposal now outcome) (fun _ => rfl)
    (fun _ _ => aged_of_dead (by simp [Live, proposal]) (by simp [proposal])) rfl rfl rfl

theorem resolveMarketEndpoint_moves {admin : Bool} {backends : Backends}
    (ran : resolveMarketEndpoint admin backends now db market outcome = .ok after) :
    Moves db.markets db after := by
  obtain ⟨row, -, -, -, -, -, rfl⟩ := resolveMarketEndpoint_ok ran
  exact .of_market (resolution now outcome) (fun _ => rfl)
    (fun _ _ => aged_of_dead (by simp [Live, resolution]) (by simp [resolution])) rfl rfl rfl

theorem createDispute_moves {user : UserId} (ran : createDispute user now db market = .ok after) :
    Moves db.markets db after := by
  obtain ⟨row, -, -, -, rfl⟩ := createDispute_ok ran
  exact .of_market reopen (fun _ => rfl)
    (fun _ _ => aged_of_dead (by simp [Live, reopen]) (by simp [reopen])) rfl rfl rfl

theorem adjudicateDispute_moves {bench : Bench} {dispute : ℕ} {ruling : Ruling} {ruled : Ruled}
    (ran : adjudicateDispute bench now db dispute ruling = .ok ruled) :
    Moves db.markets db ruled.db := by
  obtain ⟨row, -, -, -, -, ⟨rfl, rfl⟩ | ⟨rfl, rfl⟩⟩ := adjudicateDispute_ok ran
  · exact .of_same rfl rfl rfl
  · rcases uphold_cases bench now
      { db with disputes := db.disputes.modify dispute (rule .upheld) } row.marketId with
      same | ⟨_, winning, -, -, -, written⟩
    · rw [same]
      exact .of_same rfl rfl rfl
    · rw [written]
      exact .of_market (overrule now winning) (fun _ => rfl)
        (fun _ _ => aged_of_dead (by simp [Live, overrule]) (by simp [overrule])) rfl rfl rfl

theorem checkMarketsReadyToResolve_moves (now : Timestamp) (db : Database) :
    Moves db.markets db (checkMarketsReadyToResolve now db) := by
  have closed : ∀ (rows : List Market) (markets : Table Market.id),
      Table.Linked Aged markets
        (rows.foldl (fun markets row => markets.modify row.id close) markets) := by
    intro rows
    induction rows with
    | nil => exact fun markets => .refl Aged.refl markets
    | cons row rest ih =>
        intro markets
        refine Table.Linked.trans Aged.trans (.modifyAny Aged.refl _ fun _ _ => ?_) (ih _)
        exact aged_of_dead (by simp [Live, close]) (by simp [close])
  exact ⟨rfl, .refl (Kept.refl db.markets) _, closed _ _⟩

end Decisions

/-! # Every event -/

/-- What an event can do to pools and providers. -/
inductive Effect (db : Database) : Database → Prop
  | moves {after : Database} (moved : Moves db.markets db after) : Effect db after
  | deposit {user : UserId} {market : MarketId} {amount tolerance : ℚ}
      {outcome : Option OutcomeName} {deposited : Deposited}
      (ran : addLiquidity db user market amount tolerance outcome = .ok deposited) :
      Effect db deposited.db
  | withdraw {user : UserId} {market : MarketId} {lpTokens tolerance : ℚ}
      {outcome : Option OutcomeName} {withdrawn : Withdrawn} (positive : 0 < lpTokens)
      (ran : removeLiquidity db user market lpTokens tolerance outcome = .ok withdrawn) :
      Effect db withdrawn.db
  | settle {now : Timestamp} {scan : Scan} {market : MarketId} {winning : OutcomeId}
      {settled : Settled} (reads : scan.Reads db market winning)
      (ran : settleMarket id now false scan db market winning = .ok (some settled)) :
      Effect db settled.db
  | create {now : Timestamp} {author : Markets.Author} {request : Markets.CreateMarketRequest}
      {market : MarketId} {made : Database}
      (ran : Markets.createMarket now author db request = .ok (made, market)) : Effect db made

theorem operation_effect {db after : Database} {operation : Operation}
    (reads : operation.Reads db) (committed : operation.Commits db after) : Effect db after := by
  unfold Operation.Commits at committed
  cases operation with
  | order env user data =>
      obtain ⟨execution, executed, rfl⟩ := map_eq_ok.mp committed
      exact .moves (executeOrder_moves executed)
  | cancel env user orderId =>
      simp only [Operation.perform, cancelOrder] at committed
      split at committed
      · split at committed
        · cases committed
          exact .moves (.of_same rfl rfl rfl)
        · contradiction
      · contradiction
  | expire now =>
      cases committed
      exact .moves (expireStaleOrders_moves now db)
  | sweep now dirty scanned =>
      cases committed
      exact .moves (checkLimitOrderExecution_moves now scanned db)
  | split user market amount =>
      obtain ⟨result, ran, rfl⟩ := map_eq_ok.mp committed
      exact .moves (split_moves ran)
  | merge user market amount =>
      obtain ⟨result, ran, rfl⟩ := map_eq_ok.mp committed
      exact .moves (merge_moves ran)
  | addLiquidity user market amount outcome =>
      obtain ⟨deposited, ran, rfl⟩ := map_eq_ok.mp committed
      exact .deposit ran
  | removeLiquidity user market lpTokens outcome =>
      obtain ⟨withdrawn, ran, rfl⟩ := map_eq_ok.mp committed
      exact .withdraw lpTokens.pos ran
  | distributeFees scanned =>
      cases committed
      exact .moves (distributeProtocolFees_moves db scanned)
  | claim now user market =>
      obtain ⟨settled, ran, rfl⟩ := map_eq_ok.mp committed
      exact .moves (claimWinnings_moves ran)
  | settle now scan market winning =>
      simp only [Operation.perform] at committed
      split at committed
      · contradiction
      · cases committed
        exact .moves (.refl _ _)
      · rename_i settled ran
        cases committed
        exact .settle reads ran

theorem event_effect {platform after : Platform} {event : Event}
    (reads : event.Reads platform.db) (committed : event.Commits platform after) :
    Effect platform.db after.db ∨ ∃ market, event = .rejectMarket market ∧
      Markets.rejectMarket platform.db market = .ok after.db := by
  obtain ⟨performed, _⟩ := committed
  cases event with
  | operate operation => exact .inl (operation_effect reads performed)
  | createMarket now author request =>
      obtain ⟨⟨made, market⟩, ran, isMade⟩ := map_eq_ok.mp performed
      rw [← isMade]
      exact .inl (.create ran)
  | approveMarket now market =>
      exact .inl (.moves (approve_moves (Markets.approveMarket_ok performed)))
  | rejectMarket market => exact .inr ⟨market, rfl, performed⟩
  | proposeResolution admin now market outcome =>
      exact .inl (.moves (proposeResolution_moves performed))
  | resolveMarket admin backends now market outcome =>
      exact .inl (.moves (resolveMarketEndpoint_moves performed))
  | createDispute user now market => exact .inl (.moves (createDispute_moves performed))
  | adjudicateDispute bench now dispute ruling =>
      obtain ⟨ruled, ran, isRuled⟩ := map_eq_ok.mp performed
      rw [← isRuled]
      exact .inl (.moves (adjudicateDispute_moves ran))
  | closeMarkets now =>
      rw [← Except.ok.inj performed]
      exact .inl (.moves (checkMarketsReadyToResolve_moves now _))

end PredictX.Providers
