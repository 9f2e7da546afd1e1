import PredictX.Properties.MoneyFlows

namespace PredictX.MoneySupply

open PredictX.Data PredictX.MarketService PredictX.MatchingEngine PredictX.OrderService
open PredictX.LimitSweep PredictX.Settlement PredictX.LiquidityService

/-! Money over whole runs of the platform.

Whatever happens in whichever order, no money is lost; and unless a match is skipped the money
grows by nothing but the rewards.
-/

/-! # Payouts -/

section Payouts

variable {db : Database} {user treasury : UserId} {market : MarketId} {winning : OutcomeId}
  {now : Timestamp} {clean : Prop} {ledger middle after : Ledger} {pool : LiquidityPool}

theorem writePool_escrows {pools : Table LiquidityPool.key} (left : LiquidityPool)
    (found : pools.find? left.key = some pool)
    (nonneg : 0 ≤ pool.collateral → 0 ≤ left.collateral) :
    Escrows (left.collateral - pool.collateral) pools (writePool pools (some left)) := by
  have written : ∀ row : LiquidityPool, ({ row with
      collateral := left.collateral, protocolFees := left.protocolFees } : LiquidityPool).key =
      row.key := fun _ => rfl
  refine .write _ written found (add_sub_cancel _ _).symm fun escrow => ?_
  rw [add_sub_cancel]
  exact nonneg escrow

theorem claimWinnings_flows {paid : Settled}
    (ran : claimWinnings id now user db market = .ok paid) : Flows clean db paid.db := by
  obtain ⟨winning, _, claimed⟩ := claimWinnings_ok ran
  obtain ⟨pool, position, wallet, isPool, _, _, _, owner, covered, rfl⟩ := payClaim_ok claimed
  have owned : hasWallet db.wallets user = true := by simp [hasWallet, owner]
  have found := Table.find?_key_of_mem (EscrowAudit.settlementPool_mem isPool).1
  have escrowed : Escrows (pool.collateral - position.sharesHeld - pool.collateral) db.pools
      (writePool db.pools (some { pool with collateral := pool.collateral - position.sharesHeld })) :=
    writePool_escrows { pool with collateral := pool.collateral - position.sharesHeld } found
      fun _ => sub_nonneg.mpr covered
  have paid : Receives position.sharesHeld db.wallets
      (db.wallets.modify user (receive id position.sharesHeld)) :=
    .pay (receive id position.sharesHeld) (fun _ => rfl) owned fun _ => rfl
  refine .exchange ?_ escrowed rfl rfl
  rw [sub_sub_cancel_left, neg_neg]
  exact paid

/-- What the escrow of a settlement holds. -/
def held (pool : Option LiquidityPool) : ℚ := (pool.map LiquidityPool.collateral).getD 0

/-- What the loops of a settlement do to the money. -/
structure Posts (before after : Ledger) : Prop where
  lasting : Lasting before.wallets after.wallets
  key : after.pool.map LiquidityPool.key = before.pool.map LiquidityPool.key
  nonneg : 0 ≤ held before.pool → 0 ≤ held after.pool
  total : after.wallets.sum Wallet.balance + held after.pool =
    before.wallets.sum Wallet.balance + held before.pool

theorem Posts.refl (ledger : Ledger) : Posts ledger ledger := ⟨.refl _, rfl, id, rfl⟩

theorem Posts.trans (left : Posts ledger middle) (right : Posts middle after) :
    Posts ledger after :=
  ⟨left.lasting.trans right.lasting, right.key.trans left.key, right.nonneg ∘ left.nonneg,
    right.total.trans left.total⟩

/-- Somebody with a wallet is paid out of the escrow. -/
theorem Posts.pay {amount : ℚ} {left : LiquidityPool} (isPool : ledger.pool = some pool)
    (covered : amount ≤ pool.collateral) (owned : hasWallet ledger.wallets user = true)
    (wallets : after.wallets = ledger.wallets.modify user (receive id amount))
    (isLeft : after.pool = some left) (key : left.key = pool.key)
    (collateral : left.collateral = pool.collateral - amount) : Posts ledger after := by
  have paid : Receives amount ledger.wallets (ledger.wallets.modify user (receive id amount)) :=
    .pay (receive id amount) (fun _ => rfl) owned fun _ => rfl
  refine ⟨?_, ?_, fun _ => ?_, ?_⟩
  · rw [wallets]
    exact paid.lasting
  · rw [isLeft, isPool, Option.map_some, Option.map_some, key]
  · rw [isLeft, held, Option.map_some, Option.getD_some, collateral]
    exact sub_nonneg.mpr covered
  · rw [wallets, paid.total, isLeft, isPool]
    simp only [held, Option.map_some, Option.getD_some, collateral]
    ring

theorem settlePosition_posts {position : Position}
    (ran : settlePosition id now market winning ledger position = .ok after) :
    Posts ledger after := by
  unfold settlePosition at ran
  split at ran
  · cases ran
    exact .refl _
  split at ran
  · cases ran
    exact .refl _
  rename_i wallet owner
  dsimp only at ran
  split at ran
  · rename_i positive
    split at ran
    · contradiction
    rename_i debited
    cases ran
    obtain ⟨pool, isPool, covered, rfl⟩ := debitPool_ok positive debited
    exact .pay isPool covered (by simp [hasWallet, owner]) rfl rfl rfl rfl
  · cases ran
    exact ⟨.refl _, rfl, id, rfl⟩

theorem sweepFees_posts (owned : hasWallet ledger.wallets treasury = true)
    (ran : sweepFees id market treasury ledger = .ok after) : Posts ledger after := by
  unfold sweepFees at ran
  split at ran
  · cases ran
    exact .refl _
  rename_i pool isPool
  split at ran
  · rename_i positive
    split at ran
    · contradiction
    rename_i debited taken
    cases ran
    obtain ⟨rfl, covered⟩ := debitCollateral_eq taken
    refine .pay isPool (covered positive) owned rfl rfl rfl ?_
    dsimp only
    rw [max_eq_right positive.le]
  · cases ran
    exact .refl _

theorem redeemShare_posts {rate : ℚ} {share : LPShare}
    (owned : hasWallet ledger.wallets share.userId = true)
    (ran : redeemShare id rate ledger share = .ok after) : Posts ledger after := by
  unfold redeemShare at ran
  dsimp only at ran
  split at ran
  · cases ran
    exact .refl _
  rename_i positive
  split at ran
  · contradiction
  rename_i debited
  obtain ⟨pool, isPool, covered, rfl⟩ := debitPool_ok (not_le.mp positive) debited
  split at ran
  · rename_i missing
    simp [hasWallet, missing] at owned
  · cases ran
    exact .pay isPool covered owned rfl rfl rfl rfl

/-- A loop over rows whose owners have a wallet. -/
theorem loop_posts {α : Type} {body : Ledger → α → Except Error Ledger} (owner : α → Option UserId)
    (turn : ∀ {ledger next : Ledger} {row : α},
      (∀ user ∈ owner row, hasWallet ledger.wallets user = true) → body ledger row = .ok next →
      Posts ledger next)
    {rows : List α} (owned : ∀ row ∈ rows, ∀ user ∈ owner row, hasWallet ledger.wallets user = true)
    (ran : rows.foldlM body ledger = .ok after) : Posts ledger after := by
  induction rows generalizing ledger with
  | nil =>
      cases ran
      exact .refl _
  | cons row rest ih =>
      rw [List.foldlM_cons] at ran
      obtain ⟨next, head, tail⟩ := bind_eq_ok.mp ran
      obtain ⟨here, later⟩ := List.forall_mem_cons.mp owned
      have posts := turn here head
      exact posts.trans (ih (fun other member user isOwner =>
        posts.lasting user (later other member user isOwner)) tail)

theorem redeemShares_posts {shares : List LPShare}
    (owned : ledger.pool.isSome → ∀ share ∈ shares, hasWallet ledger.wallets share.userId = true)
    (ran : redeemShares id shares ledger = .ok after) : Posts ledger after := by
  unfold redeemShares at ran
  split at ran
  · cases ran
    exact .refl _
  rename_i pool isPool
  split at ran
  · contradiction
  · refine loop_posts (fun share => some share.userId)
      (fun owned head => redeemShare_posts (owned _ rfl) head) ?_ ran
    rintro share member _ ⟨⟩
    exact owned (by simp [isPool]) share member

theorem settleMarket_flows {scan : Scan} {paid : Settled}
    (provided : Provided db.wallets db.lpShares) (reads : scan.Reads db market winning)
    (ran : settleMarket id now false scan db market winning = .ok (some paid)) :
    Flows clean db paid.db := by
  obtain ⟨_, first, swept, final, _, _, _, _, stages, rfl⟩ := settleMarket_ok ran
  have opened := Receives.opened db.wallets (openTreasury db).1
  have positions : Posts (openLedger db market winning) first :=
    loop_posts (fun _ => none) (fun _ head => settlePosition_posts head)
      (fun _ _ user isOwner => absurd isOwner (by simp)) stages.positions
  have fees : Posts first swept :=
    sweepFees_posts (positions.lasting _ (isSome_openWallet_self _ _)) stages.fees
  have before := positions.trans fees
  have shares : Posts swept final := by
    refine redeemShares_posts (fun some_ share member => ?_) stages.shares
    refine before.lasting _ (opened.lasting _ (provided share ?_))
    obtain ⟨pool, isPool⟩ : ∃ pool, settlementPool db.pools market winning = some pool := by
      refine Option.isSome_iff_exists.mp ?_
      have same := congrArg Option.isSome before.key
      rw [Option.isSome_map, Option.isSome_map, some_] at same
      exact same.symm
    exact List.mem_of_mem_filter ((reads.lpShares pool isPool).mem_iff.mp member)
  have posts := before.trans shares
  have escrowed : Escrows (held final.pool - held (settlementPool db.pools market winning))
      db.pools (writePool db.pools final.pool) := by
    have key := posts.key
    change final.pool.map _ = (settlementPool db.pools market winning).map _ at key
    have nonneg := posts.nonneg
    change 0 ≤ held (settlementPool db.pools market winning) → _ at nonneg
    cases isPool : settlementPool db.pools market winning with
    | none =>
        rw [isPool, Option.map_none, Option.map_eq_none_iff] at key
        rw [key, sub_self]
        exact .refl _
    | some pool =>
        rw [isPool, Option.map_some, Option.map_eq_some_iff] at key
        obtain ⟨left, isLeft, sameKey⟩ := key
        rw [isPool, isLeft] at nonneg
        rw [isLeft]
        have found := Table.find?_key_of_mem (EscrowAudit.settlementPool_mem isPool).1
        rw [← sameKey] at found
        exact writePool_escrows left found nonneg
  refine .exchange ⟨opened.lasting.trans posts.lasting, ?_⟩ escrowed rfl rfl
  have total := posts.total
  change final.wallets.sum _ + _ = (openTreasury db).2.wallets.sum _ +
    held (settlementPool db.pools market winning) at total
  rw [openTreasury_wallets, sum_openWallet] at total
  change final.wallets.sum _ = _
  linarith

end Payouts

/-! # New markets -/

section Create

open PredictX.Markets

variable {now : Timestamp} {author : Author} {db made : Database} {market : MarketId}
  {request : CreateMarketRequest} {outcomes : List Outcome} {rows : List LiquidityPool}

theorem outcomeRows_ne_nil : outcomeRows db market request ≠ [] := by
  have count : (outcomeRows db market request).length =
      (request.outcomesCreate.getD [(.yes, 0), (.no, 1)]).length := by
    unfold outcomeRows
    rw [List.length_mapIdx]
  intro none_
  rw [none_] at count
  cases given : request.outcomesCreate with
  | none => simp [given] at count
  | some listed =>
      have bounds := (request.outcomes_count listed given).1
      rw [given, Option.getD_some, List.length_nil] at count
      omega

theorem newPools_collateral : ((newPools market outcomes).map LiquidityPool.collateral).sum = 0 := by
  refine List.sum_eq_zero fun amount member => ?_
  obtain ⟨pool, inPools, rfl⟩ := List.mem_map.mp member
  unfold newPools at inPools
  split at inPools
  · obtain ⟨_, _, rfl⟩ := List.mem_map.mp inPools
    rfl
  · rw [List.mem_singleton.mp inPools]
    rfl

/-- The parts of the seed add up to it. -/
theorem seedPools_collateral (some_ : outcomes ≠ []) :
    ((seedPools request outcomes (newPools market outcomes)).map LiquidityPool.collateral).sum =
      request.initialLiquidity := by
  unfold seedPools newPools
  split
  · have part : ∀ outcome ∈ outcomes, ((LiquidityPool.collateral ∘
        seedOutcome (request.initialLiquidity / (outcomes.map fun outcome =>
          newPool market (some outcome.id)).length)) ∘
        fun outcome : Outcome => newPool market (some outcome.id)) outcome =
        request.initialLiquidity / outcomes.length := by
      intro outcome _
      simp [seedOutcome, newPool]
    have counted : (outcomes.length : ℚ) ≠ 0 := by
      simpa using some_
    rw [List.map_map, List.map_map, List.map_congr_left part, List.map_const', List.sum_replicate,
      nsmul_eq_mul, mul_div_cancel₀ _ counted]
  · simp [seedBinary, newPool]

theorem addAll_pools (fresh : ∀ id ∈ marketIds db, id ≠ market)
    (keys : rows.map LiquidityPool.key =
      (newPools market (outcomeRows db market request)).map LiquidityPool.key) :
    (addAll db.pools rows).rows = db.pools.rows ++ rows := by
  obtain ⟨distinct, ofMarket⟩ :
      ((newPools market (outcomeRows db market request)).map LiquidityPool.key).Nodup ∧
        ∀ pool ∈ newPools market (outcomeRows db market request), pool.marketId = market :=
    newPools_keys outcomeRows_nodup
  refine addAll_rows (keys ▸ distinct) fun pool member => ?_
  have keyed : pool.key ∈ rows.map LiquidityPool.key := List.mem_map_of_mem member
  rw [keys] at keyed
  obtain ⟨new, isNew, same⟩ := List.mem_map.mp keyed
  rw [Table.find?_eq_none]
  intro old oldMember isKey
  have used : old.marketId ∈ marketIds db := by
    simp only [marketIds, List.mem_append, List.mem_map]
    exact .inl (.inl (.inl (.inr ⟨old, oldMember, rfl⟩)))
  refine fresh _ used ?_
  rw [← ofMarket new isNew]
  exact congrArg PoolKey.marketId (isKey.trans same.symm)

/-- The author pays the seed into the new pools. -/
theorem createMarket_money (ran : createMarket now author db request = .ok (made, market)) :
    Lasting db.wallets made.wallets ∧ supply made = supply db ∧
      (Provided db.wallets db.lpShares → Provided made.wallets made.lpShares) := by
  obtain ⟨row, added, granted, created⟩ := createMarket_ok ran
  have fresh := created.fresh
  have lpShares := created.lpShares
  have seed := created.seed
  clear created
  unfold createMarket at ran
  split at ran
  · contradiction
  split at ran
  · contradiction
  split at ran
  · contradiction
  split at ran
  · contradiction
  dsimp only at ran
  split at ran
  · rename_i seeds
    simp only [Except.ok.injEq, Prod.mk.injEq] at ran
    obtain ⟨rfl, rfl⟩ := ran
    have owned : hasWallet db.wallets author.userId = true := by
      simp only [canSeed, Bool.and_eq_true, decide_eq_true_eq] at seeds
      exact Option.isSome_of_any seeds.2
    have paid : Receives (-request.initialLiquidity) db.wallets
        (db.wallets.modify author.userId (Wallet.debit request.initialLiquidity)) := .debit owned
    have escrow : (addAll db.pools (seedPools request (outcomeRows db (above (marketIds db)) request)
        (newPools (above (marketIds db)) (outcomeRows db (above (marketIds db)) request)))).sum
          LiquidityPool.collateral =
        db.pools.sum LiquidityPool.collateral + request.initialLiquidity := by
      rw [Table.sum, addAll_pools fresh (seedPools_keys _), List.map_append, List.sum_append,
        seedPools_collateral outcomeRows_ne_nil]
      rfl
    refine ⟨paid.lasting, ?_, fun provided share member => ?_⟩
    · simp only [supply, rewarded, Database.money, paid.total, escrow]
      ring
    · rw [lpShares, List.mem_append] at member
      rcases member with old | new
      · exact paid.lasting _ (provided share old)
      · refine paid.lasting _ ?_
        rcases seed with ⟨_, isGranted⟩ | ⟨_, _, isGranted⟩
        · rw [isGranted] at new
          cases new
        · rw [isGranted] at new
          obtain ⟨pool, _, rfl⟩ := List.mem_map.mp new
          exact owned
  · simp only [Except.ok.injEq, Prod.mk.injEq] at ran
    obtain ⟨rfl, rfl⟩ := ran
    have escrow : (addAll db.pools
        (newPools (above (marketIds db)) (outcomeRows db (above (marketIds db)) request))).sum
          LiquidityPool.collateral = db.pools.sum LiquidityPool.collateral := by
      rw [Table.sum, addAll_pools fresh rfl, List.map_append, List.sum_append,
        newPools_collateral, add_zero]
      rfl
    refine ⟨.refl _, ?_, fun provided => provided⟩
    simp only [supply, rewarded, Database.money, escrow]

end Create

/-! # Every event -/

/-- What the money rests on. -/
structure Backed (db : Database) : Prop where
  orderly : Orderly db.orders
  sound : Providers.Sound db
  placed : Placed db.wallets db.orders
  provided : Provided db.wallets db.lpShares
  funded : Funded db.pools
  pooled : Pooled db

/-- The event skips no match. -/
def Clean (db : Database) : Event → Prop
  | .operate (.order env user data) => Delivers env db user data
  | .operate (.sweep now _ _) => SweepDelivers now db
  | _ => True

section Events

variable {db after : Database} {clean : Prop}

theorem Pooled.flows (pooled : Pooled db) (flows : Flows clean db after) : Pooled after := by
  intro market some_ binary
  have same : outcomesOf after market = outcomesOf db market := by
    unfold outcomesOf
    rw [flows.outcomes]
  rw [same] at some_ binary
  exact flows.pools _ (pooled market some_ binary)

/-- A share that is written keeps its owner. -/
theorem Provided.modify {wallets : Table Wallet.userId} {shares : Table LPShare.key}
    {key : LPShareKey} {update : LPShare → LPShare}
    {keeps : ∀ share, (update share).key = share.key} (provided : Provided wallets shares) :
    Provided wallets (shares.modify key update keeps) := by
  intro share member
  obtain ⟨old, oldMember, rfl⟩ := Table.mem_modify.mp member
  have owned := provided old oldMember
  split
  · have owner : (update old).userId = old.userId := congrArg LPShareKey.userId (keeps old)
    rw [owner]
    exact owned
  · exact owned

theorem burnRows_provided {wallets lookup : Table Wallet.userId} {rate : ℚ} (rows : List LPShare)
    {shares : Table LPShare.key} (provided : Provided wallets shares) :
    Provided wallets (burnRows id lookup rate rows shares) := by
  induction rows generalizing shares with
  | nil => exact provided
  | cons share rest ih =>
      rw [burnRows, List.foldl_cons, ← burnRows]
      refine ih ?_
      split
      · exact provided.modify
      · exact provided

theorem effect_provided (effect : Providers.Effect db after)
    (lasting : Lasting db.wallets after.wallets) (provided : Provided db.wallets db.lpShares) :
    Provided after.wallets after.lpShares := by
  cases effect with
  | moves moved =>
      rw [moved.lpShares]
      exact provided.lasting lasting
  | deposit ran =>
      obtain ⟨_, pool, wallet, minted, _, _, _, owner, _, _, _, rfl⟩ := addLiquidity_ok ran
      refine Provided.lasting ?_ lasting
      dsimp only [creditShare]
      split
      · exact provided.modify
      · intro share member
        rcases Table.mem_insert member with old | rfl
        · exact provided share old
        · simp [hasWallet, owner]
  | withdraw _ ran =>
      obtain ⟨_, _, _, _, _, _, _, _, _, _, _, _, _, _, rfl⟩ := removeLiquidity_ok ran
      refine Provided.lasting ?_ lasting
      dsimp only
      exact provided.modify
  | settle reads ran =>
      obtain ⟨_, paid, swept, final, _, _, _, _, stages, rfl⟩ := settleMarket_ok ran
      refine Provided.lasting ?_ lasting
      obtain ⟨_, positions, _⟩ := settlePositions_paid stages.positions
      obtain ⟨_, fees, _⟩ := sweepFees_paid stages.fees
      obtain ⟨_, _, burnt⟩ := redeemShares_paid stages.shares
      have untouched : swept.lpShares = db.lpShares := fees.trans positions
      rw [untouched] at burnt
      change Provided db.wallets final.lpShares
      rw [burnt]
      split
      · exact provided
      · exact burnRows_provided _ provided
  | create ran => exact (createMarket_money ran).2.2 provided

/-- What a step does to the money and to the orders it is owed for. -/
structure Moves (clean : Prop) (before after : Database) : Prop where
  flows : Flows clean before after
  orderly : Orderly after.orders
  placed : Placed after.wallets after.orders

theorem Moves.of_orders (backed : Backed db) (flows : Flows clean db after)
    (orders : after.orders = db.orders) : Moves clean db after := by
  refine ⟨flows, ?_, ?_⟩
  · rw [orders]
    exact backed.orderly
  · rw [orders]
    exact backed.placed.lasting flows.lasting

theorem operation_moves {operation : Operation} (reads : operation.Reads db) (backed : Backed db)
    (performed : operation.perform db = .ok after) :
    Moves (Clean db (.operate operation)) db after := by
  have trades : ∀ {action : Trading.Action}, Trading.perform db action = .ok after →
      Orderly after.orders := fun traded => (Trading.perform_ages traded backed.orderly).1
  cases operation with
  | order env actor data =>
      have orders := trades (show Trading.perform db (.execute env actor data) = _ from performed)
      obtain ⟨execution, executed, rfl⟩ := map_eq_ok.mp performed
      obtain ⟨flows, placed⟩ := executeOrder_flows backed.placed executed
      exact ⟨flows, orders, placed⟩
  | cancel env actor orderId =>
      have orders := trades (show Trading.perform db (.cancel env actor orderId) = _ from performed)
      obtain ⟨flows, placed⟩ := cancelOrder_flows backed.placed performed
      exact ⟨flows, orders, placed⟩
  | expire now =>
      have orders := trades (show Trading.perform db (.expire now) = _ from performed)
      cases performed
      obtain ⟨flows, placed⟩ := expireStaleOrders_flows now backed.placed
      exact ⟨flows, orders, placed⟩
  | sweep now dirty scanned =>
      have orders := trades (show Trading.perform db (.sweep now dirty scanned) = _ from performed)
      cases performed
      obtain ⟨flows, placed⟩ := checkLimitOrderExecution_flows backed.orderly backed.placed
      exact ⟨flows, orders, placed⟩
  | split actor market amount =>
      obtain ⟨result, ran, rfl⟩ := map_eq_ok.mp performed
      refine .of_orders backed (split_flows backed.pooled ran) ?_
      obtain ⟨_, _, _, _, _, _, _, rfl⟩ := SplitMerge.split_ok ran
      rfl
  | merge actor market amount =>
      obtain ⟨result, ran, rfl⟩ := map_eq_ok.mp performed
      refine .of_orders backed (merge_flows backed.pooled ran) ?_
      obtain ⟨_, _, _, _, _, _, _, _, _, rfl⟩ := SplitMerge.merge_ok ran
      rfl
  | addLiquidity actor market amount outcome =>
      obtain ⟨deposited, ran, rfl⟩ := map_eq_ok.mp performed
      refine .of_orders backed (addLiquidity_flows ran) ?_
      obtain ⟨_, _, _, _, _, _, _, _, _, _, _, rfl⟩ := addLiquidity_ok ran
      rfl
  | removeLiquidity actor market lpTokens outcome =>
      obtain ⟨withdrawn, ran, rfl⟩ := map_eq_ok.mp performed
      refine .of_orders backed
        (removeLiquidity_flows lpTokens.pos backed.funded backed.sound ran) ?_
      obtain ⟨_, _, _, _, _, _, _, _, _, _, _, _, _, _, rfl⟩ := removeLiquidity_ok ran
      rfl
  | distributeFees scanned =>
      cases performed
      exact .of_orders backed (distributeProtocolFees_flows reads)
        (distributeProtocolFees_orders db scanned)
  | claim now actor market =>
      obtain ⟨paid, ran, rfl⟩ := map_eq_ok.mp performed
      refine .of_orders backed (claimWinnings_flows ran) ?_
      obtain ⟨_, _, claimed⟩ := claimWinnings_ok ran
      obtain ⟨_, _, _, _, _, _, _, _, _, rfl⟩ := payClaim_ok claimed
      rfl
  | settle now scan market winning =>
      dsimp only [Operation.perform] at performed
      split at performed
      · contradiction
      · cases performed
        exact .of_orders backed (.refl db) rfl
      · rename_i paid ran
        cases performed
        refine .of_orders backed (settleMarket_flows backed.provided reads ran) ?_
        obtain ⟨_, _, _, _, _, _, _, _, _, rfl⟩ := settleMarket_ok ran
        rfl

/-- What an event does to the money. -/
structure Advances (clean : Prop) (before after : Database) : Prop where
  backed : Backed after
  lasting : Lasting before.wallets after.wallets
  grows : supply before ≤ supply after
  kept : clean → supply after = supply before

theorem Moves.advances (moves : Moves clean db after) (backed : Backed db)
    (sound : Providers.Sound after) (provided : Provided after.wallets after.lpShares) :
    Advances clean db after :=
  ⟨⟨moves.orderly, sound, moves.placed, provided, moves.flows.funded backed.funded,
    backed.pooled.flows moves.flows⟩, moves.flows.lasting, moves.flows.grows, moves.flows.kept⟩

theorem createMarket_advances {now : Timestamp} {author : Markets.Author} {market : MarketId}
    {request : Markets.CreateMarketRequest} (backed : Backed db)
    (ran : Markets.createMarket now author db request = .ok (after, market)) :
    Advances clean db after := by
  obtain ⟨lasting, same, provided⟩ := createMarket_money ran
  obtain ⟨row, added, granted, created⟩ := Markets.createMarket_ok ran
  refine ⟨⟨?_, backed.sound.create ran, ?_, provided backed.provided, fun pool member => ?_,
    fun other some_ binary => ?_⟩, lasting, same.ge, fun _ => same⟩
  · rw [created.orders]
    exact backed.orderly
  · rw [created.orders]
    exact backed.placed.lasting lasting
  · rw [created.pools, List.mem_append] at member
    rcases member with old | new
    · exact backed.funded pool old
    · exact (created.untraded pool new).collateral
  · by_cases isNew : other = market
    · subst isNew
      rw [Markets.isParimutuel_perm created.outcomesOf_perm] at binary
      have keyed : (⟨other, none⟩ : PoolKey) ∈ added.map LiquidityPool.key := by
        rw [created.keys, Markets.newPools, binary]
        simp [Markets.newPool, LiquidityPool.key]
      obtain ⟨pool, isAdded, isKey⟩ := List.mem_map.mp keyed
      rw [← isKey, Table.find?_key_of_mem (created.pools ▸ List.mem_append_right _ isAdded)]
      rfl
    · have others : ((Markets.outcomeRows db market request).filter fun outcome =>
          outcome.marketId = other) = [] := by
        rw [List.filter_eq_nil_iff]
        intro outcome member
        simpa [Markets.outcomeRows_marketId outcome member] using fun equal => isNew equal.symm
      have sameOutcomes : outcomesOf after other = outcomesOf db other := by
        unfold outcomesOf
        rw [created.outcomes, List.filter_append, others, List.append_nil]
      rw [sameOutcomes] at some_ binary
      obtain ⟨pool, found⟩ := Option.isSome_iff_exists.mp (backed.pooled other some_ binary)
      have stays : after.pools.find? ⟨other, none⟩ = some pool := by
        obtain ⟨member, isKey⟩ := Table.find?_eq_some.mp found
        exact Table.find?_eq_some.mpr ⟨created.pools ▸ List.mem_append_left _ member, isKey⟩
      rw [stays]
      rfl

theorem event_advances {platform next : Platform} {event : Event}
    (reads : event.Reads platform.db) (backed : Backed platform.db)
    (commits : event.Commits platform next) :
    Advances (Clean platform.db event) platform.db next.db := by
  have sound := backed.sound.commits reads commits
  have performed := commits.1
  have untouched : ∀ {later : Database}, next.db = later → later.wallets = platform.db.wallets →
      later.pools = platform.db.pools → later.outcomes = platform.db.outcomes →
      later.referrals = platform.db.referrals → later.orders = platform.db.orders →
      later.lpShares = platform.db.lpShares →
      Advances (Clean platform.db event) platform.db next.db := by
    rintro later rfl wallets pools outcomes referrals orders lpShares
    refine Moves.advances (.of_orders backed (.idle wallets pools outcomes referrals) orders) backed
      sound ?_
    rw [wallets, lpShares]
    exact backed.provided
  cases event with
  | operate operation =>
      have moves := operation_moves reads backed performed
      refine moves.advances backed sound ?_
      exact effect_provided (Providers.operation_effect reads performed) moves.flows.lasting
        backed.provided
  | createMarket now author request =>
      obtain ⟨⟨made, market⟩, ran, isAfter⟩ := map_eq_ok.mp performed
      rw [← isAfter]
      exact createMarket_advances backed ran
  | approveMarket now market =>
      obtain ⟨_, _, _, written⟩ := Markets.moderate_ok (Markets.approveMarket_ok performed)
      exact untouched written rfl rfl rfl rfl rfl rfl
  | rejectMarket market =>
      obtain ⟨_, _, _, written⟩ := Markets.moderate_ok performed
      exact untouched written rfl rfl rfl rfl rfl rfl
  | proposeResolution admin now market outcome =>
      obtain ⟨_, -, -, -, -, written⟩ := Resolution.proposeResolution_ok performed
      exact untouched written rfl rfl rfl rfl rfl rfl
  | resolveMarket admin backends now market outcome =>
      obtain ⟨_, -, -, -, -, -, written⟩ := Resolution.resolveMarketEndpoint_ok performed
      exact untouched written rfl rfl rfl rfl rfl rfl
  | createDispute actor now market =>
      obtain ⟨_, -, -, -, written⟩ := Resolution.createDispute_ok performed
      exact untouched written rfl rfl rfl rfl rfl rfl
  | adjudicateDispute bench now dispute ruling =>
      obtain ⟨ruled, ran, isAfter⟩ := map_eq_ok.mp performed
      obtain ⟨row, -, -, -, -, ⟨rfl, rfl⟩ | ⟨rfl, rfl⟩⟩ := Resolution.adjudicateDispute_ok ran
      · exact untouched isAfter.symm rfl rfl rfl rfl rfl rfl
      · rcases Resolution.uphold_cases bench now
          { platform.db with
            disputes := platform.db.disputes.modify dispute (Resolution.rule .upheld) }
          row.marketId with same | ⟨_, winning, -, -, -, written⟩
        · exact untouched (isAfter.symm.trans same) rfl rfl rfl rfl rfl rfl
        · exact untouched (isAfter.symm.trans written) rfl rfl rfl rfl rfl rfl
  | closeMarkets now =>
      exact untouched (Except.ok.inj performed).symm rfl rfl rfl rfl rfl rfl

theorem backed_fresh {platform : Platform} (fresh : platform.Fresh)
    (orders : platform.db.orders = .empty) (outcomes : platform.db.outcomes = .empty) :
    Backed platform.db where
  orderly id row found := by
    rw [orders] at found
    exact absurd (Table.mem_of_find? found) List.not_mem_nil
  sound := Providers.sound_fresh fresh
  placed order member := by
    rw [orders] at member
    exact absurd member List.not_mem_nil
  provided share member := by
    rw [fresh.lpShares] at member
    exact absurd member List.not_mem_nil
  funded pool member := by
    rw [fresh.pools] at member
    exact absurd member List.not_mem_nil
  pooled market some_ := by
    have none_ : outcomesOf platform.db market = [] := by
      rw [outcomesOf, outcomes]
      rfl
    exact absurd none_ some_

end Events

/-! # Runs -/

section Runs

variable {start final : Platform} {events : List Event}

/-- Whatever happens in whichever order: no money is lost, and no escrow falls below zero. -/
theorem no_money_is_lost (run : Event.Runs (fun _ _ => True) start events final)
    (backed : Backed start.db) :
    start.db.money + (rewarded final.db - rewarded start.db) ≤ final.db.money ∧
      Funded final.db.pools := by
  obtain ⟨still, grows⟩ : Backed final.db ∧ supply start.db ≤ supply final.db := by
    refine run.invariant
      (fun platform => Backed platform.db ∧ supply start.db ≤ supply platform.db) ?_
      ⟨backed, le_rfl⟩
    intro platform event after guarded commits before
    have advances := event_advances guarded.1 before.1 commits
    exact ⟨advances.backed, before.2.trans advances.grows⟩
  refine ⟨?_, still.funded⟩
  unfold supply at grows
  linarith

/-- A market with a seed of 100 and a split of 50. -/
theorem a_split_loses_nothing :
    ∃ final : Platform, Event.Runs (fun _ _ => True) ⟨BinaryMarket.emptyExchange, []⟩
        [.createMarket 0 BinaryMarket.administrator BinaryMarket.seededRequest,
          .operate (BinaryMarket.splitOf 50 pos_fifty grid_fifty)] final ∧
      BinaryMarket.emptyExchange.money + (rewarded final.db - 0) ≤ final.db.money ∧
      Funded final.db.pools := by
  have played : succeedsWith (Event.play ⟨BinaryMarket.emptyExchange, []⟩
      (.createMarket 0 BinaryMarket.administrator BinaryMarket.seededRequest)) (fun middle =>
        succeedsWith (Event.play middle
          (.operate (BinaryMarket.splitOf 50 pos_fifty grid_fifty))) fun _ => true) = true := by
    decide +kernel
  obtain ⟨middle, creates, rest⟩ := succeedsWith_iff.mp played
  obtain ⟨final, splits, _⟩ := succeedsWith_iff.mp rest
  have run : Event.Runs (fun _ _ => True) ⟨BinaryMarket.emptyExchange, []⟩
      [.createMarket 0 BinaryMarket.administrator BinaryMarket.seededRequest,
        .operate (BinaryMarket.splitOf 50 pos_fifty grid_fifty)] final :=
    .act ⟨trivial, trivial⟩ (Event.commits_of_play creates)
      (.act ⟨trivial, trivial⟩ (Event.commits_of_play splits) (.stop final))
  have fresh : Platform.Fresh ⟨BinaryMarket.emptyExchange, []⟩ := ⟨rfl, rfl, rfl, rfl⟩
  exact ⟨final, run, no_money_is_lost run (backed_fresh fresh rfl rfl)⟩

/-- As long as no match is skipped, new money is a reward. -/
theorem new_money_is_a_reward
    (run : Event.Runs (fun platform event => Clean platform.db event) start events final)
    (backed : Backed start.db) :
    final.db.money = start.db.money + (rewarded final.db - rewarded start.db) := by
  obtain ⟨-, same⟩ : Backed final.db ∧ supply final.db = supply start.db := by
    refine run.invariant
      (fun platform => Backed platform.db ∧ supply platform.db = supply start.db) ?_
      ⟨backed, rfl⟩
    intro platform event after guarded commits before
    have advances := event_advances guarded.1 before.1 commits
    exact ⟨advances.backed, (advances.kept guarded.2).trans before.2⟩
  unfold supply at same
  linarith

/-- User 2 has brought user 1 along. -/
def referredExchange : Database :=
  { BinaryMarket.emptyExchange with
    wallets := BinaryMarket.emptyExchange.wallets.insert ⟨2, 0, 0⟩
    referrals := [⟨some 2, some 1, false, 0⟩] }

/-- User 1 creates a market and buys for 5 dollars; user 2 is rewarded. -/
theorem the_reward_is_new :
    ∃ final : Platform, Event.Runs (fun platform event => Clean platform.db event)
        ⟨referredExchange, []⟩
        [.createMarket 0 BinaryMarket.administrator BinaryMarket.seededRequest,
          .operate (.order quietEnv 1 (marketOrder .buy 5 pos_five grid_five))] final ∧
      final.db.money = referredExchange.money + 1 := by
  have played : succeedsWith (Event.play ⟨referredExchange, []⟩
      (.createMarket 0 BinaryMarket.administrator BinaryMarket.seededRequest)) (fun middle =>
        middle.db.orders.rows = [] && succeedsWith (Event.play middle
          (.operate (.order quietEnv 1 (marketOrder .buy 5 pos_five grid_five))))
          fun final => rewarded final.db - rewarded referredExchange = 1) = true := by
    decide +kernel
  obtain ⟨middle, creates, rest⟩ := succeedsWith_iff.mp played
  simp only [Bool.and_eq_true, decide_eq_true_eq] at rest
  obtain ⟨noOrders, ordered⟩ := rest
  obtain ⟨final, buys, reward⟩ := succeedsWith_iff.mp ordered
  have clean : Clean middle.db
      (.operate (.order quietEnv 1 (marketOrder .buy 5 pos_five grid_five))) := by
    intro venue _ _ offer member
    have maker := (mem_bookPlan member).1
    rw [noOrders] at maker
    cases maker
  have run : Event.Runs (fun platform event => Clean platform.db event) ⟨referredExchange, []⟩
      [.createMarket 0 BinaryMarket.administrator BinaryMarket.seededRequest,
        .operate (.order quietEnv 1 (marketOrder .buy 5 pos_five grid_five))] final :=
    .act ⟨trivial, trivial⟩ (Event.commits_of_play creates)
      (.act ⟨trivial, clean⟩ (Event.commits_of_play buys) (.stop final))
  have fresh : Platform.Fresh ⟨referredExchange, []⟩ := ⟨rfl, rfl, rfl, rfl⟩
  have money := new_money_is_a_reward run (backed_fresh fresh rfl rfl)
  rw [of_decide_eq_true reward] at money
  exact ⟨final, run, money⟩

end Runs

end PredictX.MoneySupply
