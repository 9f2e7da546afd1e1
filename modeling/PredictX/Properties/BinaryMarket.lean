import PredictX.Properties.OrderLedger
import PredictX.Properties.NoShortPositions
import PredictX.Api.MarketCases

namespace PredictX.BinaryMarket

open PredictX.Data PredictX.Amm PredictX.MarketService PredictX.MatchingEngine
open PredictX.OrderService PredictX.LiquidityService

/-! The books of one binary market.

Every operation enters a change of the pool row and of the open shares.  `Entry` is what one
operation entered; what the solvency and the sell-back results say about a whole run is
derived from the entries alone.
-/

/-- A market with two outcomes, one pool and unsettled positions. -/
structure Books (db : Database) (market : MarketId) (first second : Outcome) : Prop where
  outcomes : outcomesOf db market = [first, second]
  binary : isParimutuel (outcomesOf db market) = false
  unnamed : ∀ outcome, db.pools.find? ⟨market, some outcome⟩ = none
  allOpen : Position.AllOpen db.positions market
  unshort : Unshort db.positions
  feeRate : ∀ pool, db.pools.find? ⟨market, none⟩ = some pool → pool.feeRate = tradingFeeRate

/-- What an operation entered: the row goes through `update`, the shares move by `delta`. -/
structure Entry (db after : Database) (market : MarketId)
    (update : LiquidityPool → LiquidityPool) (delta : OutcomeId → ℚ) : Prop where
  row : after.pools.find? ⟨market, none⟩ = (db.pools.find? ⟨market, none⟩).map update
  unnamed : ∀ outcome, db.pools.find? ⟨market, some outcome⟩ = none →
    after.pools.find? ⟨market, some outcome⟩ = none
  shares : ∀ outcome, Position.sharesIn after.positions market outcome =
    Position.sharesIn db.positions market outcome + delta outcome
  outcomes : after.outcomes = db.outcomes
  allOpen : Position.AllOpen db.positions market → Position.AllOpen after.positions market

section Entries

variable {db after : Database} {market other : MarketId} {user : UserId} {amount : ℚ}
  {first second : Outcome} {update : LiquidityPool → LiquidityPool} {delta : OutcomeId → ℚ}

theorem Books.enter (books : Books db market first second)
    (entry : Entry db after market update delta) (unshort : Unshort after.positions)
    (feeRate : ∀ pool, db.pools.find? ⟨market, none⟩ = some pool →
      (update pool).feeRate = pool.feeRate) : Books after market first second := by
  have sameOutcomes : outcomesOf after market = outcomesOf db market := by
    unfold outcomesOf
    rw [entry.outcomes]
  refine ⟨sameOutcomes.trans books.outcomes, by rw [sameOutcomes, books.binary],
    fun outcome => entry.unnamed outcome (books.unnamed outcome),
    entry.allOpen books.allOpen, unshort, fun pool found => ?_⟩
  rw [entry.row] at found
  obtain ⟨before, beforeFound, rfl⟩ := Option.map_eq_some_iff.mp found
  exact (feeRate before beforeFound).trans (books.feeRate before beforeFound)

/-- Only the pools of another market and the rows of other tables changed. -/
theorem Entry.of_same (row : ∀ outcome, after.pools.find? ⟨market, outcome⟩ =
      db.pools.find? ⟨market, outcome⟩)
    (positions : after.positions = db.positions) (outcomes : after.outcomes = db.outcomes) :
    Entry db after market id fun _ => 0 := by
  refine ⟨by rw [row, Option.map_id, id], fun outcome unnamed => (row (some outcome)).trans unnamed,
    fun outcome => ?_, outcomes, ?_⟩
  · rw [positions, add_zero]
  · rw [positions]
    exact fun open_ => open_

theorem key_ne (apart : market ≠ other) (left right : Option OutcomeId) :
    (⟨market, left⟩ : PoolKey) ≠ ⟨other, right⟩ :=
  fun same => apart (congrArg PoolKey.marketId same)

theorem named_ne (market : MarketId) (outcome : OutcomeId) :
    (⟨market, some outcome⟩ : PoolKey) ≠ ⟨market, none⟩ := by
  simp

theorem sharesIn_eq (positions : Table Position.key) (market : MarketId) (outcome : OutcomeId) :
    Position.sharesIn positions market outcome =
      Position.counted positions fun ofMarket ofOutcome =>
        ofMarket = market && ofOutcome = outcome := rfl

/-- The dollars of one share each, if the outcome is in the pair. -/
def onPair (first second : Outcome) (amount : ℚ) (outcome : OutcomeId) : ℚ :=
  (if first.id = outcome then amount else 0) + if second.id = outcome then amount else 0

theorem onPair_of_mem (apart : first.id ≠ second.id) {outcome : Outcome}
    (member : outcome ∈ [first, second]) : onPair first second amount outcome.id = amount := by
  have either : outcome = first ∨ outcome = second := by simpa using member
  rcases either with rfl | rfl
  · simp [onPair, apart.symm]
  · simp [onPair, apart]

/-- The two outcomes are different rows. -/
theorem Books.apart (books : Books db market first second) : first.id ≠ second.id := by
  have ids := outcomesOf_nodup db market
  rw [books.outcomes] at ids
  simpa using ids

theorem Books.eq_of_id (books : Books db market first second) {left right : Outcome}
    (leftMember : left ∈ [first, second]) (rightMember : right ∈ [first, second])
    (same : left.id = right.id) : left = right := by
  have ids := outcomesOf_nodup db market
  rw [← books.outcomes] at leftMember rightMember
  exact List.inj_on_of_nodup_map ids leftMember rightMember same

theorem split_entry {result : SplitMerge.Result}
    (ran : SplitMerge.split db user market amount = .ok result)
    (outcomes : outcomesOf db market = [first, second]) :
    0 < amount ∧ Entry db result.db market (SplitMerge.splitPool amount)
      (onPair first second (SplitMerge.afterFee amount)) := by
  obtain ⟨one, two, _, paired, positive, _, _, rfl⟩ := SplitMerge.split_ok ran
  obtain ⟨_, _, _, _, isPair, _⟩ := SplitMerge.pairOf_ok paired
  rw [outcomes] at isPair
  obtain ⟨rfl, rfl, _⟩ : first = one ∧ second = two ∧ _ := by simpa using isPair
  refine ⟨positive, ?_, fun outcome unnamed => ?_, fun outcome => ?_, rfl,
    fun open_ => (open_.acquire _).acquire _⟩
  · dsimp only
    rw [Table.find?_modify_self]
  · dsimp only
    rw [Table.find?_modify_ne (named_ne market outcome), unnamed]
  · dsimp only
    rw [sharesIn_eq, SplitMerge.receiveShares, Position.counted_acquire, SplitMerge.receiveShares,
      Position.counted_acquire]
    simp [onPair, sharesIn_eq, add_assoc]

theorem merge_entry {result : SplitMerge.Result}
    (ran : SplitMerge.merge db user market amount = .ok result)
    (outcomes : outcomesOf db market = [first, second]) :
    0 < amount ∧ Entry db result.db market (SplitMerge.mergePool amount)
      (onPair first second (-amount)) := by
  obtain ⟨one, two, _, paired, positive, _, holdsFirst, holdsSecond, _, rfl⟩ :=
    SplitMerge.merge_ok ran
  have apart := pair_ids_ne paired
  obtain ⟨_, _, _, _, isPair, _⟩ := SplitMerge.pairOf_ok paired
  rw [outcomes] at isPair
  obtain ⟨rfl, rfl, _⟩ : first = one ∧ second = two ∧ _ := by simpa using isPair
  obtain ⟨_, foundFirst⟩ := Position.exists_of_held_pos (positive.trans_le holdsFirst)
  obtain ⟨_, foundSecond⟩ := Position.exists_of_held_pos (positive.trans_le holdsSecond)
  have stillSecond : (Position.dispose db.positions ⟨user, market, first.id⟩ amount
      (SplitMerge.afterFee amount / 2)).find? ⟨user, market, second.id⟩ = some _ :=
    (Position.find?_dispose_ne (by simp [apart.symm])).trans foundSecond
  refine ⟨positive, ?_, fun outcome unnamed => ?_, fun outcome => ?_, rfl,
    fun open_ => (open_.dispose _).dispose _⟩
  · dsimp only
    rw [Table.find?_modify_self]
  · dsimp only
    rw [Table.find?_modify_ne (named_ne market outcome), unnamed]
  · dsimp only
    rw [sharesIn_eq, Position.counted_dispose stillSecond, Position.counted_dispose foundFirst]
    by_cases isFirst : first.id = outcome <;> by_cases isSecond : second.id = outcome <;>
      simp [onPair, sharesIn_eq, isFirst, isSecond, sub_eq_add_neg, add_assoc]

theorem split_elsewhere {result : SplitMerge.Result}
    (ran : SplitMerge.split db user other amount = .ok result) (apart : market ≠ other) :
    Entry db result.db market id fun _ => 0 := by
  obtain ⟨one, two, _, _, _, _, _, rfl⟩ := SplitMerge.split_ok ran
  refine ⟨?_, fun outcome unnamed => ?_, fun outcome => ?_, rfl,
    fun open_ => (open_.acquire _).acquire _⟩
  · dsimp only
    rw [Table.find?_modify_ne (key_ne apart none none), Option.map_id, id]
  · dsimp only
    rw [Table.find?_modify_ne (key_ne apart (some outcome) none), unnamed]
  · dsimp only
    rw [sharesIn_eq, SplitMerge.receiveShares, Position.counted_acquire, SplitMerge.receiveShares,
      Position.counted_acquire]
    simp [sharesIn_eq, apart.symm]

theorem merge_elsewhere {result : SplitMerge.Result}
    (ran : SplitMerge.merge db user other amount = .ok result) (apart : market ≠ other) :
    Entry db result.db market id fun _ => 0 := by
  obtain ⟨one, two, _, paired, positive, _, holdsFirst, holdsSecond, _, rfl⟩ :=
    SplitMerge.merge_ok ran
  obtain ⟨_, foundFirst⟩ := Position.exists_of_held_pos (positive.trans_le holdsFirst)
  obtain ⟨_, foundSecond⟩ := Position.exists_of_held_pos (positive.trans_le holdsSecond)
  have stillSecond : (Position.dispose db.positions ⟨user, other, one.id⟩ amount
      (SplitMerge.afterFee amount / 2)).find? ⟨user, other, two.id⟩ = some _ :=
    (Position.find?_dispose_ne (by simp [(pair_ids_ne paired).symm])).trans foundSecond
  refine ⟨?_, fun outcome unnamed => ?_, fun outcome => ?_, rfl,
    fun open_ => (open_.dispose _).dispose _⟩
  · dsimp only
    rw [Table.find?_modify_ne (key_ne apart none none), Option.map_id, id]
  · dsimp only
    rw [Table.find?_modify_ne (key_ne apart (some outcome) none), unnamed]
  · dsimp only
    rw [sharesIn_eq, Position.counted_dispose stillSecond, Position.counted_dispose foundFirst]
    simp [sharesIn_eq, apart.symm]

/-- The pool a call on the market acts on. -/
theorem resolved_row {pool : LiquidityPool} {outcome : Option OutcomeName}
    (binary : isParimutuel (outcomesOf db market) = false)
    (resolved : resolveLiquidityPool db market outcome = .ok pool) :
    pool.key = ⟨market, none⟩ ∧ db.pools.find? ⟨market, none⟩ = some pool := by
  obtain ⟨found, ofMarket, unnamed⟩ := resolveLiquidityPool_ok resolved
  have isKey : pool.key = ⟨market, none⟩ := by
    unfold LiquidityPool.key
    rw [ofMarket, unnamed binary]
  exact ⟨isKey, isKey ▸ found⟩

theorem writeLiquidity_deposit (amount minted : ℚ) (pool : LiquidityPool) :
    writeLiquidity (depositInto amount minted pool) pool = depositInto amount minted pool := by
  unfold depositInto growReserves
  dsimp only
  split <;> rfl

theorem writeLiquidity_key (after row : LiquidityPool) :
    (writeLiquidity after row).key = row.key := rfl

theorem Entry.of_modify {key : PoolKey} {row : LiquidityPool}
    {change : LiquidityPool → LiquidityPool} (keeps : ∀ pool, (change pool).key = pool.key)
    (isKey : key = ⟨market, none⟩) (found : db.pools.find? ⟨market, none⟩ = some row)
    (pools : after.pools = db.pools.modify key change keeps) (same : change row = update row)
    (positions : after.positions = db.positions) (outcomes : after.outcomes = db.outcomes) :
    Entry db after market update fun _ => 0 := by
  subst isKey
  refine ⟨?_, fun outcome unnamed => ?_, fun outcome => by rw [positions, add_zero], outcomes,
    fun open_ => by rwa [positions]⟩
  · rw [pools, Table.find?_modify_self, found, Option.map_some, Option.map_some, same]
  · rw [pools, Table.find?_modify_ne (named_ne market outcome), unnamed]

theorem addLiquidity_entry {tolerance : ℚ} {outcome : Option OutcomeName} {deposited : Deposited}
    (binary : isParimutuel (outcomesOf db market) = false)
    (ran : addLiquidity db user market amount tolerance outcome = .ok deposited) :
    ∃ pool minted, db.pools.find? ⟨market, none⟩ = some pool ∧ 0 ≤ amount ∧
      lpTokensMinted pool amount = .ok minted ∧
      Entry db deposited.db market (depositInto amount minted) fun _ => 0 := by
  obtain ⟨_, pool, _, minted, _, _, resolved, _, _, priced, nonneg, rfl⟩ := addLiquidity_ok ran
  obtain ⟨isKey, found⟩ := resolved_row binary resolved
  exact ⟨pool, minted, found, nonneg, priced, .of_modify (writeLiquidity_key _) isKey found rfl
    (writeLiquidity_deposit amount minted pool) rfl rfl⟩

/-- The pool a withdrawal leaves. -/
def withdrawFrom (lpTokens : ℚ) (pool : LiquidityPool) : LiquidityPool :=
  { shrinkReserves lpTokens pool with
    collateral := pool.collateral - max 0 (pool.collateral * (lpTokens / pool.lpTokenSupply)) }

theorem removeLiquidity_entry {lpTokens tolerance : ℚ} {outcome : Option OutcomeName}
    {withdrawn : Withdrawn} (binary : isParimutuel (outcomesOf db market) = false)
    (ran : removeLiquidity db user market lpTokens tolerance outcome = .ok withdrawn) :
    ∃ pool, db.pools.find? ⟨market, none⟩ = some pool ∧
      pool.collateral * (lpTokens / pool.lpTokenSupply) ≤ withdrawable db market pool ∧
      Entry db withdrawn.db market (withdrawFrom lpTokens) fun _ => 0 := by
  obtain ⟨_, pool, _, _, after, _, _, resolved, _, _, _, _, floor, debited, rfl⟩ :=
    removeLiquidity_ok ran
  obtain ⟨isKey, found⟩ := resolved_row binary resolved
  obtain ⟨isAfter, _⟩ := debitCollateral_eq debited
  refine ⟨pool, found, floor, .of_modify (writeLiquidity_key after) isKey found rfl ?_ rfl rfl⟩
  rw [isAfter]
  rfl

theorem addLiquidity_elsewhere {tolerance : ℚ} {outcome : Option OutcomeName}
    {deposited : Deposited} (ran : addLiquidity db user other amount tolerance outcome =
      .ok deposited) (apart : market ≠ other) : Entry db deposited.db market id fun _ => 0 := by
  obtain ⟨_, pool, _, _, _, _, resolved, _, _, _, _, rfl⟩ := addLiquidity_ok ran
  obtain ⟨_, ofMarket, _⟩ := resolveLiquidityPool_ok resolved
  refine .of_same (fun outcome => ?_) rfl rfl
  dsimp only
  rw [Table.find?_modify_ne]
  exact fun same => apart ((congrArg PoolKey.marketId same).trans ofMarket)

theorem removeLiquidity_elsewhere {lpTokens tolerance : ℚ} {outcome : Option OutcomeName}
    {withdrawn : Withdrawn} (ran : removeLiquidity db user other lpTokens tolerance outcome =
      .ok withdrawn) (apart : market ≠ other) : Entry db withdrawn.db market id fun _ => 0 := by
  obtain ⟨_, pool, _, _, _, _, _, resolved, _, _, _, _, _, _, rfl⟩ := removeLiquidity_ok ran
  obtain ⟨_, ofMarket, _⟩ := resolveLiquidityPool_ok resolved
  refine .of_same (fun outcome => ?_) rfl rfl
  dsimp only
  rw [Table.find?_modify_ne]
  exact fun same => apart ((congrArg PoolKey.marketId same).trans ofMarket)

theorem Entry.trans {middle : Database} {later : LiquidityPool → LiquidityPool}
    (left : Entry db middle market update delta)
    (right : Entry middle after market later fun _ => 0) :
    Entry db after market (later ∘ update) delta := by
  refine ⟨?_, fun outcome unnamed => right.unnamed outcome (left.unnamed outcome unnamed),
    fun outcome => ?_, right.outcomes.trans left.outcomes, right.allOpen ∘ left.allOpen⟩
  · rw [right.row, left.row, Option.map_map]
  · rw [right.shares, left.shares, add_zero]

theorem payFees_key (amount : ℚ) (pool : LiquidityPool) : (payFees amount pool).key = pool.key := rfl

theorem payFees_zero : payFees 0 = id := by
  funext pool
  simp [payFees, carryFees]

theorem payFees_payFees (first second : ℚ) :
    payFees second ∘ payFees first = payFees (first + second) := by
  funext pool
  simp [payFees, carryFees, sub_sub]

/-- A row of another key is rewritten. -/
theorem Entry.of_modify_ne {key : PoolKey} {change : LiquidityPool → LiquidityPool}
    (keeps : ∀ pool, (change pool).key = pool.key) (apart : key ≠ ⟨market, none⟩)
    (pools : after.pools = db.pools.modify key change keeps)
    (positions : after.positions = db.positions) (outcomes : after.outcomes = db.outcomes) :
    Entry db after market id fun _ => 0 := by
  refine ⟨?_, fun outcome unnamed => ?_, fun outcome => by rw [positions, add_zero], outcomes,
    fun open_ => by rwa [positions]⟩
  · rw [pools, Table.find?_modify_ne apart.symm, Option.map_id, id]
  · have kept : (after.pools.find? ⟨market, some outcome⟩).isSome =
        (db.pools.find? ⟨market, some outcome⟩).isSome := by
      rw [pools, Table.isSome_find?_modify]
    rw [unnamed] at kept
    simpa using kept

theorem carryFees_key (amount : ℚ) (pool : LiquidityPool) :
    (carryFees amount pool).key = pool.key := rfl

/-- One pool of the fee sweep. -/
theorem distributePool_entry (treasury : UserId) {pool : LiquidityPool}
    (funded : pool.key = ⟨market, none⟩ → 0 < sweepable pool) :
    ∃ amount, Entry db (distributePool treasury db pool) market (payFees amount) fun _ => 0 := by
  unfold distributePool
  split
  · refine ⟨0, ?_⟩
    rw [payFees_zero]
    exact .of_same (fun _ => rfl) rfl rfl
  by_cases isKey : pool.key = ⟨market, none⟩
  · rw [if_neg (not_le.mpr (funded isKey)), isKey]
    refine ⟨sweepable pool, ?_, fun outcome unnamed => ?_, fun _ => (add_zero _).symm, rfl,
      fun open_ => open_⟩
    · dsimp only
      rw [Table.find?_modify_self]
    · dsimp only
      rw [Table.find?_modify_ne (named_ne market outcome), unnamed]
  · refine ⟨0, ?_⟩
    rw [payFees_zero]
    split
    · exact .of_modify_ne (carryFees_key _) isKey rfl rfl rfl
    · exact .of_modify_ne (payFees_key _) isKey rfl rfl rfl

/-- Fees leave the escrow and its sub-ledger alike, as long as the escrow is not empty. -/
theorem distributeFees_entry {scanned : List LiquidityPool}
    (funded : ∀ pool ∈ scanned, pool.key = ⟨market, none⟩ → 0 < sweepable pool) :
    ∃ amount, Entry db (distributeProtocolFees db scanned) market (payFees amount) fun _ => 0 := by
  have along : ∀ (pools : List LiquidityPool) (treasury : UserId) {middle : Database} {paid : ℚ},
      (∀ pool ∈ pools, pool.key = ⟨market, none⟩ → 0 < sweepable pool) →
      Entry db middle market (payFees paid) (fun _ => 0) →
      ∃ amount, Entry db (pools.foldl (distributePool treasury) middle) market (payFees amount)
        fun _ => 0 := by
    intro pools treasury
    induction pools with
    | nil => exact fun _ entry => ⟨_, entry⟩
    | cons pool rest ih =>
        intro middle paid positive entry
        obtain ⟨head, later⟩ := List.forall_mem_cons.mp positive
        obtain ⟨amount, step⟩ := distributePool_entry treasury head
        have next := entry.trans step
        rw [payFees_payFees] at next
        exact ih later next
  have begun : Entry db (Settlement.openTreasury db).2 market (payFees 0) fun _ => 0 := by
    rw [payFees_zero]
    exact .of_same (fun _ => rfl) rfl rfl
  unfold distributeProtocolFees
  split
  · refine ⟨0, ?_⟩
    rw [payFees_zero]
    exact .of_same (fun _ => rfl) rfl rfl
  · exact along _ _ funded begun

end Entries

/-! # Orders -/

section Orders

variable {env : Env} {db : Database} {market : MarketId} {user : UserId} {venue : Venue}
  {data : OrderRequest} {execution : Execution} {first second : Outcome}

/-- Where an order on the market trades. -/
structure Books.Trades (db : Database) (market : MarketId) (first second : Outcome)
    (venue : Venue) : Prop where
  marketId : venue.market.id = market
  poolKey : venue.pool.key = ⟨market, none⟩
  pool : db.pools.find? ⟨market, none⟩ = some venue.pool
  amm : venue.amm = poolAmm venue.pool
  ammSide : venue.ammSide = shareSide venue.outcome.name
  outcome : venue.outcome = first ∨ venue.outcome = second

theorem Books.trades (books : Books db market first second) (here : data.marketId = market)
    (opened : openVenue env db data.marketId data.outcome = .ok venue) :
    Books.Trades db market first second venue := by
  obtain ⟨marketFound, _, _, named, resolved, isAmm⟩ := openVenue_ok opened
  have isMarket : venue.market.id = market := (Table.key_of_find? marketFound).trans here
  rw [isMarket, books.binary] at resolved isAmm
  have isKey : venue.pool.key = ⟨market, none⟩ := Table.key_of_find? resolved
  have outcome : venue.outcome ∈ [first, second] := by
    rw [← books.outcomes, ← isMarket]
    exact (List.mem_filter.mp (List.mem_of_getLast? named)).1
  obtain ⟨amm, side⟩ := Prod.mk.inj isAmm
  exact ⟨isMarket, isKey, resolved, amm, side, by simpa using outcome⟩

theorem order_entry (books : Books db market first second) (here : data.marketId = market)
    (opened : openVenue env db data.marketId data.outcome = .ok venue)
    (executed : executeOrder env db user data = .ok execution) :
    ∃ fees twice, 0 ≤ fees ∧ 0 ≤ twice ∧ (CreditedOnce db user venue data → twice = 0) ∧
      Entry db execution.db market (fun pool => postLeg execution.ammLeg (postFees fees pool))
        fun outcome =>
          if venue.outcome.id = outcome then mintedShares execution.ammLeg + twice else 0 := by
  have trades := books.trades here opened
  have earns : EarnsFees db.pools venue.market.id venue.outcome.id venue.pool.key := by
    rw [trades.marketId, trades.poolKey]
    exact .inr ⟨rfl, books.unnamed _⟩
  obtain ⟨fees, feesNonneg, row, others⟩ := executeOrder_pool executed opened earns
  obtain ⟨twice, twiceNonneg, once, counted⟩ := executeOrder_counted executed opened
  rw [trades.poolKey] at row others
  refine ⟨fees, twice, feesNonneg, twiceNonneg, once, ?_, fun outcome unnamed => ?_,
    fun outcome => ?_, (executeOrder_elsewhere executed).1, executeOrder_allOpen executed⟩
  · rw [row, trades.pool, Option.map_some]
  · rw [others _ (named_ne market outcome), unnamed]
  · rw [sharesIn_eq, counted, trades.marketId, sharesIn_eq]
    simp

theorem order_elsewhere (apart : market ≠ data.marketId)
    (executed : executeOrder env db user data = .ok execution) :
    Entry db execution.db market id fun _ => 0 := by
  obtain ⟨venue, opened, _⟩ := executeOrder_ok executed
  have isMarket : venue.market.id = data.marketId := Table.key_of_find? (openVenue_ok opened).1
  obtain ⟨_, _, _, counted⟩ := executeOrder_counted executed opened
  have row : ∀ outcome, execution.db.pools.find? ⟨market, outcome⟩ =
      db.pools.find? ⟨market, outcome⟩ := fun outcome => executeOrder_pool_other executed apart
  refine ⟨?_, fun outcome unnamed => (row (some outcome)).trans unnamed, fun outcome => ?_,
    (executeOrder_elsewhere executed).1, executeOrder_allOpen executed⟩
  · rw [row, Option.map_id, id]
  · rw [sharesIn_eq, counted, isMarket, sharesIn_eq]
    simp [apart.symm]

end Orders

/-! # Operations -/

/-- The operations the books are kept over. -/
def Booked : Operation → Prop
  | .order .. | .split .. | .merge .. | .addLiquidity .. | .removeLiquidity ..
  | .distributeFees _ => True
  | .cancel .. | .expire _ | .sweep .. | .claim .. | .settle .. => False

/-- What each operation enters in the books of the market. -/
inductive Posting (db : Database) (market : MarketId) (first second : Outcome) :
    Operation → (LiquidityPool → LiquidityPool) → (OutcomeId → ℚ) → Prop
  | idle (operation : Operation) : Posting db market first second operation id fun _ => 0
  | split (user : UserId) (amount : PositiveMoney) :
      Posting db market first second (.split user market amount)
        (SplitMerge.splitPool amount.value)
        (onPair first second (SplitMerge.afterFee amount.value))
  | merge (user : UserId) (amount : PositiveMoney) :
      Posting db market first second (.merge user market amount)
        (SplitMerge.mergePool amount.value) (onPair first second (-amount.value))
  | deposit (user : UserId) (amount : PositiveMoney) (outcome : Option OutcomeName)
      {pool : LiquidityPool} {minted : ℚ} (found : db.pools.find? ⟨market, none⟩ = some pool)
      (priced : lpTokensMinted pool amount.value = .ok minted) :
      Posting db market first second (.addLiquidity user market amount outcome)
        (depositInto amount.value minted) fun _ => 0
  | withdraw (user : UserId) (lpTokens : PositiveMoney) (outcome : Option OutcomeName)
      {pool : LiquidityPool} (found : db.pools.find? ⟨market, none⟩ = some pool)
      (floor : pool.collateral * (lpTokens.value / pool.lpTokenSupply) ≤
        withdrawable db market pool) :
      Posting db market first second (.removeLiquidity user market lpTokens outcome)
        (withdrawFrom lpTokens.value) fun _ => 0
  | fees (scanned : List LiquidityPool) (amount : ℚ) :
      Posting db market first second (.distributeFees scanned) (payFees amount) fun _ => 0
  | order (env : Env) (user : UserId) (data : OrderRequest) {venue : Venue}
      {execution : Execution} {fees twice : ℚ} (here : data.marketId = market)
      (opened : openVenue env db data.marketId data.outcome = .ok venue)
      (executed : executeOrder env db user data = .ok execution) (feesNonneg : 0 ≤ fees)
      (twiceNonneg : 0 ≤ twice) (once : CreditedOnce db user venue data → twice = 0) :
      Posting db market first second (.order env user data)
        (fun pool => postLeg execution.ammLeg (postFees fees pool)) fun outcome =>
          if venue.outcome.id = outcome then mintedShares execution.ammLeg + twice else 0

section Operations

variable {db after : Database} {market : MarketId} {first second : Outcome}
  {operation : Operation}

/-- Fees are paid out of an escrow that holds some. -/
def FeesEscrowed (db : Database) (market : MarketId) : Prop :=
  ∀ pool, db.pools.find? ⟨market, none⟩ = some pool → 0 < pool.protocolFees → 0 < pool.collateral

theorem commits_posting (books : Books db market first second) (booked : Booked operation)
    (reads : operation.Reads db)
    (escrowed : (∃ scanned, operation = .distributeFees scanned) → FeesEscrowed db market)
    (committed : operation.Commits db after) :
    ∃ update delta, Posting db market first second operation update delta ∧
      Entry db after market update delta := by
  unfold Operation.Commits at committed
  cases operation with
  | order env user data =>
      obtain ⟨execution, executed, rfl⟩ := map_eq_ok.mp committed
      by_cases here : data.marketId = market
      · obtain ⟨venue, opened, _⟩ := executeOrder_ok executed
        obtain ⟨fees, twice, feesNonneg, twiceNonneg, once, entry⟩ :=
          order_entry books here opened executed
        exact ⟨_, _, .order env user data here opened executed feesNonneg twiceNonneg once, entry⟩
      · exact ⟨_, _, .idle _, order_elsewhere (Ne.symm here) executed⟩
  | split user other amount =>
      obtain ⟨result, ran, rfl⟩ := map_eq_ok.mp committed
      by_cases here : other = market
      · subst here
        exact ⟨_, _, .split user amount, (split_entry ran books.outcomes).2⟩
      · exact ⟨_, _, .idle _, split_elsewhere ran (Ne.symm here)⟩
  | merge user other amount =>
      obtain ⟨result, ran, rfl⟩ := map_eq_ok.mp committed
      by_cases here : other = market
      · subst here
        exact ⟨_, _, .merge user amount, (merge_entry ran books.outcomes).2⟩
      · exact ⟨_, _, .idle _, merge_elsewhere ran (Ne.symm here)⟩
  | addLiquidity user other amount outcome =>
      obtain ⟨deposited, ran, rfl⟩ := map_eq_ok.mp committed
      by_cases here : other = market
      · subst here
        obtain ⟨pool, minted, found, _, priced, entry⟩ := addLiquidity_entry books.binary ran
        exact ⟨_, _, .deposit user amount outcome found priced, entry⟩
      · exact ⟨_, _, .idle _, addLiquidity_elsewhere ran (Ne.symm here)⟩
  | removeLiquidity user other lpTokens outcome =>
      obtain ⟨withdrawn, ran, rfl⟩ := map_eq_ok.mp committed
      by_cases here : other = market
      · subst here
        obtain ⟨pool, found, floor, entry⟩ := removeLiquidity_entry books.binary ran
        exact ⟨_, _, .withdraw user lpTokens outcome found floor, entry⟩
      · exact ⟨_, _, .idle _, removeLiquidity_elsewhere ran (Ne.symm here)⟩
  | distributeFees scanned =>
      cases committed
      have funded : ∀ pool ∈ scanned, pool.key = ⟨market, none⟩ → 0 < sweepable pool := by
        intro pool member isKey
        obtain ⟨row, owes⟩ := List.mem_filter.mp (reads.mem_iff.mp member)
        have fees : 0 < pool.protocolFees := by
          simp only [Bool.and_eq_true, decide_eq_true_eq] at owes
          exact owes.2
        have found : db.pools.find? ⟨market, none⟩ = some pool :=
          isKey ▸ Table.find?_key_of_mem row
        exact lt_min fees (escrowed ⟨scanned, rfl⟩ pool found fees)
      obtain ⟨amount, entry⟩ := distributeFees_entry funded
      exact ⟨_, _, .fees scanned amount, entry⟩
  | cancel _ _ _ => exact booked.elim
  | expire _ => exact booked.elim
  | sweep _ _ _ => exact booked.elim
  | claim _ _ _ => exact booked.elim
  | settle _ _ _ _ => exact booked.elim

theorem Posting.feeRate {update : LiquidityPool → LiquidityPool} {delta : OutcomeId → ℚ}
    (posting : Posting db market first second operation update delta) (pool : LiquidityPool) :
    (update pool).feeRate = pool.feeRate := by
  cases posting with
  | idle => rfl
  | split => rfl
  | merge => rfl
  | deposit =>
      unfold depositInto growReserves
      dsimp only
      split <;> rfl
  | withdraw => rfl
  | fees => rfl
  | @order _ _ _ _ execution _ _ =>
      cases leg : execution.ammLeg with
      | none => rfl
      | some _ => rfl

/-- The books stay in order under every operation. -/
theorem Books.commits (books : Books db market first second)
    (committed : operation.Commits db after) {update : LiquidityPool → LiquidityPool}
    {delta : OutcomeId → ℚ} (posting : Posting db market first second operation update delta)
    (entry : Entry db after market update delta) : Books after market first second :=
  books.enter entry (commits_unshort committed books.unshort) fun pool _ => posting.feeRate pool

end Operations

theorem books_launched {author : Markets.Author} {db start : Database} {market : MarketId}
    {request : Markets.CreateMarketRequest} {first second : Outcome}
    (launches : Markets.Launches author db request market start)
    (outcomes : outcomesOf start market = [first, second])
    (binary : isParimutuel (outcomesOf start market) = false) (unshort : Unshort db.positions) :
    Books start market first second := by
  have launched := launches.launched
  refine ⟨outcomes, binary, fun outcome => ?_, fun row member ofMarket => ?_, ?_,
    fun pool found => (launched.untraded _ pool rfl found).feeRate⟩
  · by_contra some_
    obtain ⟨pool, found⟩ := Option.ne_none_iff_exists'.mp some_
    simpa [binary] using launched.layout _ pool rfl found
  · exact absurd ofMarket (launched.unheld row member)
  · rw [launched.positions]
    exact unshort

end PredictX.BinaryMarket
