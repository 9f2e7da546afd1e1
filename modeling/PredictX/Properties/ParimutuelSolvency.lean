import PredictX.Properties.EscrowSolvency

namespace PredictX.Parimutuel

open PredictX.Data PredictX.Amm PredictX.MarketService PredictX.MatchingEngine
open PredictX.OrderService PredictX.EscrowAudit

/-! Whether each outcome of a market without a YES/NO pair can be paid.

Prices come from all pools of the market, but an outcome is paid out of its own pool alone.
A buy on one outcome touches only that pool, which has to pay for shares priced by the
seeds of the others.
-/

/-- The pool each outcome is paid from covers its shares and its fees. -/
def EachCovered (db : Database) (market : MarketId) : Prop :=
  ∀ outcome ∈ outcomesOf db market, ∃ pool,
    Settlement.settlementPool db.pools market outcome.id = some pool ∧
      pool.outcomeId = some outcome.id ∧
      sideShares db market outcome.id + pool.protocolFees ≤ pool.collateral

/-- An order on the market credits its matches once, and its own pool has room for what a buy
mints. -/
def Funded (market : MarketId) (db : Database) : Operation → Prop
  | .order env user data =>
      data.marketId = market → ∀ venue, openVenue env db data.marketId data.outcome = .ok venue →
        CreditedOnce db user venue data ∧
          (SentToAmm db user venue data → data.side = .buy →
            MintCovered venue.amm venue.ammSide (plannedRemainder db user venue data)
              (shareRoom db venue.market.id venue.outcome.id venue.pool))
  | _ => False

/-- The books of a market with a pool for each outcome. -/
structure Books (db : Database) (market : MarketId) : Prop where
  named : isParimutuel (outcomesOf db market) = true
  allOpen : Position.AllOpen db.positions market
  unshort : Unshort db.positions
  feeRate : ∀ outcome pool, db.pools.find? ⟨market, outcome⟩ = some pool →
    pool.feeRate = tradingFeeRate
  roomy : ∀ outcome ∈ outcomesOf db market, ∃ pool,
    db.pools.find? ⟨market, some outcome.id⟩ = some pool ∧
      0 ≤ shareRoom db market outcome.id pool

section Orders

variable {env : Env} {db : Database} {market : MarketId} {user : UserId} {venue : Venue}
  {data : OrderRequest} {execution : Execution}

/-- The AMM of an outcome charges the trading fee. -/
theorem buildOutcomeAmm_feeRate (db : Database) (market : MarketId) (outcome : OutcomeId)
    (feeRate : ∀ outcome pool, db.pools.find? ⟨market, outcome⟩ = some pool →
      pool.feeRate = tradingFeeRate) :
    (buildOutcomeAmm (loadOutcomePools db market) outcome).1.feeRate = tradingFeeRate := by
  change (((loadOutcomePools db market).find? fun pool => pool.outcomeId = some outcome).map
    LiquidityPool.feeRate).getD (2 / 100) = tradingFeeRate
  cases target : (loadOutcomePools db market).find? fun pool => pool.outcomeId = some outcome with
  | none => rfl
  | some pool =>
      obtain ⟨row, _, found⟩ := List.mem_filterMap.mp (List.mem_of_find?_eq_some target)
      exact feeRate _ pool found

theorem Books.opened (books : Books db market) (here : data.marketId = market)
    (opened : openVenue env db data.marketId data.outcome = .ok venue) :
    venue.market.id = market ∧ venue.pool.key = ⟨market, some venue.outcome.id⟩ ∧
      db.pools.find? ⟨market, some venue.outcome.id⟩ = some venue.pool ∧
      venue.outcome ∈ outcomesOf db market ∧ venue.amm.feeRate = tradingFeeRate := by
  obtain ⟨marketFound, _, _, named, resolved, isAmm⟩ := openVenue_ok opened
  have isMarket : venue.market.id = market := (Table.key_of_find? marketFound).trans here
  rw [isMarket] at named resolved isAmm
  rw [books.named] at resolved isAmm
  refine ⟨isMarket, Table.key_of_find? resolved, resolved,
    (List.mem_filter.mp (List.mem_of_getLast? named)).1, ?_⟩
  rw [(Prod.mk.inj isAmm).1]
  exact buildOutcomeAmm_feeRate db market venue.outcome.id books.feeRate

theorem postLeg_feeRate (leg : Option AmmLeg) (fees : ℚ) (pool : LiquidityPool) :
    (postLeg leg (postFees fees pool)).feeRate = pool.feeRate := by
  cases leg with
  | none => rfl
  | some leg => rfl

/-- The room an order leaves in its own pool. -/
theorem order_room (books : Books db market) (here : data.marketId = market)
    (opened : openVenue env db data.marketId data.outcome = .ok venue)
    (executed : executeOrder env db user data = .ok execution)
    (room : 0 ≤ shareRoom db market venue.outcome.id venue.pool)
    (covered : SentToAmm db user venue data → data.side = .buy →
      MintCovered venue.amm venue.ammSide (plannedRemainder db user venue data)
        (shareRoom db market venue.outcome.id venue.pool)) (fees : ℚ) :
    0 ≤ shareRoom db market venue.outcome.id
        (postLeg execution.ammLeg (postFees fees venue.pool)) -
      mintedShares execution.ammLeg := by
  obtain ⟨_, _, _, _, feeRate⟩ := books.opened here opened
  cases isLeg : execution.ammLeg with
  | none =>
      simp only [shareRoom, postLeg, postFees, mintedShares] at room ⊢
      linarith
  | some leg =>
      have legOf := executeOrder_leg executed opened leg isLeg
      have left := legOf.own_room room feeRate (covered legOf.sent)
      simp only [shareRoom, postLeg, postFees] at left ⊢
      linarith

/-- An order on the market changes one pool and one outcome's shares. -/
theorem Books.order (books : Books db market) (funded : Funded market db (.order env user data))
    (here : data.marketId = market) (executed : executeOrder env db user data = .ok execution) :
    Books execution.db market := by
  obtain ⟨venue, opened, _⟩ := executeOrder_ok executed
  obtain ⟨isMarket, isKey, found, member, _⟩ := books.opened here opened
  obtain ⟨credited, covered⟩ := funded here venue opened
  have earns : EarnsFees db.pools venue.market.id venue.outcome.id venue.pool.key := by
    rw [isMarket, isKey]
    exact .inl rfl
  obtain ⟨fees, _, row, others⟩ := executeOrder_pool executed opened earns
  obtain ⟨twice, _, once, counted⟩ := executeOrder_counted executed opened
  rw [isKey] at row others
  rw [isMarket] at counted covered
  rw [once credited] at counted
  have sameOutcomes : outcomesOf execution.db market = outcomesOf db market := by
    unfold outcomesOf
    rw [(executeOrder_elsewhere executed).1]
  refine ⟨by rw [sameOutcomes, books.named], executeOrder_allOpen executed books.allOpen,
    executeOrder_unshort executed books.unshort, fun outcome pool here => ?_,
    fun outcome isOutcome => ?_⟩
  · by_cases same : outcome = some venue.outcome.id
    · rw [same, row] at here
      cases here
      rw [postLeg_feeRate]
      exact books.feeRate _ _ found
    · rw [others _ (by simpa using same)] at here
      exact books.feeRate outcome pool here
  · rw [sameOutcomes] at isOutcome
    obtain ⟨pool, poolFound, room⟩ := books.roomy outcome isOutcome
    have shares : Position.sharesIn execution.db.positions market outcome.id =
        Position.sharesIn db.positions market outcome.id +
          if venue.outcome.id = outcome.id then mintedShares execution.ammLeg else 0 := by
      rw [BinaryMarket.sharesIn_eq, counted, BinaryMarket.sharesIn_eq]
      simp
    by_cases same : outcome.id = venue.outcome.id
    · rw [same] at poolFound room shares ⊢
      cases found.symm.trans poolFound
      have left := order_room books here opened executed room covered fees
      refine ⟨_, row, ?_⟩
      simp only [shareRoom, if_true] at left shares ⊢
      rw [shares]
      linarith
    · refine ⟨pool, ?_, ?_⟩
      · rw [others _ (by simpa using same), poolFound]
      · rw [if_neg (Ne.symm same), add_zero] at shares
        rw [shareRoom, shares]
        exact room

theorem Books.order_elsewhere (books : Books db market) (apart : data.marketId ≠ market)
    (executed : executeOrder env db user data = .ok execution) : Books execution.db market := by
  have entry := BinaryMarket.order_elsewhere (Ne.symm apart) executed
  have pools : ∀ outcome, execution.db.pools.find? ⟨market, outcome⟩ =
      db.pools.find? ⟨market, outcome⟩ := fun outcome => executeOrder_pool_other executed
    (Ne.symm apart)
  have sameOutcomes : outcomesOf execution.db market = outcomesOf db market := by
    unfold outcomesOf
    rw [entry.outcomes]
  refine ⟨by rw [sameOutcomes, books.named], entry.allOpen books.allOpen,
    executeOrder_unshort executed books.unshort,
    fun outcome pool here => books.feeRate outcome pool ((pools outcome).symm.trans here), ?_⟩
  intro outcome isOutcome
  rw [sameOutcomes] at isOutcome
  obtain ⟨pool, found, room⟩ := books.roomy outcome isOutcome
  refine ⟨pool, (pools _).trans found, ?_⟩
  rw [shareRoom, entry.shares, add_zero]
  exact room

theorem Books.commits {after : Database} {operation : Operation} (books : Books db market)
    (funded : Funded market db operation) (committed : operation.Commits db after) :
    Books after market := by
  cases operation with
  | order env user data =>
      obtain ⟨execution, executed, rfl⟩ := map_eq_ok.mp committed
      by_cases here : data.marketId = market
      · exact books.order funded here executed
      · exact books.order_elsewhere here executed
  | _ => exact funded.elim

theorem Books.settlementPool (books : Books db market) {outcome : Outcome}
    (isOutcome : outcome ∈ outcomesOf db market) : ∃ pool,
      Settlement.settlementPool db.pools market outcome.id = some pool ∧
        pool.outcomeId = some outcome.id ∧
        sideShares db market outcome.id + pool.protocolFees ≤ pool.collateral := by
  obtain ⟨pool, found, room⟩ := books.roomy outcome isOutcome
  refine ⟨pool, by rw [Settlement.settlementPool, found],
    congrArg PoolKey.outcomeId (Table.key_of_find? found), ?_⟩
  rw [BinaryMarket.sideShares_eq_sharesIn books.allOpen]
  unfold shareRoom at room
  linarith

end Orders

section Runs

variable {author : Markets.Author} {db start final : Database} {market : MarketId}
  {request : Markets.CreateMarketRequest} {operations : List Operation}

theorem books_launched (launches : Markets.Launches author db request market start)
    (named : isParimutuel (outcomesOf start market) = true) (unshort : Unshort db.positions) :
    Books start market := by
  have launched := launches.launched
  refine ⟨named, fun row member ofMarket => absurd ofMarket (launched.unheld row member),
    launched.positions ▸ unshort,
    fun outcome pool found => (launched.untraded _ pool rfl found).feeRate, ?_⟩
  intro outcome isOutcome
  obtain ⟨pool, found⟩ := launched.pooled outcome isOutcome
  rw [named] at found
  have untraded := launched.untraded _ pool rfl found
  refine ⟨pool, found, ?_⟩
  rw [shareRoom, BinaryMarket.sharesIn_launched launches, untraded.protocolFees]
  linarith [untraded.collateral]

end Runs

/-! # Four outcomes with 25 each -/

def fourWayRequest : Markets.CreateMarketRequest where
  closesAt := 1000
  initialLiquidity := 100
  initialProbability := none
  outcomesCreate := some [(.named "a", 0), (.named "b", 1), (.named "c", 2), (.named "d", 3)]
  liquidity_nonneg := BinaryMarket.seededRequest.liquidity_nonneg
  probability_bounds := BinaryMarket.seededRequest.probability_bounds
  outcomes_count := by simp
  outcomes_index := by simp only [Option.mem_some_iff, forall_eq']; decide
  outcomes_names := by simp

/-- A buy on the first outcome. -/
def buyOf (amount : ℚ) (pos : 0 < amount) (grid : OnGrid scale amount) : OrderRequest :=
  { marketOrder .buy amount pos grid with outcome := .named "a" }

def isOrder : Operation → Prop
  | .order .. => True
  | _ => False

end PredictX.Parimutuel
