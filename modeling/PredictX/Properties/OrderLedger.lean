import PredictX.Properties.LimitPrice

namespace PredictX

open PredictX.Data PredictX.Amm PredictX.MarketService PredictX.MatchingEngine

/-! What an order posts to the books of its market.

Withheld fees enter the escrow and its sub-ledger alike, so they leave what the escrow holds
above its fees alone.  The AMM leg is the only part of an order that moves it.
-/

namespace MatchingEngine

section Fees

variable {pools : Table LiquidityPool.key} {maker : Order} {fee : ℚ} {key : PoolKey}
  {pool : LiquidityPool} {market : MarketId} {outcome : OutcomeId}

/-- The row with a fee withheld into it. -/
def postFees (fees : ℚ) (pool : LiquidityPool) : LiquidityPool :=
  { pool with collateral := pool.collateral + fees, protocolFees := pool.protocolFees + fees }

theorem postFees_key (fees : ℚ) (pool : LiquidityPool) : (postFees fees pool).key = pool.key := rfl

/-- The fees of an outcome's matches go to the pool with this key. -/
def EarnsFees (pools : Table LiquidityPool.key) (market : MarketId) (outcome : OutcomeId)
    (key : PoolKey) : Prop :=
  key = ⟨market, some outcome⟩ ∨
    key = ⟨market, none⟩ ∧ pools.find? ⟨market, some outcome⟩ = none

theorem feePool_ok (found : feePool pools maker = some pool) :
    pool.marketId = maker.marketId ∧ pools.find? pool.key = some pool := by
  have own : ∀ {outcome : Option OutcomeId}, pools.find? ⟨maker.marketId, outcome⟩ = some pool →
      pool.marketId = maker.marketId ∧ pools.find? pool.key = some pool := by
    intro outcome here
    have key := Table.key_of_find? here
    exact ⟨congrArg PoolKey.marketId key, key ▸ here⟩
  unfold feePool at found
  split at found
  · rename_i row here
    cases found
    exact own here
  · exact own found

theorem feePool_of_earnsFees (earns : EarnsFees pools maker.marketId maker.outcomeId key)
    (found : pools.find? key = some pool) : feePool pools maker = some pool := by
  unfold feePool
  rcases earns with rfl | ⟨rfl, unnamed⟩
  · rw [found]
  · rw [unnamed, found]

theorem find?_creditFee_other (other : key.marketId ≠ maker.marketId) :
    (creditFee pools maker fee).find? key = pools.find? key := by
  unfold creditFee
  split
  · rfl
  rename_i pool found
  split
  · refine Table.find?_modify_ne ?_
    rintro rfl
    exact other (feePool_ok found).1
  · rfl

theorem creditFee_row (earns : EarnsFees pools maker.marketId maker.outcomeId key)
    (found : pools.find? key = some pool) (positive : 0 < fee) :
    (creditFee pools maker fee).find? key = some (postFees fee pool) ∧
      (∀ other, other ≠ key → (creditFee pools maker fee).find? other = pools.find? other) ∧
      EarnsFees (creditFee pools maker fee) maker.marketId maker.outcomeId key := by
  have isKey : pool.key = key := Table.key_of_find? found
  have credited : creditFee pools maker fee =
      pools.modify key (postFees fee) (postFees_key fee) := by
    unfold creditFee
    rw [feePool_of_earnsFees earns found]
    dsimp only
    rw [if_pos positive, isKey]
    rfl
  rw [credited]
  refine ⟨by rw [Table.find?_modify_self, found]; rfl, fun other apart =>
    Table.find?_modify_ne apart, ?_⟩
  rcases earns with rfl | ⟨rfl, unnamed⟩
  · exact .inl rfl
  · refine .inr ⟨rfl, ?_⟩
    have apart : (⟨maker.marketId, some maker.outcomeId⟩ : PoolKey) ≠ ⟨maker.marketId, none⟩ := by
      simp
    rw [Table.find?_modify_ne apart, unnamed]

end Fees

section Trace

variable {σ : Type} {now : Timestamp} {taker : Taker σ} {db after : Database} {fill final : σ}
  {offers : List Offer} {market : MarketId} {outcome : OutcomeId} {key : PoolKey}
  {pool : LiquidityPool}

/-- Matching on one market leaves the pools of the others alone. -/
theorem Trace.find?_pool_other (trace : Trace now taker db fill offers after final)
    (makers : ∀ offer ∈ offers, offer.maker.marketId = market) (other : key.marketId ≠ market) :
    after.pools.find? key = db.pools.find? key := by
  induction trace with
  | done => rfl
  | skip _ _ _ ih =>
      obtain ⟨head, later⟩ := List.forall_mem_cons.mp makers
      exact (ih later).trans (find?_creditFee_other (head ▸ other))
  | deliver _ _ _ _ ih =>
      obtain ⟨head, later⟩ := List.forall_mem_cons.mp makers
      exact (ih later).trans (find?_creditFee_other (head ▸ other))

/-- Matching on one outcome posts the fees of all offers, skipped ones included. -/
theorem Trace.find?_pool (trace : Trace now taker db fill offers after final)
    (makers : ∀ offer ∈ offers, offer.maker.marketId = market ∧ offer.maker.outcomeId = outcome)
    (fees : ∀ offer ∈ offers, 0 < offer.fee) (earns : EarnsFees db.pools market outcome key)
    (found : db.pools.find? key = some pool) :
    after.pools.find? key = some (postFees (offers.map Offer.fee).sum pool) ∧
      ∀ other, other ≠ key → after.pools.find? other = db.pools.find? other := by
  have step : ∀ {pools : Table LiquidityPool.key} {pool : LiquidityPool} {offer : Offer},
      offer.maker.marketId = market ∧ offer.maker.outcomeId = outcome → 0 < offer.fee →
      EarnsFees pools market outcome key → pools.find? key = some pool →
      (creditFee pools offer.maker offer.fee).find? key = some (postFees offer.fee pool) ∧
        (∀ other, other ≠ key →
          (creditFee pools offer.maker offer.fee).find? other = pools.find? other) ∧
        EarnsFees (creditFee pools offer.maker offer.fee) market outcome key := by
    rintro pools pool offer ⟨rfl, rfl⟩ positive earns found
    exact creditFee_row earns found positive
  have add : ∀ (first rest : ℚ) (pool : LiquidityPool),
      postFees rest (postFees first pool) = postFees (first + rest) pool := by
    intro first rest pool
    simp [postFees, add_assoc]
  induction trace generalizing pool with
  | done => exact ⟨by simpa [postFees] using found, fun _ _ => rfl⟩
  | @skip db _ _ _ maker quantity offers _ _ _ ih =>
      obtain ⟨head, later⟩ := List.forall_mem_cons.mp makers
      obtain ⟨fee, laterFees⟩ := List.forall_mem_cons.mp fees
      obtain ⟨row, others, earnsNext⟩ := step head fee earns found
      obtain ⟨last, rest⟩ := ih later laterFees earnsNext row
      rw [add] at last
      exact ⟨by simpa using last, fun other apart => (rest other apart).trans (others other apart)⟩
  | @deliver db _ _ _ maker quantity offers _ _ _ _ ih =>
      obtain ⟨head, later⟩ := List.forall_mem_cons.mp makers
      obtain ⟨fee, laterFees⟩ := List.forall_mem_cons.mp fees
      obtain ⟨row, others, earnsNext⟩ := step head fee earns found
      obtain ⟨last, rest⟩ := ih later laterFees earnsNext row
      rw [add] at last
      exact ⟨by simpa using last, fun other apart => (rest other apart).trans (others other apart)⟩

end Trace

end MatchingEngine

namespace OrderService

variable {env : Env} {db matched traded : Database} {user : UserId} {venue : Venue}
  {data : OrderRequest} {execution : Execution} {book : BookFill} {leg : AmmLeg}

/-- The row with an AMM leg posted to it. -/
def postLeg (leg : Option AmmLeg) (pool : LiquidityPool) : LiquidityPool :=
  match leg with
  | none => pool
  | some leg =>
      { pool with
        collateral := pool.collateral + leg.paid
        protocolFees := pool.protocolFees + leg.protocolFee
        yesShares := leg.amm.yesShares
        noShares := leg.amm.noShares }

/-- The AMM's answer to what the book left. -/
structure LegOf (db : Database) (user : UserId) (venue : Venue) (data : OrderRequest)
    (leg : AmmLeg) : Prop where
  sent : SentToAmm db user venue data
  side : leg.side = data.side
  quantity : leg.quantity = plannedRemainder db user venue data
  bought : data.side = .buy →
    venue.amm.buy venue.ammSide leg.quantity = .ok (leg.amm, leg.quote)
  sold : data.side = .sell →
    venue.amm.sell venue.ammSide leg.quantity = .ok (leg.amm, leg.quote)

theorem runAmmLeg_legOf (sent : SentToAmm db user venue data)
    (ran : runAmmLeg matched user venue data.side (plannedRemainder db user venue data) =
      .ok (traded, leg)) : LegOf db user venue data leg := by
  cases side : data.side with
  | buy =>
      rw [side] at ran
      obtain ⟨_, _, _, bought, isBuy, quantity, _⟩ := ammBuy_ok ran
      exact ⟨sent, isBuy.trans side.symm, quantity, fun _ => quantity ▸ bought,
        fun isSell => absurd (side.symm.trans isSell) (by simp)⟩
  | sell =>
      rw [side] at ran
      obtain ⟨_, sold, isSell, quantity, _⟩ := ammSell_ok ran
      exact ⟨sent, isSell.trans side.symm, quantity,
        fun isBuy => absurd (side.symm.trans isBuy) (by simp), fun _ => quantity ▸ sold⟩

theorem bookPlan_venue (db : Database) (user : UserId) (venue : Venue) (data : OrderRequest) :
    ∀ offer ∈ bookPlan db user venue data,
      offer.maker.marketId = venue.market.id ∧ offer.maker.outcomeId = venue.outcome.id := by
  intro offer member
  obtain ⟨market, outcome, _⟩ := bookPlan_makers db user venue data offer member
  exact ⟨market, outcome⟩

theorem bookPlan_fees
    (trace : Trace env.now (bookTaker data.side data.amount user) db .empty
      (bookPlan db user venue data) matched book) :
    ∀ offer ∈ bookPlan db user venue data, 0 < offer.fee := by
  intro offer member
  obtain ⟨quantity, price⟩ := bookPlan_positive trace offer member
  have rate : 0 < protocolFeeRate := by decide +kernel
  exact mul_pos (mul_pos quantity price) rate

/-- The AMM leg of an order is the one its inputs ask for. -/
theorem executeOrder_leg (executed : executeOrder env db user data = .ok execution)
    (opened : openVenue env db data.marketId data.outcome = .ok venue) :
    ∀ leg ∈ execution.ammLeg, LegOf db user venue data leg := by
  obtain ⟨_, openedAs, _, _, ways⟩ := executeOrder_ok executed
  cases opened.symm.trans openedAs
  rcases ways with ⟨_, _, rfl⟩ | ⟨unseen, _, filled⟩
  · simp [duplicate]
  obtain ⟨matched, book, trace, ends⟩ := fillOrder_ok filled
  rcases ends with ⟨_, _, rested⟩ | ⟨left, routed, traded, leg, ran, finished⟩ | ⟨_, finished⟩
  · obtain ⟨_, _, _, _, _, _, none_, _⟩ := restOrder_ok rested
    simp [none_]
  · obtain ⟨_, _, isLeg, _⟩ := finish_ok finished
    rw [remainder_eq_planned trace] at left ran
    rw [isLeg]
    intro other same
    cases same
    exact runAmmLeg_legOf ⟨unseen, left, routed⟩ ran
  · obtain ⟨_, _, isLeg, _⟩ := finish_ok finished
    simp [isLeg]

theorem find?_writeLeg_ne {pools : Table LiquidityPool.key} {key other : PoolKey} {delta : ℚ}
    (apart : other ≠ key) : (writeLeg pools key leg delta).find? other = pools.find? other := by
  unfold writeLeg
  rw [Table.find?_modify_ne apart]

theorem runAmmLeg_row {pool : LiquidityPool} {remaining : ℚ}
    (ran : runAmmLeg matched user venue data.side remaining = .ok (traded, leg))
    (found : matched.pools.find? venue.pool.key = some pool) :
    traded.pools.find? venue.pool.key = some (postLeg (some leg) pool) ∧
      ∀ key, key ≠ venue.pool.key → traded.pools.find? key = matched.pools.find? key := by
  obtain ⟨_, _, isTraded⟩ := runAmmLeg_traded ran
  rw [isTraded]
  refine ⟨?_, fun key apart => find?_writeLeg_ne apart⟩
  change (writeLeg matched.pools venue.pool.key leg leg.paid).find? venue.pool.key = _
  rw [writeLeg, Table.find?_modify_self, found]
  rfl

theorem finish_pools {fill : Fill}
    (finished : finish env db user venue data fill = .ok execution) :
    execution.db.pools = db.pools := by
  rw [(finish_ok finished).1, creditReferral_pools]
  rfl

/-- The pool of a market's outcome after an order: the fees of its matches and the AMM leg. -/
theorem executeOrder_pool (executed : executeOrder env db user data = .ok execution)
    (opened : openVenue env db data.marketId data.outcome = .ok venue)
    (earns : EarnsFees db.pools venue.market.id venue.outcome.id venue.pool.key) :
    ∃ fees, 0 ≤ fees ∧
      execution.db.pools.find? venue.pool.key =
        some (postLeg execution.ammLeg (postFees fees venue.pool)) ∧
      ∀ key, key ≠ venue.pool.key → execution.db.pools.find? key = db.pools.find? key := by
  obtain ⟨_, openedAs, _, _, ways⟩ := executeOrder_ok executed
  cases opened.symm.trans openedAs
  obtain ⟨_, _, _, _, resolved, _⟩ := openVenue_ok opened
  have found : db.pools.find? venue.pool.key = some venue.pool := by
    rwa [Table.key_of_find? resolved]
  rcases ways with ⟨_, _, rfl⟩ | ⟨_, _, filled⟩
  · exact ⟨0, le_rfl, by simpa [duplicate, postLeg, postFees] using found, fun _ _ => rfl⟩
  obtain ⟨matched, book, trace, ends⟩ := fillOrder_ok filled
  obtain ⟨row, others⟩ := trace.find?_pool (bookPlan_venue db user venue data)
    (bookPlan_fees trace) earns found
  have nonneg : 0 ≤ ((bookPlan db user venue data).map Offer.fee).sum := by
    refine List.sum_nonneg fun value member => ?_
    obtain ⟨offer, offerMember, rfl⟩ := List.mem_map.mp member
    exact (bookPlan_fees trace offer offerMember).le
  refine ⟨_, nonneg, ?_⟩
  rcases ends with ⟨_, _, rested⟩ | ⟨_, _, traded, leg, ran, finished⟩ | ⟨_, finished⟩
  · obtain ⟨_, _, _, _, database, _, none_, _⟩ := restOrder_ok rested
    rw [none_, database]
    exact ⟨row, others⟩
  · rw [finish_pools finished, (finish_ok finished).2.2.1]
    obtain ⟨posted, rest⟩ := runAmmLeg_row ran row
    exact ⟨posted, fun key apart => (rest key apart).trans (others key apart)⟩
  · rw [finish_pools finished, (finish_ok finished).2.2.1]
    exact ⟨row, others⟩

/-- An order on another market leaves the pool alone. -/
theorem executeOrder_pool_other (executed : executeOrder env db user data = .ok execution)
    {key : PoolKey} (other : key.marketId ≠ data.marketId) :
    execution.db.pools.find? key = db.pools.find? key := by
  obtain ⟨venue, opened, _, _, ways⟩ := executeOrder_ok executed
  obtain ⟨marketFound, _, _, _, resolved, _⟩ := openVenue_ok opened
  have isMarket : venue.market.id = data.marketId := Table.key_of_find? marketFound
  have poolMarket : venue.pool.key.marketId = data.marketId := by
    rw [Table.key_of_find? resolved, isMarket]
    rfl
  rcases ways with ⟨_, _, rfl⟩ | ⟨_, _, filled⟩
  · rfl
  obtain ⟨matched, book, trace, ends⟩ := fillOrder_ok filled
  have kept : matched.pools.find? key = db.pools.find? key :=
    trace.find?_pool_other (fun offer member =>
      (bookPlan_venue db user venue data offer member).1) (isMarket ▸ other)
  rcases ends with ⟨_, _, rested⟩ | ⟨_, _, traded, leg, ran, finished⟩ | ⟨_, finished⟩
  · obtain ⟨_, _, _, _, database, _⟩ := restOrder_ok rested
    rw [database]
    exact kept
  · rw [finish_pools finished, (runAmmLeg_traded ran).2.2]
    refine (find?_writeLeg_ne ?_).trans kept
    rintro rfl
    exact other poolMarket
  · rw [finish_pools finished]
    exact kept

/-- The shares an order adds: the AMM leg's, and matched ones that are credited twice. -/
theorem executeOrder_counted (executed : executeOrder env db user data = .ok execution)
    (opened : openVenue env db data.marketId data.outcome = .ok venue) :
    ∃ twice, 0 ≤ twice ∧ (CreditedOnce db user venue data → twice = 0) ∧
      ∀ counts : MarketId → OutcomeId → Bool,
        Position.counted execution.db.positions counts =
          Position.counted db.positions counts +
            if counts venue.market.id venue.outcome.id then
              mintedShares execution.ammLeg + twice else 0 := by
  obtain ⟨_, openedAs, _, _, ways⟩ := executeOrder_ok executed
  cases opened.symm.trans openedAs
  rcases ways with ⟨_, _, rfl⟩ | ⟨unseen, _, filled⟩
  · exact ⟨0, le_rfl, fun _ => rfl, by simp [duplicate, mintedShares]⟩
  obtain ⟨matched, book, trace, ends⟩ := fillOrder_ok filled
  have positive := bookPlan_positive trace
  have moved := trace.counted fun offer member => (positive offer member).1
  have shares := trace.bookFill.1
  rw [BookFill.empty, zero_add] at shares
  have nonneg : 0 ≤ ofBuy data.side book.matchedShares := by
    cases data.side with
    | buy =>
        rw [ofBuy_buy, shares]
        exact deliveredSum_nonneg fun offer member => (positive offer member).1.le
    | sell => exact le_rfl
  -- The fill path credits the matched shares again, unless there are none.
  have single : route venue data ≠ .ok .rest ∨ remainder data book ≤ 0 →
      CreditedOnce db user venue data → ofBuy data.side book.matchedShares = 0 := by
    intro fills once
    rcases once with seen | selling | nothing | ⟨left, rests⟩
    · simp [unseen] at seen
    · simp [selling]
    · rw [(deliveredSum_eq_zero_iff Offer.quantity
        fun offer member => (positive offer member).1).mpr nothing] at shares
      cases data.side <;> simp [shares]
    · rcases fills with elsewhere | spent
      · exact absurd rests elsewhere
      · rw [remainder_eq_planned trace] at spent
        exact absurd left (not_lt.mpr spent)
  rcases ends with ⟨_, _, rested⟩ | ⟨left, routed, traded, leg, ran, finished⟩ | ⟨spent, finished⟩
  · obtain ⟨_, _, _, _, database, _, none_, _⟩ := restOrder_ok rested
    refine ⟨0, le_rfl, fun _ => rfl, fun counts => ?_⟩
    rw [database, none_]
    simp [moved counts, mintedShares]
  · refine ⟨_, nonneg, single (.inl (by simp [routed])), fun counts => ?_⟩
    rw [(fill_counted (.inr ⟨leg, _, rfl, left, ran⟩) finished counts).1, moved counts]
  · refine ⟨_, nonneg, single (.inr spent), fun counts => ?_⟩
    rw [(fill_counted (.inl ⟨rfl, rfl⟩) finished counts).1, moved counts]

theorem trace_allOpen {σ : Type} {now : Timestamp} {taker : Taker σ} {fill final : σ}
    {offers : List Offer} {after : Database} {market : MarketId}
    (trace : Trace now taker db fill offers after final)
    (open_ : Position.AllOpen db.positions market) : Position.AllOpen after.positions market := by
  induction trace with
  | done => exact open_
  | skip _ _ _ ih => exact ih open_
  | @deliver db _ _ _ maker quantity _ _ _ _ _ ih =>
      refine ih ?_
      change Position.AllOpen (moveShares db.positions maker taker.userId quantity _) market
      unfold moveShares
      cases maker.side with
      | buy => exact (open_.dispose _).acquire _
      | sell => exact (open_.acquire _).dispose _

theorem executeOrder_allOpen {market : MarketId}
    (executed : executeOrder env db user data = .ok execution)
    (open_ : Position.AllOpen db.positions market) :
    Position.AllOpen execution.db.positions market := by
  obtain ⟨venue, _, _, _, ways⟩ := executeOrder_ok executed
  rcases ways with ⟨_, _, rfl⟩ | ⟨_, _, filled⟩
  · exact open_
  obtain ⟨matched, book, trace, ends⟩ := fillOrder_ok filled
  have finishing : ∀ {traded : Database} {fill : Fill},
      Position.AllOpen traded.positions market →
      finish env traded user venue data fill = .ok execution →
      Position.AllOpen execution.db.positions market := by
    intro traded fill held finished
    rw [finish_positions finished]
    unfold creditFill
    split
    · exact held
    · exact held.acquire _
  have afterBook := trace_allOpen trace open_
  rcases ends with ⟨_, _, rested⟩ | ⟨_, _, traded, leg, ran, finished⟩ | ⟨_, finished⟩
  · obtain ⟨_, _, _, _, database, _⟩ := restOrder_ok rested
    rw [database]
    exact afterBook
  · refine finishing ?_ finished
    rw [(runAmmLeg_traded ran).2.2]
    dsimp only
    split
    · exact afterBook
    · unfold AmmLeg.movePosition
      split
      · exact afterBook.acquire _
      · exact afterBook.dispose _
  · exact finishing afterBook finished

/-- An order writes neither outcomes nor provider rows. -/
theorem executeOrder_elsewhere (executed : executeOrder env db user data = .ok execution) :
    execution.db.outcomes = db.outcomes ∧ execution.db.lpShares = db.lpShares := by
  obtain ⟨venue, _, _, _, ways⟩ := executeOrder_ok executed
  rcases ways with ⟨_, _, rfl⟩ | ⟨_, _, filled⟩
  · exact ⟨rfl, rfl⟩
  obtain ⟨matched, book, trace, ends⟩ := fillOrder_ok filled
  have same := trace.sameElsewhere
  have finishing : ∀ {traded : Database} {fill : Fill},
      finish env traded user venue data fill = .ok execution →
      execution.db.outcomes = traded.outcomes ∧ execution.db.lpShares = traded.lpShares := by
    intro traded fill finished
    rw [(finish_ok finished).1]
    obtain ⟨_, _, _, credited⟩ := creditReferral_frame (saveFill env traded user venue data fill
      (traded.orders.insert (filledRow env traded user venue data fill))) user
    rw [credited]
    exact ⟨rfl, rfl⟩
  rcases ends with ⟨_, _, rested⟩ | ⟨_, _, traded, leg, ran, finished⟩ | ⟨_, finished⟩
  · obtain ⟨_, _, _, _, database, _⟩ := restOrder_ok rested
    rw [database]
    exact ⟨same.outcomes, same.lpShares⟩
  · obtain ⟨outcomes, lpShares⟩ := finishing finished
    rw [outcomes, lpShares, (runAmmLeg_traded ran).2.2]
    exact ⟨same.outcomes, same.lpShares⟩
  · obtain ⟨outcomes, lpShares⟩ := finishing finished
    rw [outcomes, lpShares]
    exact ⟨same.outcomes, same.lpShares⟩

/-! # The room of an escrow

What an escrow holds above its fees and the shares of an outcome is the room for more shares.
-/

section Room

variable {room : ℚ}

def shareRoom (db : Database) (market : MarketId) (outcome : OutcomeId) (pool : LiquidityPool) :
    ℚ :=
  pool.collateral - pool.protocolFees - Position.sharesIn db.positions market outcome

/-- The spend less its protocol fee, and the room, pay for the shares the AMM mints: the net
spend does not buy the next grid amount above them. -/
def MintCovered (amm : BinaryAMM) (side : ShareSide) (spend room : ℚ) : Prop :=
  let next := BinaryAMM.gridAbove (room + spend - spend * protocolFeeRate)
  (spend - spend * amm.feeRate) * (amm.total + next) < next * (amm.reserve side + next)

instance (amm : BinaryAMM) (side : ShareSide) (spend room : ℚ) :
    Decidable (MintCovered amm side spend room) :=
  inferInstanceAs (Decidable (_ < _))

theorem buy_room_iff {amm after : BinaryAMM} {side : ShareSide} {spend : ℚ} {quote : AMMQuote}
    (bought : amm.buy side spend = .ok (after, quote)) (nonneg : 0 ≤ room) :
    0 ≤ room + spend - spend * protocolFeeRate - quote.sharesOut ↔
      MintCovered amm side spend room := by
  obtain ⟨positive, net, _, minted, _⟩ := BinaryAMM.executeBuy_ok bought
  have kept : 0 ≤ room + spend - spend * protocolFeeRate := by
    unfold protocolFeeRate
    linarith
  rw [sub_nonneg, minted, amm.sharesFor_le_iff side net.le kept]
  rfl

/-- A seller is paid less than a dollar a share, the protocol's fee on top included. -/
theorem sell_within {amm after : BinaryAMM} {side : ShareSide} {shares : ℚ} {quote : AMMQuote}
    (sold : amm.sell side shares = .ok (after, quote)) (feeRate : amm.feeRate = tradingFeeRate) :
    quote.collateralIn + quote.collateralIn * protocolFeeRate ≤ shares := by
  obtain ⟨positive, _, funded, raw, _, credited, _⟩ := BinaryAMM.executeSell_ok sold
  have within : amm.grossProceeds side shares ≤ shares := by
    rw [BinaryAMM.grossProceeds, div_le_iff₀ funded]
    have part := amm.reserve_add_other side
    have other := amm.otherReserve_nonneg side
    exact mul_le_mul_of_nonneg_left (by linarith) positive.le
  have rounded : quote.collateralIn ≤ amm.grossProceeds side shares * (1 - amm.feeRate) := by
    rw [credited]
    exact quantizeDown_le scale_pos raw.le
  rw [feeRate, tradingFeeRate] at rounded
  unfold protocolFeeRate
  linarith

/-- What a sell takes out of the escrow: the proceeds and the fee on them. -/
def sellCost (amm : BinaryAMM) (side : ShareSide) (shares : ℚ) : ℚ :=
  let proceeds := quantizeDown scale (amm.grossProceeds side shares * (1 - amm.feeRate))
  proceeds + proceeds * protocolFeeRate

/-- The room for the traded outcome after a leg. -/
theorem LegOf.own_room (legOf : LegOf db user venue data leg) (nonneg : 0 ≤ room)
    (feeRate : venue.amm.feeRate = tradingFeeRate)
    (covered : data.side = .buy →
      MintCovered venue.amm venue.ammSide (plannedRemainder db user venue data) room) :
    0 ≤ room + leg.paid - leg.protocolFee - mintedShares (some leg) := by
  cases side : data.side with
  | buy =>
      have isBuy := legOf.side.trans side
      have enough := (buy_room_iff (legOf.bought side) nonneg).mpr
        (legOf.quantity ▸ covered side)
      simpa [AmmLeg.paid, AmmLeg.protocolFee, AmmLeg.tradeValue, mintedShares, isBuy] using enough
  | sell =>
      have isSell := legOf.side.trans side
      have within := sell_within (legOf.sold side) feeRate
      simp only [AmmLeg.paid, AmmLeg.protocolFee, AmmLeg.tradeValue, mintedShares, isSell]
      linarith

/-- The room for another outcome of the pool after a leg. -/
theorem LegOf.other_room (legOf : LegOf db user venue data leg) (nonneg : 0 ≤ room)
    (covered : data.side = .sell →
      sellCost venue.amm venue.ammSide (plannedRemainder db user venue data) ≤ room) :
    0 ≤ room + leg.paid - leg.protocolFee := by
  cases side : data.side with
  | buy =>
      have isBuy := legOf.side.trans side
      have positive : 0 < leg.quantity := legOf.quantity ▸ legOf.sent.2.1
      simp only [AmmLeg.paid, AmmLeg.protocolFee, AmmLeg.tradeValue, isBuy, protocolFeeRate]
      linarith
  | sell =>
      have isSell := legOf.side.trans side
      obtain ⟨_, _, _, _, _, credited, _⟩ := BinaryAMM.executeSell_ok (legOf.sold side)
      have enough := covered side
      rw [← legOf.quantity, sellCost, ← credited] at enough
      simp only [AmmLeg.paid, AmmLeg.protocolFee, AmmLeg.tradeValue, isSell]
      linarith

end Room

end OrderService

end PredictX
