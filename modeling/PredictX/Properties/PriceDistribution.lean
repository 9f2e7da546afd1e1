import PredictX.Services.OutcomePrices
import PredictX.Properties.OrderLedger
import PredictX.Api.Operations

namespace PredictX.OutcomePricing

open PredictX.Data PredictX.Amm PredictX.MarketService PredictX.MatchingEngine
open PredictX.OrderService

/-! Parimutuel prices across trades.

An order trades with an AMM built from all pools of the market and writes back one of them.  That
one's part of the total moves with its shares, and the others follow in proportion; the derived
`no_shares` of the rows are never read.
-/

/-- The direction a trade pushes the price of its own outcome. -/
def Moves (side : Side) (before after : ℚ) : Prop :=
  match side with
  | .buy => before < after
  | .sell => after < before

/-- What a trade on `outcome` does to the prices of its market. -/
structure Redistributed (side : Side) (outcome : OutcomeId) (handedOut : ℚ)
    (before after : List (Option OutcomeId × ℚ)) : Prop where
  ids : after.map Prod.fst = before.map Prod.fst
  whole : (after.map Prod.snd).sum = 1
  own : 0 < handedOut → (∃ other price, other ≠ some outcome ∧ (other, price) ∈ before ∧ 0 < price) →
    ∀ price price', (some outcome, price) ∈ before → (some outcome, price') ∈ after →
      Moves side price price'
  others : 0 < handedOut → ∀ other price price', other ≠ some outcome → (other, price) ∈ before →
    (other, price') ∈ after → 0 < price → Moves side.opposite price price'
  ratios : ∀ first second price price' rate rate', first ≠ some outcome → second ≠ some outcome →
    (first, price) ∈ before → (first, price') ∈ after → (second, rate) ∈ before →
    (second, rate') ∈ after → price * rate' = rate * price'

/-! # One pool rewritten -/

section Rewrite

variable {pools : OutcomePools} {pool : LiquidityPool} {outcome : OutcomeId} {side : Side}
  {handedOut : ℚ} {update : LiquidityPool → LiquidityPool}
  {keeps : ∀ pool, (update pool).outcomeId = pool.outcomeId}

theorem row_unless {other : Option OutcomeId} {stored : LiquidityPool} (apart : other ≠ some outcome)
    (member : stored ∈ (pools.modify (some outcome) update keeps).rows)
    (isOther : stored.outcomeId = other) : stored ∈ pools.rows := by
  obtain ⟨old, oldMember, rfl⟩ := Table.mem_modify.mp member
  split at isOther
  · rename_i here
    rw [keeps, here] at isOther
    exact absurd isOther.symm apart
  · rwa [if_neg ‹_›]

/-- The price of an outcome whose pool stays. -/
theorem unless_price {other : Option OutcomeId} {price price' : ℚ} (apart : other ≠ some outcome)
    (funded : pools.total ≠ 0)
    (fundedAfter : OutcomePools.total (pools.modify (some outcome) update keeps) ≠ 0)
    (quoted : (other, price) ∈ outcomePrices pools.rows)
    (quotedAfter : (other, price') ∈
      outcomePrices (pools.modify (some outcome) update keeps).rows) :
    ∃ row ∈ pools.rows, row.outcomeId = other ∧
      pools.proportion LiquidityPool.yesShares row = price ∧
      (pools.modify (some outcome) update keeps).proportion LiquidityPool.yesShares row =
        price' := by
  obtain ⟨row, member, isOther, isPrice⟩ := (OutcomePools.mem_outcomePrices funded).mp quoted
  obtain ⟨stored, storedMember, isStored, isPriceAfter⟩ :=
    (OutcomePools.mem_outcomePrices fundedAfter).mp quotedAfter
  have kept := row_unless apart storedMember isStored
  have same : stored = row :=
    List.inj_on_of_nodup_map pools.unique kept member (isStored.trans isOther.symm)
  exact ⟨row, member, isOther, isPrice, same ▸ isPriceAfter⟩

variable (nonneg : pools.NonNegative)
  (nonnegAfter : OutcomePools.NonNegative (pools.modify (some outcome) update keeps))
  (found : pools.find? (some outcome) = some pool) (funded : 0 < pools.total)
  (moves : 0 < handedOut → Moves side pool.yesShares (update pool).yesShares)

include nonneg nonnegAfter found funded moves

theorem redistributed_of_modify :
    Redistributed side outcome handedOut (outcomePrices pools.rows)
      (outcomePrices (pools.modify (some outcome) update keeps).rows) := by
  have member := Table.mem_of_find? found
  have isPool : pool.outcomeId = some outcome := Table.key_of_find? found
  have stored : (pools.modify (some outcome) update keeps).find? (some outcome) =
      some (update pool) := by
    rw [Table.find?_modify_self, found]
    rfl
  have left : 0 ≤ (update pool).yesShares := nonnegAfter _ (Table.mem_of_find? stored)
  -- A row that keeps shares keeps the total above zero.
  have fundedWith : ∀ row ∈ pools.rows, row.outcomeId ≠ some outcome → 0 < row.yesShares →
      0 < OutcomePools.total (pools.modify (some outcome) update keeps) := by
    intro row rowMember apart positive
    have kept : row ∈ (pools.modify (some outcome) update keeps).rows :=
      Table.mem_modify.mpr ⟨row, rowMember, if_neg apart⟩
    exact lt_of_lt_of_le positive (OutcomePools.le_total nonnegAfter kept)
  have holds : ∀ row ∈ pools.rows, 0 < pools.proportion LiquidityPool.yesShares row →
      0 < row.yesShares := fun row _ positive =>
    (div_pos_iff_of_pos_right funded).mp positive
  refine ⟨?ids, ?whole, ?own, ?others, ?ratios⟩
  case ids =>
    rw [OutcomePools.outcomePrices_ids, OutcomePools.outcomePrices_ids]
    exact Table.keys_modify
  case whole =>
    exact OutcomePools.sum_outcomePrices (List.ne_nil_of_mem (Table.mem_of_find? stored))
  case own =>
    rintro traded ⟨other, rate, apart, quoted, positive⟩ price price' isPrice isPriceAfter
    obtain ⟨row, rowMember, isOther, isRate⟩ :=
      (OutcomePools.mem_outcomePrices funded.ne').mp quoted
    have rowHolds := holds row rowMember (isRate ▸ positive)
    have shared : pool.yesShares < pools.sum LiquidityPool.yesShares :=
      Table.lt_sum nonneg member rowMember (by rw [isOther, isPool]; exact apart) rowHolds
    have fundedAfter := fundedWith row rowMember (by rwa [isOther]) rowHolds
    obtain ⟨_, firstMember, isFirst, rfl⟩ :=
      (OutcomePools.mem_outcomePrices funded.ne').mp isPrice
    obtain ⟨_, lastMember, isLast, rfl⟩ :=
      (OutcomePools.mem_outcomePrices fundedAfter.ne').mp isPriceAfter
    cases Option.some.inj ((isFirst ▸ Table.find?_key_of_mem firstMember).symm.trans found)
    cases Option.some.inj ((isLast ▸ Table.find?_key_of_mem lastMember).symm.trans stored)
    cases side with
    | buy => exact Table.proportion_rises found (nonneg _ member) shared (moves traded)
    | sell => exact Table.proportion_falls found shared left (moves traded)
  case others =>
    intro traded other price price' apart quoted quotedAfter positive
    obtain ⟨rated, ratedMember, isRated, isRate⟩ :=
      (OutcomePools.mem_outcomePrices funded.ne').mp quoted
    have rowHolds := holds rated ratedMember (isRate ▸ positive)
    have fundedAfter := fundedWith rated ratedMember (by rwa [isRated]) rowHolds
    obtain ⟨row, rowMember, isOther, rfl, rfl⟩ :=
      unless_price apart funded.ne' fundedAfter.ne' quoted quotedAfter
    have rowHolds := holds row rowMember positive
    cases side with
    | buy => exact Table.other_falls found funded (moves traded) rowHolds
    | sell =>
        have shared : pool.yesShares < pools.sum LiquidityPool.yesShares :=
          Table.lt_sum nonneg member rowMember (by rw [isOther, isPool]; exact apart) rowHolds
        exact Table.other_rises found left shared (moves traded) rowHolds
  case ratios =>
    intro first second price price' rate rate' firstApart secondApart isPrice isPriceAfter isRate
      isRateAfter
    by_cases emptied : OutcomePools.total (pools.modify (some outcome) update keeps) = 0
    · -- Nothing is left, so no other outcome held anything.
      have none_ : ∀ other price, other ≠ some outcome → (other, price) ∈ outcomePrices pools.rows →
          price = 0 := by
        intro other price apart quoted
        obtain ⟨row, rowMember, isOther, rfl⟩ :=
          (OutcomePools.mem_outcomePrices funded.ne').mp quoted
        have zero : row.yesShares = 0 := by
          rcases (nonneg row rowMember).lt_or_eq with positive | zero
          · exact absurd emptied (fundedWith row rowMember (by rwa [isOther]) positive).ne'
          · exact zero.symm
        rw [Table.proportion, zero, zero_div]
      rw [none_ first price firstApart isPrice, none_ second rate secondApart isRate, zero_mul,
        zero_mul]
    · obtain ⟨one, _, _, rfl, rfl⟩ :=
        unless_price firstApart funded.ne' emptied isPrice isPriceAfter
      obtain ⟨two, _, _, rfl, rfl⟩ :=
        unless_price secondApart funded.ne' emptied isRate isRateAfter
      exact Table.proportion_ratio one two

end Rewrite

/-! # The written reserve -/

section Leg

variable {amm after : BinaryAMM} {side : ShareSide} {quote : AMMQuote}

/-- A buy that hands out shares leaves more of them than there were, off the grid too. -/
theorem reserve_lt_of_buy {collateral : ℚ} {minimum : Option ℚ}
    (bought : amm.executeBuy side collateral minimum = .ok (after, quote))
    (minted : 0 < quote.sharesOut) : amm.reserve side < after.reserve side := by
  obtain ⟨_, spent, reserve, isShares, _, _, _, _, isAfter, _⟩ := BinaryAMM.executeBuy_ok bought
  rw [isShares] at minted
  rw [isAfter]
  have written := amm.le_reserveAfterBuy side spent.le
  have unit := ((amm.sharesFor_onGrid side _).unit_le_iff scale_pos).mpr minted
  have below := lt_quantizeDown_add_unit scale_pos reserve.le
  linarith

theorem reserve_lt_of_sell {shares : ℚ} {minimum : Option ℚ}
    (sold : amm.executeSell side shares minimum = .ok (after, quote)) :
    after.reserve side < amm.reserve side := by
  obtain ⟨positive, held, _, _, _, _, _, _, isAfter, _⟩ := BinaryAMM.executeSell_ok sold
  have floor := quantizeDown_le scale_pos (sub_nonneg.mpr held)
  rw [isAfter]
  linarith

end Leg

section Order

variable {env : Env} {db : Database} {user : UserId} {venue : Venue} {data : OrderRequest}
  {execution : Execution} {leg : AmmLeg}

theorem leg_moves (legOf : LegOf db user venue data leg) (handedOut : 0 < leg.shares) :
    Moves data.side (venue.amm.reserve venue.ammSide) (leg.amm.reserve venue.ammSide) := by
  have isSide := legOf.side
  cases side : data.side with
  | buy =>
      rw [side] at isSide
      rw [AmmLeg.shares, isSide] at handedOut
      exact reserve_lt_of_buy (legOf.bought side) handedOut
  | sell => exact reserve_lt_of_sell (legOf.sold side)

/-- The venue of an order on a market that is priced by all its pools. -/
theorem venue_of_parimutuel (opened : openVenue env db data.marketId data.outcome = .ok venue)
    (named : isParimutuel (outcomesOf db data.marketId) = true) :
    venue.market.id = data.marketId ∧ venue.ammSide = .yes ∧
      venue.amm = (buildOutcomeAmm (outcomePools db data.marketId).rows venue.outcome.id).1 ∧
      venue.pool.key = ⟨data.marketId, some venue.outcome.id⟩ ∧
      db.pools.find? ⟨data.marketId, some venue.outcome.id⟩ = some venue.pool ∧
      (outcomePools db data.marketId).find? (some venue.outcome.id) = some venue.pool := by
  obtain ⟨marketFound, _, _, isOutcome, resolved, isAmm⟩ := openVenue_ok opened
  have isMarket : venue.market.id = data.marketId := Table.key_of_find? marketFound
  rw [isMarket] at isOutcome resolved isAmm
  rw [named] at resolved isAmm
  have isKey : venue.pool.key = ⟨data.marketId, some venue.outcome.id⟩ := Table.key_of_find? resolved
  have isRow : venue.outcome ∈ db.outcomes.rows := by
    have listed := (List.mem_filter.mp (List.mem_of_getLast? isOutcome)).1
    exact (List.mem_filter.mp ((List.mem_insertionSort _).mp listed)).1
  exact ⟨isMarket, (Prod.mk.inj isAmm).2, (Prod.mk.inj isAmm).1, isKey, resolved,
    Table.find?_eq_some.mpr ⟨mem_outcomePools.mpr ⟨venue.outcome, isRow, resolved⟩,
      congrArg PoolKey.outcomeId isKey⟩⟩

theorem postLeg_outcomeId (leg : Option AmmLeg) (fees : ℚ) (pool : LiquidityPool) :
    (postLeg leg (postFees fees pool)).outcomeId = pool.outcomeId := by
  cases leg <;> rfl

/-- An order rewrites one of its market's pools. -/
theorem outcomePools_order (executed : executeOrder env db user data = .ok execution)
    (opened : openVenue env db data.marketId data.outcome = .ok venue)
    (named : isParimutuel (outcomesOf db data.marketId) = true) :
    ∃ fees, outcomePools execution.db data.marketId =
      (outcomePools db data.marketId).modify (some venue.outcome.id)
        (fun pool => postLeg execution.ammLeg (postFees fees pool))
        (postLeg_outcomeId execution.ammLeg fees) := by
  obtain ⟨isMarket, _, _, isKey, stored, found⟩ := venue_of_parimutuel opened named
  obtain ⟨fees, _, row, others⟩ := executeOrder_pool executed opened
    (by rw [isMarket, isKey]; exact .inl rfl)
  rw [isKey] at row others
  refine ⟨fees, ?_⟩
  have rows : (outcomePools execution.db data.marketId).rows =
      (outcomePools db data.marketId).rows.map fun pool =>
        if pool.outcomeId = some venue.outcome.id then
          postLeg execution.ammLeg (postFees fees pool) else pool := by
    simp only [outcomePools, loadOutcomePools, (executeOrder_elsewhere executed).1,
      List.map_filterMap]
    refine List.filterMap_congr fun outcome _ => ?_
    by_cases same : outcome.id = venue.outcome.id
    · rw [same, row, stored, Option.map_some, if_pos (Table.key_of_find? found)]
    · rw [others _ (by simpa using same)]
      cases stored : db.pools.find? ⟨data.marketId, some outcome.id⟩ with
      | none => rfl
      | some pool =>
          have isOutcome : pool.outcomeId = some outcome.id :=
            congrArg PoolKey.outcomeId (Table.key_of_find? stored)
          rw [Option.map_some, if_neg (by simpa [isOutcome] using same)]
  exact (Table.mk.injEq ..).mpr rows

/-! # Orders on the market -/

/-- A market that is priced by its pools, none of which owes shares. -/
structure Priced (db : Database) (market : MarketId) : Prop where
  named : isParimutuel (outcomesOf db market) = true
  nonneg : (outcomePools db market).NonNegative

theorem postLeg_nonneg (leg : Option AmmLeg) (fees : ℚ) {pool : LiquidityPool}
    (nonneg : 0 ≤ pool.yesShares) : 0 ≤ (postLeg leg (postFees fees pool)).yesShares := by
  cases leg with
  | none => exact nonneg
  | some leg => exact leg.amm.yes_nonneg

theorem Priced.order (priced : Priced db data.marketId)
    (executed : executeOrder env db user data = .ok execution) :
    Priced execution.db data.marketId := by
  obtain ⟨venue, opened, _⟩ := executeOrder_ok executed
  obtain ⟨fees, isPools⟩ := outcomePools_order executed opened priced.named
  refine ⟨?_, fun pool member => ?_⟩
  · have named := priced.named
    unfold outcomesOf at named ⊢
    rwa [(executeOrder_elsewhere executed).1]
  · rw [isPools] at member
    obtain ⟨old, oldMember, rfl⟩ := Table.mem_modify.mp member
    split
    · exact postLeg_nonneg _ _ (priced.nonneg old oldMember)
    · exact priced.nonneg old oldMember

theorem Priced.order_elsewhere {market : MarketId} (priced : Priced db market)
    (apart : market ≠ data.marketId) (executed : executeOrder env db user data = .ok execution) :
    Priced execution.db market := by
  have outcomes := (executeOrder_elsewhere executed).1
  refine ⟨?_, fun pool member => priced.nonneg pool ?_⟩
  · have named := priced.named
    unfold outcomesOf at named ⊢
    rwa [outcomes]
  · obtain ⟨outcome, isOutcome, found⟩ := mem_outcomePools.mp member
    rw [outcomes] at isOutcome
    rw [executeOrder_pool_other executed apart] at found
    exact mem_outcomePools.mpr ⟨outcome, isOutcome, found⟩

/-- The AMM that took a leg had shares in it. -/
theorem leg_funded (legOf : LegOf db user venue data leg) : 0 < venue.amm.total := by
  cases side : data.side with
  | buy =>
      obtain ⟨_, _, reserve, _⟩ := BinaryAMM.executeBuy_ok (legOf.bought side)
      have rest := venue.amm.otherReserve_nonneg venue.ammSide
      have total := venue.amm.reserve_add_other venue.ammSide
      linarith
  | sell =>
      obtain ⟨_, _, total, _⟩ := BinaryAMM.executeSell_ok (legOf.sold side)
      exact total

theorem Priced.redistributed (priced : Priced db data.marketId)
    (executed : executeOrder env db user data = .ok execution)
    (opened : openVenue env db data.marketId data.outcome = .ok venue)
    (isLeg : execution.ammLeg = some leg) :
    Redistributed data.side venue.outcome.id leg.shares
      (outcomePrices (outcomePools db data.marketId).rows)
      (outcomePrices (outcomePools execution.db data.marketId).rows) := by
  obtain ⟨_, isYes, isAmm, _, _, found⟩ := venue_of_parimutuel opened priced.named
  obtain ⟨fees, isPools⟩ := outcomePools_order executed opened priced.named
  have legOf := executeOrder_leg executed opened leg isLeg
  obtain ⟨own, whole⟩ := OutcomePools.buildOutcomeAmm_reserves priced.nonneg
    (Table.mem_of_find? found) (Table.key_of_find? found)
  rw [← isAmm] at own whole
  have after := (priced.order executed).nonneg
  rw [isPools] at after ⊢
  refine redistributed_of_modify priced.nonneg after found (whole ▸ leg_funded legOf) fun traded => ?_
  have moves := leg_moves legOf traded
  rw [isYes, own] at moves
  rwa [isLeg]

end Order

/-! # Runs -/

def IsOrder : Operation → Prop
  | .order .. => True
  | _ => False

theorem Priced.commits {db after : Database} {market : MarketId} {operation : Operation}
    (priced : Priced db market) (isOrder : IsOrder operation)
    (committed : operation.Commits db after) : Priced after market := by
  cases operation with
  | order env user data =>
      obtain ⟨execution, executed, rfl⟩ := map_eq_ok.mp committed
      by_cases here : market = data.marketId
      · exact here ▸ (here ▸ priced).order executed
      · exact priced.order_elsewhere here executed
  | _ => exact isOrder.elim

theorem red_and_blue :
    (([⟨1, 1, .named "red", 0⟩, ⟨2, 1, .named "blue", 1⟩] : List Outcome).map
      Outcome.id).Nodup := by decide

/-- A market of two named outcomes; both rows hold a `no_shares` that is long out of date. -/
def colourMarket (red blue : ℚ) : Database where
  wallets := ⟨[⟨1, 100, 0⟩], by decide⟩
  positions := .empty
  orders := .empty
  pools := ⟨[⟨1, some 1, red, 7, 100, 2 / 100, 100, 0⟩,
    ⟨1, some 2, blue, 7, 100, 2 / 100, 100, 0⟩], by simp [LiquidityPool.key]⟩
  lpShares := .empty
  markets := .single ⟨1, .active, 1000, none, none, none, none, 100, 0, 0⟩
  outcomes := ⟨[⟨1, 1, .named "red", 0⟩, ⟨2, 1, .named "blue", 1⟩], red_and_blue⟩
  disputes := .empty
  referrals := []
  trades := []
  transactions := []
  systemUser := none

def calm : Env := ⟨1, fun _ _ => .missing⟩

theorem unpriced : ∀ limit ∈ (none : Option ℚ), 0 ≤ limit ∧ limit ≤ 1 := by simp

/-- Ten USDC on red. -/
def redBuy : OrderRequest where
  marketId := 1
  outcome := .named "red"
  side := .buy
  orderType := .market
  amount := 10
  price := none
  expiresAt := none
  postOnly := false
  clientOrderId := none
  maxSlippage := none
  minSharesOut := none
  expectedPrice := none
  quoteId := none
  amount_pos := pos_ten
  amount_grid := grid_ten
  price_bounds := unpriced

end PredictX.OutcomePricing
