import PredictX.Properties.PostOnly
import PredictX.Properties.MatcherAgreement

namespace PredictX.OrderService

open PredictX.Data PredictX.Amm PredictX.MatchingEngine

/-! The slippage bound.

A buy is scored by the average it paid.  A sell is scored by the AMM's price before the trade, or
by zero where the book took all of it, and not by what it received.
-/

/-- The price bound of step 6, with the rounding of its floats. -/
def priceBound (round : ℚ → ℚ) (data : OrderRequest) (actualPrice : ℚ) : Bool :=
  match data.maxSlippage, data.expectedPrice with
  | some tolerance, some reference =>
      let expected := round reference
      let actual := round actualPrice
      0 < expected &&
        (match data.side with
          | .buy => tolerance < round (round (actual - expected) / expected)
          | .sell => tolerance < round (round (expected - actual) / expected))
  | _, _ => false

/-- An order that reaches step 6 with this fill. -/
def ReachesStep6 (env : Env) (db : Database) (user : UserId) (venue : Venue) (data : OrderRequest)
    (fill : Fill) : Prop :=
  ∃ matched, matchOrderAgainstBook env.now db venue.market.id venue.outcome.id data.side data.amount
      data.price user = .ok (matched, fill.book) ∧
    (remainder data fill.book ≤ 0 ∧ fill.leg = none ∨
      0 < remainder data fill.book ∧ route venue data = .ok .amm ∧
        ∃ traded leg, runAmmLeg matched user venue data.side (remainder data fill.book) =
            .ok (traded, leg) ∧ fill.leg = some leg)

/-- The average price of the fill.  Of a match a seller gets what `keep` leaves: one for
`total_usdc_received`, less for what reaches the wallet. -/
def realPrice (keep : ℚ) (side : Side) (fill : Fill) : ℚ :=
  match side with
  | .buy => fill.spent / fill.totalShares
  | .sell =>
      (fill.book.matchedUsdc * keep + AmmLeg.total fill.leg AmmLeg.proceeds) / fill.totalShares

/-- Worse than the reference by more than the tolerance. -/
def Worse (side : Side) (reference tolerance price : ℚ) : Prop :=
  match side with
  | .buy => tolerance < (price - reference) / reference
  | .sell => tolerance < (reference - price) / reference

/-- The lowest price a sell accepts. -/
def priceFloor (reference tolerance : ℚ) : ℚ := reference * (1 - tolerance)

/-! # Read off the state before the order -/

/-- The price a sell is scored by. -/
def plannedSpot (db : Database) (user : UserId) (venue : Venue) (data : OrderRequest) : ℚ :=
  if 0 < plannedRemainder db user venue data then venue.priceBefore else 0

/-- What the AMM pays for the remainder of a sell. -/
def plannedProceeds (db : Database) (user : UserId) (venue : Venue) (data : OrderRequest) : ℚ :=
  if 0 < plannedRemainder db user venue data then
    quantizeDown scale (venue.amm.grossProceeds venue.ammSide (plannedRemainder db user venue data) *
      (1 - venue.amm.feeRate))
  else 0

/-- What a sell gets for a share on average. -/
def plannedAverage (keep : ℚ) (db : Database) (user : UserId) (venue : Venue) (data : OrderRequest) :
    ℚ :=
  (deliveredSum (bookPlan db user venue data) Offer.usdc * keep +
      plannedProceeds db user venue data) /
    (deliveredSum (bookPlan db user venue data) Offer.quantity + plannedRemainder db user venue data)

section Bound

variable {env : Env} {db : Database} {user : UserId} {venue : Venue} {data : OrderRequest}
  {fill : Fill} {reference tolerance price keep : ℚ}

/-- The bound of the code is this one with floats. -/
theorem slippageExceeded_eq (data : OrderRequest) (shares price : ℚ) :
    slippageExceeded data shares price =
      (decide (0 < shares) && ((data.minSharesOut.any fun minimum => shares < minimum) ||
        priceBound toFloat data price)) := rfl

/-- Step 6 refuses for slippage alone where the whole amount was filled. -/
theorem finish_slippage_iff
    (whole : ¬ (data.orderType = .fillOrKill ∧ fill.filled data.side < data.amount)) :
    finish env db user venue data fill = .error .slippageExceeded ↔
      slippageExceeded data fill.totalShares (fill.actualPrice data.side) = true := by
  unfold finish
  rw [if_neg whole]
  split
  · rename_i exceeded
    exact iff_of_true rfl exceeded
  · rename_i within
    refine iff_of_false ?_ within
    dsimp only
    split
    · rename_i reason inserted
      unfold insertOrder at inserted
      split at inserted
      · cases inserted
        simp
      · cases inserted
    · simp

theorem priceBound_iff (tolerated : data.maxSlippage = some tolerance)
    (expected : data.expectedPrice = some reference) (positive : 0 < reference) :
    priceBound id data price = true ↔ Worse data.side reference tolerance price := by
  unfold priceBound Worse
  rw [tolerated, expected]
  cases data.side <;> simp [positive]

theorem worse_sell_iff (positive : 0 < reference) :
    Worse .sell reference tolerance price ↔ price < priceFloor reference tolerance := by
  rw [Worse, lt_div_iff₀ positive, priceFloor]
  constructor
  · intro worse
    linarith
  · intro below
    linarith

/-- The fill of a sell, read off the plan. -/
theorem sell_fill (selling : data.side = .sell) (reached : ReachesStep6 env db user venue data fill) :
    fill.ammPrice = plannedSpot db user venue data ∧
      realPrice keep .sell fill = plannedAverage keep db user venue data := by
  obtain ⟨matched, ran, ends⟩ := reached
  have trace := matchOrderAgainstBook_trace ran
  obtain ⟨shares, usdc, _⟩ := trace.bookFill
  have isRemainder := remainder_eq_planned trace
  have isShares : fill.book.matchedShares =
      deliveredSum (bookPlan db user venue data) Offer.quantity := shares.trans (zero_add _)
  have isUsdc : fill.book.matchedUsdc =
      deliveredSum (bookPlan db user venue data) Offer.usdc := usdc.trans (zero_add _)
  rw [isRemainder] at ends
  unfold Fill.ammPrice realPrice plannedSpot plannedAverage plannedProceeds Fill.totalShares
  rcases ends with ⟨nothing, isLeg⟩ | ⟨left, routed, traded, leg, sent, isLeg⟩
  · have zero : plannedRemainder db user venue data = 0 := by
      refine le_antisymm nothing ?_
      unfold plannedRemainder
      cases data.side <;> exact le_max_right _ _
    simp only [isLeg, AmmLeg.total, zero, isShares, isUsdc, lt_irrefl, if_false, Option.map_none,
      Option.getD_none, and_self]
  · rw [selling] at sent
    obtain ⟨_, sold, isSide, quantity, _⟩ := ammSell_ok sent
    obtain ⟨_, _, _, _, _, credited, spot, _⟩ := BinaryAMM.executeSell_ok sold
    simp only [isLeg, AmmLeg.total, Option.map_some, Option.getD_some, if_pos left, isShares, isUsdc,
      AmmLeg.proceeds, AmmLeg.shares, isSide, quantity, credited, spot, and_true]
    rfl

/-- A buy is refused exactly for its average price.  A sell is when the spot price and what it gets
are on one side of the floor. -/
theorem slippage_bound_exact_iff (reached : ReachesStep6 env db user venue data fill)
    (some_ : 0 < fill.totalShares) (tolerated : data.maxSlippage = some tolerance)
    (expected : data.expectedPrice = some reference) (positive : 0 < reference) :
    (priceBound id data (fill.actualPrice data.side) = true ↔
        Worse data.side reference tolerance (realPrice keep data.side fill)) ↔
      data.side = .buy ∨
        (plannedSpot db user venue data < priceFloor reference tolerance ↔
          plannedAverage keep db user venue data < priceFloor reference tolerance) := by
  rw [priceBound_iff tolerated expected positive]
  cases side : data.side with
  | buy =>
      have average : fill.actualPrice .buy = realPrice keep .buy fill := if_pos some_
      rw [average]
      exact iff_of_true Iff.rfl (.inl rfl)
  | sell =>
      have both : fill.ammPrice = plannedSpot db user venue data ∧
          realPrice keep .sell fill = plannedAverage keep db user venue data :=
        sell_fill side reached
      obtain ⟨spot, average⟩ := both
      rw [worse_sell_iff positive, worse_sell_iff positive, average, Fill.actualPrice, spot]
      simp

end Bound

/-! # Four shares at one half -/

/-- An order that agreed to one half and tolerates one percent. -/
def boundedOrder (side : Side) (amount : ℚ) (pos : 0 < amount) (grid : OnGrid scale amount) :
    OrderRequest :=
  { marketOrder side amount pos grid with
    maxSlippage := some (1 / 100)
    expectedPrice := some (1 / 2) }

/-- A buy of two USDC takes four resting shares at one half and is scored by that. -/
theorem book_buy_is_scored_exactly :
    ∃ venue fill, openVenue quietEnv crossedMarket 1 .yes = .ok venue ∧
      ReachesStep6 quietEnv crossedMarket 1 venue
        (boundedOrder .buy 2 (by decide +kernel) (by decide +kernel)) fill ∧
      (priceBound id (boundedOrder .buy 2 (by decide +kernel) (by decide +kernel))
          (fill.actualPrice .buy) = true ↔
        Worse .buy (1 / 2) (1 / 100) (realPrice 1 .buy fill)) := by
  have site : succeedsWith (openVenue quietEnv crossedMarket 1 .yes) (fun venue =>
      succeedsWith (matchOrderAgainstBook 1 crossedMarket venue.market.id venue.outcome.id .buy 2
        none 1) fun result => decide (result.2.matchedUsdc = 2 ∧ 0 < result.2.matchedShares)) =
          true := by
    decide +kernel
  obtain ⟨venue, opened, ran⟩ := succeedsWith_iff.mp site
  obtain ⟨⟨matched, book⟩, ran, filled⟩ := succeedsWith_iff.mp ran
  obtain ⟨usdc, shares⟩ : book.matchedUsdc = 2 ∧ 0 < book.matchedShares := of_decide_eq_true filled
  have nothing : remainder (boundedOrder .buy 2 (by decide +kernel) (by decide +kernel)) book ≤ 0 := by
    simp [remainder, boundedOrder, marketOrder, usdc]
  have reached : ReachesStep6 quietEnv crossedMarket 1 venue
      (boundedOrder .buy 2 (by decide +kernel) (by decide +kernel)) ⟨book, none⟩ :=
    ⟨matched, ran, .inl ⟨nothing, rfl⟩⟩
  refine ⟨venue, ⟨book, none⟩, opened, reached, ?_⟩
  exact (slippage_bound_exact_iff reached (by simpa [Fill.totalShares, AmmLeg.total] using shares)
    rfl rfl (by norm_num)).mpr (.inl rfl)

/-- A sell of four shares gets one half for each from the book, and is refused for a price of
zero. -/
theorem book_sell_is_refused :
    ∃ venue fill, openVenue quietEnv crossedMarket 1 .yes = .ok venue ∧
      ReachesStep6 quietEnv crossedMarket 2 venue
        (boundedOrder .sell 4 pos_four grid_four) fill ∧
      realPrice 1 .sell fill = 1 / 2 ∧
      priceBound id (boundedOrder .sell 4 pos_four grid_four)
        (fill.actualPrice .sell) = true ∧
      executeOrder quietEnv crossedMarket 2
        (boundedOrder .sell 4 pos_four grid_four) =
          .error .slippageExceeded := by
  have site : succeedsWith (openVenue quietEnv crossedMarket 1 .yes) (fun venue =>
      succeedsWith (matchOrderAgainstBook 1 crossedMarket venue.market.id venue.outcome.id .sell 4
        none 2) fun result => decide (result.2.matchedUsdc = 2 ∧ result.2.matchedShares = 4)) =
          true := by
    decide +kernel
  have refused : (match executeOrder quietEnv crossedMarket 2
      (boundedOrder .sell 4 pos_four grid_four) with
      | .error reason => decide (reason = .slippageExceeded)
      | .ok _ => false) = true := by
    decide +kernel
  obtain ⟨venue, opened, ran⟩ := succeedsWith_iff.mp site
  obtain ⟨⟨matched, book⟩, ran, filled⟩ := succeedsWith_iff.mp ran
  obtain ⟨usdc, shares⟩ : book.matchedUsdc = 2 ∧ book.matchedShares = 4 := of_decide_eq_true filled
  have nothing : remainder (boundedOrder .sell 4 pos_four grid_four) book ≤ 0 := by
    simp [remainder, boundedOrder, marketOrder, shares]
  refine ⟨venue, ⟨book, none⟩, opened, ⟨matched, ran, .inl ⟨nothing, rfl⟩⟩, ?_, ?_, ?_⟩
  · norm_num [realPrice, Fill.totalShares, AmmLeg.total, usdc, shares]
  · norm_num [priceBound, boundedOrder, marketOrder, Fill.actualPrice, Fill.ammPrice, AmmLeg.total]
  · cases ends : executeOrder quietEnv crossedMarket 2
      (boundedOrder .sell 4 pos_four grid_four) with
    | error reason =>
        rw [ends] at refused
        rw [of_decide_eq_true refused]
    | ok execution =>
        rw [ends] at refused
        cases refused

end PredictX.OrderService
