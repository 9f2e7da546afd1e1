import PredictX.Services.Quotes
import PredictX.Properties.OrderLedger

namespace PredictX.OrderService

open PredictX.Data PredictX.Amm PredictX.MarketService PredictX.MatchingEngine

/-! The quote against the receipt.

Both run the same trade on the same AMM.  The quote divides what the trade moved by its shares on
either side; the receipt divides what was spent, so it answers a sell with zero, and a buy of no
shares with zero where the quote falls back to the price before.
-/

section Quoted

variable {env : Env} {db : Database} {user : UserId} {venue : Venue} {data : OrderRequest}
  {execution : Execution} {quote : Quote} {now : Timestamp} {quoteId : String}

/-- The trade a quote prices and an order's AMM leg makes. -/
def ammTrade (venue : Venue) (side : Side) (amount : ℚ) : Except Error (BinaryAMM × AMMQuote) :=
  match side with
  | .buy => venue.amm.buy venue.ammSide amount
  | .sell => venue.amm.sell venue.ammSide amount

theorem ok_of_mapError {ε ε' α : Type} {result : Except ε α} {wrap : ε → ε'} {value : α}
    (wrapped : result.mapError wrap = .ok value) : result = .ok value := by
  cases result with
  | error reason => cases wrapped
  | ok stored => exact congrArg Except.ok (Except.ok.inj wrapped)

/-- A quote of the venue's outcome prices the venue's trade. -/
theorem quote_of_venue (opened : openVenue env db data.marketId data.outcome = .ok venue)
    (same : quotedOutcome db data.marketId data.outcome = .ok venue.outcome)
    (quoted : computeQuote now quoteId db user data.marketId data.outcome data.side data.amount =
      .ok quote) :
    ∃ after result, ammTrade venue data.side data.amount = .ok (after, result) ∧
      quote.priceAfter = allInPrice venue.priceBefore result ∧ quote.shares = result.sharesOut := by
  obtain ⟨marketFound, active, _, named, resolved, isAmm⟩ := openVenue_ok opened
  have isMarket : venue.market.id = data.marketId := Table.key_of_find? marketFound
  have isName : venue.outcome.name = data.outcome :=
    of_decide_eq_true (List.mem_filter.mp (List.mem_of_getLast? named)).2
  unfold computeQuote at quoted
  rw [marketFound] at quoted
  dsimp only at quoted
  rw [if_neg (not_not.mpr active), isMarket, same] at quoted
  obtain ⟨_, isOutcome, quoted⟩ := bind_eq_ok.mp quoted
  cases isOutcome
  obtain ⟨pool, isPool, quoted⟩ := bind_eq_ok.mp quoted
  have poolFound := resolvePool_ok (ok_of_mapError isPool)
  rw [isMarket] at resolved isAmm
  cases resolved.symm.trans poolFound
  have trades : (if isParimutuel (outcomesOf db data.marketId) then
        (buildOutcomeAmm (loadOutcomePools db data.marketId) venue.outcome.id).1
      else poolAmm venue.pool) = venue.amm ∧
      (if isParimutuel (outcomesOf db data.marketId) then ShareSide.yes
        else shareSide data.outcome) = venue.ammSide := by
    have amm : venue.amm = _ := congrArg Prod.fst isAmm
    have side : venue.ammSide = _ := congrArg Prod.snd isAmm
    rw [amm, side, ← isName]
    cases isParimutuel (outcomesOf db data.marketId) <;> exact ⟨rfl, rfl⟩
  rw [trades.1, trades.2] at quoted
  obtain ⟨⟨after, result⟩, traded, quoted⟩ := bind_eq_ok.mp quoted
  cases quoted
  exact ⟨after, result, ok_of_mapError traded, rfl, rfl⟩

/-! # The receipt -/

theorem finish_result {fill : Fill} (finished : finish env db user venue data fill = .ok execution) :
    execution.result.shares = fill.totalShares ∧ execution.result.price = fill.averagePrice := by
  unfold finish at finished
  dsimp only at finished
  split at finished
  · contradiction
  split at finished
  · contradiction
  split at finished
  · contradiction
  cases finished
  exact ⟨rfl, rfl⟩

theorem route_market (market : data.orderType = .market) : route venue data ≠ .ok .rest := by
  intro rested
  unfold route at rested
  rw [if_pos market] at rested
  split at rested <;> cases rested

/-- A new market order that meets no resting order trades all of its amount with the AMM. -/
theorem receipt (opened : openVenue env db data.marketId data.outcome = .ok venue)
    (market : data.orderType = .market) (unseen : duplicateOf db user data = none)
    (uncrossed : findMatches db.orders db.orders venue.market.id venue.outcome.id data.side
      data.price user = [])
    (executed : executeOrder env db user data = .ok execution) :
    ∃ leg, LegOf db user venue data leg ∧ leg.quantity = data.amount ∧
      execution.result.shares = leg.shares ∧
      execution.result.price = if 0 < leg.shares then leg.spent / leg.shares else 0 := by
  obtain ⟨_, openedAs, _, _, ways⟩ := executeOrder_ok executed
  cases opened.symm.trans openedAs
  rcases ways with ⟨_, seen, _⟩ | ⟨_, _, filled⟩
  · exact absurd (unseen.symm.trans seen) (by simp)
  have unplanned : bookPlan db user venue data = [] := by
    rw [bookPlan, uncrossed]
    rfl
  have whole : plannedRemainder db user venue data = data.amount := by
    rw [plannedRemainder, unplanned]
    cases data.side <;> simp [data.amount_pos.le]
  obtain ⟨matched, book, trace, ends⟩ := fillOrder_ok filled
  have isRemainder := (remainder_eq_planned trace).trans whole
  rw [unplanned] at trace
  cases trace with
  | done =>
      rw [isRemainder] at ends
      rcases ends with ⟨_, routed, _⟩ | ⟨left, routed, traded, leg, ran, finished⟩ | ⟨nothing, _⟩
      · exact absurd routed (route_market market)
      · obtain ⟨shares, price⟩ := finish_result finished
        rw [← whole] at left ran
        have legOf := runAmmLeg_legOf ⟨unseen, left, routed⟩ ran
        refine ⟨leg, legOf, legOf.quantity.trans whole, ?_, ?_⟩
        · rw [shares]
          exact zero_add _
        · rw [price]
          simp [Fill.averagePrice, Fill.totalShares, Fill.spent, BookFill.empty, AmmLeg.total]
      · exact absurd nothing (not_le.mpr data.amount_pos)

/-- The smallest amount that is stored. -/
def unit : ℚ := 1 / scale

/-- What is left of a buy after the fee pays for a unit of shares; the proceeds of a sell are less
than a unit of money. -/
def ReceiptMatches (venue : Venue) (side : Side) (amount : ℚ) : Prop :=
  match side with
  | .buy => unit * (venue.amm.reserve venue.ammSide + unit) ≤
      (amount - amount * venue.amm.feeRate) * (venue.amm.total + unit)
  | .sell => venue.amm.grossProceeds venue.ammSide amount * (1 - venue.amm.feeRate) < unit

theorem unit_nonneg : 0 ≤ unit := by
  unfold unit
  positivity

theorem minted_pos_iff {amm : BinaryAMM} {side : ShareSide} {net : ℚ} (spent : 0 ≤ net) :
    0 < amm.sharesFor side net ↔ unit * (amm.reserve side + unit) ≤ net * (amm.total + unit) := by
  rw [← (amm.sharesFor_onGrid side net).unit_le_iff scale_pos]
  exact amm.le_sharesFor_iff side spent (onGrid_unit scale_pos) unit_nonneg

theorem quantizeDown_eq_zero_iff {amount : ℚ} (nonneg : 0 ≤ amount) :
    quantizeDown scale amount = 0 ↔ amount < unit := by
  have floor : 0 ≤ quantizeDown scale amount := quantizeDown_nonneg nonneg
  have least := (onGrid_quantizeDown scale_pos nonneg).unit_le_iff scale_pos
  rw [le_quantizeDown_iff scale_pos nonneg (onGrid_unit scale_pos)] at least
  rw [← not_le]
  constructor
  · intro zero enough
    exact (least.mp enough).ne' zero
  · intro less
    exact le_antisymm (not_lt.mp fun some_ => less (least.mpr some_)) floor

/-- The receipt of a market order that meets no resting order says what its quote said exactly for
buys that get some shares and for sells that get no money. -/
theorem quote_is_receipt_iff (opened : openVenue env db data.marketId data.outcome = .ok venue)
    (same : quotedOutcome db data.marketId data.outcome = .ok venue.outcome)
    (quoted : computeQuote now quoteId db user data.marketId data.outcome data.side data.amount =
      .ok quote)
    (market : data.orderType = .market) (unseen : duplicateOf db user data = none)
    (uncrossed : findMatches db.orders db.orders venue.market.id venue.outcome.id data.side
      data.price user = [])
    (executed : executeOrder env db user data = .ok execution) :
    execution.result.price = quote.priceAfter ∧ execution.result.shares = quote.shares ↔
      ReceiptMatches venue data.side data.amount := by
  obtain ⟨after, result, traded, isPrice, isShares⟩ := quote_of_venue opened same quoted
  obtain ⟨leg, legOf, isAmount, shares, price⟩ := receipt opened market unseen uncrossed executed
  have isSide := legOf.side
  rw [isPrice, isShares, price, shares, allInPrice]
  cases side : data.side with
  | buy =>
      have bought := legOf.bought side
      rw [side, ammTrade, ← isAmount, bought] at traded
      cases traded
      obtain ⟨_, spent, _, minted, paid, _⟩ := BinaryAMM.executeBuy_ok bought
      rw [side] at isSide
      simp only [AmmLeg.shares, AmmLeg.spent, isSide, paid, and_true]
      rw [ReceiptMatches, ← isAmount, ← minted_pos_iff spent.le, ← minted]
      by_cases some_ : 0 < leg.quote.sharesOut
      · rw [if_pos some_, if_pos some_]
        exact iff_of_true rfl some_
      · rw [if_neg some_, if_neg some_]
        refine iff_of_false (fun zero => ?_) some_
        -- A buy is refused while its outcome has no price.
        have routed := legOf.sent.2.2
        rw [route, ← zero, if_pos ⟨side, le_rfl⟩] at routed
        cases routed
  | sell =>
      have sold := legOf.sold side
      rw [side, ammTrade, ← isAmount, sold] at traded
      cases traded
      obtain ⟨positive, _, _, raw, stored, credited, _⟩ := BinaryAMM.executeSell_ok sold
      have grid : OnGrid scale leg.quantity := isAmount ▸ data.amount_grid
      rw [grid.quantizeDown_eq scale_pos] at stored
      rw [side] at isSide
      simp only [AmmLeg.shares, AmmLeg.spent, isSide, stored, and_true]
      rw [if_pos positive, if_pos positive, zero_div, eq_comm, div_eq_zero_iff,
        or_iff_left positive.ne', credited, quantizeDown_eq_zero_iff raw.le, ReceiptMatches, isAmount]

end Quoted

/-- The market with 100 shares on each side and nobody resting. -/
def bareMarket : Database := { quotedMarket with orders := .empty }

/-- Ten USDC on YES are quoted and settled at one price. -/
theorem buy_is_settled_as_quoted :
    ∃ execution quote,
      executeOrder quietEnv bareMarket 1
        (marketOrder .buy 10 pos_ten grid_ten) = .ok execution ∧
      computeQuote 1 "q" bareMarket 1 1 .yes .buy 10 = .ok quote ∧
      execution.result.price = quote.priceAfter ∧ execution.result.shares = quote.shares := by
  have run : succeedsWith (executeOrder quietEnv bareMarket 1
      (marketOrder .buy 10 pos_ten grid_ten)) (fun _ => true) = true := by
    decide +kernel
  have priced : succeedsWith (computeQuote 1 "q" bareMarket 1 1 .yes .buy 10)
      (fun _ => true) = true := by
    decide +kernel
  have site : succeedsWith (openVenue quietEnv bareMarket 1 .yes) (fun venue =>
      succeedsWith (quotedOutcome bareMarket 1 .yes) (fun outcome => outcome = venue.outcome) &&
        decide (venue.market.id = 1 ∧ venue.outcome.id = 1 ∧
          unit * (venue.amm.reserve venue.ammSide + unit) ≤
            (10 - 10 * venue.amm.feeRate) * (venue.amm.total + unit))) = true := by
    decide +kernel
  obtain ⟨execution, executed, _⟩ := succeedsWith_iff.mp run
  obtain ⟨quote, quoted, _⟩ := succeedsWith_iff.mp priced
  obtain ⟨venue, opened, facts⟩ := succeedsWith_iff.mp site
  rw [Bool.and_eq_true, succeedsWith_iff, decide_eq_true_eq] at facts
  obtain ⟨⟨outcome, found, isOutcome⟩, isMarket, outcomeId, pays⟩ := facts
  cases of_decide_eq_true isOutcome
  refine ⟨execution, quote, executed, quoted,
    (quote_is_receipt_iff opened found quoted rfl rfl ?_ executed).mpr pays⟩
  rw [isMarket, outcomeId]
  rfl

/-- Five YES shares are quoted at 49 cents each, and the receipt says zero. -/
theorem sell_is_settled_at_zero :
    ∃ execution quote,
      executeOrder quietEnv bareMarket 2
        (marketOrder .sell 5 pos_five grid_five) = .ok execution ∧
      computeQuote 1 "q" bareMarket 2 1 .yes .sell 5 = .ok quote ∧
      findMatches bareMarket.orders bareMarket.orders 1 1 .sell none 2 = [] ∧
      quote.priceAfter = 49 / 100 ∧ execution.result.price = 0 := by
  have run : succeedsWith (executeOrder quietEnv bareMarket 2
      (marketOrder .sell 5 pos_five grid_five))
      (fun execution => decide (execution.result.price = 0)) = true := by
    decide +kernel
  have priced : succeedsWith (computeQuote 1 "q" bareMarket 2 1 .yes .sell 5)
      (fun quote => decide (quote.priceAfter = 49 / 100)) = true := by
    decide +kernel
  obtain ⟨execution, executed, settled⟩ := succeedsWith_iff.mp run
  obtain ⟨quote, quoted, shown⟩ := succeedsWith_iff.mp priced
  exact ⟨execution, quote, executed, quoted, rfl, of_decide_eq_true shown,
    of_decide_eq_true settled⟩

end PredictX.OrderService
