import PredictX.Amm.RoundTrip

namespace PredictX.Amm

open PredictX.Data

/-! A buy solves the price after the trade.

On grid reserves the minted shares are the most that the net spend pays for at the price they
leave behind, and the pool's reserve moves by just them.  So the price does not fall, more money
mints no fewer shares, and the shares sold back are worth no more than the net spend.
-/

/-- What a buy of `collateral` did to a pool. -/
structure ExactBuy (amm : BinaryAMM) (side : ShareSide) (collateral : ℚ) (after : BinaryAMM)
    (quote : AMMQuote) : Prop where
  shares : IsGreatest {shares | OnGrid scale shares ∧ shares * (amm.reserve side + shares) ≤
    collateral * (1 - amm.feeRate) * (amm.total + shares)} quote.sharesOut
  reserve : after.reserve side = amm.reserve side + quote.sharesOut
  otherReserve : after.otherReserve side = amm.otherReserve side
  feeRate : after.feeRate = amm.feeRate
  prices : (quote.yesPriceAfter, quote.noPriceAfter) = (after.price .yes, after.price .no)
  sum : after.price .yes + after.price .no = 1
  bounds : ∀ outcome, 0 ≤ after.price outcome ∧ after.price outcome ≤ 1
  risen : amm.price side ≤ after.price side

/-- What selling the bought shares back at once does. -/
structure SoldBack (amm : BinaryAMM) (side : ShareSide) (collateral : ℚ) (final : BinaryAMM)
    (back : AMMQuote) : Prop where
  paid : back.collateralIn ≤ (1 - amm.feeRate) * (collateral * (1 - amm.feeRate))
  reserve : final.reserve side = amm.reserve side
  otherReserve : final.otherReserve side = amm.otherReserve side

namespace BinaryAMM

variable {amm after : BinaryAMM} {side : ShareSide} {collateral more : ℚ} {quote : AMMQuote}

theorem price_nonneg (outcome : ShareSide) : 0 ≤ amm.price outcome := by
  unfold price
  split
  · norm_num
  · exact div_nonneg (amm.reserve_nonneg outcome) amm.total_nonneg

theorem price_yes_add_no : amm.price .yes + amm.price .no = 1 := by
  unfold price
  split
  · norm_num
  · rename_i funded
    rw [← add_div]
    exact div_self funded

theorem price_le_one (outcome : ShareSide) : amm.price outcome ≤ 1 := by
  have sum : amm.price .yes + amm.price .no = 1 := price_yes_add_no
  have yes := amm.price_nonneg .yes
  have no := amm.price_nonneg .no
  cases outcome <;> linarith

theorem total_pos (funded : 0 < amm.reserve side) : 0 < amm.total := by
  have other := amm.otherReserve_nonneg side
  have whole := amm.reserve_add_other side
  linarith

theorem pricesAfter_eq (funded : 0 < amm.total) :
    amm.pricesAfter = (amm.price .yes, amm.price .no) := by
  unfold pricesAfter price
  rw [if_pos funded, if_neg funded.ne', if_neg funded.ne']
  rfl

/-- A buy into a funded reserve goes through. -/
theorem buy_succeeds (funded : 0 < amm.reserve side) (fee : amm.feeRate < 1)
    (positive : 0 < collateral) : ∃ after quote, amm.buy side collateral = .ok (after, quote) := by
  have net : ¬collateral - collateral * amm.feeRate ≤ 0 := by
    rw [not_le]
    nlinarith
  unfold buy executeBuy
  rw [if_neg (not_le.mpr positive), if_neg (total_pos funded).ne']
  dsimp only
  rw [dif_neg net, if_neg funded.ne', if_neg (by simp)]
  exact ⟨_, _, rfl⟩

/-- More money mints no fewer shares. -/
theorem sharesFor_mono {net larger : ℚ} (nonneg : 0 ≤ net) (order : net ≤ larger) :
    amm.sharesFor side net ≤ amm.sharesFor side larger := by
  have minted := amm.sharesFor_nonneg side net
  rw [amm.le_sharesFor_iff side (nonneg.trans order) (amm.sharesFor_onGrid side net) minted]
  have room : 0 ≤ amm.total + amm.sharesFor side net := add_nonneg amm.total_nonneg minted
  exact (amm.sharesFor_paid side nonneg).trans (mul_le_mul_of_nonneg_right order room)

theorem executeBuy_prices {minimum : Option ℚ}
    (bought : amm.executeBuy side collateral minimum = .ok (after, quote)) :
    (quote.yesPriceAfter, quote.noPriceAfter) = after.pricesAfter := by
  unfold executeBuy at bought
  split at bought
  · contradiction
  split at bought
  · contradiction
  dsimp only at bought
  split at bought
  · contradiction
  split at bought
  · contradiction
  split at bought
  · contradiction
  cases bought
  rfl

theorem exactBuy_of_buy (ownGrid : OnGrid scale (amm.reserve side))
    (otherGrid : OnGrid scale (amm.otherReserve side))
    (bought : amm.buy side collateral = .ok (after, quote)) :
    ExactBuy amm side collateral after quote := by
  obtain ⟨positive, net, funded, isShares, -, -, -, feeRate, own, other⟩ := executeBuy_ok bought
  have isNet : collateral - collateral * amm.feeRate = collateral * (1 - amm.feeRate) := by ring
  rw [isNet] at net isShares own
  rw [amm.reserveAfterBuy_eq side net.le ownGrid, ← isShares] at own
  rw [otherGrid.quantizeDown_eq scale_pos] at other
  have minted : 0 ≤ quote.sharesOut := isShares ▸ amm.sharesFor_nonneg side _
  have afterTotal : after.total = amm.total + quote.sharesOut := by
    rw [← after.reserve_add_other side, ← amm.reserve_add_other side, own, other]
    ring
  have whole := total_pos funded
  have afterWhole : 0 < after.total := by linarith
  refine
    { shares := ⟨⟨?onGrid, ?paid⟩, ?most⟩
      reserve := own
      otherReserve := other
      feeRate := feeRate
      prices := (executeBuy_prices bought).trans (pricesAfter_eq afterWhole)
      sum := price_yes_add_no
      bounds := fun outcome => ⟨price_nonneg outcome, price_le_one outcome⟩
      risen := ?risen }
  case onGrid => exact isShares ▸ amm.sharesFor_onGrid side _
  case paid => exact isShares ▸ amm.sharesFor_paid side net.le
  case most =>
    rintro shares ⟨grid, covered⟩
    rcases le_total shares 0 with small | nonneg
    · exact small.trans minted
    · rw [isShares, amm.le_sharesFor_iff side net.le grid nonneg]
      exact covered
  case risen =>
    have below : amm.reserve side ≤ amm.total := by
      have nonneg := amm.otherReserve_nonneg side
      linarith [amm.reserve_add_other side]
    have order : (amm.reserve side + 0) / (amm.total + 0) ≤
        (amm.reserve side + quote.sharesOut) / (amm.total + quote.sharesOut) :=
      price_mono below (by linarith) minted
    rw [add_zero, add_zero] at order
    unfold price
    rwa [if_neg whole.ne', if_neg afterWhole.ne', own, afterTotal]

/-- The bought shares are sold back for no more than the net spend, less the fee. -/
theorem soldBack_of_sell {final : BinaryAMM} {back : AMMQuote}
    (ownGrid : OnGrid scale (amm.reserve side)) (fee : amm.feeRate < 1)
    (exact_ : ExactBuy amm side collateral after quote)
    (otherGrid : OnGrid scale (amm.otherReserve side))
    (sold : after.sell side quote.sharesOut = .ok (final, back)) :
    SoldBack amm side collateral final back := by
  obtain ⟨positive, -, whole, raw, -, proceeds, -, -, own, other⟩ := executeSell_ok sold
  have afterTotal : after.total = amm.total + quote.sharesOut := by
    rw [← after.reserve_add_other side, ← amm.reserve_add_other side, exact_.reserve,
      exact_.otherReserve]
    ring
  have gross : after.grossProceeds side quote.sharesOut ≤ collateral * (1 - amm.feeRate) := by
    rw [grossProceeds, div_le_iff₀ whole, exact_.reserve, afterTotal]
    exact exact_.shares.1.2
  constructor
  · calc back.collateralIn
        ≤ after.grossProceeds side quote.sharesOut * (1 - after.feeRate) := by
          rw [proceeds]
          exact quantizeDown_le scale_pos raw.le
      _ ≤ collateral * (1 - amm.feeRate) * (1 - amm.feeRate) := by
          rw [exact_.feeRate]
          exact mul_le_mul_of_nonneg_right gross (by linarith)
      _ = (1 - amm.feeRate) * (collateral * (1 - amm.feeRate)) := by ring
  · rw [own, exact_.reserve, add_sub_cancel_right]
    exact ownGrid.quantizeDown_eq scale_pos
  · rw [other, exact_.otherReserve]
    exact otherGrid.quantizeDown_eq scale_pos

theorem sell_succeeds {shares : ℚ} (positive : 0 < shares) (within : shares ≤ amm.reserve side)
    (fee : amm.feeRate < 1) : ∃ after quote, amm.sell side shares = .ok (after, quote) := by
  have funded : 0 < amm.reserve side := positive.trans_le within
  have whole := total_pos funded
  have gross : 0 < amm.grossProceeds side shares := div_pos (mul_pos positive funded) whole
  have raw : ¬amm.grossProceeds side shares * (1 - amm.feeRate) ≤ 0 :=
    not_le.mpr (mul_pos gross (by linarith))
  unfold sell executeSell
  rw [if_neg (not_le.mpr positive), if_neg whole.ne', if_neg funded.ne',
    dif_neg (not_lt.mpr within)]
  dsimp only
  rw [if_neg raw, if_neg (by simp)]
  exact ⟨_, _, rfl⟩

/-- A buy is the exact solution of the price after the trade. -/
theorem buy_is_exact (ownGrid : OnGrid scale (amm.reserve side))
    (otherGrid : OnGrid scale (amm.otherReserve side)) (funded : 0 < amm.reserve side)
    (fee : amm.feeRate < 1) (positive : 0 < collateral) :
    ∃ after quote, amm.buy side collateral = .ok (after, quote) ∧
      ExactBuy amm side collateral after quote ∧
      (∀ more, collateral ≤ more → ∃ later larger, amm.buy side more = .ok (later, larger) ∧
        quote.sharesOut ≤ larger.sharesOut) ∧
      (0 < quote.sharesOut → ∃ final back, after.sell side quote.sharesOut = .ok (final, back)) ∧
      ∀ final back, after.sell side quote.sharesOut = .ok (final, back) →
        SoldBack amm side collateral final back := by
  obtain ⟨after, quote, bought⟩ := buy_succeeds funded fee positive
  have solved := exactBuy_of_buy ownGrid otherGrid bought
  refine ⟨after, quote, bought, solved, ?mono, ?sells, fun final back sold =>
    soldBack_of_sell ownGrid fee solved otherGrid sold⟩
  case mono =>
    intro more order
    obtain ⟨later, larger, boughtMore⟩ := buy_succeeds funded fee (positive.trans_le order)
    obtain ⟨-, net, -, isShares, -⟩ := executeBuy_ok bought
    obtain ⟨-, -, -, isLarger, -⟩ := executeBuy_ok boughtMore
    refine ⟨later, larger, boughtMore, ?_⟩
    rw [isShares, isLarger]
    exact sharesFor_mono net.le (by nlinarith)
  case sells =>
    intro minted
    refine sell_succeeds minted ?_ (solved.feeRate ▸ fee)
    rw [solved.reserve]
    linarith

/-- A buy of 50 USDC on a 100/100 pool without a fee. -/
theorem buy_is_exact_at_even_odds :
    ∃ after quote, (init 100 100 0).buy .yes 50 = .ok (after, quote) ∧
      ExactBuy (init 100 100 0) .yes 50 after quote := by
  have ownGrid : OnGrid scale ((init 100 100 0).reserve .yes) := by decide +kernel
  have otherGrid : OnGrid scale ((init 100 100 0).otherReserve .yes) := by decide +kernel
  have positive : (0 : ℚ) < 50 := by decide +kernel
  obtain ⟨after, quote, bought, solved, -⟩ :=
    buy_is_exact ownGrid otherGrid (by decide +kernel) (by decide +kernel) positive
  exact ⟨after, quote, bought, solved⟩

end BinaryAMM

end PredictX.Amm
