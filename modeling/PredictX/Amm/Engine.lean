import PredictX.Models

namespace PredictX.Amm

open PredictX.Data

/-! The share-pool AMM.

A buy is charged the price after the trade on every share, so the minted amount is
the root of `s * (R + s) = net * (T + s)`; the square root is taken exactly and the
result is cut to the storage grid.  A sell is credited the price before the trade.
-/

/-- `Literal["yes", "no"]`. -/
inductive ShareSide where
  | yes
  | no
deriving DecidableEq, Repr

structure AMMQuote where
  sharesOut : ℚ
  collateralIn : ℚ
  fee : ℚ
  price : ℚ
  slippage : ℚ
  yesPriceAfter : ℚ
  noPriceAfter : ℚ
deriving DecidableEq, Repr

/-- Reserves are clamped at construction and no trade drives one below zero. -/
structure BinaryAMM where
  yesShares : ℚ
  noShares : ℚ
  feeRate : ℚ
  yes_nonneg : 0 ≤ yesShares
  no_nonneg : 0 ≤ noShares
deriving DecidableEq, Repr

namespace BinaryAMM

def init (yesShares noShares feeRate : ℚ) : BinaryAMM where
  yesShares := max 0 yesShares
  noShares := max 0 noShares
  feeRate := feeRate
  yes_nonneg := le_max_left _ _
  no_nonneg := le_max_left _ _

variable (amm : BinaryAMM) (side : ShareSide)

def total : ℚ := amm.yesShares + amm.noShares

def reserve : ShareSide → ℚ
  | .yes => amm.yesShares
  | .no => amm.noShares

def otherReserve : ShareSide → ℚ
  | .yes => amm.noShares
  | .no => amm.yesShares

def price : ℚ :=
  if amm.total = 0 then 1 / 2 else amm.reserve side / amm.total

theorem reserve_nonneg : 0 ≤ amm.reserve side := by
  cases side
  · exact amm.yes_nonneg
  · exact amm.no_nonneg

theorem otherReserve_nonneg : 0 ≤ amm.otherReserve side := by
  cases side
  · exact amm.no_nonneg
  · exact amm.yes_nonneg

theorem reserve_add_other : amm.reserve side + amm.otherReserve side = amm.total := by
  cases side
  · rfl
  · exact add_comm _ _

theorem total_nonneg : 0 ≤ amm.total := add_nonneg amm.yes_nonneg amm.no_nonneg

/-- The pool with one reserve replaced and the other cut to the grid. -/
def withReserve (reserve : ℚ) (nonneg : 0 ≤ reserve) : BinaryAMM :=
  match side with
  | .yes =>
      { amm with
        yesShares := reserve, noShares := quantizeDown scale amm.noShares
        yes_nonneg := nonneg, no_nonneg := quantizeDown_nonneg amm.no_nonneg }
  | .no =>
      { amm with
        yesShares := quantizeDown scale amm.yesShares, noShares := reserve
        yes_nonneg := quantizeDown_nonneg amm.yes_nonneg, no_nonneg := nonneg }

@[simp] theorem withReserve_reserve (reserve : ℚ) (nonneg : 0 ≤ reserve) :
    (amm.withReserve side reserve nonneg).reserve side = reserve := by
  cases side <;> rfl

@[simp] theorem withReserve_otherReserve (reserve : ℚ) (nonneg : 0 ≤ reserve) :
    (amm.withReserve side reserve nonneg).otherReserve side =
      quantizeDown scale (amm.otherReserve side) := by
  cases side <;> rfl

@[simp] theorem withReserve_feeRate (reserve : ℚ) (nonneg : 0 ≤ reserve) :
    (amm.withReserve side reserve nonneg).feeRate = amm.feeRate := by
  cases side <;> rfl

/-- `after_price_yes` and `after_price_no`. -/
def pricesAfter : ℚ × ℚ :=
  if 0 < amm.total then (amm.yesShares / amm.total, amm.noShares / amm.total)
  else (1 / 2, 1 / 2)

/-! # Buying -/

section Buy

variable (net : ℚ)

/-- `(reserve - collateral_net) ** 2 + 4 * collateral_net * total`. -/
def discriminant : ℚ := (amm.reserve side - net) ^ 2 + 4 * net * amm.total

/-- The shares a net spend buys, cut to the grid. -/
def sharesFor : ℚ :=
  max 0 (floorHalfRoot scale (net - amm.reserve side) (amm.discriminant side net) / scale)

/-- The bought side's reserve after the trade, cut to the grid: `R + s` is the
root shifted by `R`. -/
def reserveAfterBuy : ℚ :=
  floorHalfRoot scale (net + amm.reserve side) (amm.discriminant side net) / scale

theorem reserveAfterBuy_nonneg (nonneg : 0 ≤ net) : 0 ≤ amm.reserveAfterBuy side net := by
  have root : (0 : ℚ) ≤ floorHalfRoot scale (net + amm.reserve side) (amm.discriminant side net) := by
    exact_mod_cast floorHalfRoot_nonneg (add_nonneg nonneg (amm.reserve_nonneg side))
  exact div_nonneg root (Nat.cast_nonneg _)

def executeBuy (collateral : ℚ) (minSharesOut : Option ℚ) :
    Except Error (BinaryAMM × AMMQuote) :=
  if collateral ≤ 0 then .error .valueError
  else if amm.total = 0 then .error .valueError
  else
    let fee := collateral * amm.feeRate
    let net := collateral - fee
    if spent : net ≤ 0 then .error .valueError
    else if amm.reserve side = 0 then .error .valueError
    -- The unrounded root is below the minimum `m` exactly when `2m - a` exceeds
    -- the square root of the discriminant.
    else if (minSharesOut.any fun minimum =>
        0 < 2 * minimum - (net - amm.reserve side) ∧
        amm.discriminant side net < (2 * minimum - (net - amm.reserve side)) ^ 2) then
      .error .valueError
    else
      let after := amm.withReserve side (amm.reserveAfterBuy side net)
        (amm.reserveAfterBuy_nonneg side net (not_le.mp spent).le)
      let prices := after.pricesAfter
      .ok (after,
        { sharesOut := amm.sharesFor side net
          collateralIn := collateral
          fee := quantizeDown scale fee
          price := amm.price side
          slippage := match side with
            | .yes => |prices.1 - amm.price side|
            | .no => |prices.2 - amm.price side|
          yesPriceAfter := prices.1
          noPriceAfter := prices.2 })

variable {net}

theorem discriminant_nonneg (nonneg : 0 ≤ net) : 0 ≤ amm.discriminant side net := by
  have total := amm.total_nonneg
  unfold discriminant
  positivity

theorem sharesFor_nonneg (net : ℚ) : 0 ≤ amm.sharesFor side net := le_max_left _ _

/-- The minted amount is the largest grid amount the net spend pays for at the
price after the trade. -/
theorem le_sharesFor_iff (nonneg : 0 ≤ net) {shares : ℚ} (grid : OnGrid scale shares)
    (sharesNonneg : 0 ≤ shares) :
    shares ≤ amm.sharesFor side net ↔
      shares * (amm.reserve side + shares) ≤ net * (amm.total + shares) := by
  have total := amm.total_nonneg
  have reserve := amm.reserve_nonneg side
  have scalePositive : (0 : ℚ) < scale := by exact_mod_cast scale_pos
  obtain ⟨units, rfl⟩ := (onGrid_iff scale_pos).mp grid
  have drop : (units / scale : ℚ) ≤ amm.sharesFor side net ↔
      units ≤ floorHalfRoot scale (net - amm.reserve side) (amm.discriminant side net) := by
    rw [sharesFor, le_max_iff, div_le_div_iff_of_pos_right scalePositive, Int.cast_le]
    refine ⟨fun either => either.elim (fun zero => ?_) id, .inr⟩
    have root := le_floorHalfRoot (z := units) (a := net - amm.reserve side) scale_pos
      (amm.discriminant_nonneg side nonneg)
    rw [root]
    have none : (units / scale : ℚ) = 0 := le_antisymm zero sharesNonneg
    rw [none]
    right
    unfold discriminant
    nlinarith [mul_nonneg nonneg total]
  rw [drop, le_floorHalfRoot scale_pos (amm.discriminant_nonneg side nonneg)]
  set shares : ℚ := units / scale
  constructor
  · rintro (below | square)
    · nlinarith [mul_nonneg nonneg total]
    · unfold discriminant at square
      nlinarith
  · intro paid
    right
    unfold discriminant
    nlinarith

theorem sharesFor_onGrid (net : ℚ) : OnGrid scale (amm.sharesFor side net) := by
  rw [onGrid_iff scale_pos, sharesFor]
  rcases max_choice (0 : ℚ)
    (floorHalfRoot scale (net - amm.reserve side) (amm.discriminant side net) / scale) with
      zero | root
  · exact ⟨0, by rw [zero]; simp⟩
  · exact ⟨_, root⟩

/-- The net spend covers the minted shares at the price after the trade. -/
theorem sharesFor_paid (nonneg : 0 ≤ net) :
    amm.sharesFor side net * (amm.reserve side + amm.sharesFor side net) ≤
      net * (amm.total + amm.sharesFor side net) :=
  (amm.le_sharesFor_iff side nonneg (amm.sharesFor_onGrid side net)
    (amm.sharesFor_nonneg side net)).mp le_rfl

/-- The least grid amount above a bound. -/
def gridAbove (bound : ℚ) : ℚ := quantizeDown scale bound + 1 / scale

/-- The minted shares stay within a bound when the net spend does not pay for the next grid
amount above it. -/
theorem sharesFor_le_iff (nonneg : 0 ≤ net) {bound : ℚ} (boundNonneg : 0 ≤ bound) :
    amm.sharesFor side net ≤ bound ↔
      net * (amm.total + gridAbove bound) <
        gridAbove bound * (amm.reserve side + gridAbove bound) := by
  have scalePositive : (0 : ℚ) < scale := by exact_mod_cast scale_pos
  have floor : OnGrid scale (quantizeDown scale bound) := onGrid_quantizeDown scale_pos boundNonneg
  have floorNonneg : 0 ≤ quantizeDown scale bound := quantizeDown_nonneg boundNonneg
  have unit : OnGrid scale ((1 : ℚ) / scale) := (onGrid_iff scale_pos).mpr ⟨1, by simp⟩
  have next : OnGrid scale (gridAbove bound) := floor.add scale_pos unit
  have nextNonneg : 0 ≤ gridAbove bound := by
    unfold gridAbove
    positivity
  have steps : amm.sharesFor side net ≤ bound ↔ ¬ gridAbove bound ≤ amm.sharesFor side net := by
    rw [← le_quantizeDown_iff scale_pos boundNonneg (amm.sharesFor_onGrid side net), not_le,
      gridAbove]
    obtain ⟨shares, isShares⟩ := (onGrid_iff scale_pos).mp (amm.sharesFor_onGrid side net)
    obtain ⟨units, isUnits⟩ := (onGrid_iff scale_pos).mp floor
    rw [isShares, isUnits, ← add_div, div_le_div_iff_of_pos_right scalePositive,
      div_lt_div_iff_of_pos_right scalePositive]
    norm_cast
    exact Int.lt_add_one_iff.symm
  rw [steps, amm.le_sharesFor_iff side nonneg next nextNonneg, not_le]

/-- On grid reserves the bought side grows by exactly the shares handed out. -/
theorem reserveAfterBuy_eq (nonneg : 0 ≤ net) (grid : OnGrid scale (amm.reserve side)) :
    amm.reserveAfterBuy side net = amm.reserve side + amm.sharesFor side net := by
  have shift : net + amm.reserve side = (net - amm.reserve side) + 2 * amm.reserve side := by ring
  have root : (0 : ℚ) ≤
      floorHalfRoot scale (net - amm.reserve side) (amm.discriminant side net) / scale := by
    have zero := le_floorHalfRoot (z := 0) (a := net - amm.reserve side) scale_pos
      (amm.discriminant_nonneg side nonneg)
    have floor : 0 ≤ floorHalfRoot scale (net - amm.reserve side) (amm.discriminant side net) := by
      rw [zero]
      right
      unfold discriminant
      have total := amm.total_nonneg
      simp only [Int.cast_zero, zero_div, mul_zero, zero_sub, neg_sub]
      nlinarith [mul_nonneg nonneg total]
    exact div_nonneg (by exact_mod_cast floor) (Nat.cast_nonneg _)
  rw [reserveAfterBuy, shift,
    floorHalfRoot_add_grid scale_pos (amm.discriminant_nonneg side nonneg) grid, sharesFor,
    max_eq_right root, add_comm]

/-- On other reserves it grows by at least that much from the grid amount below it. -/
theorem le_reserveAfterBuy (nonneg : 0 ≤ net) :
    quantizeDown scale (amm.reserve side) + amm.sharesFor side net ≤
      amm.reserveAfterBuy side net := by
  have scalePositive : (0 : ℚ) < scale := by exact_mod_cast scale_pos
  have reserve := amm.reserve_nonneg side
  have floor := quantizeDown_le scale_pos reserve
  have grid : OnGrid scale (quantizeDown scale (amm.reserve side) + amm.sharesFor side net) :=
    (onGrid_quantizeDown scale_pos reserve).add scale_pos (amm.sharesFor_onGrid side net)
  obtain ⟨units, isUnits⟩ := (onGrid_iff scale_pos).mp grid
  rw [isUnits, reserveAfterBuy, div_le_div_iff_of_pos_right scalePositive, Int.cast_le,
    le_floorHalfRoot scale_pos (amm.discriminant_nonneg side nonneg), ← isUnits]
  have paid := amm.sharesFor_paid side nonneg
  have shares := amm.sharesFor_nonneg side net
  set low := quantizeDown scale (amm.reserve side)
  set minted := amm.sharesFor side net
  -- The root for the shares alone bounds the one for the lowered reserve.
  have root : (2 * minted - (net - amm.reserve side)) ^ 2 ≤ amm.discriminant side net := by
    unfold discriminant
    nlinarith
  rcases le_total (2 * (low + minted) - (net + amm.reserve side)) 0 with small | large
  · exact .inl small
  · refine .inr (le_trans ?_ root)
    exact pow_le_pow_left₀ large (by linarith) 2

variable {amm side}

/-- What a buy that goes through did. -/
theorem executeBuy_ok {collateral : ℚ} {minimum : Option ℚ} {after : BinaryAMM}
    {quote : AMMQuote} (bought : amm.executeBuy side collateral minimum = .ok (after, quote)) :
    0 < collateral ∧ 0 < collateral - collateral * amm.feeRate ∧ 0 < amm.reserve side ∧
    quote.sharesOut = amm.sharesFor side (collateral - collateral * amm.feeRate) ∧
    quote.collateralIn = collateral ∧
    quote.fee = quantizeDown scale (collateral * amm.feeRate) ∧
    quote.price = amm.price side ∧
    after.feeRate = amm.feeRate ∧
    after.reserve side = amm.reserveAfterBuy side (collateral - collateral * amm.feeRate) ∧
    after.otherReserve side = quantizeDown scale (amm.otherReserve side) := by
  unfold executeBuy at bought
  split at bought
  · contradiction
  split at bought
  · contradiction
  dsimp only at bought
  split at bought
  · contradiction
  split at bought
  · contradiction
  split at bought
  · contradiction
  rename_i positive _ spent reserve _
  cases bought
  exact ⟨not_le.mp positive, not_le.mp spent,
    lt_of_le_of_ne (amm.reserve_nonneg side) (Ne.symm reserve), rfl, rfl, rfl, rfl,
    withReserve_feeRate .., withReserve_reserve .., withReserve_otherReserve ..⟩

end Buy

/-! # Selling -/

section Sell

variable (shares : ℚ)

/-- The proceeds before the fee: every share at the price before the trade. -/
def grossProceeds : ℚ := shares * amm.reserve side / amm.total

def executeSell (minCollateralOut : Option ℚ) : Except Error (BinaryAMM × AMMQuote) :=
  if shares ≤ 0 then .error .valueError
  else if amm.total = 0 then .error .valueError
  else if amm.reserve side = 0 then .error .valueError
  else if short : amm.reserve side < shares then .error .valueError
  else
    let raw := amm.grossProceeds side shares * (1 - amm.feeRate)
    if raw ≤ 0 then .error .valueError
    else if (minCollateralOut.any fun minimum => raw < minimum) then .error .valueError
    else
      let fee := raw * amm.feeRate / (1 - amm.feeRate)
      let after := amm.withReserve side (quantizeDown scale (amm.reserve side - shares))
        (quantizeDown_nonneg (sub_nonneg.mpr (not_lt.mp short)))
      let prices := after.pricesAfter
      .ok (after,
        { sharesOut := quantizeDown scale shares
          collateralIn := quantizeDown scale raw
          fee := quantizeDown scale fee
          price := amm.price side
          slippage := 0
          yesPriceAfter := prices.1
          noPriceAfter := prices.2 })

variable {amm side shares}

theorem grossProceeds_eq_price (funded : amm.total ≠ 0) :
    amm.grossProceeds side shares = shares * amm.price side := by
  rw [grossProceeds, price, if_neg funded, mul_div_assoc]

theorem executeSell_ok {minimum : Option ℚ} {after : BinaryAMM} {quote : AMMQuote}
    (sold : amm.executeSell side shares minimum = .ok (after, quote)) :
    0 < shares ∧ shares ≤ amm.reserve side ∧ 0 < amm.total ∧
    0 < amm.grossProceeds side shares * (1 - amm.feeRate) ∧
    quote.sharesOut = quantizeDown scale shares ∧
    quote.collateralIn = quantizeDown scale (amm.grossProceeds side shares * (1 - amm.feeRate)) ∧
    quote.price = amm.price side ∧
    after.feeRate = amm.feeRate ∧
    after.reserve side = quantizeDown scale (amm.reserve side - shares) ∧
    after.otherReserve side = quantizeDown scale (amm.otherReserve side) := by
  unfold executeSell at sold
  split at sold
  · contradiction
  split at sold
  · contradiction
  split at sold
  · contradiction
  split at sold
  · contradiction
  dsimp only at sold
  split at sold
  · contradiction
  split at sold
  · contradiction
  rename_i positive funded _ short raw _
  cases sold
  exact ⟨not_le.mp positive, not_lt.mp short,
    lt_of_le_of_ne amm.total_nonneg (Ne.symm funded), not_le.mp raw, rfl, rfl, rfl,
    withReserve_feeRate .., withReserve_reserve .., withReserve_otherReserve ..⟩

theorem executeSell_nonneg {minimum : Option ℚ} {after : BinaryAMM} {quote : AMMQuote}
    (sold : amm.executeSell side shares minimum = .ok (after, quote)) :
    0 ≤ quote.collateralIn := by
  obtain ⟨_, _, _, raw, _, credited, _⟩ := executeSell_ok sold
  rw [credited]
  exact quantizeDown_nonneg raw.le

end Sell

/-- `BinaryAMM.buy`. -/
def buy (collateral : ℚ) (minSharesOut : Option ℚ := none) :
    Except Error (BinaryAMM × AMMQuote) :=
  amm.executeBuy side collateral minSharesOut

/-- `BinaryAMM.sell`. -/
def sell (shares : ℚ) (minCollateralOut : Option ℚ := none) :
    Except Error (BinaryAMM × AMMQuote) :=
  amm.executeSell side shares minCollateralOut

end BinaryAMM

end PredictX.Amm
