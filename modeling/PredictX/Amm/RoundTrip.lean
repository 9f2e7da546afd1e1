import PredictX.Amm.Engine
import PredictX.Data.Except

namespace PredictX.Amm

open PredictX.Data

/-! Trips through the pool by one trader.

A trader's open buys are kept as lots, latest first.  Buying in pieces pays the price
after each piece while one large sell is credited the price before it, so a trip that
sells several lots at once can come out ahead.  A trip whose every sell stays inside
the latest lot cannot: a lot costs at least its shares at the price it left behind,
and no part of it is ever sold above that price.
-/

inductive Call where
  | buy (side : ShareSide) (collateral : ℚ)
  | sell (side : ShareSide) (shares : ℚ)
deriving DecidableEq, Repr

/-- What is left of one buy. -/
structure Lot where
  side : ShareSide
  left : ℚ
deriving DecidableEq, Repr

structure Trader where
  amm : BinaryAMM
  lots : List Lot
  paid : ℚ
  received : ℚ
deriving DecidableEq, Repr

namespace Trader

def start (amm : BinaryAMM) : Trader := ⟨amm, [], 0, 0⟩

/-- The shares bought and not yet sold. -/
def held (trader : Trader) (side : ShareSide) : ℚ :=
  (trader.lots.map fun lot => if lot.side = side then lot.left else 0).sum

/-- Take sold shares off the latest lots of their side. -/
def consume (side : ShareSide) : ℚ → List Lot → List Lot
  | _, [] => []
  | shares, lot :: rest =>
      if shares ≤ 0 then lot :: rest
      else if lot.side = side then
        if lot.left ≤ shares then consume side (shares - lot.left) rest
        else ⟨side, lot.left - shares⟩ :: rest
      else lot :: consume side shares rest

/-- One call; the trader never sells more of an outcome than she holds. -/
def step (trader : Trader) : Call → Except Error Trader
  | .buy side collateral =>
      match trader.amm.buy side collateral with
      | .error reason => .error reason
      | .ok (amm, quote) =>
          .ok { amm
                lots := ⟨side, quote.sharesOut⟩ :: trader.lots
                paid := trader.paid + collateral
                received := trader.received }
  | .sell side shares =>
      if trader.held side < shares then .error .valueError
      else
        match trader.amm.sell side shares with
        | .error reason => .error reason
        | .ok (amm, quote) =>
            .ok { amm
                  lots := consume side shares trader.lots
                  paid := trader.paid
                  received := trader.received + quote.collateralIn }

def run : Trader → List Call → Except Error Trader
  | trader, [] => .ok trader
  | trader, call :: calls =>
      match trader.step call with
      | .error reason => .error reason
      | .ok next => next.run calls

end Trader

/-- No finite trip that ends with no shares pays out more than it took in. -/
def NeverProfitable (amm : BinaryAMM) : Prop :=
  ∀ calls final, (Trader.start amm).run calls = .ok final →
    final.held .yes = 0 → final.held .no = 0 → final.received ≤ final.paid

/-- Two buys of 30 and 200 USDC and one sell of everything return 230.48523648. -/
theorem two_buys_one_sell_profitable :
    ¬ NeverProfitable (BinaryAMM.init 100 100 (2 / 100)) := by
  intro never
  have trip : succeedsWith
      ((Trader.start (BinaryAMM.init 100 100 (2 / 100))).run
        [.buy .yes 30, .buy .yes 200, .sell .yes (29476585548 / 10 ^ 8)])
      (fun final => final.held .yes = 0 && final.held .no = 0 &&
        decide (final.paid < final.received)) = true := by
    decide +kernel
  obtain ⟨final, reached, profit⟩ := succeedsWith_iff.mp trip
  simp only [Bool.and_eq_true, decide_eq_true_eq] at profit
  exact absurd (never _ final reached profit.1.1 profit.1.2) (not_le.mpr profit.2)

/-- The reserves are a stack of lots: each lot sits on the reserves its buy found.
The last argument is what the open lots can still be sold for at most. -/
inductive Stacked : BinaryAMM → List Lot → ℚ → Prop
  | bottom (amm : BinaryAMM) (yesGrid : OnGrid scale amm.yesShares)
      (noGrid : OnGrid scale amm.noShares) : Stacked amm [] 0
  | lot {base : BinaryAMM} {lots : List Lot} {worth : ℚ} (below : Stacked base lots worth)
      (amm : BinaryAMM) (side : ShareSide) (left minted : ℚ)
      (nonneg : 0 ≤ left) (part : left ≤ minted) (leftGrid : OnGrid scale left)
      (funded : 0 < base.reserve side)
      (reserve : amm.reserve side = base.reserve side + left)
      (other : amm.otherReserve side = base.otherReserve side)
      (feeRate : amm.feeRate = base.feeRate) :
      Stacked amm (⟨side, left⟩ :: lots)
        (worth + left * ((base.reserve side + minted) / (base.total + minted)))

namespace Stacked

variable {amm : BinaryAMM} {lots : List Lot} {worth : ℚ}

theorem onGrid (stack : Stacked amm lots worth) (side : ShareSide) :
    OnGrid scale (amm.reserve side) ∧ OnGrid scale (amm.otherReserve side) := by
  induction stack generalizing side with
  | bottom amm yesGrid noGrid =>
      cases side
      · exact ⟨yesGrid, noGrid⟩
      · exact ⟨noGrid, yesGrid⟩
  | lot below amm lotSide left minted _ _ leftGrid _ reserve other _ ih =>
      obtain ⟨baseReserve, baseOther⟩ := ih lotSide
      have own : OnGrid scale (amm.reserve lotSide) := by
        rw [reserve]
        exact baseReserve.add scale_pos leftGrid
      have opposite : OnGrid scale (amm.otherReserve lotSide) := by rwa [other]
      cases side <;> cases lotSide
      · exact ⟨own, opposite⟩
      · exact ⟨opposite, own⟩
      · exact ⟨opposite, own⟩
      · exact ⟨own, opposite⟩

theorem worth_nonneg (stack : Stacked amm lots worth) : 0 ≤ worth := by
  induction stack with
  | bottom => exact le_rfl
  | @lot base _ _ below _ side left minted nonneg part _ _ _ _ _ ih =>
      have reserve := base.reserve_nonneg side
      have total := base.total_nonneg
      have minted := nonneg.trans part
      positivity

/-- Only the reserves and the fee of the pool matter. -/
theorem congr {other : BinaryAMM} (stack : Stacked amm lots worth)
    (yes : other.yesShares = amm.yesShares) (no : other.noShares = amm.noShares)
    (feeRate : other.feeRate = amm.feeRate) : Stacked other lots worth := by
  cases other
  cases amm
  cases yes
  cases no
  cases feeRate
  exact stack

end Stacked

theorem eq_of_reserves (left right : BinaryAMM) (side : ShareSide)
    (own : left.reserve side = right.reserve side)
    (other : left.otherReserve side = right.otherReserve side) :
    left.yesShares = right.yesShares ∧ left.noShares = right.noShares := by
  cases side
  · exact ⟨own, other⟩
  · exact ⟨other, own⟩

/-- Shares on top of a reserve are dearer the more of them there are. -/
theorem price_mono {reserve total less more : ℚ} (own : reserve ≤ total)
    (positive : 0 < total + less) (order : less ≤ more) :
    (reserve + less) / (total + less) ≤ (reserve + more) / (total + more) := by
  rw [div_le_div_iff₀ positive (by linarith)]
  nlinarith [mul_nonneg (sub_nonneg.mpr order) (sub_nonneg.mpr own)]

/-- The invariant of a last-lot trip. -/
structure Covered (trader : Trader) : Prop where
  fee_nonneg : 0 ≤ trader.amm.feeRate
  covered : ∃ worth, Stacked trader.amm trader.lots worth ∧
    trader.received + worth ≤ trader.paid

/-- A sell is for a grid amount out of the latest lot. -/
def SellsLatestLot (trader : Trader) : Call → Prop
  | .buy _ _ => True
  | .sell side shares => OnGrid scale shares ∧
      ∃ lot ∈ trader.lots.head?, lot.side = side ∧ shares ≤ lot.left

instance (trader : Trader) (call : Call) : Decidable (SellsLatestLot trader call) :=
  match call with
  | .buy _ _ => .isTrue trivial
  | .sell side shares =>
      inferInstanceAs (Decidable (OnGrid scale shares ∧
        ∃ lot ∈ trader.lots.head?, lot.side = side ∧ shares ≤ lot.left))

/-- Every sell of the trip leaves the earlier lots alone. -/
def LatestLotTrip : Trader → List Call → Prop
  | _, [] => True
  | trader, call :: calls => SellsLatestLot trader call ∧
      match trader.step call with
      | .error _ => True
      | .ok next => LatestLotTrip next calls

instance LatestLotTrip.decidable : ∀ trader calls, Decidable (LatestLotTrip trader calls)
  | _, [] => .isTrue trivial
  | trader, call :: calls =>
      haveI : Decidable (match trader.step call with
          | .error _ => True
          | .ok next => LatestLotTrip next calls) :=
        match trader.step call with
        | .error _ => .isTrue trivial
        | .ok next => LatestLotTrip.decidable next calls
      inferInstanceAs (Decidable (_ ∧ _))

theorem Covered.buy {trader next : Trader} {side : ShareSide} {collateral : ℚ}
    (covered : Covered trader) (bought : trader.step (.buy side collateral) = .ok next) :
    Covered next := by
  obtain ⟨fee, worth, stack, balance⟩ := covered
  simp only [Trader.step] at bought
  split at bought
  · contradiction
  rename_i amm quote executed
  cases bought
  obtain ⟨_, net, reserve, shares, _, _, _, feeRate, after, other⟩ :=
    BinaryAMM.executeBuy_ok executed
  obtain ⟨ownGrid, otherGrid⟩ := stack.onGrid side
  rw [trader.amm.reserveAfterBuy_eq side net.le ownGrid, ← shares] at after
  rw [otherGrid.quantizeDown_eq scale_pos] at other
  have sharesNonneg : 0 ≤ quote.sharesOut := by
    rw [shares]
    exact trader.amm.sharesFor_nonneg side _
  have cost := trader.amm.sharesFor_paid side net.le
  rw [← shares] at cost
  have grid : OnGrid scale quote.sharesOut := by
    rw [shares]
    exact trader.amm.sharesFor_onGrid side _
  have total := trader.amm.reserve_add_other side
  have opposite := trader.amm.otherReserve_nonneg side
  have denominator : 0 < trader.amm.total + quote.sharesOut := by linarith
  refine ⟨by rw [feeRate]; exact fee, _,
    .lot stack amm side quote.sharesOut quote.sharesOut sharesNonneg le_rfl grid reserve after
      other feeRate, ?_⟩
  have worthOfLot : quote.sharesOut *
      ((trader.amm.reserve side + quote.sharesOut) / (trader.amm.total + quote.sharesOut)) ≤
        collateral - collateral * trader.amm.feeRate := by
    rw [← mul_div_assoc, div_le_iff₀ denominator]
    exact cost
  have collateralPositive : 0 ≤ collateral * trader.amm.feeRate := by
    rename_i positive _ _ _
    exact mul_nonneg positive.le fee
  dsimp only
  linarith

/-- Selling out of the latest lot takes no more from the pool than the lot's worth. -/
theorem Covered.sell {trader next : Trader} {side : ShareSide} {shares : ℚ}
    (covered : Covered trader) (latest : SellsLatestLot trader (.sell side shares))
    (sold : trader.step (.sell side shares) = .ok next) : Covered next := by
  obtain ⟨amm, lots, paid, received⟩ := trader
  obtain ⟨fee, worth, stack, balance⟩ := covered
  obtain ⟨grid, ⟨side, left⟩, head, rfl, within⟩ := latest
  dsimp only at within
  obtain ⟨rest, rfl⟩ := List.head?_eq_some_iff.mp head
  simp only [Trader.step] at sold
  split at sold
  · contradiction
  split at sold
  · contradiction
  rename_i after quote executed
  cases sold
  obtain ⟨positive, _, funded, raw, _, proceeds, _, feeRate, own, opposite⟩ :=
    BinaryAMM.executeSell_ok executed
  obtain ⟨ownGrid, otherGrid⟩ := stack.onGrid side
  rw [(ownGrid.sub scale_pos grid).quantizeDown_eq scale_pos] at own
  rw [otherGrid.quantizeDown_eq scale_pos] at opposite
  cases stack with
  | @lot base _ worth below _ _ _ minted nonneg part leftGrid baseFunded reserve other baseFee =>
      set dearest := (base.reserve side + minted) / (base.total + minted) with dearestDef
      -- The lot's shares are sold at or below the price its buy left behind.
      have credited : quote.collateralIn ≤ shares * dearest := by
        have total : amm.total = base.total + left := by
          rw [← amm.reserve_add_other side, ← base.reserve_add_other side, reserve, other]
          ring
        have priceBound : amm.reserve side / amm.total ≤ dearest := by
          rw [reserve, total]
          refine price_mono ?_ (total ▸ funded) part
          have := base.otherReserve_nonneg side
          linarith [base.reserve_add_other side]
        have gross : amm.grossProceeds side shares ≤ shares * dearest := by
          rw [BinaryAMM.grossProceeds, mul_div_assoc]
          exact mul_le_mul_of_nonneg_left priceBound positive.le
        have grossNonneg : 0 ≤ amm.grossProceeds side shares :=
          div_nonneg (mul_nonneg positive.le (amm.reserve_nonneg side)) amm.total_nonneg
        calc quote.collateralIn
            ≤ amm.grossProceeds side shares * (1 - amm.feeRate) := by
              rw [proceeds]
              exact quantizeDown_le scale_pos raw.le
          _ ≤ amm.grossProceeds side shares := by nlinarith
          _ ≤ shares * dearest := gross
      have ownAfter : after.reserve side = base.reserve side + (left - shares) := by
        rw [own, reserve]
        ring
      have otherAfter : after.otherReserve side = base.otherReserve side := by
        rw [opposite, other]
      have feeAfter : after.feeRate = base.feeRate := by rw [feeRate, baseFee]
      refine ⟨by rw [feeRate]; exact fee, ?_⟩
      dsimp only at balance ⊢
      rcases within.lt_or_eq with some | all
      · have kept : Trader.consume side shares (⟨side, left⟩ :: rest) =
            ⟨side, left - shares⟩ :: rest := by
          simp [Trader.consume, not_le.mpr positive, not_le.mpr some]
        rw [kept]
        refine ⟨_, .lot below after side (left - shares) minted (by linarith) (by linarith)
          (leftGrid.sub scale_pos grid) baseFunded ownAfter otherAfter feeAfter, ?_⟩
        rw [← dearestDef]
        linarith
      · have gone : Trader.consume side shares (⟨side, left⟩ :: rest) = rest := by
          have leftPositive : 0 < left := all ▸ positive
          cases rest <;> simp [Trader.consume, not_le.mpr leftPositive, all]
        have reserves := eq_of_reserves after base side
          (by rw [ownAfter, all, sub_self, add_zero]) otherAfter
        rw [gone]
        refine ⟨worth, below.congr reserves.1 reserves.2 feeAfter, ?_⟩
        rw [all] at credited
        linarith

theorem Covered.step {trader next : Trader} {call : Call} (covered : Covered trader)
    (latest : SellsLatestLot trader call) (stepped : trader.step call = .ok next) :
    Covered next := by
  cases call with
  | buy side collateral => exact covered.buy stepped
  | sell side shares => exact covered.sell latest stepped

theorem Covered.run {trader final : Trader} {calls : List Call} (covered : Covered trader)
    (trip : LatestLotTrip trader calls) (reached : trader.run calls = .ok final) :
    Covered final := by
  induction calls generalizing trader with
  | nil =>
      cases reached
      exact covered
  | cons call calls ih =>
      obtain ⟨latest, later⟩ := trip
      simp only [Trader.run] at reached
      split at reached
      · contradiction
      · rename_i next stepped
        rw [stepped] at later
        exact ih (covered.step latest stepped) later reached

/-- A trip on grid reserves whose every sell is a grid amount out of the latest lot
never pays out more than it took in, at no point of the trip. -/
theorem latest_lot_trip_not_profitable {amm : BinaryAMM} {calls : List Call} {final : Trader}
    (yesGrid : OnGrid scale amm.yesShares) (noGrid : OnGrid scale amm.noShares)
    (fee : 0 ≤ amm.feeRate) (trip : LatestLotTrip (Trader.start amm) calls)
    (reached : (Trader.start amm).run calls = .ok final) : final.received ≤ final.paid := by
  have start : Covered (Trader.start amm) :=
    ⟨fee, 0, .bottom amm yesGrid noGrid, by simp [Trader.start]⟩
  obtain ⟨_, worth, stack, balance⟩ := start.run trip reached
  linarith [stack.worth_nonneg]

/-- 50 USDC buy 76.72646428 YES shares, which go back in two pieces. -/
theorem one_buy_two_sells_not_profitable :
    ∃ final, (Trader.start (BinaryAMM.init 100 100 (2 / 100))).run
        [.buy .yes 50, .sell .yes 40, .sell .yes (3672646428 / 10 ^ 8)] = .ok final ∧
      final.held .yes = 0 ∧ final.received ≤ final.paid := by
  have trip : succeedsWith ((Trader.start (BinaryAMM.init 100 100 (2 / 100))).run
      [.buy .yes 50, .sell .yes 40, .sell .yes (3672646428 / 10 ^ 8)])
      (fun final => final.held .yes = 0) = true := by
    decide +kernel
  obtain ⟨final, reached, empty⟩ := succeedsWith_iff.mp trip
  exact ⟨final, reached, by simpa using empty,
    latest_lot_trip_not_profitable (by decide +kernel) (by decide +kernel) (by decide +kernel)
      (by decide +kernel) reached⟩

end PredictX.Amm
