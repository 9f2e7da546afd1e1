import PredictX.Properties.Commitments
import PredictX.Properties.SettlementRounding
import PredictX.Properties.ShareConservation

namespace PredictX.MatchingEngine

open PredictX.Data

/-! Whether a resting buy can be matched.

The buyer guard compares the match with the balance outside every lock.  For an incoming
buy that is the money it spends; for a resting buy the money is inside the lock, and the
guard asks for it a second time.

What the guard asks for is a product of two rounded numbers, and a budget bought whole can
come out a little above the budget.  So the match is taken here in its context: `round`
stands for the rounding of every sum, difference, product and quotient.
-/

/-! # A match in its context -/

section Context

variable (round : ℚ → ℚ)

/-- `creditFee`, rounded. -/
def creditFeeIn (pools : Table LiquidityPool.key) (maker : Order) (fee : ℚ) :
    Table LiquidityPool.key :=
  match feePool pools maker with
  | none => pools
  | some pool =>
      if 0 < fee then
        pools.modify pool.key fun row =>
          { row with
            collateral := round (row.collateral + fee)
            protocolFees := round (row.protocolFees + fee) }
      else pools

/-- `fillMaker`, rounded. -/
def fillMakerIn (now : Timestamp) (spent : ℚ) (order : Order) : Order :=
  let remaining := round (order.remainingAmount - spent)
  if remaining ≤ 0 then
    { order with remainingAmount := remaining, status := .filled, executedAt := some now }
  else { order with remainingAmount := remaining, status := .partiallyFilled }

/-- `lockedRelease`, rounded. -/
def lockedReleaseIn (maker : Order) (shares usdc : ℚ) : ℚ :=
  min (round (maker.amount - round (maker.remainingAmount - usdc))) (round (shares * maker.price))

def debitIn (amount : ℚ) (wallet : Wallet) : Wallet :=
  { wallet with balance := round (wallet.balance - amount) }

def creditIn (amount : ℚ) (wallet : Wallet) : Wallet :=
  { wallet with balance := round (wallet.balance + amount) }

def releaseIn (amount : ℚ) (wallet : Wallet) : Wallet :=
  { wallet with lockedBalance := max 0 (round (wallet.lockedBalance - amount)) }

/-- `payMatch`, rounded. -/
def payMatchIn (wallets : Table Wallet.userId) (maker : Order) (taker : UserId)
    (shares usdc fee : ℚ) : Table Wallet.userId :=
  let paid := (wallets.modify (buyerOf maker taker) (debitIn round usdc)).modify
    (sellerOf maker taker) (creditIn round (round (usdc - fee)))
  match maker.side with
  | .buy => paid.modify maker.userId (releaseIn round (lockedReleaseIn round maker shares usdc))
  | .sell => paid

def gainIn (shares usdc : ℚ) (position : Position) : Position :=
  let total := round (position.sharesHeld + shares)
  { position with
    sharesHeld := total
    averagePrice :=
      if 0 < total then
        round (round (round (position.averagePrice * position.sharesHeld) + usdc) / total)
      else 0 }

def loseIn (shares usdc : ℚ) (position : Position) : Position :=
  { position with
    sharesHeld := round (position.sharesHeld - shares)
    realizedPnl :=
      round (position.realizedPnl + round (usdc - round (position.averagePrice * shares))) }

def freshIn (key : PositionKey) (shares usdc : ℚ) : Position :=
  { Position.fresh key shares usdc with
    averagePrice := if 0 < shares then round (usdc / shares) else 0 }

def acquireIn (positions : Table Position.key) (key : PositionKey) (shares usdc : ℚ) :
    Table Position.key :=
  match positions.find? key with
  | some _ => positions.modify key (gainIn round shares usdc)
  | none => positions.insert (freshIn round key shares usdc)

/-- `moveShares`, rounded. -/
def moveSharesIn (positions : Table Position.key) (maker : Order) (taker : UserId)
    (shares usdc : ℚ) : Table Position.key :=
  match maker.side with
  | .buy =>
      acquireIn round (positions.modify (positionKey maker taker) (loseIn round shares usdc))
        (positionKey maker maker.userId) shares usdc
  | .sell =>
      (acquireIn round positions (positionKey maker taker) shares usdc).modify
        (positionKey maker maker.userId) (loseIn round shares usdc)

def checkBuyerIn (wallet : Option Wallet) (usdc : ℚ) : Except Error Unit :=
  match wallet with
  | none => .ok ()
  | some wallet =>
      if round wallet.available < usdc then
        .error (.insufficientBalance (round wallet.available) usdc)
      else .ok ()

/-- `execute_match` in its context. -/
def executeMatchIn (now : Timestamp) (db : Database) (maker : Order) (taker : UserId)
    (shares price : ℚ) : Except Error (Database × MatchDetails) :=
  let outcome := (db.outcomes.find? maker.outcomeId).map Outcome.name
  let usdc := round (shares * price)
  let fee := round (usdc * protocolFeeRate)
  let credited := { db with pools := creditFeeIn round db.pools maker fee }
  match checkBuyerIn round (db.wallets.find? (buyerOf maker taker)) usdc with
  | .error reason => .error reason
  | .ok () =>
      if Position.held db.positions (positionKey maker (sellerOf maker taker)) < shares then
        .ok (credited,
          { matchPrice := price, matchShares := 0, matchUsdc := 0
            makerOrderId := maker.id, makerUserId := maker.userId
            side := maker.side, outcome, skipped := true })
      else
        .ok ({ credited with
            wallets := payMatchIn round db.wallets maker taker shares usdc fee
            orders := db.orders.modify maker.id
              (fillMakerIn round now (makerSpent maker shares usdc))
              (by intro order; unfold fillMakerIn; dsimp only; split <;> rfl)
            positions := moveSharesIn round db.positions maker taker shares usdc
            trades := db.trades ++ matchTrades now outcome maker taker shares price },
          { matchPrice := price, matchShares := shares, matchUsdc := usdc
            makerOrderId := maker.id, makerUserId := maker.userId
            side := maker.side, outcome, skipped := false })

/-- The quantity an incoming sell offers a resting buy: what the budget affords, or the
shares that are left to sell. -/
def affordable (maker : Order) (offered : ℚ) : ℚ :=
  min (round (maker.remainingAmount / maker.price)) offered

end Context

/-- Without rounding it is the engine's match. -/
theorem executeMatchIn_id (now : Timestamp) (db : Database) (maker : Order) (taker : UserId)
    (shares price : ℚ) :
    executeMatchIn id now db maker taker shares price =
      executeMatch now db maker taker shares price := by
  rfl

open Settlement (decimal Stored columnBound halfUnit)

/-! # What the context loses -/

section Precision

theorem abs_roundSig_sub_le_abs {radix digits : ℕ} (base : 1 < radix) (x : ℚ) :
    |roundSig radix digits x - x| ≤ |x| * ((radix : ℚ) ^ (1 - digits : ℤ) / 2) := by
  rcases eq_or_ne x 0 with rfl | nonzero
  · simp
  have radixPos : (0 : ℚ) < radix := by exact_mod_cast (zero_lt_one.trans base)
  set unit := (radix : ℚ) ^ (Int.log radix |x| - (digits - 1)) with unitDef
  have unitPos : 0 < unit := zpow_pos radixPos _
  have unfolded : roundSig radix digits x = roundHalfEven (x / unit) * unit := if_neg nonzero
  have split : roundSig radix digits x - x = (roundHalfEven (x / unit) - x / unit) * unit := by
    rw [unfolded, sub_mul, div_mul_cancel₀ x unitPos.ne']
  have magnitude : (radix : ℚ) ^ Int.log radix |x| ≤ |x| :=
    Int.zpow_log_le_self base (abs_pos.mpr nonzero)
  have unitBound : unit ≤ |x| * (radix : ℚ) ^ (1 - digits : ℤ) := by
    rw [unitDef, show Int.log radix |x| - ((digits : ℤ) - 1) =
      Int.log radix |x| + (1 - digits) by ring, zpow_add₀ radixPos.ne']
    exact mul_le_mul_of_nonneg_right magnitude (zpow_nonneg radixPos.le _)
  rw [split, abs_mul, abs_of_pos unitPos]
  calc |(roundHalfEven (x / unit) : ℚ) - x / unit| * unit
      ≤ 1 / 2 * unit :=
        mul_le_mul_of_nonneg_right (abs_roundHalfEven_sub_le _) unitPos.le
    _ ≤ 1 / 2 * (|x| * (radix : ℚ) ^ (1 - digits : ℤ)) :=
        mul_le_mul_of_nonneg_left unitBound (by norm_num)
    _ = |x| * ((radix : ℚ) ^ (1 - digits : ℤ) / 2) := by ring

/-- The last decimal of the context for a number as large as two columns. -/
def lastDecimal : ℚ := 1 / 10 ^ 15

theorem decimal_near {x : ℚ} (bound : |x| ≤ 2 * columnBound) : |decimal x - x| ≤ lastDecimal := by
  have error : |decimal x - x| ≤ |x| * (((10 : ℕ) : ℚ) ^ (1 - (28 : ℕ) : ℤ) / 2) :=
    abs_roundSig_sub_le_abs (by norm_num) x
  have unit : ((10 : ℕ) : ℚ) ^ (1 - (28 : ℕ) : ℤ) / 2 = halfUnit := by norm_num [halfUnit]
  rw [unit] at error
  have unitNonneg : (0 : ℚ) ≤ halfUnit := by norm_num [halfUnit]
  calc |decimal x - x| ≤ |x| * halfUnit := error
    _ ≤ 2 * columnBound * halfUnit := mul_le_mul_of_nonneg_right bound unitNonneg
    _ = lastDecimal := by norm_num [columnBound, halfUnit, lastDecimal]

theorem decimal_nonneg {x : ℚ} (nonneg : 0 ≤ x) : 0 ≤ decimal x := roundSig_nonneg nonneg

/-- Products of column values have sixteen decimals. -/
theorem exactOn_products :
    ExactOn decimal (OnGrid (10 ^ 16)) (columnBound - 1 / 10 ^ 8) :=
  exactOn_grid (by norm_num) (by norm_num [columnBound])

theorem onGrid_product {x y : ℚ} (left : OnGrid scale x) (right : OnGrid scale y) :
    OnGrid (10 ^ 16) (x * y) := by
  obtain ⟨a, rfl⟩ := (onGrid_iff scale_pos).mp left
  obtain ⟨b, rfl⟩ := (onGrid_iff scale_pos).mp right
  refine (onGrid_iff (by norm_num)).mpr ⟨a * b, ?_⟩
  have square : (scale : ℚ) * scale = (10 ^ 16 : ℕ) := by norm_num [scale]
  rw [div_mul_div_comm, square]
  push_cast
  rfl

theorem onGrid_fine {x : ℚ} (grid : OnGrid scale x) : OnGrid (10 ^ 16) x := by
  have one : OnGrid scale 1 := (onGrid_iff scale_pos).mpr ⟨scale, by
    rw [Int.cast_natCast, div_self (by exact_mod_cast scale_pos.ne')]⟩
  simpa using onGrid_product grid one

/-- The largest column value is one step below the bound. -/
theorem le_last_of_stored {x : ℚ} (stored : Stored x) : x ≤ columnBound - 1 / 10 ^ 8 := by
  have scaleValue : (scale : ℚ) = 10 ^ 8 := by norm_num [scale]
  have below := stored.lt
  obtain ⟨units, rfl⟩ := (onGrid_iff scale_pos).mp stored.grid
  rw [scaleValue] at below ⊢
  have small : (units : ℚ) < (10 ^ 20 : ℤ) := by
    rw [div_lt_iff₀ (by norm_num), columnBound] at below
    push_cast
    linarith
  have units_le : (units : ℚ) ≤ 10 ^ 20 - 1 := by
    have whole : units ≤ 10 ^ 20 - 1 := Int.le_sub_one_iff.mpr (by exact_mod_cast small)
    exact_mod_cast whole
  rw [div_le_iff₀ (by norm_num), columnBound]
  linarith

end Precision

/-! # The guard -/

/-- More than the context can lose of a column value, and far less than a column shows. -/
def dust : ℚ := 1 / 10 ^ 14

/-- The match is executed and both columns of the maker's wallet lose its value, to within
the digits the context has for it.  Where the quantity is a share count of the books, or all
that the budget affords, the columns lose the same amount to the last decimal they keep. -/
def PaidFromLock (now : Timestamp) (db : Database) (maker : Order) (taker : UserId)
    (wallet : Wallet) (shares : ℚ) : Prop :=
  ∃ after details paid,
    executeMatchIn decimal now db maker taker shares maker.price = .ok (after, details) ∧
    details.skipped = false ∧
    after.wallets.find? maker.userId = some paid ∧
    |paid.balance - (wallet.balance - decimal (shares * maker.price))| ≤ dust ∧
    |paid.lockedBalance - (wallet.lockedBalance - decimal (shares * maker.price))| ≤ dust ∧
    (OnGrid scale shares ∨ shares = decimal (maker.remainingAmount / maker.price) →
      wallet.balance - toNumeric scale paid.balance =
        wallet.lockedBalance - toNumeric scale paid.lockedBalance)

/-- The maker's rows hold column values, and no more is locked than there is. -/
structure Columns (wallet : Wallet) (maker : Order) : Prop where
  balance : Stored wallet.balance
  locked : Stored wallet.lockedBalance
  covered : wallet.lockedBalance ≤ wallet.balance
  amount : Stored maker.amount
  remaining : Stored maker.remainingAmount
  price : Stored maker.price

/-- What a match takes off a balance, and what is left of the lock behind it. -/
structure Charge (wallet : Wallet) (maker : Order) (value balance locked : ℚ) : Prop where
  balance : balance = decimal (wallet.balance - value)
  locked : locked = max 0 (decimal (wallet.lockedBalance -
    min (decimal (maker.amount - decimal (maker.remainingAmount - value))) value))

section Maker

variable {db : Database} {maker : Order} {taker : UserId} {wallet : Wallet}
  {shares value balance locked : ℚ}

theorem payMatchIn_maker (round : ℚ → ℚ) {wallets : Table Wallet.userId} {usdc fee : ℚ}
    (buying : maker.side = .buy) (owner : wallets.find? maker.userId = some wallet)
    (other : maker.userId ≠ taker) :
    (payMatchIn round wallets maker taker shares usdc fee).find? maker.userId = some
      { wallet with
        balance := round (wallet.balance - usdc)
        lockedBalance :=
          max 0 (round (wallet.lockedBalance - lockedReleaseIn round maker shares usdc)) } := by
  simp only [payMatchIn, buyerOf, sellerOf, buying]
  rw [Table.find?_modify_self, Table.find?_modify_ne other, Table.find?_modify_self, owner]
  simp only [Option.map_some, debitIn, releaseIn]

theorem executeMatchIn_of_funded (round : ℚ → ℚ) (now : Timestamp) (buying : maker.side = .buy)
    (owner : db.wallets.find? maker.userId = some wallet)
    (holds : shares ≤ Position.held db.positions (positionKey maker taker))
    (funded : round (shares * maker.price) ≤ round wallet.available) :
    ∃ after details,
      executeMatchIn round now db maker taker shares maker.price = .ok (after, details) ∧
      details.skipped = false ∧
      after.wallets = payMatchIn round db.wallets maker taker shares
        (round (shares * maker.price)) (round (round (shares * maker.price) * protocolFeeRate)) := by
  simp only [executeMatchIn, buyerOf, sellerOf, buying, owner, checkBuyerIn,
    if_neg (not_lt.mpr funded), if_neg (not_lt.mpr holds)]
  exact ⟨_, _, rfl, rfl, rfl⟩

theorem executeMatchIn_of_unfunded (round : ℚ → ℚ) (now : Timestamp) (taker : UserId)
    (buying : maker.side = .buy) (owner : db.wallets.find? maker.userId = some wallet)
    (unfunded : round wallet.available < round (shares * maker.price)) :
    executeMatchIn round now db maker taker shares maker.price =
      .error (.insufficientBalance (round wallet.available) (round (shares * maker.price))) := by
  simp only [executeMatchIn, buyerOf, buying, owner, checkBuyerIn, if_pos unfunded]

namespace Columns

variable (columns : Columns wallet maker)

include columns

/-- The guard compares with what is really available. -/
theorem available : decimal wallet.available = wallet.available := by
  have atMost := columns.locked.nonneg
  refine Settlement.exactOn_decimal.round_eq
    (columns.balance.grid.sub scale_pos columns.locked.grid) (sub_nonneg.mpr columns.covered) ?_
  have below := columns.balance.lt.le
  unfold Wallet.available
  linarith

/-- A match costs hardly more than the budget. -/
theorem value_le (positive : 0 < maker.price) (nonneg : 0 ≤ shares)
    (affords : shares ≤ decimal (maker.remainingAmount / maker.price)) :
    decimal (shares * maker.price) ≤ maker.remainingAmount + 2 * lastDecimal := by
  have remaining := columns.remaining
  have quotient : 0 ≤ maker.remainingAmount / maker.price :=
    div_nonneg remaining.nonneg positive.le
  have unitNonneg : (0 : ℚ) ≤ 1 + halfUnit := by norm_num [halfUnit]
  have cost : shares * maker.price ≤ maker.remainingAmount * (1 + halfUnit) := by
    calc shares * maker.price
        ≤ decimal (maker.remainingAmount / maker.price) * maker.price :=
          mul_le_mul_of_nonneg_right affords positive.le
      _ ≤ maker.remainingAmount / maker.price * (1 + halfUnit) * maker.price :=
          mul_le_mul_of_nonneg_right (Settlement.decimal_close _ quotient).2 positive.le
      _ = maker.remainingAmount * (1 + halfUnit) := by field_simp
  calc decimal (shares * maker.price)
      ≤ shares * maker.price * (1 + halfUnit) :=
        (Settlement.decimal_close _ (mul_nonneg nonneg positive.le)).2
    _ ≤ maker.remainingAmount * (1 + halfUnit) * (1 + halfUnit) :=
        mul_le_mul_of_nonneg_right cost unitNonneg
    _ = maker.remainingAmount + maker.remainingAmount * (2 * halfUnit + halfUnit ^ 2) := by ring
    _ ≤ maker.remainingAmount + columnBound * (2 * halfUnit + halfUnit ^ 2) := by
        have unit : (0 : ℚ) ≤ 2 * halfUnit + halfUnit ^ 2 := by norm_num [halfUnit]
        linarith [mul_le_mul_of_nonneg_right remaining.lt.le unit]
    _ ≤ maker.remainingAmount + 2 * lastDecimal := by
        have small : columnBound * (2 * halfUnit + halfUnit ^ 2) ≤ 2 * lastDecimal := by
          norm_num [columnBound, halfUnit, lastDecimal]
        linarith

/-- All that the budget affords costs hardly less than the budget. -/
theorem le_value (positive : 0 < maker.price) :
    maker.remainingAmount - 2 * lastDecimal ≤
      decimal (decimal (maker.remainingAmount / maker.price) * maker.price) := by
  have remaining := columns.remaining
  have quotient : 0 ≤ maker.remainingAmount / maker.price :=
    div_nonneg remaining.nonneg positive.le
  have unitNonneg : (0 : ℚ) ≤ 1 - halfUnit := by norm_num [halfUnit]
  have bought := decimal_nonneg quotient
  have cost : maker.remainingAmount * (1 - halfUnit) ≤
      decimal (maker.remainingAmount / maker.price) * maker.price := by
    calc maker.remainingAmount * (1 - halfUnit)
        = maker.remainingAmount / maker.price * (1 - halfUnit) * maker.price := by field_simp
      _ ≤ decimal (maker.remainingAmount / maker.price) * maker.price :=
          mul_le_mul_of_nonneg_right (Settlement.decimal_close _ quotient).1 positive.le
  have small : columnBound * (2 * halfUnit) ≤ 2 * lastDecimal := by
    norm_num [columnBound, halfUnit, lastDecimal]
  calc maker.remainingAmount - 2 * lastDecimal
      ≤ maker.remainingAmount - maker.remainingAmount * (2 * halfUnit) := by
        have unit : (0 : ℚ) ≤ 2 * halfUnit := by norm_num [halfUnit]
        linarith [mul_le_mul_of_nonneg_right remaining.lt.le unit]
    _ ≤ maker.remainingAmount * (1 - halfUnit) * (1 - halfUnit) := by
        have square : 0 ≤ maker.remainingAmount * halfUnit ^ 2 :=
          mul_nonneg remaining.nonneg (sq_nonneg _)
        linarith
    _ ≤ decimal (maker.remainingAmount / maker.price) * maker.price * (1 - halfUnit) :=
        mul_le_mul_of_nonneg_right cost unitNonneg
    _ ≤ _ := (Settlement.decimal_close _ (mul_nonneg bought positive.le)).1

/-- Both columns lose the value, to within a few of the context's last decimals. -/
theorem charge_near (charge : Charge wallet maker value balance locked)
    (whole : maker.remainingAmount ≤ maker.amount)
    (reserved : maker.remainingAmount ≤ wallet.lockedBalance) (nonneg : 0 ≤ value)
    (within : value ≤ maker.remainingAmount + 2 * lastDecimal) :
    |balance - (wallet.balance - value)| ≤ lastDecimal ∧
      |locked - (wallet.lockedBalance - value)| ≤ 3 * lastDecimal := by
  have unit : (0 : ℚ) < lastDecimal := by norm_num [lastDecimal]
  have tiny : 4 * lastDecimal ≤ columnBound := by norm_num [lastDecimal, columnBound]
  have remaining := columns.remaining
  have amount := columns.amount
  have balanceStored := columns.balance
  have lockedStored := columns.locked
  have bounds := And.intro remaining.nonneg remaining.lt
  have left : |decimal (wallet.balance - value) - (wallet.balance - value)| ≤ lastDecimal := by
    refine decimal_near (abs_le.mpr ⟨?_, ?_⟩) <;>
      linarith [balanceStored.nonneg, balanceStored.lt, bounds.1, bounds.2]
  have rest : |decimal (maker.remainingAmount - value) - (maker.remainingAmount - value)| ≤
      lastDecimal := by
    refine decimal_near (abs_le.mpr ⟨?_, ?_⟩) <;> linarith [bounds.1, bounds.2]
  obtain ⟨restLow, restHigh⟩ := abs_le.mp rest
  have spent : |decimal (maker.amount - decimal (maker.remainingAmount - value)) -
      (maker.amount - decimal (maker.remainingAmount - value))| ≤ lastDecimal := by
    refine decimal_near (abs_le.mpr ⟨?_, ?_⟩) <;>
      linarith [amount.nonneg, amount.lt, bounds.1, bounds.2]
  obtain ⟨spentLow, spentHigh⟩ := abs_le.mp spent
  set release := min (decimal (maker.amount - decimal (maker.remainingAmount - value))) value
    with isRelease
  have released : value - 2 * lastDecimal ≤ release := le_min (by linarith) (by linarith)
  have releaseLe : release ≤ value := min_le_right _ _
  have kept : |decimal (wallet.lockedBalance - release) - (wallet.lockedBalance - release)| ≤
      lastDecimal := by
    refine decimal_near (abs_le.mpr ⟨?_, ?_⟩) <;>
      linarith [lockedStored.nonneg, lockedStored.lt, bounds.1, bounds.2]
  obtain ⟨keptLow, keptHigh⟩ := abs_le.mp kept
  rw [charge.balance, charge.locked]
  refine ⟨left, abs_le.mpr ⟨?_, ?_⟩⟩
  · have clamped := le_max_right 0 (decimal (wallet.lockedBalance - release))
    linarith
  · rw [sub_le_iff_le_add]
    exact max_le (by linarith) (by linarith)

/-- A share count of the books costs no more than its budget, and every step is exact. -/
theorem charge_counted (charge : Charge wallet maker value balance locked)
    (whole : maker.remainingAmount ≤ maker.amount)
    (reserved : maker.remainingAmount ≤ wallet.lockedBalance) (nonneg : 0 ≤ value)
    (within : value ≤ maker.remainingAmount) (grid : OnGrid (10 ^ 16) value) :
    balance = wallet.balance - value ∧ locked = wallet.lockedBalance - value := by
  have fine := exactOn_products
  have remaining := onGrid_fine columns.remaining.grid
  have amountLast := le_last_of_stored columns.amount
  have balanceLast := le_last_of_stored columns.balance
  have lockedLast := le_last_of_stored columns.locked
  have covered := columns.covered
  have left : decimal (wallet.balance - value) = wallet.balance - value :=
    fine.round_eq (fine.sub (onGrid_fine columns.balance.grid) grid) (by linarith) (by linarith)
  have rest : decimal (maker.remainingAmount - value) = maker.remainingAmount - value :=
    fine.round_eq (fine.sub remaining grid) (by linarith) (by linarith)
  have spent : decimal (maker.amount - (maker.remainingAmount - value)) =
      maker.amount - (maker.remainingAmount - value) :=
    fine.round_eq (fine.sub (onGrid_fine columns.amount.grid) (fine.sub remaining grid))
      (by linarith [columns.amount.nonneg]) (by linarith)
  have kept : decimal (wallet.lockedBalance - value) = wallet.lockedBalance - value :=
    fine.round_eq (fine.sub (onGrid_fine columns.locked.grid) grid) (by linarith) (by linarith)
  have release : min (maker.amount - (maker.remainingAmount - value)) value = value :=
    min_eq_right (by linarith)
  rw [charge.balance, charge.locked, left, rest, spent, release, kept]
  exact ⟨rfl, max_eq_right (by linarith)⟩

/-- A value next to the budget takes the budget itself off a column. -/
theorem column_spent {column after : ℚ} (stored : Stored column) (nonneg : 0 ≤ after)
    (low : maker.remainingAmount - 2 * lastDecimal ≤ value)
    (within : value ≤ maker.remainingAmount + 2 * lastDecimal)
    (close : |after - (column - value)| ≤ 3 * lastDecimal) :
    toNumeric scale after = column - maker.remainingAmount := by
  have small : 5 * lastDecimal * scale < 1 / 2 := by norm_num [lastDecimal, scale]
  have scalePos : (0 : ℚ) ≤ scale := Nat.cast_nonneg scale
  obtain ⟨above, below⟩ := abs_le.mp close
  have near : |after - (column - maker.remainingAmount)| ≤ 5 * lastDecimal :=
    abs_le.mpr ⟨by linarith, by linarith⟩
  exact toNumeric_eq_of_near scale_pos (stored.grid.sub scale_pos columns.remaining.grid) nonneg
    ((mul_le_mul_of_nonneg_right near scalePos).trans_lt small)

/-- A share count that the rounded quotient exceeds is below the quotient itself. -/
theorem value_counted (positive : 0 < maker.price) (nonneg : 0 ≤ shares)
    (grid : OnGrid scale shares) (bounded : shares ≤ columnBound)
    (fewer : shares < decimal (maker.remainingAmount / maker.price)) :
    decimal (shares * maker.price) = shares * maker.price ∧
      shares * maker.price < maker.remainingAmount := by
  have below : shares < maker.remainingAmount / maker.price := by
    by_contra! atMost
    have exact_ : decimal shares = shares :=
      Settlement.exactOn_decimal.round_eq grid nonneg bounded
    have rounded : decimal (maker.remainingAmount / maker.price) ≤ shares :=
      roundSig_le (by norm_num) (div_nonneg columns.remaining.nonneg positive.le) atMost exact_
    exact absurd fewer (not_lt.mpr rounded)
  have cost : shares * maker.price < maker.remainingAmount := (lt_div_iff₀ positive).mp below
  refine ⟨?_, cost⟩
  exact exactOn_products.round_eq (onGrid_product grid columns.price.grid)
    (mul_nonneg nonneg positive.le) (cost.le.trans (le_last_of_stored columns.remaining))

end Columns

/-- In the decimal context a resting buy is matched exactly when its owner has the value of
the match, as the context computes it, to spare on top of the lock. -/
theorem resting_buy_matched_iff (backed : Backed db.wallets db.orders)
    (found : db.orders.find? maker.id = some maker) (opened : maker.status.isOpen = true)
    (buying : maker.side = .buy) (owner : db.wallets.find? maker.userId = some wallet)
    (other : maker.userId ≠ taker) (columns : Columns wallet maker)
    (held : Stored (Position.held db.positions (positionKey maker taker))) {offered : ℚ}
    (selling : 0 ≤ offered)
    (holds : affordable decimal maker offered ≤
      Position.held db.positions (positionKey maker taker)) (now : Timestamp) :
    PaidFromLock now db maker taker wallet (affordable decimal maker offered) ↔
      decimal (affordable decimal maker offered * maker.price) ≤ wallet.available := by
  have placed := backed.placed _ _ found opened
  constructor
  · intro paid
    obtain ⟨after, details, row, executed, _⟩ := paid
    by_contra unfunded
    rw [← columns.available] at unfunded
    rw [executeMatchIn_of_unfunded decimal now taker buying owner (not_le.mp unfunded)] at executed
    contradiction
  intro funded
  have inLock : wallet.lockedBalance ∈ lockedOf db.wallets maker.userId :=
    Option.mem_map.mpr ⟨wallet, owner, rfl⟩
  have reserved := backed.remaining_le_locked found buying opened inLock
  have affords : 0 ≤ decimal (maker.remainingAmount / maker.price) :=
    decimal_nonneg (div_nonneg placed.remaining_pos.le placed.price_pos.le)
  have sharesNonneg : 0 ≤ affordable decimal maker offered := le_min affords selling
  have sharesLe : affordable decimal maker offered ≤
      decimal (maker.remainingAmount / maker.price) := min_le_left _ _
  set shares := affordable decimal maker offered
  set value := decimal (shares * maker.price) with isValue
  have valueNonneg : 0 ≤ value := decimal_nonneg (mul_nonneg sharesNonneg placed.price_pos.le)
  have within := columns.value_le placed.price_pos sharesNonneg sharesLe
  obtain ⟨after, details, executed, notSkipped, wallets⟩ :=
    executeMatchIn_of_funded decimal now buying owner holds
      (funded.trans_eq columns.available.symm)
  have charge : Charge wallet maker value (decimal (wallet.balance - value))
      (max 0 (decimal (wallet.lockedBalance - lockedReleaseIn decimal maker shares value))) :=
    ⟨rfl, by rw [lockedReleaseIn, ← isValue]⟩
  have near := columns.charge_near charge placed.remaining_le reserved valueNonneg within
  have three : 3 * lastDecimal ≤ dust := by norm_num [lastDecimal, dust]
  have unit : (0 : ℚ) < lastDecimal := by norm_num [lastDecimal]
  have paid : after.wallets.find? maker.userId = some
      { wallet with
        balance := decimal (wallet.balance - value)
        lockedBalance :=
          max 0 (decimal (wallet.lockedBalance - lockedReleaseIn decimal maker shares value)) } := by
    rw [wallets]
    exact payMatchIn_maker decimal buying owner other
  unfold PaidFromLock
  rw [← isValue]
  refine ⟨after, details, _, executed, notSkipped, paid, near.1.trans (by linarith),
    near.2.trans three, ?_⟩
  dsimp only
  have balanceLeft : 0 ≤ wallet.balance - value := by
    have lockedNonneg := columns.locked.nonneg
    unfold Wallet.available at funded
    linarith
  by_cases whole : shares = decimal (maker.remainingAmount / maker.price)
  · -- The value is next to the budget, so the columns lose the budget itself.
    intro _
    have low := columns.le_value placed.price_pos
    rw [← whole, ← isValue] at low
    rw [columns.column_spent columns.balance (decimal_nonneg balanceLeft) low within
        (near.1.trans (by linarith)),
      columns.column_spent columns.locked (le_max_left 0 _) low within near.2]
    ring
  · intro counted
    have grid : OnGrid scale shares := counted.resolve_right whole
    have fewer : shares < decimal (maker.remainingAmount / maker.price) :=
      lt_of_le_of_ne sharesLe whole
    obtain ⟨valueEq, cost⟩ := columns.value_counted placed.price_pos sharesNonneg grid
      (holds.trans held.lt.le) fewer
    rw [← isValue] at valueEq
    obtain ⟨isBalance, isLocked⟩ := columns.charge_counted charge placed.remaining_le reserved
      valueNonneg (by linarith) (valueEq ▸ onGrid_product grid columns.price.grid)
    rw [isBalance, isLocked, toNumeric_sub_eq scale_pos columns.balance.grid (by linarith),
      toNumeric_sub_eq scale_pos columns.locked.grid (by linarith)]
    ring

end Maker

/-! # A buy with all its money in the lock -/

def restingBuy : Order :=
  { OrderService.restingSell with
    userId := 1, side := .buy, amount := 7, price := 7 / 10, remainingAmount := 7 }

/-- At 0.30 a budget of five affords shares that cost more than five. -/
example : 5 < decimal (affordable decimal
    { restingBuy with amount := 5, price := 3 / 10, remainingAmount := 5 } 20 * (3 / 10)) := by
  decide +kernel

/-- User 1 has seven dollars locked behind `restingBuy` and `spare` dollars besides; user 2
holds ten shares. -/
def bidMarket (spare : ℚ) : Database :=
  { OrderService.quotedMarket with
    wallets := ⟨[⟨1, 7 + spare, 7⟩, ⟨2, 0, 0⟩], by simp⟩
    orders := ⟨[restingBuy], by decide⟩ }

theorem bidMarket_backed (spare : ℚ) :
    Backed (bidMarket spare).wallets (bidMarket spare).orders := by
  have placed : restingBuy.Placed :=
    ⟨⟨by decide +kernel, by decide +kernel, le_rfl⟩, by decide +kernel⟩
  refine ⟨fun user locked held => ?_, fun id order found _ => ?_⟩
  · obtain ⟨wallet, found, rfl⟩ := Option.mem_map.mp held
    have member := Table.mem_of_find? found
    have rows : wallet = ⟨1, 7 + spare, 7⟩ ∨ wallet = ⟨2, 0, 0⟩ := by
      simpa [bidMarket] using member
    rw [← Table.key_of_find? found]
    rcases rows with rfl | rfl
    · change (7 : ℚ) = commitments ⟨[restingBuy], by decide⟩ 1
      decide +kernel
    · change (0 : ℚ) = commitments ⟨[restingBuy], by decide⟩ 2
      decide +kernel
  · cases List.mem_singleton.mp (Table.mem_of_find? found)
    exact placed

/-- Ten shares for seven locked dollars: the guard refuses them. -/
theorem locked_buy_is_refused :
    Backed (bidMarket 0).wallets (bidMarket 0).orders ∧
      (∀ wallet ∈ (bidMarket 0).wallets.rows,
        0 ≤ wallet.lockedBalance ∧ wallet.lockedBalance ≤ wallet.balance) ∧
      affordable decimal restingBuy 10 ≤
        Position.held (bidMarket 0).positions (positionKey restingBuy 2) ∧
      executeMatchIn decimal 1 (bidMarket 0) restingBuy 2 (affordable decimal restingBuy 10)
        restingBuy.price = .error (.insufficientBalance 0 7) := by
  have owner : (bidMarket 0).wallets.find? restingBuy.userId = some ⟨1, 7 + 0, 7⟩ := by
    decide +kernel
  have value : decimal (affordable decimal restingBuy 10 * restingBuy.price) = 7 := by
    decide +kernel
  have spare : decimal (Wallet.available ⟨1, 7 + 0, 7⟩) = 0 := by decide +kernel
  have unfunded : decimal (Wallet.available ⟨1, 7 + 0, 7⟩) <
      decimal (affordable decimal restingBuy 10 * restingBuy.price) := by
    decide +kernel
  have refused := executeMatchIn_of_unfunded decimal 1 2 rfl owner unfunded
  rw [value, spare] at refused
  exact ⟨bidMarket_backed 0, by decide +kernel, by decide +kernel, refused⟩

/-- With another seven dollars to spare the match is paid out of the lock. -/
theorem spare_buy_is_matched :
    PaidFromLock 1 (bidMarket 7) restingBuy 2 ⟨1, 14, 7⟩ (affordable decimal restingBuy 10) := by
  have columns : Columns ⟨1, 14, 7⟩ restingBuy :=
    ⟨by decide +kernel, by decide +kernel, by decide +kernel, by decide +kernel, by decide +kernel,
      by decide +kernel⟩
  exact (resting_buy_matched_iff (bidMarket_backed 7) (by decide +kernel) rfl rfl
    (by decide +kernel) (by decide) columns (by decide +kernel) (by decide +kernel)
    (by decide +kernel) 1).mpr (by decide +kernel)

end PredictX.MatchingEngine
