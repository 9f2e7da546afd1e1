import PredictX.Properties.NoShortPositions

namespace PredictX.SplitMerge

open PredictX.Data

/-! Splits and merges against the price.

One amount on top of both reserves keeps their difference, not their ratio: the price moves
towards one half on a split and away from it on a merge, and stays where the reserves are equal.
What a split does, a merge of the minted shares undoes, all but the fees.
-/

/-- The YES price of the market's pool, as the endpoints compute it. -/
def yesPrice (db : Database) (market : MarketId) : ℚ :=
  (computePrices (db.pools.find? ⟨market, none⟩)).1

/-- The price of YES at given reserves. -/
def ratioOf (yes no : ℚ) : ℚ := if yes + no = 0 then 1 / 2 else yes / (yes + no)

section Ratio

variable {yes no shift amount : ℚ}

theorem ratioOf_of_pos (whole : 0 < yes + no) : ratioOf yes no = yes / (yes + no) :=
  if_neg whole.ne'

/-- One amount on both sides keeps the ratio of equal sides only. -/
theorem ratioOf_shift_iff (whole : 0 < yes + no) (shifted : 0 < yes + shift + (no + shift))
    (moved : shift ≠ 0) : ratioOf (yes + shift) (no + shift) = ratioOf yes no ↔ yes = no := by
  rw [ratioOf_of_pos whole, ratioOf_of_pos shifted, div_eq_div_iff shifted.ne' whole.ne']
  constructor
  · intro cross
    have factored : shift * (no - yes) = 0 := by linarith
    rcases mul_eq_zero.mp factored with none | same
    · exact absurd none moved
    · linarith
  · rintro rfl
    ring

/-- A reserve that does not hold the burned shares is emptied, and the ratio goes to an end. -/
theorem ratioOf_burn_iff (yesPos : 0 < yes) (noPos : 0 < no) (burned : 0 < amount) :
    ratioOf (max 0 (yes - amount)) (max 0 (no - amount)) = ratioOf yes no ↔ yes = no := by
  have whole : 0 < yes + no := add_pos yesPos noPos
  have positive : 0 < ratioOf yes no := by
    rw [ratioOf_of_pos whole]
    exact div_pos yesPos whole
  have below : ratioOf yes no < 1 := by
    rw [ratioOf_of_pos whole, div_lt_one whole]
    linarith
  rcases le_or_gt yes amount with yesEmptied | yesLeft
  · rw [max_eq_left (sub_nonpos.mpr yesEmptied)]
    rcases le_or_gt no amount with noEmptied | noLeft
    · rw [max_eq_left (sub_nonpos.mpr noEmptied), ratioOf_of_pos whole]
      have half : ratioOf 0 0 = 1 / 2 := by decide +kernel
      rw [half, div_eq_div_iff two_ne_zero whole.ne']
      constructor
      · intro cross
        linarith
      · rintro rfl
        ring
    · rw [max_eq_right (sub_nonneg.mpr noLeft.le), ratioOf_of_pos (by linarith), zero_div]
      exact iff_of_false positive.ne (by linarith)
  · rw [max_eq_right (sub_nonneg.mpr yesLeft.le)]
    rcases le_or_gt no amount with noEmptied | noLeft
    · rw [max_eq_left (sub_nonpos.mpr noEmptied), ratioOf_of_pos (by linarith), add_zero,
        div_self (by linarith)]
      exact iff_of_false below.ne' (by linarith)
    · rw [max_eq_right (sub_nonneg.mpr noLeft.le), sub_eq_add_neg, sub_eq_add_neg]
      exact ratioOf_shift_iff whole (by linarith) (by linarith)

end Ratio

section Prices

variable {db : Database} {user : UserId} {market : MarketId} {amount : ℚ} {result : Result}
  {pool : LiquidityPool}

theorem afterFee_eq (amount : ℚ) : afterFee amount = (1 - splitMergeFeeRate) * amount := by
  unfold afterFee feeOf
  ring

theorem afterFee_pos (positive : 0 < amount) : 0 < afterFee amount := by
  rw [afterFee_eq]
  unfold splitMergeFeeRate
  linarith

theorem yesPrice_of_find? (found : db.pools.find? ⟨market, none⟩ = some pool) :
    yesPrice db market = ratioOf pool.yesShares pool.noShares := by
  unfold yesPrice computePrices ratioOf
  rw [found]
  dsimp only
  split <;> rfl

theorem split_price_iff (found : db.pools.find? ⟨market, none⟩ = some pool)
    (yes : 0 < pool.yesShares) (no : 0 < pool.noShares)
    (ran : split db user market amount = .ok result) :
    yesPrice result.db market = yesPrice db market ↔ pool.yesShares = pool.noShares := by
  obtain ⟨_, _, _, _, positive, _, _, rfl⟩ := split_ok ran
  have minted := afterFee_pos positive
  have stored : (db.pools.modify ⟨market, none⟩ (splitPool amount)).find? ⟨market, none⟩ =
      some (splitPool amount pool) := by
    rw [Table.find?_modify_self, found]
    rfl
  rw [yesPrice_of_find? found, yesPrice_of_find? stored]
  exact ratioOf_shift_iff (by linarith) (by linarith) minted.ne'

theorem merge_price_iff (found : db.pools.find? ⟨market, none⟩ = some pool)
    (yes : 0 < pool.yesShares) (no : 0 < pool.noShares)
    (ran : merge db user market amount = .ok result) :
    yesPrice result.db market = yesPrice db market ↔ pool.yesShares = pool.noShares := by
  obtain ⟨_, _, _, _, positive, _, _, _, _, rfl⟩ := merge_ok ran
  have stored : (db.pools.modify ⟨market, none⟩ (mergePool amount)).find? ⟨market, none⟩ =
      some (mergePool amount pool) := by
    rw [Table.find?_modify_self, found]
    rfl
  rw [yesPrice_of_find? found, yesPrice_of_find? stored]
  exact ratioOf_burn_iff yes no positive

end Prices

section RoundTrip

variable {db : Database} {user : UserId} {market : MarketId} {amount : ℚ} {result merged : Result}
  {pool : LiquidityPool}

/-- What a split of `amount` and a merge of the minted shares leave. -/
structure Undone (before after : Database) (user : UserId) (market : MarketId) (amount : ℚ)
    (pool : LiquidityPool) : Prop where
  wallet : OrderService.walletBalance after user =
    OrderService.walletBalance before user - amount + (1 - splitMergeFeeRate) ^ 2 * amount
  holdings : Position.held after.positions = Position.held before.positions
  reserves : ∃ row, after.pools.find? ⟨market, none⟩ = some row ∧
    row.yesShares = pool.yesShares ∧ row.noShares = pool.noShares ∧
    row.collateral - pool.collateral = row.protocolFees - pool.protocolFees

theorem pairOf_split (ran : split db user market amount = .ok result) :
    pairOf result.db market = pairOf db market := by
  obtain ⟨_, _, _, _, _, _, _, rfl⟩ := split_ok ran
  rfl

theorem held_split {first second : Outcome} (paired : pairOf db market = .ok (first, second))
    (ran : split db user market amount = .ok result) (key : PositionKey) :
    Position.held result.db.positions key = Position.held db.positions key +
      (if key = ⟨user, market, first.id⟩ then afterFee amount else 0) +
      (if key = ⟨user, market, second.id⟩ then afterFee amount else 0) := by
  obtain ⟨one, two, _, here, _, _, _, rfl⟩ := split_ok ran
  cases here.symm.trans paired
  simp only [receiveShares]
  rw [Position.held_acquire, Position.held_acquire]

theorem held_nonneg (unshort : Unshort db.positions) (key : PositionKey) :
    0 ≤ Position.held db.positions key := by
  cases found : db.positions.find? key with
  | none => simp [Position.held, found]
  | some position =>
      rw [Position.held_eq found]
      exact unshort position (Table.mem_of_find? found)

/-- The merge of what a split minted goes through. -/
theorem merge_after_split (found : db.pools.find? ⟨market, none⟩ = some pool)
    (escrow : 0 ≤ pool.collateral) (unshort : Unshort db.positions)
    (ran : split db user market amount = .ok result) :
    ∃ merged, merge result.db user market (afterFee amount) = .ok merged := by
  obtain ⟨first, second, wallet, paired, positive, owner, covered, isResult⟩ := split_ok ran
  have minted := afterFee_pos positive
  have samePair := (pairOf_split ran).trans paired
  have stillOwner : result.db.wallets.find? user = some (Wallet.debit amount wallet) := by
    rw [isResult, Table.find?_modify_self, owner]
    rfl
  have held := held_split paired ran
  have enoughFirst : ¬Position.held result.db.positions ⟨user, market, first.id⟩ <
      afterFee amount := by
    have before := held_nonneg unshort ⟨user, market, first.id⟩
    rw [held, if_pos rfl]
    split <;> linarith
  have enoughSecond : ¬Position.held result.db.positions ⟨user, market, second.id⟩ <
      afterFee amount := by
    have before := held_nonneg unshort ⟨user, market, second.id⟩
    rw [held, if_pos rfl]
    split <;> linarith
  have stored : result.db.pools.find? ⟨market, none⟩ = some (splitPool amount pool) := by
    rw [isResult, Table.find?_modify_self, found]
    rfl
  have released : ∃ pools, releaseEscrow result.db.pools market (afterFee amount) = .ok pools := by
    have payout := afterFee_pos minted
    have within : afterFee (afterFee amount) ≤ (splitPool amount pool).collateral := by
      simp only [splitPool, afterFee_eq, splitMergeFeeRate]
      linarith
    unfold releaseEscrow LiquidityPool.debitCollateral
    simp only [stored, if_neg (not_le.mpr payout), if_neg (not_lt.mpr within)]
    exact ⟨_, rfl⟩
  obtain ⟨pools, isPools⟩ := released
  unfold merge
  simp only [if_neg (not_le.mpr minted), samePair, stillOwner, if_neg enoughFirst,
    if_neg enoughSecond, isPools]
  exact ⟨_, rfl⟩

/-- A split and the merge of its shares cost the two fees and leave the rest as it was. -/
theorem undone_of_merge (found : db.pools.find? ⟨market, none⟩ = some pool)
    (yes : 0 < pool.yesShares) (no : 0 < pool.noShares)
    (ran : split db user market amount = .ok result)
    (back : merge result.db user market (afterFee amount) = .ok merged) :
    Undone db merged.db user market amount pool := by
  obtain ⟨first, second, wallet, paired, positive, owner, covered, isResult⟩ := split_ok ran
  obtain ⟨one, two, _, pairedAgain, _, _, enoughFirst, enoughSecond, _, isMerged⟩ := merge_ok back
  cases (pairedAgain.symm.trans (pairOf_split ran)).trans paired
  have minted := afterFee_pos positive
  have apart := pair_ids_ne paired
  have held := held_split paired ran
  constructor
  · rw [isMerged, isResult]
    simp only [OrderService.walletBalance, Table.find?_modify_self, owner, Option.map_some,
      Option.getD_some, Wallet.credit, Wallet.debit, afterFee_eq]
    ring
  · obtain ⟨firstRow, foundFirst⟩ := Position.exists_of_held_pos (minted.trans_le enoughFirst)
    obtain ⟨secondRow, foundSecond⟩ := Position.exists_of_held_pos (minted.trans_le enoughSecond)
    have keysApart : (⟨user, market, second.id⟩ : PositionKey) ≠ ⟨user, market, first.id⟩ :=
      fun same => apart (congrArg PositionKey.outcomeId same).symm
    have stillSecond : (Position.dispose result.db.positions ⟨user, market, first.id⟩
        (afterFee amount) (afterFee (afterFee amount) / 2)).find? ⟨user, market, second.id⟩ =
        some secondRow := (Position.find?_dispose_ne keysApart).trans foundSecond
    funext key
    rw [isMerged, Position.held_dispose stillSecond, Position.held_dispose foundFirst, held]
    ring
  · refine ⟨mergePool (afterFee amount) (splitPool amount pool), ?_, ?_, ?_, ?_⟩
    · rw [isMerged, Table.find?_modify_self, isResult, Table.find?_modify_self, found]
      rfl
    · simp only [mergePool, splitPool, add_sub_cancel_right]
      exact max_eq_right yes.le
    · simp only [mergePool, splitPool, add_sub_cancel_right]
      exact max_eq_right no.le
    · simp only [mergePool, splitPool, afterFee]
      ring

end RoundTrip

/-! # A pool at 0.25 -/

/-- A market whose YES reserve is a third of its NO reserve. -/
def lopsidedMarket : Database :=
  { OrderService.quotedMarket with
    pools := ⟨[⟨1, none, 100, 300, 100, 2 / 100, 100, 0⟩], by decide⟩ }

end PredictX.SplitMerge
