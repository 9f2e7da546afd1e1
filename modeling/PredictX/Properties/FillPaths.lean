import PredictX.Properties.LimitPrice

namespace PredictX.OrderService

open PredictX.Data PredictX.Amm PredictX.MarketService PredictX.MatchingEngine
open PredictX.LimitSweep

/-! The AMM leg of an incoming order beside the AMM leg of the sweep.

Both legs get the same quote from the same AMM.  What they write from it differs: the sweep
charges the protocol fee on the quantity times the price, adds the quantity itself to the
volume and writes it into the trade row, and leaves a parimutuel pool's `no_shares`.
-/

/-! # What a fill changed -/

/-- What one fill did to the ledgers both paths write. -/
structure Effects where
  pool : Option LiquidityPool
  balance : Option ℚ
  position : Option Position
  volume : Option ℚ
  trades : List (ℚ × ℚ)
  amount : Option ℚ
deriving DecidableEq

/-- The effects on the owner's rows, with the price and the amount of each new trade and the
amount of the first new transaction. -/
def effectsOf (before after : Database) (user : UserId) (venue : Venue) : Effects where
  pool := after.pools.find? venue.pool.key
  balance := (after.wallets.find? user).map Wallet.balance
  position := after.positions.find? (venue.positionKey user)
  volume := (after.markets.find? venue.market.id).map Market.totalVolume
  trades := (after.trades.drop before.trades.length).map fun trade => (trade.price, trade.amount)
  amount := (after.transactions.drop before.transactions.length).head?.map Transaction.amount

/-- Step 8 pays the owner herself: she is her own referrer. -/
def rewardsOwner (db : Database) (user : UserId) : Prop :=
  ∃ referral, db.referrals.filter (fun referral =>
      referral.referredId = some user && !referral.completed) = [referral] ∧
    referral.referrerId = some user

/-- When the two paths agree: a spot price of one, a fee that takes nothing, an empty
`no_shares` column of a parimutuel pool and no reward to oneself. -/
structure PathsMeet (db : Database) (user : UserId) (venue : Venue) (parimutuel : Bool)
    (quantity : ℚ) : Prop where
  price : venue.amm.price venue.ammSide = 1
  fee : quantizeDown scale (quantity - quantity * venue.amm.feeRate) = quantity
  noShares : parimutuel = true → venue.pool.noShares = 0
  referral : ¬ rewardsOwner db user

section Curve

variable {amm after : BinaryAMM} {side : ShareSide} {quantity : ℚ} {quote : AMMQuote}

/-- At a price of one the other reserve is empty. -/
theorem reserve_eq_total (funded : amm.total ≠ 0) :
    amm.price side = 1 ↔ amm.otherReserve side = 0 := by
  rw [BinaryAMM.price, if_neg funded, div_eq_one_iff_eq funded, ← amm.reserve_add_other side]
  constructor
  · intro same
    linarith
  · intro empty
    linarith

/-- A buy at a price of one mints a share for each net dollar. -/
theorem sharesFor_at_one (positive : 0 < amm.reserve side) (empty : amm.otherReserve side = 0)
    {net : ℚ} (nonneg : 0 ≤ net) : amm.sharesFor side net = quantizeDown scale net := by
  have total : amm.total = amm.reserve side := by
    rw [← amm.reserve_add_other side, empty, add_zero]
  have below : ∀ {shares : ℚ}, OnGrid scale shares → 0 ≤ shares →
      (shares ≤ amm.sharesFor side net ↔ shares ≤ net) := by
    intro shares grid sharesNonneg
    rw [amm.le_sharesFor_iff side nonneg grid sharesNonneg, total]
    exact mul_le_mul_iff_of_pos_right (by linarith)
  apply le_antisymm
  · rw [le_quantizeDown_iff scale_pos nonneg (amm.sharesFor_onGrid side net)]
    exact (below (amm.sharesFor_onGrid side net) (amm.sharesFor_nonneg side net)).mp le_rfl
  · rw [below (onGrid_quantizeDown scale_pos nonneg) (quantizeDown_nonneg nonneg)]
    exact quantizeDown_le scale_pos nonneg

theorem buy_at_one (bought : amm.buy side quantity = .ok (after, quote))
    (one : amm.price side = 1) :
    quote.sharesOut = quantizeDown scale (quantity - quantity * amm.feeRate) ∧
      after.otherReserve side = 0 := by
  obtain ⟨_, net, reserve, minted, _, _, _, _, _, other⟩ := BinaryAMM.executeBuy_ok bought
  have funded : amm.total ≠ 0 := by
    have positive := amm.reserve_add_other side
    have otherNonneg := amm.otherReserve_nonneg side
    linarith
  have empty := (reserve_eq_total funded).mp one
  refine ⟨minted.trans (sharesFor_at_one reserve empty net.le), ?_⟩
  rw [other, empty]
  simp [quantizeDown]

theorem sell_at_one (sold : amm.sell side quantity = .ok (after, quote))
    (one : amm.price side = 1) :
    quote.collateralIn = quantizeDown scale (quantity - quantity * amm.feeRate) ∧
      after.otherReserve side = 0 := by
  obtain ⟨_, _, total, _, _, credited, _, _, _, other⟩ := BinaryAMM.executeSell_ok sold
  have empty := (reserve_eq_total total.ne').mp one
  refine ⟨?_, ?_⟩
  · rw [credited, BinaryAMM.grossProceeds_eq_price total.ne', one]
    congr 1
    ring
  · rw [other, empty]
    simp [quantizeDown]

end Curve

/-! # The referral step -/

section Referral

variable {db : Database} {user : UserId} {wallet : Wallet}

theorem creditReferral_balance_iff (found : db.wallets.find? user = some wallet) :
    ((creditReferral db user).wallets.find? user).map Wallet.balance = some wallet.balance ↔
      ¬ rewardsOwner db user := by
  have same : (db.wallets.find? user).map Wallet.balance = some wallet.balance := by
    rw [found]
    rfl
  unfold creditReferral rewardsOwner
  dsimp only
  split
  · rename_i referral pending
    split
    · rename_i unreferred
      simp [same, pending, unreferred]
    rename_i referrer isReferrer
    split
    · rename_i missing
      have other : referrer ≠ user := by
        rintro rfl
        rw [missing] at found
        contradiction
      simp [same, pending, isReferrer, other]
    · rename_i paid paidFound
      dsimp only
      by_cases own : referrer = user
      · subst own
        rw [Table.find?_modify_self, found]
        simp [pending, isReferrer, Wallet.credit, referralRewardAmount]
      · rw [Table.find?_modify_ne (Ne.symm own), same]
        simp [pending, isReferrer, own]
  · rename_i several
    simp only [same, true_iff, not_exists, not_and]
    exact fun referral single => absurd single (several referral)

end Referral

/-! # The two legs -/

section Legs

variable {env : Env} {now : Timestamp} {db traded swept : Database} {user : UserId} {venue : Venue}
  {turn : Turn} {data : OrderRequest} {order : Order} {leg sweptLeg : AmmLeg}
  {execution : Execution} {quantity : ℚ}

/-- Both paths trade the same outcome with the same AMM. -/
structure SameVenue (db : Database) (user : UserId) (venue : Venue) (turn : Turn) : Prop where
  market : turn.market = venue.market.id
  outcome : turn.outcome = venue.outcome
  poolKey : turn.poolKey = venue.pool.key
  amm : turn.amm = venue.amm
  ammSide : turn.ammSide = venue.ammSide
  position : turn.positionKey = venue.positionKey user
  parimutuel : turn.parimutuel = true → venue.ammSide = .yes
  pool : db.pools.find? venue.pool.key = some venue.pool
  row : db.markets.find? venue.market.id = some venue.market

theorem sameVenue (opened : openVenue env db data.marketId data.outcome = .ok venue)
    (taken : takeTurn db data.marketId (isParimutuel (outcomesOf db data.marketId)) order =
      some turn) (owner : order.userId = user) (outcome : order.outcomeId = venue.outcome.id) :
    SameVenue db user venue turn := by
  obtain ⟨found, _, _, named, poolFound, ammEq⟩ := openVenue_ok opened
  have isMarket : venue.market.id = data.marketId := Table.key_of_find? found
  have poolKey_ : venue.pool.key = _ := Table.key_of_find? poolFound
  rw [isMarket] at named poolFound ammEq poolKey_
  have member : venue.outcome ∈ db.outcomes.rows := by
    have listed := List.mem_of_getLast? named
    have sorted := (List.mem_filter.mp listed).1
    exact (List.mem_filter.mp ((List.perm_insertionSort _ _).mem_iff.mp sorted)).1
  have outcomeFound : db.outcomes.find? order.outcomeId = some venue.outcome :=
    outcome ▸ Table.find?_key_of_mem member
  unfold takeTurn at taken
  rw [outcomeFound] at taken
  dsimp only at taken
  rw [resolvePool, poolFound] at taken
  dsimp only at taken
  cases taken
  have amm_ : venue.amm = _ := congrArg Prod.fst ammEq
  have side_ : venue.ammSide = _ := congrArg Prod.snd ammEq
  refine ⟨isMarket.symm, rfl, poolKey_.symm, amm_.symm, side_.symm, ?_, ?_, ?_, ?_⟩
  · simp only [Turn.positionKey, Venue.positionKey, owner, isMarket]
  · intro parimutuel
    rw [side_, tradingAmm, if_pos parimutuel]
  · rw [poolKey_]
    exact poolFound
  · rw [isMarket]
    exact found

/-- The AMM leg is a function of the AMM and the quantity. -/
theorem sameLeg (venues : SameVenue db user venue turn) (side : turn.order.side = data.side)
    (incoming : runAmmLeg db user venue data.side quantity = .ok (traded, leg))
    (resting : sweepLeg now db turn quantity = .ok (some (swept, sweptLeg))) : sweptLeg = leg := by
  obtain ⟨sweptQuantity, legs⟩ := sweepLeg_ok resting
  cases leg with
  | mk legSide legQuantity legQuote legAmm =>
    cases sweptLeg with
    | mk sweptSide sweptQuantity_ sweptQuote sweptAmm =>
      dsimp only at sweptQuantity legs
      rcases legs with ⟨isBuy, rfl, _, bought, _⟩ | ⟨isSell, rfl, _, _, sold, _⟩
      · rw [← side, isBuy] at incoming
        obtain ⟨_, _, _, quoted, buySide, ammQuantity, _⟩ := ammBuy_ok incoming
        rw [venues.amm, venues.ammSide] at bought
        obtain ⟨rfl, rfl⟩ := Prod.mk.inj (Except.ok.inj (quoted.symm.trans bought))
        dsimp only at buySide ammQuantity
        rw [buySide, ammQuantity, sweptQuantity]
      · rw [← side, isSell] at incoming
        obtain ⟨_, quoted, sellSide, ammQuantity, _, _⟩ := ammSell_ok incoming
        rw [venues.amm, venues.ammSide] at sold
        obtain ⟨rfl, rfl⟩ := Prod.mk.inj (Except.ok.inj (quoted.symm.trans sold))
        dsimp only at sellSide ammQuantity
        rw [sellSide, ammQuantity, sweptQuantity]

/-- What the fill of an incoming order did, the reward of step 8 apart. -/
theorem incoming_effects (venues : SameVenue db user venue turn)
    (incoming : runAmmLeg db user venue data.side quantity = .ok (traded, leg))
    (finished : finish env traded user venue data ⟨.empty, some leg⟩ = .ok execution)
    {wallet : Wallet} (owned : db.wallets.find? user = some wallet) :
    ∃ saved : Database, saved.referrals = db.referrals ∧
      saved.wallets.find? user = some (Wallet.debit leg.paid wallet) ∧
      effectsOf db execution.db user venue =
        { pool := some { venue.pool with
            collateral := venue.pool.collateral + leg.paid
            protocolFees := venue.pool.protocolFees + leg.protocolFee
            yesShares := leg.amm.yesShares
            noShares := leg.amm.noShares }
          balance := ((creditReferral saved user).wallets.find? user).map Wallet.balance
          position := (leg.movePosition db.positions (venue.positionKey user)).find?
            (venue.positionKey user)
          volume := some (venue.market.totalVolume + leg.tradeValue)
          trades := if 0 < leg.shares then [(leg.quote.price, leg.shares)] else []
          amount := some (-leg.paid) } := by
  obtain ⟨committed, _, _, _⟩ := finish_ok finished
  obtain ⟨isSide, _, isTraded⟩ := runAmmLeg_traded incoming
  obtain ⟨wallets, referrals, more, credited⟩ :=
    creditReferral_frame (saveFill env traded user venue data ⟨.empty, some leg⟩
      (traded.orders.insert (filledRow env traded user venue data ⟨.empty, some leg⟩))) user
  refine ⟨saveFill env traded user venue data ⟨.empty, some leg⟩
      (traded.orders.insert (filledRow env traded user venue data ⟨.empty, some leg⟩)), ?_, ?_, ?_⟩
  · rw [isTraded]
    rfl
  · rw [isTraded]
    simp only [saveFill, Table.find?_modify_self, owned, Option.map_some]
  · rw [committed]
    unfold effectsOf
    rw [credited, isTraded]
    simp only [Effects.mk.injEq, true_and]
    refine ⟨?_, ?_, ?_, ?_, ?_⟩
    · simp only [saveFill, writeLeg, Table.find?_modify_self, venues.pool, Option.map_some]
    · simp only [saveFill]
      cases side : data.side with
      | buy =>
          rw [side] at isSide
          simp [creditFill, AmmLeg.movePosition, isSide, Fill.totalShares, Fill.spent,
            AmmLeg.total, BookFill.empty, AmmLeg.shares, AmmLeg.spent]
      | sell => rfl
    · simp only [saveFill, Table.find?_modify_self, venues.row, Option.map_some]
      cases side : data.side <;> rw [side] at isSide <;>
        simp [AmmLeg.tradeValue, isSide, Fill.spent, Fill.received, AmmLeg.total,
          BookFill.empty, AmmLeg.spent, AmmLeg.proceeds]
    · simp only [saveFill, List.drop_left, takerTrades, BookFill.empty, List.map_nil,
        List.nil_append, AmmLeg.total, Option.map_some, Option.getD_some, Fill.ammPrice]
      by_cases positive : 0 < leg.shares <;> simp [positive]
    · simp only [saveFill, List.append_assoc, List.drop_left]
      cases side : data.side <;> rw [side] at isSide <;>
        simp [AmmLeg.paid, isSide, Fill.spent, Fill.received, AmmLeg.total,
          BookFill.empty, AmmLeg.spent, AmmLeg.proceeds]

/-- What the fill of a resting order did. -/
theorem resting_effects (venues : SameVenue db user venue turn) (owner : turn.order.userId = user)
    (resting : sweepLeg now db turn quantity = .ok (some (swept, leg)))
    {wallet : Wallet} (owned : db.wallets.find? user = some wallet) :
    effectsOf db swept user venue =
      { pool := some { venue.pool with
          collateral := venue.pool.collateral + leg.paid
          protocolFees := venue.pool.protocolFees + sweepFee leg
          yesShares := leg.amm.yesShares
          noShares := if turn.parimutuel then venue.pool.noShares else leg.amm.noShares }
        balance := some (wallet.balance - leg.paid)
        position := (leg.movePosition db.positions (venue.positionKey user)).find?
          (venue.positionKey user)
        volume := some (venue.market.totalVolume + leg.quantity)
        trades := [(leg.quote.price, leg.quantity)]
        amount := some (-leg.paid) } := by
  obtain ⟨isQuantity, legs⟩ := sweepLeg_ok resting
  unfold effectsOf
  rcases legs with ⟨_, isBuy, _, _, rfl⟩ | ⟨_, isSell, _, _, _, _, rfl⟩
  · have paid : leg.paid = quantity := by rw [AmmLeg.paid, isBuy, isQuantity]
    simp [recordLeg, writeSweepLeg, venues.poolKey, venues.market, venues.position, venues.pool,
      venues.row, owner, owned, paid, isBuy, isQuantity, Table.find?_modify_self, payResting,
      AmmLeg.movePosition]
  · have paid : leg.paid = -leg.quote.collateralIn := by rw [AmmLeg.paid, isSell]
    simp [recordLeg, writeSweepLeg, venues.poolKey, venues.market, venues.position, venues.pool,
      venues.row, owner, owned, paid, isSell, isQuantity, Table.find?_modify_self, Wallet.credit,
      AmmLeg.movePosition]

/-- The columns the two paths fill in differently. -/
theorem effects_eq_iff (venues : SameVenue db user venue turn) (owner : turn.order.userId = user)
    (incoming : runAmmLeg db user venue data.side quantity = .ok (traded, leg))
    (finished : finish env traded user venue data ⟨.empty, some leg⟩ = .ok execution)
    (resting : sweepLeg now db turn quantity = .ok (some (swept, leg))) :
    effectsOf db execution.db user venue = effectsOf db swept user venue ↔
      leg.protocolFee = sweepFee leg ∧ leg.tradeValue = leg.quantity ∧
        (0 < leg.shares ∧ leg.shares = leg.quantity) ∧
        (turn.parimutuel = true → venue.pool.noShares = leg.amm.noShares) ∧
        ¬ rewardsOwner db user := by
  have wallet : ∃ wallet, db.wallets.find? user = some wallet := by
    obtain ⟨_, ⟨_, _, ⟨wallet, found, _⟩, _⟩ | ⟨_, _, ⟨wallet, found⟩, _⟩⟩ := sweepLeg_ok resting
    · exact ⟨wallet, owner ▸ found⟩
    · exact ⟨wallet, owner ▸ found⟩
  obtain ⟨wallet, owned⟩ := wallet
  obtain ⟨saved, referrals, savedWallet, left⟩ := incoming_effects venues incoming finished owned
  have reward := creditReferral_balance_iff savedWallet
  have rewards : rewardsOwner saved user ↔ rewardsOwner db user := by
    unfold rewardsOwner
    rw [referrals]
  have balance : (Wallet.debit leg.paid wallet).balance = wallet.balance - leg.paid := rfl
  rw [rewards, balance] at reward
  rw [left, resting_effects venues owner resting owned]
  simp only [Effects.mk.injEq, Option.some.injEq, LiquidityPool.mk.injEq, true_and, and_true,
    add_right_inj, reward]
  have noShares : leg.amm.noShares = (if turn.parimutuel = true then venue.pool.noShares
      else leg.amm.noShares) ↔ (turn.parimutuel = true → venue.pool.noShares = leg.amm.noShares) := by
    by_cases parimutuel : turn.parimutuel = true
    · simp [parimutuel, eq_comm]
    · simp [parimutuel]
  have trades : (if 0 < leg.shares then [(leg.quote.price, leg.shares)] else []) =
      [(leg.quote.price, leg.quantity)] ↔ 0 < leg.shares ∧ leg.shares = leg.quantity := by
    by_cases positive : 0 < leg.shares
    · simp [positive]
    · simp [positive]
  rw [noShares, trades]
  tauto

/-- The three amounts agree when a share costs a dollar and the trading fee takes nothing. -/
theorem amounts_agree_iff
    (incoming : runAmmLeg db user venue data.side quantity = .ok (traded, leg)) :
    (leg.protocolFee = sweepFee leg ∧ leg.tradeValue = leg.quantity ∧
        (0 < leg.shares ∧ leg.shares = leg.quantity)) ↔
      venue.amm.price venue.ammSide = 1 ∧
        quantizeDown scale (quantity - quantity * venue.amm.feeRate) = quantity := by
  have rate : protocolFeeRate ≠ 0 := by decide +kernel
  cases side : data.side with
  | buy =>
      rw [side] at incoming
      obtain ⟨_, _, _, bought, isBuy, isQuantity, _⟩ := ammBuy_ok incoming
      obtain ⟨positive, _, _, _, _, _, price, _⟩ := BinaryAMM.executeBuy_ok bought
      have fees : leg.protocolFee = sweepFee leg ↔ venue.amm.price venue.ammSide = 1 := by
        simp only [AmmLeg.protocolFee, AmmLeg.tradeValue, sweepFee, isBuy, isQuantity, price]
        rw [mul_left_inj' rate, eq_comm, mul_eq_left₀ positive.ne']
      have shares : leg.shares = leg.quote.sharesOut := by simp only [AmmLeg.shares, isBuy]
      have value : leg.tradeValue = leg.quantity := by simp only [AmmLeg.tradeValue, isBuy]
      rw [fees, shares, isQuantity]
      constructor
      · rintro ⟨one, _, _, same⟩
        exact ⟨one, (buy_at_one bought one).1.symm.trans same⟩
      · rintro ⟨one, whole⟩
        have same : leg.quote.sharesOut = quantity := (buy_at_one bought one).1.trans whole
        exact ⟨one, value.trans isQuantity, same ▸ positive, same⟩
  | sell =>
      rw [side] at incoming
      obtain ⟨_, sold, isSell, isQuantity, _⟩ := ammSell_ok incoming
      obtain ⟨positive, _, _, _, _, _, price, _⟩ := BinaryAMM.executeSell_ok sold
      have fees : leg.protocolFee = sweepFee leg ↔
          leg.quote.collateralIn = quantity * venue.amm.price venue.ammSide := by
        simp only [AmmLeg.protocolFee, AmmLeg.tradeValue, sweepFee, isSell, isQuantity, price]
        rw [mul_left_inj' rate]
      have shares : leg.shares = quantity := by simp only [AmmLeg.shares, isSell, isQuantity]
      have value : leg.tradeValue = leg.quote.collateralIn := by
        simp only [AmmLeg.tradeValue, isSell]
      rw [fees, shares, value, isQuantity]
      constructor
      · rintro ⟨charged, same, _⟩
        have one : venue.amm.price venue.ammSide = 1 :=
          (mul_eq_left₀ positive.ne').mp (charged.symm.trans same)
        exact ⟨one, (sell_at_one sold one).1.symm.trans same⟩
      · rintro ⟨one, whole⟩
        have same : leg.quote.collateralIn = quantity := (sell_at_one sold one).1.trans whole
        exact ⟨by rw [one, mul_one, same], same, positive, rfl⟩

/-- A parimutuel leg at a price of one leaves the other reserve empty. -/
theorem noShares_at_one (venues : SameVenue db user venue turn)
    (incoming : runAmmLeg db user venue data.side quantity = .ok (traded, leg))
    (one : venue.amm.price venue.ammSide = 1) (parimutuel : turn.parimutuel = true) :
    leg.amm.noShares = 0 := by
  have yes := venues.parimutuel parimutuel
  have empty : leg.amm.otherReserve venue.ammSide = 0 := by
    cases side : data.side with
    | buy =>
        rw [side] at incoming
        obtain ⟨_, _, _, bought, _⟩ := ammBuy_ok incoming
        exact (buy_at_one bought one).2
    | sell =>
        rw [side] at incoming
        obtain ⟨_, sold, _⟩ := ammSell_ok incoming
        exact (sell_at_one sold one).2
  rw [yes] at empty
  exact empty

/-- From one state, an incoming and a resting order of the same owner, side, outcome and
remainder have the same effects exactly when the paths meet. -/
theorem fill_paths_agree_iff (opened : openVenue env db data.marketId data.outcome = .ok venue)
    (taken : takeTurn db data.marketId (isParimutuel (outcomesOf db data.marketId)) order =
      some turn)
    (owner : order.userId = user) (side : order.side = data.side)
    (outcome : order.outcomeId = venue.outcome.id)
    (incoming : runAmmLeg db user venue data.side quantity = .ok (traded, leg))
    (finished : finish env traded user venue data ⟨.empty, some leg⟩ = .ok execution)
    (resting : sweepLeg now db turn quantity = .ok (some (swept, sweptLeg))) :
    effectsOf db execution.db user venue = effectsOf db swept user venue ↔
      PathsMeet db user venue (isParimutuel (outcomesOf db data.marketId)) quantity := by
  have venues := sameVenue opened taken owner outcome
  obtain ⟨_, isOrder, isParimutuel_, _⟩ := takeTurn_some taken
  have turnSide : turn.order.side = data.side := isOrder ▸ side
  have turnOwner : turn.order.userId = user := isOrder ▸ owner
  cases sameLeg venues turnSide incoming resting
  rw [effects_eq_iff venues turnOwner incoming finished resting]
  constructor
  · rintro ⟨fees, volume, shares, noShares, referral⟩
    obtain ⟨one, whole⟩ := (amounts_agree_iff incoming).mp ⟨fees, volume, shares⟩
    refine ⟨one, whole, ?_, referral⟩
    intro parimutuel
    rw [← isParimutuel_] at parimutuel
    rw [noShares parimutuel, noShares_at_one venues incoming one parimutuel]
  · rintro ⟨one, whole, noShares, referral⟩
    obtain ⟨fees, volume, shares⟩ := (amounts_agree_iff incoming).mpr ⟨one, whole⟩
    refine ⟨fees, volume, shares, ?_, referral⟩
    intro parimutuel
    rw [noShares_at_one venues incoming one parimutuel]
    exact noShares (isParimutuel_ ▸ parimutuel)

end Legs

/-! # Ten dollars on both paths -/

/-- A resting buy of 10 USDC in a market whose pool has the given reserves and fee rate. -/
def restedMarket (yesShares noShares feeRate : ℚ) : Database :=
  { unquotedMarket ⟨[restingBuy], by decide⟩ 10 with
    pools := ⟨[⟨1, none, yesShares, noShares, 100, feeRate, 100, 0⟩], by simp⟩ }

def tenDollars : OrderRequest := limitBuy 10 pos_ten grid_ten

/-- At a spot price of 0.50 the sweep charges half the protocol fee, and its trade row counts
the ten dollars as shares. -/
theorem ten_dollar_paths_differ :
    ∃ execution processed venue,
      executeOrder quietEnv (restedMarket 100 100 (2 / 100)) 1 tenDollars = .ok execution ∧
      processOrder 1 1 false (.start (restedMarket 100 100 (2 / 100))) 1 = .ok processed ∧
      openVenue quietEnv (restedMarket 100 100 (2 / 100)) 1 .yes = .ok venue ∧
      execution.matchDetails = [] ∧ processed.executed = [] ∧
      effectsOf (restedMarket 100 100 (2 / 100)) execution.db 1 venue ≠
        effectsOf (restedMarket 100 100 (2 / 100)) processed.session.current 1 venue := by
  have run : succeedsWith (executeOrder quietEnv (restedMarket 100 100 (2 / 100)) 1 tenDollars)
      (fun execution => succeedsWith
        (processOrder 1 1 false (.start (restedMarket 100 100 (2 / 100))) 1)
        (fun processed => succeedsWith
          (openVenue quietEnv (restedMarket 100 100 (2 / 100)) 1 .yes)
          (fun venue => execution.matchDetails.isEmpty && processed.executed.isEmpty &&
            (effectsOf (restedMarket 100 100 (2 / 100)) execution.db 1 venue ≠
              effectsOf (restedMarket 100 100 (2 / 100)) processed.session.current 1 venue : Bool)))) =
        true := by
    decide +kernel
  obtain ⟨execution, executed, run⟩ := succeedsWith_iff.mp run
  obtain ⟨processed, swept, run⟩ := succeedsWith_iff.mp run
  obtain ⟨venue, opened, run⟩ := succeedsWith_iff.mp run
  simp only [Bool.and_eq_true, List.isEmpty_iff, decide_eq_true_eq] at run
  exact ⟨execution, processed, venue, executed, swept, opened, run.1.1, run.1.2, run.2⟩

/-- A free market whose NO reserve is empty: both paths have the same effects. -/
theorem free_certain_paths_agree :
    ∃ venue turn traded leg execution swept,
      openVenue quietEnv (restedMarket 100 0 0) 1 .yes = .ok venue ∧
      takeTurn (restedMarket 100 0 0) 1 false restingBuy = some turn ∧
      runAmmLeg (restedMarket 100 0 0) 1 venue .buy 10 = .ok (traded, leg) ∧
      finish quietEnv traded 1 venue tenDollars ⟨.empty, some leg⟩ = .ok execution ∧
      sweepLeg 1 (restedMarket 100 0 0) turn 10 = .ok (some (swept, leg)) ∧
      effectsOf (restedMarket 100 0 0) execution.db 1 venue =
        effectsOf (restedMarket 100 0 0) swept 1 venue := by
  have run : succeedsWith (openVenue quietEnv (restedMarket 100 0 0) 1 .yes)
      (fun venue => venue.outcome.id = 1 && venue.amm.price venue.ammSide = 1 &&
        quantizeDown scale (10 - 10 * venue.amm.feeRate) = 10 &&
        (takeTurn (restedMarket 100 0 0) 1 false restingBuy).any fun turn =>
          succeedsWith (runAmmLeg (restedMarket 100 0 0) 1 venue .buy 10) fun result =>
            succeedsWith (finish quietEnv result.1 1 venue tenDollars ⟨.empty, some result.2⟩)
              fun _ => succeedsWith (sweepLeg 1 (restedMarket 100 0 0) turn 10) fun swept =>
                swept.any fun pair => pair.2 = result.2) = true := by
    decide +kernel
  obtain ⟨venue, opened, run⟩ := succeedsWith_iff.mp run
  simp only [Bool.and_eq_true, decide_eq_true_eq] at run
  obtain ⟨⟨⟨outcome, price⟩, whole⟩, run⟩ := run
  obtain ⟨turn, taken, run⟩ := (Option.any_eq_true _ _).mp run
  obtain ⟨⟨traded, leg⟩, incoming, run⟩ := succeedsWith_iff.mp run
  obtain ⟨execution, finished, run⟩ := succeedsWith_iff.mp run
  obtain ⟨result, resting, run⟩ := succeedsWith_iff.mp run
  obtain ⟨⟨swept, sweptLeg⟩, rfl, same⟩ := (Option.any_eq_true _ _).mp run
  cases of_decide_eq_true same
  refine ⟨venue, turn, traded, leg, execution, swept, opened, taken, incoming, finished,
    resting, ?_⟩
  have meets : PathsMeet (restedMarket 100 0 0) 1 venue false 10 :=
    ⟨price, whole, by simp, by
      rintro ⟨referral, pending, _⟩
      cases pending⟩
  have owner : restingBuy.userId = 1 := rfl
  have side : restingBuy.side = tenDollars.side := rfl
  exact (fill_paths_agree_iff opened taken owner side outcome.symm incoming finished
    resting).mpr meets

end PredictX.OrderService
