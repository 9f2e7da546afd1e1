import PredictX.Workers.SweepCases
import PredictX.Properties.ShareConservation

namespace PredictX.OrderService

open PredictX.Data PredictX.Amm PredictX.MatchingEngine PredictX.LimitSweep

/-! Limit prices.

Every maker is filtered by the limit, so a book leg is never worse than it.  The AMM
leg is admitted by one comparison of the spot price and then filled whatever its size;
a buy pays the price after the trade, so whether it stays within the limit is a matter
of the curve.
-/

/-- A book leg at the limit or better. -/
def DetailsWithin (side : Side) (limit : ℚ) (details : MatchDetails) : Prop :=
  match side with
  | .buy => details.matchUsdc ≤ limit * details.matchShares
  | .sell => limit * details.matchShares ≤ details.matchUsdc

/-- An AMM leg at the limit or better: a buy's spend net of the trading fee, a sell's
proceeds before it. -/
def LegWithin (amm : BinaryAMM) (ammSide : ShareSide) (limit : ℚ) (leg : AmmLeg) : Prop :=
  match leg.side with
  | .buy => leg.quantity - leg.quantity * amm.feeRate ≤ limit * leg.quote.sharesOut
  | .sell => limit * leg.quantity ≤ amm.grossProceeds ammSide leg.quantity

/-- Every leg that filled is at the limit or better. -/
def RespectsLimit (side : Side) (limit : ℚ) (amm : BinaryAMM) (ammSide : ShareSide)
    (details : List MatchDetails) (leg : Option AmmLeg) : Prop :=
  (∀ match_ ∈ details, DetailsWithin side limit match_) ∧
    ∀ filled ∈ leg, LegWithin amm ammSide limit filled

/-- The curve sells the remainder within the limit.  For a buy, `wanted` is the least
amount that is worth the net spend at the limit, and the net spend must pay for it at
the price after the trade; for a sell the spot price itself is at the limit or better,
not only its float. -/
def CurveAllows (amm : BinaryAMM) (ammSide : ShareSide) (side : Side) (remaining limit : ℚ) :
    Prop :=
  match side with
  | .buy =>
      let net := remaining - remaining * amm.feeRate
      let wanted := quantizeUp scale (net / limit)
      0 < limit ∧ wanted * (amm.reserve ammSide + wanted) ≤ net * (amm.total + wanted)
  | .sell => limit ≤ amm.price ammSide

instance (amm : BinaryAMM) (ammSide : ShareSide) (limit : ℚ) (leg : AmmLeg) :
    Decidable (LegWithin amm ammSide limit leg) :=
  match side : leg.side with
  | .buy => decidable_of_iff
      (leg.quantity - leg.quantity * amm.feeRate ≤ limit * leg.quote.sharesOut)
      (by simp [LegWithin, side])
  | .sell => decidable_of_iff (limit * leg.quantity ≤ amm.grossProceeds ammSide leg.quantity)
      (by simp [LegWithin, side])

instance (amm : BinaryAMM) (ammSide : ShareSide) (side : Side) (remaining limit : ℚ) :
    Decidable (CurveAllows amm ammSide side remaining limit) :=
  match side with
  | .buy => inferInstanceAs (Decidable (_ ∧ _))
  | .sell => inferInstanceAs (Decidable (_ ≤ _))

/-- The remainder is left for the AMM. -/
def SentToAmm (db : Database) (user : UserId) (venue : Venue) (data : OrderRequest) : Prop :=
  duplicateOf db user data = none ∧ 0 < plannedRemainder db user venue data ∧
    route venue data = .ok .amm

section Legs

variable {amm after : BinaryAMM} {ammSide : ShareSide} {quote : AMMQuote} {remaining limit : ℚ}

theorem buy_within_iff (bought : amm.buy ammSide remaining = .ok (after, quote)) :
    remaining - remaining * amm.feeRate ≤ limit * quote.sharesOut ↔
      CurveAllows amm ammSide .buy remaining limit := by
  obtain ⟨_, net, _, shares, _⟩ := BinaryAMM.executeBuy_ok bought
  rw [shares]
  dsimp only [CurveAllows]
  set spend := remaining - remaining * amm.feeRate
  have minted := amm.sharesFor_nonneg ammSide spend
  by_cases positive : 0 < limit
  · have wantedNonneg : 0 ≤ quantizeUp scale (spend / limit) :=
      quantizeUp_nonneg (div_nonneg net.le positive.le)
    rw [← amm.le_sharesFor_iff ammSide net.le (onGrid_quantizeUp scale_pos _) wantedNonneg,
      quantizeUp_le_iff scale_pos (amm.sharesFor_onGrid ammSide spend),
      div_le_iff₀ positive, mul_comm]
    exact ⟨fun worth => ⟨positive, worth⟩, And.right⟩
  · have worthless : limit * amm.sharesFor ammSide spend ≤ 0 :=
      mul_nonpos_of_nonpos_of_nonneg (not_lt.mp positive) minted
    exact ⟨fun worth => absurd (net.trans_le worth) (not_lt.mpr worthless),
      fun allowed => absurd allowed.1 positive⟩

theorem sell_within_iff (sold : amm.sell ammSide remaining = .ok (after, quote)) :
    limit * remaining ≤ amm.grossProceeds ammSide remaining ↔
      CurveAllows amm ammSide .sell remaining limit := by
  obtain ⟨positive, _, funded, _⟩ := BinaryAMM.executeSell_ok sold
  rw [BinaryAMM.grossProceeds_eq_price funded.ne', mul_comm limit,
    mul_le_mul_iff_right₀ positive]
  rfl

end Legs

/-- The executed matches of a plan whose makers cross the limit. -/
theorem details_within {side : Side} {limit : ℚ} {outcomes : Table Outcome.id}
    {offers : List Offer} (positive : ∀ offer ∈ offers, 0 < offer.quantity)
    (crosses : ∀ offer ∈ offers, priceCrosses side (some limit) offer.maker.price = true) :
    ∀ match_ ∈ deliveredDetails outcomes offers, DetailsWithin side limit match_ := by
  intro match_ member
  obtain ⟨offer, offerMember, rfl⟩ := List.mem_map.mp member
  have inPlan := (List.mem_filter.mp offerMember).1
  have quantity := positive offer inPlan
  have price := crosses offer inPlan
  cases side with
  | buy =>
      have bound : offer.maker.price ≤ limit := by simpa [priceCrosses] using price
      simp only [DetailsWithin, executedDetails]
      nlinarith
  | sell =>
      have bound : limit ≤ offer.maker.price := by simpa [priceCrosses] using price
      simp only [DetailsWithin, executedDetails]
      nlinarith

variable {env : Env} {db : Database} {user : UserId} {venue : Venue} {data : OrderRequest}
  {execution : Execution} {limit : ℚ}

theorem runAmmLeg_within_iff {matched traded : Database} {leg : AmmLeg} {remaining : ℚ} (limit : ℚ)
    (ran : runAmmLeg matched user venue data.side remaining = .ok (traded, leg)) :
    LegWithin venue.amm venue.ammSide limit leg ↔
      CurveAllows venue.amm venue.ammSide data.side remaining limit := by
  unfold LegWithin
  cases side : data.side with
  | buy =>
      rw [side] at ran
      obtain ⟨_, _, _, bought, isBuy, quantity, _⟩ := ammBuy_ok ran
      simp only [isBuy, quantity]
      exact buy_within_iff bought
  | sell =>
      rw [side] at ran
      obtain ⟨_, sold, isSell, quantity, _⟩ := ammSell_ok ran
      simp only [isSell, quantity]
      exact sell_within_iff sold

theorem executeOrder_respects_iff (executed : executeOrder env db user data = .ok execution)
    (opened : openVenue env db data.marketId data.outcome = .ok venue)
    (limited : data.price = some limit) :
    RespectsLimit data.side limit venue.amm venue.ammSide execution.matchDetails
        execution.ammLeg ↔
      (SentToAmm db user venue data →
        CurveAllows venue.amm venue.ammSide data.side (plannedRemainder db user venue data)
          limit) := by
  obtain ⟨_, openedAs, _, _, ways⟩ := executeOrder_ok executed
  cases opened.symm.trans openedAs
  rcases ways with ⟨existing, found, rfl⟩ | ⟨unseen, _, filled⟩
  · refine ⟨fun _ sent => ?_, fun _ => ⟨by simp [duplicate], by simp [duplicate]⟩⟩
    rw [sent.1] at found
    contradiction
  obtain ⟨matched, book, trace, ends⟩ := fillOrder_ok filled
  have details : ∀ match_ ∈ book.matchDetails, DetailsWithin data.side limit match_ := by
    rw [trace.bookFill.2.2]
    simp only [BookFill.empty, List.nil_append]
    refine details_within (fun offer member => (bookPlan_positive trace offer member).1) ?_
    intro offer member
    rw [← limited]
    exact (isMatch_iff.mp (mem_bookPlan member).2).2.2.2.2.2.1
  have remaining := remainder_eq_planned trace
  rcases ends with ⟨left, routed, rested⟩ | ⟨left, routed, traded, leg, ran, finished⟩ |
    ⟨nothing, finished⟩
  · obtain ⟨_, _, _, _, _, executedDetails, noLeg, _⟩ := restOrder_ok rested
    refine ⟨fun _ sent => ?_, fun _ => ⟨by rwa [executedDetails], by simp [noLeg]⟩⟩
    rw [sent.2.2] at routed
    cases routed
  · obtain ⟨_, executedDetails, withLeg, _⟩ := finish_ok finished
    rw [remaining] at left ran
    have inner := runAmmLeg_within_iff limit ran
    unfold RespectsLimit
    rw [executedDetails, withLeg]
    simp only [Option.mem_def, Option.some.injEq, forall_eq', inner]
    exact ⟨fun respects _ => respects.2, fun allowed => ⟨details, allowed ⟨unseen, left, routed⟩⟩⟩
  · obtain ⟨_, executedDetails, noLeg, _⟩ := finish_ok finished
    refine ⟨fun _ sent => ?_, fun _ => ⟨by rwa [executedDetails], by simp [noLeg]⟩⟩
    rw [remaining] at nothing
    exact absurd sent.2.1 (not_lt.mpr nothing)

/-- A resting order's remainder is left for the AMM and the order can be funded. -/
def SweptToAmm (now : Timestamp) (session : Session) (turn : Turn) : Prop :=
  turn.order.status.isOpen = true ∧ hasExpired now turn.order = false ∧
    0 < pendingRemainder turn.order
      (pendingPlan now session turn.market turn.order turn.outcome.id) ∧
    turn.canFill = true ∧
    ∃ wallet, session.current.wallets.find? turn.order.userId = some wallet ∧
      match turn.order.side with
      | .buy => turn.order.remainingAmount ≤ wallet.available
      | .sell => turn.order.remainingAmount ≤
          Position.held session.current.positions turn.positionKey

section Sweep

variable {now : Timestamp} {session : Session} {market : MarketId} {parimutuel : Bool}
  {orderId : OrderId} {order : Order} {turn : Turn} {processed : Processed}

/-- The AMM fills a resting order's remainder exactly when it is sent there. -/
theorem tradeOrder_leg_iff (sweeping : Sweeping now db session)
    (opened : turn.order.status.isOpen = true) (lasting : hasExpired now turn.order = false)
    (ran : tradeOrder now session turn = .ok processed) :
    processed.ammLeg.isSome ↔ SweptToAmm now session turn := by
  obtain ⟨matched, fill, trace, _, ends⟩ := tradeOrder_ok ran
  have remaining := (pendingFill_eq trace).1
  have makers : ∀ offer ∈ pendingPlan now session turn.market turn.order turn.outcome.id, _ :=
    fun offer member => pendingPlan_maker sweeping.consistent member
  have wallets : turn.order.side = .buy → _ := fun buying =>
    pending_wallet trace buying fun offer member =>
      ⟨(makers offer member).2.2.2.1, (makers offer member).2.2.2.2.1⟩
  have holdings : turn.order.side = .sell → Position.held matched.positions turn.positionKey = _ :=
    fun selling => pending_held trace selling fun offer member =>
      ⟨(makers offer member).2.1, (makers offer member).2.2.1, (makers offer member).2.2.2.1,
        (makers offer member).2.2.2.2.1⟩
  have sameWallets := trace.isSome_wallet turn.order.userId
  dsimp only at remaining
  constructor
  · intro filled
    obtain ⟨none_, _⟩ | ⟨traded, leg, _, left, fillable, legRan, _⟩ := ends
    · simp [none_] at filled
    rw [remaining] at left
    refine ⟨opened, lasting, left, fillable, ?_⟩
    rcases (sweepLeg_ok legRan).2 with ⟨side, _, ⟨wallet, found, funded⟩, _⟩ |
      ⟨side, _, ⟨wallet, found⟩, holds, _⟩
    · rw [wallets side] at found
      obtain ⟨before, foundBefore, rfl⟩ := Option.map_eq_some_iff.mp found
      refine ⟨before, foundBefore, ?_⟩
      simp only [side, Wallet.available] at funded ⊢
      rw [remaining, side] at funded
      linarith
    · rw [found, Option.isSome_some] at sameWallets
      obtain ⟨before, foundBefore⟩ := Option.isSome_iff_exists.mp sameWallets.symm
      refine ⟨before, foundBefore, ?_⟩
      rw [holdings side, remaining] at holds
      simp only [side] at holds ⊢
      exact (sub_le_sub_iff_right _).mp holds
  · rintro ⟨_, _, left, fillable, wallet, found, funded⟩
    obtain ⟨none_, why, _⟩ | ⟨traded, leg, some_, _⟩ := ends
    · exfalso
      change 0 < turn.order.remainingAmount - _ at left
      rcases why with nothing | unfillable | passed
      · rw [remaining] at nothing
        linarith
      · simp [unfillable] at fillable
      rcases sweepLeg_none passed with missing | ⟨side, short⟩
      · rw [found, Option.isSome_some] at sameWallets
        obtain ⟨after, foundAfter⟩ := Option.isSome_iff_exists.mp sameWallets
        obtain ⟨side, poor⟩ := missing after foundAfter
        rw [wallets side, found] at foundAfter
        cases foundAfter
        simp only [side, Wallet.available] at funded poor
        rw [remaining, side] at poor
        linarith
      · simp only [side] at funded
        rw [holdings side, remaining, sub_lt_sub_iff_right] at short
        exact absurd funded (not_le.mpr short)
    · simp [some_]

theorem processOrder_respects_iff (sweeping : Sweeping now db session)
    (found : session.current.orders.find? orderId = some order)
    (taken : takeTurn session.current market parimutuel order = some turn)
    (ran : processOrder now market parimutuel session orderId = .ok processed) :
    RespectsLimit order.side order.price turn.amm turn.ammSide processed.executed
        processed.ammLeg ↔
      (SweptToAmm now session turn →
        CurveAllows turn.amm turn.ammSide order.side
          (pendingRemainder order (pendingPlan now session market order turn.outcome.id))
          order.price) := by
  obtain ⟨rfl, rfl, _⟩ := takeTurn_some taken
  have idle : RespectsLimit turn.order.side turn.order.price turn.amm turn.ammSide [] none := by
    simp [RespectsLimit]
  rcases processOrder_ok ran with ⟨rfl, passed⟩ | ⟨_, foundAs, _, expired, rfl⟩ |
    ⟨_, _, foundAs, opened, lasting, takenAs, traded⟩
  · refine iff_of_true idle fun swept => ?_
    rcases passed _ found with closed | untaken
    · exact absurd swept.1 (by simp [closed])
    · exact absurd (untaken.symm.trans taken) (by simp)
  · cases found.symm.trans foundAs
    exact iff_of_true idle fun swept => absurd swept.2.1 (by simp [expired])
  cases found.symm.trans foundAs
  cases taken.symm.trans takenAs
  have sent := tradeOrder_leg_iff sweeping opened lasting traded
  obtain ⟨matched, fill, trace, executed, ends⟩ := tradeOrder_ok traded
  obtain ⟨remaining, reports⟩ := pendingFill_eq trace
  have details : ∀ match_ ∈ processed.executed,
      DetailsWithin turn.order.side turn.order.price match_ := by
    rw [executed, reports, List.nil_append]
    refine details_within (pending_positive trace) ?_
    intro offer member
    exact (pendingPlan_maker sweeping.consistent member).2.2.2.2.2
  rw [← sent]
  rcases ends with ⟨noLeg, _⟩ | ⟨after, leg, withLeg, _, _, legRan, _⟩
  · rw [noLeg]
    exact iff_of_true ⟨details, by simp⟩ (by simp)
  · have inner : LegWithin turn.amm turn.ammSide turn.order.price leg ↔
        CurveAllows turn.amm turn.ammSide turn.order.side fill.remaining turn.order.price := by
      obtain ⟨quantity, ⟨side, isBuy, _, bought, _⟩ | ⟨side, isSell, _, _, sold, _⟩⟩ :=
        sweepLeg_ok legRan
      · simp only [LegWithin, isBuy, quantity, side]
        exact buy_within_iff bought
      · simp only [LegWithin, isSell, quantity, side]
        exact sell_within_iff sold
    rw [remaining] at inner
    unfold RespectsLimit
    rw [withLeg]
    simp only [Option.mem_def, Option.some.injEq, forall_eq', inner, Option.isSome_some,
      forall_const]
    exact ⟨And.right, fun allowed => ⟨details, allowed⟩⟩

end Sweep

/-- Every leg of an order stays within its limit exactly when the curve allows the
remainder that the AMM fills, whether the order came in or was swept up. -/
theorem limit_respected_iff (db : Database) :
    (∀ {env user venue data execution limit},
      executeOrder env db user data = .ok execution →
      openVenue env db data.marketId data.outcome = .ok venue → data.price = some limit →
      (RespectsLimit data.side limit venue.amm venue.ammSide execution.matchDetails
          execution.ammLeg ↔
        (SentToAmm db user venue data →
          CurveAllows venue.amm venue.ammSide data.side (plannedRemainder db user venue data)
            limit))) ∧
    (∀ {now session market parimutuel orderId order turn processed},
      Sweeping now db session → session.current.orders.find? orderId = some order →
      takeTurn session.current market parimutuel order = some turn →
      processOrder now market parimutuel session orderId = .ok processed →
      (RespectsLimit order.side order.price turn.amm turn.ammSide processed.executed
          processed.ammLeg ↔
        (SweptToAmm now session turn →
          CurveAllows turn.amm turn.ammSide order.side
            (pendingRemainder order (pendingPlan now session market order turn.outcome.id))
            order.price))) :=
  ⟨executeOrder_respects_iff, processOrder_respects_iff⟩

/-! # Limit buys of two sizes

A YES buy limited to 0.60 on the 100/100 market, where the spot price is 0.50.
-/

theorem sixty_cents : ∀ limit ∈ some (6 / 10 : ℚ), 0 ≤ limit ∧ limit ≤ 1 := by decide +kernel

def limitBuy (amount : ℚ) (amount_pos : 0 < amount) (amount_grid : OnGrid scale amount) :
    OrderRequest :=
  { marketOrder .buy amount amount_pos amount_grid with
    orderType := .limit
    price := some (6 / 10)
    price_bounds := sixty_cents }

/-- The market with no resting order and a well-funded user 1. -/
def unquotedMarket (resting : Table Order.id) (locked : ℚ) : Database :=
  { quotedMarket with
    wallets := ⟨[⟨1, 2000, locked⟩, ⟨2, 0, 0⟩], by simp⟩
    orders := resting }

/-- 1000 USDC buy 1064.17946137 shares for 980 net: 0.92 each. -/
theorem large_limit_buy_exceeds_limit :
    ∃ execution venue,
      executeOrder quietEnv (unquotedMarket .empty 0) 1
        (limitBuy 1000 pos_thousand grid_thousand) = .ok execution ∧
      openVenue quietEnv (unquotedMarket .empty 0) 1 .yes = .ok venue ∧
      ¬ RespectsLimit .buy (6 / 10) venue.amm venue.ammSide execution.matchDetails
        execution.ammLeg := by
  have run : succeedsWith (executeOrder quietEnv (unquotedMarket .empty 0) 1
      (limitBuy 1000 pos_thousand grid_thousand))
      (fun execution => execution.ammLeg.any fun leg =>
        ¬ LegWithin (BinaryAMM.init 100 100 (2 / 100)) .yes (6 / 10) leg) = true := by
    decide +kernel
  have site : succeedsWith (openVenue quietEnv (unquotedMarket .empty 0) 1 .yes)
      (fun venue => venue.amm = BinaryAMM.init 100 100 (2 / 100) && venue.ammSide = .yes) =
        true := by
    decide +kernel
  obtain ⟨execution, executed, worse⟩ := succeedsWith_iff.mp run
  obtain ⟨venue, opened, pool⟩ := succeedsWith_iff.mp site
  refine ⟨execution, venue, executed, opened, fun respects => ?_⟩
  simp only [Bool.and_eq_true, decide_eq_true_eq] at pool
  rw [pool.1, pool.2] at respects
  obtain ⟨leg, filled, outside⟩ := (Option.any_eq_true _ _).mp worse
  exact absurd (respects.2 leg filled) (by simpa using outside)

/-- A resting buy of 10 USDC at the same limit. -/
def restingBuy : Order :=
  { restingSell with userId := 1, side := .buy, price := 6 / 10 }

/-- 10 USDC are within the limit, brought in or swept up. -/
theorem small_limit_buy_respects_limit :
    (∃ execution venue,
      executeOrder quietEnv (unquotedMarket .empty 0) 1
        (limitBuy 10 pos_ten grid_ten) = .ok execution ∧
      openVenue quietEnv (unquotedMarket .empty 0) 1 .yes = .ok venue ∧
      RespectsLimit .buy (6 / 10) venue.amm venue.ammSide execution.matchDetails
        execution.ammLeg) ∧
    (∃ processed turn,
      processOrder 1 1 false (.start (unquotedMarket ⟨[restingBuy], by decide⟩ 10)) 1 =
        .ok processed ∧
      takeTurn (unquotedMarket ⟨[restingBuy], by decide⟩ 10) 1 false restingBuy = some turn ∧
      RespectsLimit .buy (6 / 10) turn.amm turn.ammSide processed.executed processed.ammLeg) := by
  constructor
  · have run : succeedsWith (executeOrder quietEnv (unquotedMarket .empty 0) 1
        (limitBuy 10 pos_ten grid_ten)) (fun _ => true) = true := by
      decide +kernel
    have site : succeedsWith (openVenue quietEnv (unquotedMarket .empty 0) 1 .yes)
        (fun venue => CurveAllows venue.amm venue.ammSide .buy
          (plannedRemainder (unquotedMarket .empty 0) 1 venue
            (limitBuy 10 pos_ten grid_ten)) (6 / 10)) = true := by
      decide +kernel
    obtain ⟨execution, executed, _⟩ := succeedsWith_iff.mp run
    obtain ⟨venue, opened, allowed⟩ := succeedsWith_iff.mp site
    exact ⟨execution, venue, executed, opened,
      ((limit_respected_iff _).1 executed opened rfl).mpr fun _ => of_decide_eq_true allowed⟩
  · have run : succeedsWith (processOrder 1 1 false
        (.start (unquotedMarket ⟨[restingBuy], by decide⟩ 10)) 1) (fun _ => true) = true := by
      decide +kernel
    have site : (takeTurn (unquotedMarket ⟨[restingBuy], by decide⟩ 10) 1 false restingBuy).any
        (fun turn => CurveAllows turn.amm turn.ammSide .buy
          (pendingRemainder restingBuy (pendingPlan 1
            (.start (unquotedMarket ⟨[restingBuy], by decide⟩ 10)) 1 restingBuy
              turn.outcome.id)) (6 / 10)) = true := by
      decide +kernel
    obtain ⟨processed, ran, _⟩ := succeedsWith_iff.mp run
    obtain ⟨turn, taken, allowed⟩ := (Option.any_eq_true _ _).mp site
    exact ⟨processed, turn, ran, taken,
      ((limit_respected_iff _).2 .start rfl taken ran).mpr fun _ => of_decide_eq_true allowed⟩

end PredictX.OrderService
