import PredictX.Workers.LimitSweep
import PredictX.Services.OrderCases

namespace PredictX.LimitSweep

open PredictX.Data PredictX.Amm PredictX.MarketService PredictX.MatchingEngine
open PredictX.OrderService

/-! What one order's turn in the sweep did.

The terms of an order never change after it was placed, so the makers a query selects
by the committed rows still satisfy it by their current values, as far as price, side
and owner go.
-/

/-- The columns of an order that no operation rewrites. -/
structure SameTerms (before after : Order) : Prop where
  userId : after.userId = before.userId
  marketId : after.marketId = before.marketId
  outcomeId : after.outcomeId = before.outcomeId
  side : after.side = before.side
  price : after.price = before.price
  amount : after.amount = before.amount

theorem SameTerms.refl (order : Order) : SameTerms order order := ⟨rfl, rfl, rfl, rfl, rfl, rfl⟩

theorem SameTerms.trans {first second third : Order} (left : SameTerms first second)
    (right : SameTerms second third) : SameTerms first third :=
  ⟨right.userId.trans left.userId, right.marketId.trans left.marketId,
    right.outcomeId.trans left.outcomeId, right.side.trans left.side,
    right.price.trans left.price, right.amount.trans left.amount⟩

/-- Every order is still there with its terms. -/
def Evolves (before after : Table Order.id) : Prop :=
  ∀ id row, before.find? id = some row →
    ∃ row', after.find? id = some row' ∧ SameTerms row row'

namespace Evolves

theorem refl (orders : Table Order.id) : Evolves orders orders :=
  fun _ row found => ⟨row, found, .refl row⟩

theorem trans {first second third : Table Order.id} (left : Evolves first second)
    (right : Evolves second third) : Evolves first third := by
  intro id row found
  obtain ⟨middle, middleFound, sameLeft⟩ := left id row found
  obtain ⟨last, lastFound, sameRight⟩ := right id middle middleFound
  exact ⟨last, lastFound, sameLeft.trans sameRight⟩

theorem modify {orders : Table Order.id} {id : OrderId} {update : Order → Order}
    (keeps : ∀ row, (update row).id = row.id) (same : ∀ row, SameTerms row (update row)) :
    Evolves orders (orders.modify id update keeps) := by
  intro other row found
  by_cases isSame : other = id
  · subst isSame
    exact ⟨update row, by rw [Table.find?_modify_self, found]; rfl, same row⟩
  · exact ⟨row, by rw [Table.find?_modify_ne isSame, found], .refl row⟩

end Evolves

theorem fillMaker_sameTerms (now : Timestamp) (spent : ℚ) (order : Order) :
    SameTerms order (fillMaker now spent order) := by
  unfold fillMaker
  dsimp only
  split <;> exact ⟨rfl, rfl, rfl, rfl, rfl, rfl⟩

theorem fillTaker_sameTerms (now : Timestamp) (spent : ℚ) (order : Order) :
    SameTerms order (fillTaker now spent order) := by
  unfold fillTaker
  dsimp only
  split <;> exact ⟨rfl, rfl, rfl, rfl, rfl, rfl⟩

theorem fillResting_sameTerms (now : Timestamp) (leg : AmmLeg) (order : Order) :
    SameTerms order (fillResting now leg order) := by
  have same := fillTaker_sameTerms now leg.quantity order
  exact ⟨same.userId, same.marketId, same.outcomeId, same.side, same.price, same.amount⟩

theorem trace_evolves {σ : Type} {now : Timestamp} {taker : Taker σ} {db after : Database}
    {fill final : σ} {offers : List Offer}
    (store : ∀ details orders, Evolves orders (taker.store details orders))
    (trace : Trace now taker db fill offers after final) : Evolves db.orders after.orders := by
  induction trace with
  | done => exact .refl _
  | skip _ _ _ ih => exact ih
  | deliver _ _ _ _ ih =>
      exact ((Evolves.modify (fillMaker_id now _) (fillMaker_sameTerms now _)).trans
        (store _ _)).trans ih

/-! # The book leg of a resting order -/

section Pending

variable {now : Timestamp} {order : Order} {db after : Database} {fill final : PendingFill}
  {offers : List Offer}

theorem pendingQuantity_pos {side : Side} {maker : Order} {quantity : ℚ}
    (asked : pendingQuantity side fill maker = some quantity) : 0 < quantity := by
  unfold pendingQuantity at asked
  split at asked
  · contradiction
  extract_lets offered at asked
  split at asked
  · contradiction
  · rename_i positive
    rw [← Option.some.inj asked]
    exact not_le.mp positive

/-- The offers a resting order makes to the book. -/
def pendingPlan (now : Timestamp) (session : Session) (market : MarketId) (order : Order)
    (outcome : OutcomeId) : List Offer :=
  plan session.current.outcomes (pendingTaker now order)
    (findMatches session.committed.orders session.current.orders market outcome order.side
      (some order.price) order.userId)
    (Position.held session.current.positions) ⟨order.remainingAmount, []⟩

/-- What an offer takes off a taker on `side`. -/
def offerSpent (side : Side) (offer : Offer) : ℚ :=
  match side with
  | .buy => offer.usdc
  | .sell => offer.quantity

/-- What the book leaves of a resting order, read off the plan. -/
def pendingRemainder (order : Order) (offers : List Offer) : ℚ :=
  order.remainingAmount - deliveredSum offers (offerSpent order.side)

theorem pending_trace {session : Session} {market : MarketId} {outcome : OutcomeId}
    {matched : Database}
    (ran : matchPendingOrder now session.committed.orders session.current order market outcome =
      .ok (matched, final)) :
    Trace now (pendingTaker now order) session.current ⟨order.remainingAmount, []⟩
      (pendingPlan now session market order outcome) matched final := by
  refine offer_trace ?_ ran
  intro fill maker _ quantity asked
  exact pendingQuantity_pos (Except.ok.inj asked)

theorem pendingFill_eq (trace : Trace now (pendingTaker now order) db fill offers after final) :
    final.remaining = fill.remaining - deliveredSum offers (offerSpent order.side) ∧
      final.executed = fill.executed ++ deliveredDetails db.outcomes offers := by
  induction trace with
  | done => simp [deliveredDetails]
  | skip _ _ _ ih =>
      obtain ⟨remaining, executed⟩ := ih
      refine ⟨by simpa using remaining, ?_⟩
      rw [executed]
      simp [deliveredDetails, skipped]
  | @deliver db _ fill _ maker quantity offers _ _ _ _ ih =>
      obtain ⟨remaining, executed⟩ := ih
      constructor
      · rw [remaining]
        simp only [pendingTaker, deliveredSum_cons, if_true]
        cases order.side <;>
          simp [takerSpent, offerSpent, executedDetails, Offer.usdc, sub_sub]
      · rw [executed, show (deliver now (pendingTaker now order) db maker quantity).outcomes =
          db.outcomes from rfl]
        simp [pendingTaker, deliveredDetails]

theorem pending_positive (trace : Trace now (pendingTaker now order) db fill offers after final) :
    ∀ offer ∈ offers, 0 < offer.quantity := by
  intro offer member
  obtain ⟨_, asked⟩ := trace.asked offer member
  exact pendingQuantity_pos (Except.ok.inj asked)

/-- A resting seller's shares after the book leg. -/
theorem pending_held (trace : Trace now (pendingTaker now order) db fill offers after final)
    {market : MarketId} {outcome : OutcomeId} (selling : order.side = .sell)
    (makers : ∀ offer ∈ offers, offer.maker.marketId = market ∧ offer.maker.outcomeId = outcome ∧
      offer.maker.side = order.side.opposite ∧ offer.maker.userId ≠ order.userId) :
    Position.held after.positions ⟨order.userId, market, outcome⟩ =
      Position.held db.positions ⟨order.userId, market, outcome⟩ -
        deliveredSum offers (offerSpent order.side) := by
  induction trace with
  | done => simp
  | skip _ _ _ ih =>
      rw [ih fun offer member => makers offer (List.mem_cons_of_mem _ member)]
      simp [skipped]
  | @deliver db _ _ _ maker quantity _ asked holds _ _ ih =>
      obtain ⟨marketId, outcomeId, side, other⟩ := makers _ List.mem_cons_self
      dsimp only at marketId outcomeId side other
      have moves := held_moveShares (quantity * maker.price)
        (pendingQuantity_pos (Except.ok.inj asked)) holds
      rw [ih fun offer member => makers offer (List.mem_cons_of_mem _ member)]
      change Position.held (moveShares db.positions maker (pendingTaker now order).userId quantity
        (quantity * maker.price)) _ - _ = _
      rw [moves]
      simp only [selling, Side.opposite] at side
      simp only [moved, sellerOf, buyerOf, side, positionKey, marketId, outcomeId, pendingTaker,
        deliveredSum_cons, if_true, offerSpent, selling, PositionKey.mk.injEq, Ne.symm other,
        false_and, if_false, add_zero]
      ring

/-- A resting buyer's wallet after the book leg. -/
theorem pending_wallet (trace : Trace now (pendingTaker now order) db fill offers after final)
    (buying : order.side = .buy)
    (makers : ∀ offer ∈ offers,
      offer.maker.side = order.side.opposite ∧ offer.maker.userId ≠ order.userId) :
    after.wallets.find? order.userId = (db.wallets.find? order.userId).map fun wallet =>
      { wallet with balance := wallet.balance - deliveredSum offers (offerSpent order.side) } := by
  induction trace with
  | done => simp
  | skip _ _ _ ih =>
      rw [ih fun offer member => makers offer (List.mem_cons_of_mem _ member)]
      simp [skipped]
  | @deliver db _ _ _ maker quantity _ _ _ _ _ ih =>
      obtain ⟨side, other⟩ := makers _ List.mem_cons_self
      dsimp only at side other
      simp only [buying, Side.opposite] at side
      rw [ih fun offer member => makers offer (List.mem_cons_of_mem _ member)]
      change Option.map _ ((payMatch db.wallets maker order.userId quantity _ _).find? _) = _
      simp only [payMatch, buyerOf, sellerOf, side]
      rw [Table.find?_modify_ne (Ne.symm other), Table.find?_modify_self, Option.map_map]
      congr 1
      funext wallet
      simp [Wallet.debit, offerSpent, buying, Offer.usdc, sub_sub]

end Pending

/-! # The turn -/

section Turn

variable {now : Timestamp} {session : Session} {market : MarketId} {turn : Turn}
  {processed : Processed}

/-- The leg and the order it is for. -/
theorem sweepLeg_ok {db traded : Database} {remaining : ℚ} {leg : AmmLeg}
    (ran : sweepLeg now db turn remaining = .ok (some (traded, leg))) :
    leg.quantity = remaining ∧
    ((turn.order.side = .buy ∧ leg.side = .buy ∧
      (∃ wallet, db.wallets.find? turn.order.userId = some wallet ∧
        remaining ≤ wallet.available) ∧
      turn.amm.buy turn.ammSide remaining = .ok (leg.amm, leg.quote) ∧
      traded = recordLeg now turn leg
        { db with
          wallets := db.wallets.modify turn.order.userId (payResting remaining)
          positions := Position.acquire db.positions turn.positionKey leg.quote.sharesOut
            remaining (stepAverage leg.quote.sharesOut remaining)
          pools := writeSweepLeg db.pools turn leg remaining }) ∨
    (turn.order.side = .sell ∧ leg.side = .sell ∧
      (∃ wallet, db.wallets.find? turn.order.userId = some wallet) ∧
      remaining ≤ Position.held db.positions turn.positionKey ∧
      turn.amm.sell turn.ammSide remaining = .ok (leg.amm, leg.quote) ∧
      (∃ pool, db.pools.find? turn.poolKey = some pool) ∧
      traded = recordLeg now turn leg
        { db with
          wallets := db.wallets.modify turn.order.userId (Wallet.credit leg.quote.collateralIn)
          positions := Position.dispose db.positions turn.positionKey remaining
            leg.quote.collateralIn
          pools := writeSweepLeg db.pools turn leg (-leg.quote.collateralIn) })) := by
  unfold sweepLeg at ran
  cases side : turn.order.side with
  | buy =>
      rw [side] at ran
      dsimp only [sweepBuy] at ran
      split at ran
      · cases ran
      rename_i wallet found
      split at ran
      · cases ran
      rename_i available
      split at ran
      · contradiction
      rename_i amm quote bought
      cases ran
      exact ⟨rfl, .inl ⟨rfl, rfl, ⟨wallet, found, not_lt.mp available⟩, bought, rfl⟩⟩
  | sell =>
      rw [side] at ran
      dsimp only [sweepSell] at ran
      split at ran
      · cases ran
      rename_i wallet found
      split at ran
      · cases ran
      rename_i holds
      split at ran
      · contradiction
      rename_i amm quote sold
      split at ran
      · contradiction
      rename_i pool poolFound
      split at ran
      · contradiction
      rename_i debited taken
      cases ran
      have nonneg : 0 ≤ quote.collateralIn := BinaryAMM.executeSell_nonneg sold
      refine ⟨rfl, .inr ⟨rfl, rfl, ⟨wallet, found⟩, not_lt.mp holds, sold, ⟨pool, poolFound⟩, ?_⟩⟩
      rw [(debitCollateral_ok nonneg taken).2, sub_sub_cancel_left]

/-- Why a leg was passed over. -/
theorem sweepLeg_none {db : Database} {remaining : ℚ}
    (passed : sweepLeg now db turn remaining = .ok none) :
    (∀ wallet, db.wallets.find? turn.order.userId = some wallet →
      turn.order.side = .buy ∧ wallet.available < remaining) ∨
    (turn.order.side = .sell ∧ Position.held db.positions turn.positionKey < remaining) := by
  unfold sweepLeg at passed
  cases side : turn.order.side with
  | buy =>
      rw [side] at passed
      dsimp only [sweepBuy] at passed
      split at passed
      · rename_i missing
        exact .inl fun wallet found => absurd (missing.symm.trans found) (by simp)
      rename_i wallet found
      split at passed
      · rename_i short
        refine .inl fun other otherFound => ⟨rfl, ?_⟩
        cases found.symm.trans otherFound
        exact short
      split at passed <;> cases passed
  | sell =>
      rw [side] at passed
      dsimp only [sweepSell] at passed
      split at passed
      · rename_i missing
        exact .inl fun wallet found => absurd (missing.symm.trans found) (by simp)
      split at passed
      · exact .inr ⟨rfl, ‹_›⟩
      split at passed
      · cases passed
      split at passed
      · cases passed
      split at passed <;> cases passed

theorem tradeOrder_ok (ran : tradeOrder now session turn = .ok processed) :
    ∃ matched fill, Trace now (pendingTaker now turn.order) session.current
        ⟨turn.order.remainingAmount, []⟩
        (pendingPlan now session turn.market turn.order turn.outcome.id) matched fill ∧
      processed.executed = fill.executed ∧
      ((processed.ammLeg = none ∧
          (fill.remaining ≤ 0 ∨ turn.canFill = false ∨
            sweepLeg now matched turn fill.remaining = .ok none) ∧
          (processed.session = ⟨session.committed, matched⟩ ∨
            processed.session = ⟨matched, matched⟩)) ∨
        ∃ traded leg, processed.ammLeg = some leg ∧ 0 < fill.remaining ∧ turn.canFill = true ∧
          sweepLeg now matched turn fill.remaining = .ok (some (traded, leg)) ∧
          processed.session = ⟨session.committed, traded⟩) := by
  unfold tradeOrder at ran
  split at ran
  · contradiction
  rename_i matched fill matching
  refine ⟨matched, fill, pending_trace matching, ?_⟩
  dsimp only at ran
  split at ran
  · rename_i left
    split at ran
    · rename_i fillable
      split at ran
      · contradiction
      · rename_i passed
        cases ran
        exact ⟨rfl, .inl ⟨rfl, .inr (.inr passed), .inl rfl⟩⟩
      · rename_i traded leg legRan
        cases ran
        exact ⟨rfl, .inr ⟨traded, leg, rfl, left, fillable, legRan, rfl⟩⟩
    · rename_i unfillable
      cases ran
      refine ⟨rfl, .inl ⟨rfl, .inr (.inl (by simpa using unfillable)), ?_⟩⟩
      dsimp only
      split
      · exact .inl rfl
      · exact .inr rfl
  · rename_i nothing
    cases ran
    exact ⟨rfl, .inl ⟨rfl, .inl (not_lt.mp nothing), .inl rfl⟩⟩

theorem takeTurn_some {db : Database} {parimutuel : Bool} {order : Order}
    (taken : takeTurn db market parimutuel order = some turn) :
    turn.market = market ∧ turn.order = order ∧ turn.parimutuel = parimutuel ∧
      turn.outcome.id = order.outcomeId ∧
      turn.poolKey = poolKey market turn.outcome.id parimutuel ∧
      ∃ pool, db.pools.find? turn.poolKey = some pool ∧
        (turn.amm, turn.ammSide) = tradingAmm db market turn.outcome pool parimutuel := by
  unfold takeTurn at taken
  split at taken
  · contradiction
  rename_i outcome found
  split at taken
  · contradiction
  rename_i pool resolved
  cases taken
  exact ⟨rfl, rfl, rfl, Table.key_of_find? found, rfl, pool, resolvePool_ok resolved, rfl⟩

/-- The ways an order's turn can go. -/
theorem processOrder_ok {parimutuel : Bool} {orderId : OrderId}
    (ran : processOrder now market parimutuel session orderId = .ok processed) :
    (processed = ⟨session, [], none⟩ ∧
      ∀ order, session.current.orders.find? orderId = some order →
        order.status.isOpen = false ∨ takeTurn session.current market parimutuel order = none) ∨
    (∃ order, session.current.orders.find? orderId = some order ∧ order.status.isOpen = true ∧
      hasExpired now order = true ∧
      processed = ⟨Session.commit ⟨session.committed, expireOrder now session.current order⟩,
        [], none⟩) ∨
    (∃ order turn, session.current.orders.find? orderId = some order ∧
      order.status.isOpen = true ∧ hasExpired now order = false ∧
      takeTurn session.current market parimutuel order = some turn ∧
      tradeOrder now session turn = .ok processed) := by
  unfold processOrder at ran
  split at ran
  · rename_i missing
    cases ran
    exact .inl ⟨rfl, fun order found => absurd (missing.symm.trans found) (by simp)⟩
  rename_i order found
  have unique : ∀ other, session.current.orders.find? orderId = some other → other = order :=
    fun other otherFound => Option.some.inj (otherFound.symm.trans found)
  split at ran
  · rename_i closed
    cases ran
    exact .inl ⟨rfl, fun other otherFound => .inl (unique other otherFound ▸ closed)⟩
  rename_i opened
  have isOpen : order.status.isOpen = true := by simpa using opened
  split at ran
  · rename_i expired
    cases ran
    exact .inr (.inl ⟨order, found, isOpen, expired, rfl⟩)
  rename_i lasting
  split at ran
  · rename_i passed
    cases ran
    exact .inl ⟨rfl, fun other otherFound => .inr (unique other otherFound ▸ passed)⟩
  · rename_i turn taken
    exact .inr (.inr ⟨order, turn, found, isOpen, by simpa using lasting, taken, ran⟩)

end Turn

/-! # Sessions of a sweep -/

/-- The sessions a sweep over `db` passes through. -/
inductive Sweeping (now : Timestamp) (db : Database) : Session → Prop
  | start : Sweeping now db (.start db)
  | turn {session : Session} {market : MarketId} {parimutuel : Bool} {orderId : OrderId}
      {processed : Processed} (before : Sweeping now db session)
      (ran : processOrder now market parimutuel session orderId = .ok processed) :
      Sweeping now db processed.session
  | commit {session : Session} (before : Sweeping now db session) :
      Sweeping now db session.commit
  | rollback {session : Session} (before : Sweeping now db session) :
      Sweeping now db session.rollback

theorem Sweeping.orders {now : Timestamp} {db : Database} {market : MarketId} {parimutuel : Bool}
    (ids : List OrderId) {session : Session} (sweeping : Sweeping now db session) :
    Sweeping now db (sweepOrders now market parimutuel ids session) := by
  induction ids generalizing session with
  | nil => exact sweeping.commit
  | cons orderId rest ih =>
      unfold sweepOrders
      split
      · exact sweeping.rollback
      · rename_i processed ran
        exact ih (sweeping.turn ran)

theorem Sweeping.market {now : Timestamp} {db : Database} {session : Session}
    (sweeping : Sweeping now db session) (market : MarketId) (ids : List OrderId) :
    Sweeping now db (sweepMarket now session market ids) := by
  unfold sweepMarket
  split
  · exact sweeping.rollback
  · split
    · exact sweeping.rollback
    · exact sweeping.orders ids

/-- The sweep ends with the last commit of a session it passed through. -/
theorem checkLimitOrderExecution_sweeping (now : Timestamp) (scanned : List Order)
    (db : Database) : ∃ session, Sweeping now db session ∧
      checkLimitOrderExecution now scanned db = session.committed := by
  refine ⟨_, ?_, rfl⟩
  have reach : ∀ (batches : List (MarketId × List OrderId)) {session : Session},
      Sweeping now db session → Sweeping now db
        (batches.foldl (fun session group => sweepMarket now session group.1 group.2) session) := by
    intro batches
    induction batches with
    | nil => exact id
    | cons batch rest ih => exact fun sweeping => ih (sweeping.market batch.1 batch.2)
  exact reach _ .start

/-- The groups hold the scanned rows, each in its market's. -/
theorem mem_groups {scanned : List Order} {group : MarketId × List OrderId} {orderId : OrderId}
    (member : group ∈ groups scanned) (listed : orderId ∈ group.2) :
    ∃ order ∈ scanned, order.id = orderId ∧ order.marketId = group.1 := by
  obtain ⟨market, _, rfl⟩ := List.mem_map.mp member
  obtain ⟨order, found, rfl⟩ := List.mem_map.mp listed
  rw [List.mem_filter] at found
  exact ⟨order, found.1, rfl, by simpa using found.2⟩

section Invariant

variable {dirty : Option (List MarketId)} {scanned : List Order} {db : Database}

/-- An invariant of the sweep's sessions, from the turns of the rows it scanned.  Each row
is met in its own market's group. -/
theorem checkLimitOrderExecution_invariant (now : Timestamp) (property : Session → Prop)
    (reads : Scanned dirty db scanned) (initially : property (.start db))
    (commit : ∀ {session : Session}, Sweeping now db session → property session →
      property session.commit)
    (rollback : ∀ {session : Session}, property session → property session.rollback)
    (turn : ∀ {session : Session} {market : MarketId} {parimutuel : Bool} {orderId : OrderId}
      {processed : Processed} {row : Order}, Sweeping now db session → property session →
      db.orders.find? orderId = some row → row.marketId = market →
      processOrder now market parimutuel session orderId = .ok processed →
      property processed.session) :
    ∃ session, property session ∧ checkLimitOrderExecution now scanned db = session.committed := by
  have orders : ∀ {market : MarketId} {parimutuel : Bool} (ids : List OrderId),
      (∀ orderId ∈ ids, ∃ row, db.orders.find? orderId = some row ∧ row.marketId = market) →
      ∀ {session : Session}, Sweeping now db session → property session →
        property (sweepOrders now market parimutuel ids session) := by
    intro market parimutuel ids
    induction ids with
    | nil => exact fun _ _ sweeping held => commit sweeping held
    | cons orderId rest ih =>
        intro placed session sweeping held
        unfold sweepOrders
        split
        · exact rollback held
        · rename_i processed ran
          obtain ⟨row, found, ofMarket⟩ := placed orderId List.mem_cons_self
          exact ih (fun other member => placed other (List.mem_cons_of_mem _ member))
            (sweeping.turn ran) (turn sweeping held found ofMarket ran)
  have batches : ∀ (batches : List (MarketId × List OrderId)),
      (∀ batch ∈ batches, ∀ orderId ∈ batch.2,
        ∃ row, db.orders.find? orderId = some row ∧ row.marketId = batch.1) →
      ∀ {session : Session}, Sweeping now db session → property session →
        property (batches.foldl (fun session group => sweepMarket now session group.1 group.2)
          session) := by
    intro batches
    induction batches with
    | nil => exact fun _ _ _ held => held
    | cons batch rest ih =>
        intro placed session sweeping held
        refine ih (fun other member => placed other (List.mem_cons_of_mem _ member))
          (sweeping.market batch.1 batch.2) ?_
        dsimp only [sweepMarket]
        split
        · exact rollback held
        split
        · exact rollback held
        · exact orders batch.2 (placed batch List.mem_cons_self) sweeping held
  refine ⟨_, batches _ ?_ .start initially, rfl⟩
  intro batch member orderId listed
  obtain ⟨order, scannedHere, rfl, ofMarket⟩ := mem_groups member listed
  have stored := (List.mem_filter.mp (reads.mem_iff.mp scannedHere)).1
  exact ⟨order, Table.find?_key_of_mem stored, ofMarket⟩

end Invariant

/-- What matching, the AMM leg and expiry preserve, a sweep preserves. -/
theorem Sweeping.preserves {now : Timestamp} {db : Database} {session : Session}
    (property : Database → Prop)
    (book : ∀ {session : Session} {order : Order} {market : MarketId} {outcome : OutcomeId}
      {matched : Database} {fill : PendingFill}, property session.current →
      Trace now (pendingTaker now order) session.current ⟨order.remainingAmount, []⟩
        (pendingPlan now session market order outcome) matched fill → property matched)
    (amm : ∀ {matched traded : Database} {turn : Turn} {remaining : ℚ} {leg : AmmLeg},
      property matched → 0 < remaining →
      sweepLeg now matched turn remaining = .ok (some (traded, leg)) → property traded)
    (expiry : ∀ (db : Database) (order : Order), property db → property (expireOrder now db order))
    (initially : property db) (sweeping : Sweeping now db session) :
    property session.committed ∧ property session.current := by
  induction sweeping with
  | start => exact ⟨initially, initially⟩
  | commit _ ih => exact ⟨ih.2, ih.2⟩
  | rollback _ ih => exact ⟨ih.1, ih.1⟩
  | turn _ ran ih =>
      rcases processOrder_ok ran with ⟨rfl, _⟩ | ⟨order, _, _, _, rfl⟩ | ⟨_, turn, _, _, _, _, traded⟩
      · exact ih
      · exact ⟨expiry _ order ih.2, expiry _ order ih.2⟩
      · obtain ⟨matched, fill, trace, _, ends⟩ := tradeOrder_ok traded
        have afterBook : property matched := book ih.2 trace
        rcases ends with ⟨_, _, kept | committed⟩ | ⟨after, leg, _, left, _, legRan, final⟩
        · rw [kept]
          exact ⟨ih.1, afterBook⟩
        · rw [committed]
          exact ⟨afterBook, afterBook⟩
        · rw [final]
          exact ⟨ih.1, amm afterBook left legRan⟩

/-- The rows of the last commit are still there with their terms. -/
def Session.Consistent (session : Session) : Prop :=
  Evolves session.committed.orders session.current.orders

theorem markExpired_id (now : Timestamp) (order : Order) :
    (markExpired now order).id = order.id := rfl

theorem expireOrder_evolves (now : Timestamp) (db : Database) (order : Order) :
    Evolves db.orders (expireOrder now db order).orders :=
  Evolves.modify (fun order => (markExpired_id now order)) fun _ =>
    ⟨rfl, rfl, rfl, rfl, rfl, rfl⟩

/-- What expiring one open order preserves, `expire_stale_orders` preserves. -/
theorem expireStaleOrders_preserves {now : Timestamp} (property : Database → Prop)
    (expiry : ∀ {db : Database} {order : Order}, db.orders.find? order.id = some order →
      order.status.isOpen = true → property db → property (expireOrder now db order))
    {db : Database} (initially : property db) : property (expireStaleOrders now db) := by
  -- The rows still to come are as the query saw them.
  have along : ∀ (stale : List Order) {db : Database}, property db →
      (∀ order ∈ stale, db.orders.find? order.id = some order ∧ order.status.isOpen = true) →
      (stale.map Order.id).Nodup → property (stale.foldl (expireOrder now) db) := by
    intro stale
    induction stale with
    | nil => exact fun held _ _ => held
    | cons order rest ih =>
        intro db held current distinct
        rw [List.map_cons, List.nodup_cons] at distinct
        obtain ⟨found, opened⟩ := current order List.mem_cons_self
        refine ih (expiry found opened held) ?_ distinct.2
        intro other member
        obtain ⟨otherFound, otherOpen⟩ := current other (List.mem_cons_of_mem _ member)
        have apart : other.id ≠ order.id := by
          intro same
          exact distinct.1 (same ▸ List.mem_map_of_mem member)
        refine ⟨?_, otherOpen⟩
        change (db.orders.modify order.id (markExpired now)).find? other.id = some other
        rw [Table.find?_modify_ne apart, otherFound]
  refine along _ initially ?_ (db.orders.unique.sublist (List.filter_sublist.map _))
  intro order member
  rw [List.mem_filter] at member
  have stale := member.2
  simp only [isStale, Bool.and_eq_true] at stale
  exact ⟨Table.find?_key_of_mem member.1, stale.1.2⟩

theorem tradeOrder_consistent {now : Timestamp} {session : Session} {turn : Turn}
    {processed : Processed} (consistent : session.Consistent)
    (ran : tradeOrder now session turn = .ok processed) :
    processed.session.Consistent := by
  obtain ⟨matched, fill, trace, _, ends⟩ := tradeOrder_ok ran
  have matchedEvolves : Evolves session.current.orders matched.orders :=
    trace_evolves (fun details orders =>
      Evolves.modify (fillTaker_id now _) (fillTaker_sameTerms now _)) trace
  rcases ends with ⟨_, _, kept | committed⟩ | ⟨traded, leg, _, _, _, legRan, after⟩
  · rw [kept]
    exact consistent.trans matchedEvolves
  · rw [committed]
    exact .refl _
  · rw [after]
    have written : Evolves matched.orders traded.orders := by
      rcases (sweepLeg_ok legRan).2 with ⟨_, _, _, _, rfl⟩ | ⟨_, _, _, _, _, _, rfl⟩
      · exact Evolves.modify (fillResting_id now leg) (fillResting_sameTerms now leg)
      · exact Evolves.modify (fillResting_id now leg) (fillResting_sameTerms now leg)
    exact (consistent.trans matchedEvolves).trans written

theorem Sweeping.consistent {now : Timestamp} {db : Database} {session : Session}
    (sweeping : Sweeping now db session) : session.Consistent := by
  induction sweeping with
  | start => exact .refl _
  | commit => exact .refl _
  | rollback => exact .refl _
  | turn before ran ih =>
      rcases processOrder_ok ran with ⟨rfl, _⟩ | ⟨_, _, _, _, rfl⟩ | ⟨_, _, _, _, _, _, traded⟩
      · exact ih
      · exact .refl _
      · exact tradeOrder_consistent ih traded

/-- What the makers of a resting order look like by their current values. -/
theorem pendingPlan_maker {now : Timestamp} {session : Session} {market : MarketId}
    {order : Order} {outcome : OutcomeId} {offer : Offer} (consistent : session.Consistent)
    (member : offer ∈ pendingPlan now session market order outcome) :
    session.current.orders.find? offer.maker.id = some offer.maker ∧
      offer.maker.marketId = market ∧ offer.maker.outcomeId = outcome ∧
      offer.maker.side = order.side.opposite ∧ offer.maker.userId ≠ order.userId ∧
      priceCrosses order.side (some order.price) offer.maker.price = true := by
  obtain ⟨found, row, rowMember, sameId, isMatch_⟩ := mem_findMatches (maker_mem_of_mem_plan member)
  obtain ⟨current, currentFound, terms⟩ := consistent row.id row (Table.find?_key_of_mem rowMember)
  rw [sameId, found] at currentFound
  cases currentFound
  obtain ⟨marketId, outcomeId, side, _, _, price, userId⟩ := isMatch_iff.mp isMatch_
  refine ⟨found, terms.marketId.trans marketId, terms.outcomeId.trans outcomeId,
    terms.side.trans side, ?_, ?_⟩
  · rw [terms.userId]
    exact userId
  · rw [terms.price]
    exact price

end PredictX.LimitSweep
