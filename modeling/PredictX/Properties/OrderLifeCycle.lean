import PredictX.Properties.LockedFunds

namespace PredictX

open PredictX.Data PredictX.Amm PredictX.MatchingEngine PredictX.LimitSweep

/-! The life of an order row.

A row is written by four paths: as an incoming order, as the maker of a match, as the
resting taker of the sweep and by cancelling or expiring it.  Each of them acts on an
open row only, and a fill never takes more than the row has left.
-/

/-- What the status of an order says about its remaining amount. -/
structure Order.LifeCycle (order : Order) : Prop where
  amount : 0 < order.amount
  nonneg : 0 ≤ order.remainingAmount
  pending : order.status = .pending → order.remainingAmount = order.amount
  partially : order.status = .partiallyFilled →
    0 < order.remainingAmount ∧ order.remainingAmount < order.amount
  filled : order.status = .filled ↔ order.remainingAmount = 0
  priced : order.status.isOpen = true → 0 < order.price ∧ order.price ≤ 1

/-- What a step does to a row: it grows no larger, and a closed row stays as it is. -/
structure Order.Ages (before after : Order) : Prop where
  lives : before.LifeCycle → after.LifeCycle
  remaining : after.remainingAmount ≤ before.remainingAmount
  closed : before.status.isOpen = false → after = before

/-- What a fill does to a row. -/
structure Order.Fills (before after : Order) : Prop extends Order.Ages before after where
  wanes : Wanes before after

namespace Order

variable {order before after first second third : Order} {now : Timestamp} {spent : ℚ}

theorem LifeCycle.left (lives : order.LifeCycle) (opened : order.status.isOpen = true) :
    0 < order.remainingAmount ∧ order.remainingAmount ≤ order.amount := by
  cases status : order.status with
  | pending =>
      rw [lives.pending status]
      exact ⟨lives.amount, le_rfl⟩
  | partiallyFilled => exact ⟨(lives.partially status).1, (lives.partially status).2.le⟩
  | filled => simp [status, OrderStatus.isOpen] at opened
  | cancelled => simp [status, OrderStatus.isOpen] at opened
  | expired => simp [status, OrderStatus.isOpen] at opened

theorem Ages.refl (order : Order) : Ages order order := ⟨fun lives => lives, le_rfl, fun _ => rfl⟩

theorem Ages.trans (left : Ages first second) (right : Ages second third) : Ages first third := by
  refine ⟨right.lives ∘ left.lives, right.remaining.trans left.remaining, fun closed => ?_⟩
  have same := left.closed closed
  rw [← same] at closed
  exact (right.closed closed).trans same

theorem Fills.refl (order : Order) : Fills order order := ⟨.refl order, .refl order⟩

theorem Fills.trans (left : Fills first second) (right : Fills second third) :
    Fills first third := ⟨left.toAges.trans right.toAges, left.wanes.trans right.wanes⟩

theorem fillMaker_fills (now : Timestamp) (opened : order.status.isOpen = true)
    (positive : 0 < spent) (covered : spent ≤ order.remainingAmount) :
    Fills order (fillMaker now spent order) := by
  have wanes : Wanes order (fillMaker now spent order) := fillMaker_wanes positive.le opened
  refine ⟨⟨fun lives => ?_, wanes.remaining, fun closed => ?_⟩, wanes⟩
  · obtain ⟨_, atMost⟩ := lives.left opened
    unfold fillMaker
    dsimp only
    split
    · have nothing : order.remainingAmount - spent = 0 := by linarith
      exact ⟨lives.amount, nothing.ge, by simp, by simp, by simpa using nothing,
        by simp [OrderStatus.isOpen]⟩
    · rename_i left
      have something : 0 < order.remainingAmount - spent := not_le.mp left
      refine ⟨lives.amount, something.le, by simp, fun _ => ⟨something, ?_⟩, ?_,
        fun _ => lives.priced opened⟩
      · dsimp only
        linarith
      · simp [something.ne']
  · simp [closed] at opened

/-- Unless it is filled already, the taker's row is written as a maker's. -/
theorem fillTaker_eq (unfilled : order.status ≠ .filled) :
    fillTaker now spent order = fillMaker now spent order := by
  simp only [fillTaker, fillMaker, if_neg unfilled]

theorem fillTaker_fills (now : Timestamp) (opened : order.status.isOpen = true)
    (positive : 0 < spent) (covered : spent ≤ order.remainingAmount) :
    Fills order (fillTaker now spent order) := by
  have unfilled : order.status ≠ .filled := by
    intro filled
    simp [filled, OrderStatus.isOpen] at opened
  rw [fillTaker_eq unfilled]
  exact fillMaker_fills now opened positive covered

theorem fillResting_fills (now : Timestamp) {leg : OrderService.AmmLeg}
    (opened : order.status.isOpen = true) (positive : 0 < leg.quantity)
    (covered : leg.quantity ≤ order.remainingAmount) :
    Fills order (fillResting now leg order) := by
  have filled := fillTaker_fills now opened positive covered
  have terms := filled.wanes.terms
  refine ⟨⟨fun lives => ?_, filled.remaining, fun closed => ?_⟩,
    ⟨terms.userId, terms.marketId, terms.outcomeId, terms.side, terms.price, terms.amount⟩,
    filled.remaining, filled.wanes.opened, filled.wanes.spent⟩
  · have next := filled.lives lives
    exact ⟨next.amount, next.nonneg, next.pending, next.partially, next.filled, next.priced⟩
  · simp [closed] at opened

/-- Cancelling and expiring an order keep what it had left. -/
theorem ages_close {status : OrderStatus} {executedAt : Option Timestamp}
    (opened : order.status.isOpen = true) (closes : status = .cancelled ∨ status = .expired) :
    Ages order { order with status, executedAt } := by
  refine ⟨fun lives => ?_, le_rfl, fun closed => ?_⟩
  · have left := (lives.left opened).1
    rcases closes with rfl | rfl
    · exact ⟨lives.amount, lives.nonneg, by simp, by simp, by simpa using left.ne',
        by simp [OrderStatus.isOpen]⟩
    · exact ⟨lives.amount, lives.nonneg, by simp, by simp, by simpa using left.ne',
        by simp [OrderStatus.isOpen]⟩
  · simp [closed] at opened

end Order

/-! # Matches -/

namespace MatchingEngine

/-- The maker's row when its offer is due: open, and with enough left. -/
structure Served (orders : Table Order.id) (offer : Offer) : Prop where
  row : orders.find? offer.maker.id = some offer.maker
  opened : offer.maker.status.isOpen = true
  spent : 0 < makerSpent offer.maker offer.quantity offer.usdc
  covered : makerSpent offer.maker offer.quantity offer.usdc ≤ offer.maker.remainingAmount

variable {σ : Type} {now : Timestamp} {taker : Taker σ} {takerId : OrderId} {db after : Database}
  {fill final : σ} {offers : List Offer}

/-- A loop fills its makers, and the taker's row if `own` says that it has room. -/
theorem Trace.fills (own : σ → Table Order.id → Prop)
    (elsewhere : ∀ {fill : σ} {orders : Table Order.id} {id : OrderId} {update : Order → Order}
      (keeps : ∀ row, (update row).id = row.id), id ≠ takerId → own fill orders →
      own fill (orders.modify id update keeps))
    (store : ∀ (outcomes : Table Outcome.id) {fill : σ} {maker : Order} {quantity : ℚ}
      {orders : Table Order.id}, taker.quantity fill maker = .ok (some quantity) →
      own fill orders →
      Table.Linked Order.Fills orders
          (taker.store (executedDetails outcomes maker quantity) orders) ∧
        own (taker.record fill (executedDetails outcomes maker quantity))
          (taker.store (executedDetails outcomes maker quantity) orders) ∧
        ∀ id, id ≠ takerId →
          (taker.store (executedDetails outcomes maker quantity) orders).find? id =
            orders.find? id)
    (trace : Trace now taker db fill offers after final)
    (served : ∀ offer ∈ offers, Served db.orders offer)
    (distinct : (offers.map fun offer => offer.maker.id).Nodup)
    (apart : ∀ offer ∈ offers, offer.maker.id ≠ takerId) (initially : own fill db.orders) :
    Table.Linked Order.Fills db.orders after.orders ∧ own final after.orders := by
  induction trace with
  | done => exact ⟨.refl Order.Fills.refl _, initially⟩
  | skip _ _ _ ih =>
      exact ih (fun offer member => served offer (List.mem_cons_of_mem _ member))
        (List.nodup_cons.mp distinct).2
        (fun offer member => apart offer (List.mem_cons_of_mem _ member)) initially
  | @deliver db _ fill _ maker quantity later asked _ _ _ ih =>
      rw [List.map_cons, List.nodup_cons] at distinct
      have head := served _ List.mem_cons_self
      have makerFills : Table.Linked Order.Fills db.orders _ :=
        .modify Order.Fills.refl (fillMaker_id now _) head.row
          (Order.fillMaker_fills now head.opened head.spent head.covered)
      obtain ⟨takerFills, owned, others⟩ := store db.outcomes asked
        (elsewhere (fillMaker_id now _) (apart _ List.mem_cons_self) initially)
      have step : Table.Linked Order.Fills db.orders
          (MatchingEngine.deliver now taker db maker quantity).orders :=
        makerFills.trans Order.Fills.trans takerFills
      have servedNext : ∀ offer ∈ later,
          Served (MatchingEngine.deliver now taker db maker quantity).orders offer := by
        intro offer member
        obtain ⟨row, opened, spent, covered⟩ := served offer (List.mem_cons_of_mem _ member)
        have makerNext : offer.maker.id ≠ maker.id := fun same =>
          distinct.1 (same ▸ List.mem_map_of_mem member)
        refine ⟨?_, opened, spent, covered⟩
        exact (others _ (apart offer (List.mem_cons_of_mem _ member))).trans
          ((Table.find?_modify_ne makerNext).trans row)
      obtain ⟨linked, last⟩ := ih servedNext distinct.2
        (fun offer member => apart offer (List.mem_cons_of_mem _ member)) owned
      exact ⟨step.trans Order.Fills.trans linked, last⟩

/-- A match of an open maker at a price in (0, 1] for no more than it has left. -/
theorem Served.of_quantity {orders : Table Order.id} {offer : Offer}
    (row : orders.find? offer.maker.id = some offer.maker)
    (opened : offer.maker.status.isOpen = true) (positive : 0 < offer.quantity)
    (price : 0 < offer.maker.price)
    (covered : match offer.maker.side with
      | .buy => offer.usdc ≤ offer.maker.remainingAmount
      | .sell => offer.quantity ≤ offer.maker.remainingAmount) : Served orders offer := by
  refine ⟨row, opened, ?_, ?_⟩
  · unfold makerSpent
    split
    · exact mul_pos positive price
    · exact positive
  · unfold makerSpent
    split at covered <;> simp [*]

theorem bookQuantity_le {amount quantity : ℚ} {fill : BookFill} {maker : Order}
    (asked : bookQuantity .buy amount fill maker = .ok (some quantity)) :
    quantity ≤ maker.remainingAmount := by
  simp only [bookQuantity] at asked
  split at asked
  · contradiction
  split at asked
  · cases asked
  split at asked
  · cases asked
  cases asked
  exact min_le_left _ _

/-- What a resting order hands a maker is within what it has left. -/
theorem pendingQuantity_spent {side : Side} {fill : PendingFill} {maker : Order} {quantity : ℚ}
    (outcomes : Table Outcome.id) (asked : pendingQuantity side fill maker = some quantity) :
    0 < fill.remaining ∧ 0 < takerSpent side (executedDetails outcomes maker quantity) ∧
      takerSpent side (executedDetails outcomes maker quantity) ≤ fill.remaining := by
  have positive := pendingQuantity_pos asked
  unfold pendingQuantity at asked
  split at asked
  · contradiction
  rename_i left
  extract_lets offered at asked
  split at asked
  · contradiction
  refine ⟨not_le.mp left, ?_⟩
  cases side with
  | buy =>
      have isMin : quantity = min maker.remainingAmount
          (if 0 < maker.price then fill.remaining / maker.price else 0) := (Option.some.inj asked).symm
      by_cases price : 0 < maker.price
      · rw [if_pos price] at isMin
        have affordable : quantity ≤ fill.remaining / maker.price :=
          isMin.le.trans (min_le_right _ _)
        exact ⟨mul_pos positive price, (le_div_iff₀ price).mp affordable⟩
      · rw [if_neg price] at isMin
        have nothing : quantity ≤ 0 := isMin.le.trans (min_le_right _ _)
        linarith
  | sell =>
      have isMin : quantity = min maker.remainingAmount fill.remaining :=
        (Option.some.inj asked).symm
      exact ⟨positive, isMin.le.trans (min_le_right _ _)⟩

end MatchingEngine

/-! # The sweep -/

namespace LimitSweep

section Turn

variable {now : Timestamp} {session : Session} {market : MarketId} {order : Order}
  {outcome : OutcomeId} {matched : Database} {fill : PendingFill}

/-- Every row of the table keeps to its life cycle. -/
def Orderly (orders : Table Order.id) : Prop :=
  ∀ id row, orders.find? id = some row → row.LifeCycle

theorem Orderly.ages {before after : Table Order.id} (orderly : Orderly before)
    (linked : Table.Linked Order.Ages before after) : Orderly after := by
  intro id row found
  obtain ⟨earlier, earlierFound, ages⟩ := linked.backward found
  exact ages.lives (orderly id earlier earlierFound)

/-- The row of the order whose turn it is, as the loop runs. -/
def Taking (order : Order) (fill : PendingFill) (orders : Table Order.id) : Prop :=
  ∃ row, orders.find? order.id = some row ∧ row.LifeCycle ∧
    row.remainingAmount = fill.remaining ∧ (0 < fill.remaining → row.status.isOpen = true)

theorem pendingPlan_served (consistent : session.Consistent)
    (orderly : Orderly session.current.orders)
    (live : Table.Linked Wanes session.committed.orders session.current.orders)
    (trace : Trace now (pendingTaker now order) session.current ⟨order.remainingAmount, []⟩
      (pendingPlan now session market order outcome) matched fill) :
    ∀ offer ∈ pendingPlan now session market order outcome,
      Served session.current.orders offer := by
  intro offer member
  obtain ⟨row, _⟩ := pendingPlan_maker consistent member
  have opened := pendingPlan_open live trace offer member
  obtain ⟨price, atMostOne⟩ := (orderly _ _ row).priced opened
  have positive := pending_positive trace offer member
  obtain ⟨_, asked⟩ := trace.asked offer member
  have within : offer.quantity ≤ offer.maker.remainingAmount :=
    pendingQuantity_le (Except.ok.inj asked)
  have worth : offer.usdc ≤ offer.maker.remainingAmount :=
    (mul_le_of_le_one_right positive.le atMostOne).trans within
  refine .of_quantity row opened positive price ?_
  cases offer.maker.side with
  | buy => exact worth
  | sell => exact within

theorem pendingTaker_stores (outcomes : Table Outcome.id) {fill : PendingFill} {maker : Order}
    {quantity : ℚ} {orders : Table Order.id}
    (asked : (pendingTaker now order).quantity fill maker = .ok (some quantity))
    (taking : Taking order fill orders) :
    Table.Linked Order.Fills orders
        ((pendingTaker now order).store (executedDetails outcomes maker quantity) orders) ∧
      Taking order ((pendingTaker now order).record fill (executedDetails outcomes maker quantity))
        ((pendingTaker now order).store (executedDetails outcomes maker quantity) orders) ∧
      ∀ id, id ≠ order.id →
        ((pendingTaker now order).store (executedDetails outcomes maker quantity) orders).find? id =
          orders.find? id := by
  obtain ⟨left, spent, within⟩ := pendingQuantity_spent outcomes (Except.ok.inj asked)
  obtain ⟨row, found, lives, remaining, isOpen⟩ := taking
  have opened := isOpen left
  have fills := Order.fillTaker_fills now opened spent (within.trans remaining.ge)
  have stored : (pendingTaker now order).store (executedDetails outcomes maker quantity) orders =
      orders.modify order.id
        (fillTaker now (takerSpent order.side (executedDetails outcomes maker quantity)))
        (fillTaker_id now _) := rfl
  rw [stored]
  refine ⟨.modify Order.Fills.refl (fillTaker_id now _) found fills, ?_,
    fun orderId other => Table.find?_modify_ne other⟩
  have next : (fillTaker now (takerSpent order.side (executedDetails outcomes maker quantity))
      row).remainingAmount =
        fill.remaining - takerSpent order.side (executedDetails outcomes maker quantity) := by
    rw [← remaining]
    unfold fillTaker
    dsimp only
    split <;> rfl
  refine ⟨_, ?_, fills.lives lives, next, fun more => ?_⟩
  · rw [Table.find?_modify_self, found]
    rfl
  · rcases fills.wanes.spent opened with still | nothing
    · exact still
    · rw [next] at nothing
      exact absurd more (not_lt.mpr nothing)

/-- The book leg of a turn. -/
theorem matched_fills (consistent : session.Consistent) (orderly : Orderly session.current.orders)
    (live : Table.Linked Wanes session.committed.orders session.current.orders)
    (found : session.current.orders.find? order.id = some order)
    (opened : order.status.isOpen = true)
    (trace : Trace now (pendingTaker now order) session.current ⟨order.remainingAmount, []⟩
      (pendingPlan now session market order outcome) matched fill) :
    Table.Linked Order.Fills session.current.orders matched.orders ∧
      Taking order fill matched.orders := by
  refine trace.fills (Taking order) ?_ pendingTaker_stores
    (pendingPlan_served consistent orderly live trace)
    (pendingPlan_distinct now session market order outcome) ?_
    ⟨order, found, orderly _ _ found, rfl, fun _ => opened⟩
  · intro fill orders id update keeps other taking
    obtain ⟨row, rowFound, rest⟩ := taking
    exact ⟨row, (Table.find?_modify_ne (Ne.symm other)).trans rowFound, rest⟩
  · intro offer member same
    obtain ⟨row, _, _, _, users, _⟩ := pendingPlan_maker consistent member
    rw [same, found] at row
    exact users (congrArg Order.userId (Option.some.inj row)).symm

/-- The AMM leg of a turn fills the rest of the order. -/
theorem sweepLeg_fills {turn : Turn} {traded : Database} {leg : OrderService.AmmLeg}
    (taking : Taking turn.order fill matched.orders) (left : 0 < fill.remaining)
    (ran : sweepLeg now matched turn fill.remaining = .ok (some (traded, leg))) :
    Table.Linked Order.Fills matched.orders traded.orders := by
  obtain ⟨row, found, _, remaining, isOpen⟩ := taking
  obtain ⟨quantity, sides⟩ := sweepLeg_ok ran
  have fills : Order.Fills row (fillResting now leg row) :=
    Order.fillResting_fills now (isOpen left) (by rw [quantity]; exact left)
      (by rw [quantity, remaining])
  rcases sides with ⟨_, _, _, _, rfl⟩ | ⟨_, _, _, _, _, _, rfl⟩
  · exact .modify Order.Fills.refl (fillResting_id now leg) found fills
  · exact .modify Order.Fills.refl (fillResting_id now leg) found fills

end Turn

/-- Where a session's rows stand against the rows the sweep began with. -/
structure Session.Ages (db : Database) (session : Session) : Prop where
  committed : Table.Linked Order.Ages db.orders session.committed.orders
  current : Table.Linked Order.Fills session.committed.orders session.current.orders

theorem Session.Ages.latest {db : Database} {session : Session} (ages : session.Ages db) :
    Table.Linked Order.Ages db.orders session.current.orders :=
  ages.committed.trans Order.Ages.trans (ages.current.mono Order.Fills.toAges)

theorem expireOrder_ages {now : Timestamp} {db : Database} {order : Order}
    (found : db.orders.find? order.id = some order) (opened : order.status.isOpen = true) :
    Table.Linked Order.Ages db.orders (expireOrder now db order).orders :=
  .modify Order.Ages.refl (markExpired_id now) found (Order.ages_close opened (.inr rfl))

theorem tradeOrder_ages {now : Timestamp} {db : Database} {session : Session} {turn : Turn}
    {processed : Processed} (orderly : Orderly db.orders) (consistent : session.Consistent)
    (ages : session.Ages db)
    (found : session.current.orders.find? turn.order.id = some turn.order)
    (opened : turn.order.status.isOpen = true)
    (ran : tradeOrder now session turn = .ok processed) : processed.session.Ages db := by
  obtain ⟨matched, fill, trace, _, ends⟩ := tradeOrder_ok ran
  obtain ⟨book, taking⟩ := matched_fills consistent (orderly.ages ages.latest)
    (ages.current.mono Order.Fills.wanes) found opened trace
  have sinceCommit : Table.Linked Order.Fills session.committed.orders matched.orders :=
    ages.current.trans Order.Fills.trans book
  rcases ends with ⟨_, _, kept | committed⟩ | ⟨traded, leg, _, left, _, legRan, final⟩
  · rw [kept]
    exact ⟨ages.committed, sinceCommit⟩
  · rw [committed]
    exact ⟨ages.latest.trans Order.Ages.trans (book.mono Order.Fills.toAges),
      .refl Order.Fills.refl _⟩
  · rw [final]
    exact ⟨ages.committed, sinceCommit.trans Order.Fills.trans (sweepLeg_fills taking left legRan)⟩

theorem Sweeping.ages {now : Timestamp} {db : Database} {session : Session}
    (orderly : Orderly db.orders) (sweeping : Sweeping now db session) : session.Ages db := by
  induction sweeping with
  | start => exact ⟨.refl Order.Ages.refl _, .refl Order.Fills.refl _⟩
  | commit _ ih => exact ⟨ih.latest, .refl Order.Fills.refl _⟩
  | rollback _ ih => exact ⟨ih.committed, .refl Order.Fills.refl _⟩
  | turn before ran ih =>
      rcases processOrder_ok ran with ⟨rfl, _⟩ | ⟨order, found, opened, _, rfl⟩ |
        ⟨order, turn, found, opened, _, taken, traded⟩
      · exact ih
      · obtain rfl := Table.key_of_find? found
        exact ⟨ih.latest.trans Order.Ages.trans (expireOrder_ages found opened),
          .refl Order.Fills.refl _⟩
      · obtain rfl := Table.key_of_find? found
        obtain ⟨_, rfl, _⟩ := takeTurn_some taken
        exact tradeOrder_ages orderly before.consistent ih found opened traded

theorem checkLimitOrderExecution_ages {now : Timestamp} {scanned : List Order} {db : Database}
    (orderly : Orderly db.orders) :
    Table.Linked Order.Ages db.orders (checkLimitOrderExecution now scanned db).orders := by
  obtain ⟨session, sweeping, final⟩ := checkLimitOrderExecution_sweeping now scanned db
  rw [final]
  exact (sweeping.ages orderly).committed

theorem expireStaleOrders_ages (now : Timestamp) (db : Database) :
    Table.Linked Order.Ages db.orders (expireStaleOrders now db).orders := by
  refine expireStaleOrders_preserves
    (fun after => Table.Linked Order.Ages db.orders after.orders) ?_ (.refl Order.Ages.refl _)
  intro middle order found opened ages
  exact ages.trans Order.Ages.trans (expireOrder_ages found opened)

end LimitSweep

/-! # Incoming orders -/

namespace OrderService

variable {env : Env} {db matched after : Database} {user : UserId} {venue : Venue}
  {data : OrderRequest} {execution : Execution} {book : BookFill}

theorem bookPlan_served
    (trace : Trace env.now (bookTaker data.side data.amount user) db .empty
      (bookPlan db user venue data) matched book) :
    ∀ offer ∈ bookPlan db user venue data, Served db.orders offer := by
  intro offer member
  obtain ⟨row, matches_⟩ := mem_bookPlan member
  obtain ⟨_, _, side, opened, _⟩ := isMatch_iff.mp matches_
  obtain ⟨positive, price⟩ := bookPlan_positive trace offer member
  refine .of_quantity (Table.find?_key_of_mem row) opened positive price ?_
  obtain ⟨fill, asked⟩ := trace.asked offer member
  cases taker : data.side with
  | buy =>
      rw [taker] at asked side
      rw [show offer.maker.side = .sell from side]
      exact bookQuantity_le asked
  | sell =>
      rw [taker] at asked side
      rw [show offer.maker.side = .buy from side]
      have fits : 0 < offer.maker.price ∧ Fits .sell data.amount fill offer.maker offer.quantity :=
        bookQuantity_fits (by simp) asked
      exact fits.2.1

theorem book_fills
    (trace : Trace env.now (bookTaker data.side data.amount user) db .empty
      (bookPlan db user venue data) matched book) :
    Table.Linked Order.Fills db.orders matched.orders := by
  have apart : ∀ offer ∈ bookPlan db user venue data, offer.maker.id ≠ nextOrderId db := by
    intro offer member same
    have found := (bookPlan_served trace offer member).row
    rw [same, nextOrderId_fresh db] at found
    contradiction
  refine (trace.fills (fun _ _ => True) (fun _ _ _ => trivial) ?_ (bookPlan_served trace)
    (bookPlan_distinct db user venue data) apart trivial).1
  intro outcomes fill maker quantity orders _ _
  exact ⟨.refl Order.Fills.refl _, trivial, fun _ _ => rfl⟩

/-- The row of an order that rests has not been filled whole. -/
theorem restingRow_lives {limit : ℚ}
    (trace : Trace env.now (bookTaker data.side data.amount user) db .empty
      (bookPlan db user venue data) matched book)
    (left : 0 < remainder data book) (priced : 0 < limit ∧ limit ≤ 1) :
    (restingRow env matched user venue data book limit).LifeCycle := by
  have positive := bookPlan_positive trace
  obtain ⟨shares, usdc, _⟩ := trace.bookFill
  have noShares := deliveredSum_eq_zero_iff Offer.quantity fun offer member =>
    (positive offer member).1
  have noUsdc := deliveredSum_eq_zero_iff Offer.usdc fun offer member =>
    mul_pos (positive offer member).1 (positive offer member).2
  have sharesNonneg : 0 ≤ deliveredSum (bookPlan db user venue data) Offer.quantity :=
    deliveredSum_nonneg fun offer member => (positive offer member).1.le
  have usdcNonneg : 0 ≤ deliveredSum (bookPlan db user venue data) Offer.usdc :=
    deliveredSum_nonneg fun offer member =>
      (mul_pos (positive offer member).1 (positive offer member).2).le
  simp only [BookFill.empty, zero_add] at shares usdc
  rw [← shares] at noShares sharesNonneg
  rw [← usdc] at noUsdc usdcNonneg
  have amount := data.amount_pos
  have bounds : (book.matchedShares = 0 → remainder data book = data.amount) ∧
      (book.matchedShares ≠ 0 → remainder data book < data.amount) := by
    unfold remainder at left ⊢
    cases data.side with
    | buy =>
        dsimp only at left ⊢
        refine ⟨fun nothing => ?_, fun something => ?_⟩
        · rw [noUsdc.mpr (noShares.mp nothing), sub_zero, max_eq_left amount.le]
        · have spent : book.matchedUsdc ≠ 0 := fun zero =>
            something (noShares.mpr (noUsdc.mp zero))
          exact max_lt (by linarith [lt_of_le_of_ne usdcNonneg spent.symm]) amount
    | sell =>
        dsimp only at left ⊢
        refine ⟨fun nothing => ?_, fun something => ?_⟩
        · rw [nothing, sub_zero, max_eq_left amount.le]
        · exact max_lt (by linarith [lt_of_le_of_ne sharesNonneg something.symm]) amount
  by_cases nothing : book.matchedShares = 0
  · refine ⟨amount, left.le, fun _ => bounds.1 nothing, ?_, ?_, fun _ => priced⟩
    · simp [restingRow, nothing]
    · simp [restingRow, nothing, left.ne']
  · refine ⟨amount, left.le, ?_, fun _ => ⟨left, bounds.2 nothing⟩, ?_, fun _ => priced⟩
    · simp [restingRow, nothing]
    · simp [restingRow, nothing, left.ne']

theorem filledRow_lives (fill : Fill) : (filledRow env db user venue data fill).LifeCycle :=
  ⟨data.amount_pos, le_rfl, by simp [filledRow], by simp [filledRow], by simp [filledRow],
    by simp [filledRow, OrderStatus.isOpen]⟩

end OrderService

/-! # Runs -/

namespace Trading

open PredictX.OrderService

/-- Every order is still there, grown no larger. -/
def Kept (before after : Table Order.id) : Prop :=
  ∀ id row, before.find? id = some row → ∃ row', after.find? id = some row' ∧ row.Ages row'

theorem Kept.of_linked {before after : Table Order.id}
    (linked : Table.Linked Order.Ages before after) : Kept before after :=
  fun _ _ found => linked.forward found

theorem Kept.trans {first second third : Table Order.id} (left : Kept first second)
    (right : Kept second third) : Kept first third := by
  intro id row found
  obtain ⟨middle, middleFound, sooner⟩ := left id row found
  obtain ⟨last, lastFound, later⟩ := right id middle middleFound
  exact ⟨last, lastFound, sooner.trans later⟩

theorem Kept.insert {orders : Table Order.id} {order : Order}
    (fresh : orders.find? order.id = none) : Kept orders (orders.insert order) := by
  intro id row found
  have other : id ≠ order.id := by
    rintro rfl
    rw [fresh] at found
    contradiction
  exact ⟨row, (Table.find?_insert_ne order other).trans found, .refl row⟩

theorem Orderly.insert {orders : Table Order.id} {order : Order} (orderly : Orderly orders)
    (lives : order.LifeCycle) : Orderly (orders.insert order) := by
  intro id row found
  rcases Table.mem_insert (Table.mem_of_find? found) with old | rfl
  · exact orderly row.id row (Table.find?_key_of_mem old)
  · exact lives

theorem finish_orders {env : Env} {db : Database} {user : UserId} {venue : Venue}
    {data : OrderRequest} {fill : Fill} {execution : Execution}
    (finished : finish env db user venue data fill = .ok execution) :
    execution.db.orders = db.orders.insert (filledRow env db user venue data fill) := by
  rw [(finish_ok finished).1, creditReferral_orders]
  rfl

/-- An order that came in ages the makers it met and adds a row of its own. -/
theorem executeOrder_orders {env : Env} {db : Database} {user : UserId} {data : OrderRequest}
    {execution : Execution} (executed : executeOrder env db user data = .ok execution) :
    execution.db.orders = db.orders ∨
      ∃ (matched : Database) (row : Order),
        Table.Linked Order.Ages db.orders matched.orders ∧ row.LifeCycle ∧
        matched.orders.find? row.id = none ∧
        execution.db.orders = matched.orders.insert row := by
  obtain ⟨venue, _, priced, _, ways⟩ := executeOrder_ok executed
  rcases ways with ⟨_, _, rfl⟩ | ⟨_, _, filled⟩
  · exact .inl rfl
  obtain ⟨matched, book, trace, ends⟩ := fillOrder_ok filled
  have ages := (book_fills trace).mono Order.Fills.toAges
  rcases ends with ⟨left, _, rested⟩ | ⟨_, _, traded, leg, ran, finished⟩ | ⟨_, finished⟩
  · obtain ⟨limit, _, price, _, database, _⟩ := restOrder_ok rested
    refine .inr ⟨matched, _, ages, restingRow_lives trace left
      ⟨priced limit price, (data.price_bounds limit price).2⟩, nextOrderId_fresh matched, ?_⟩
    rw [database]
  · refine .inr ⟨traded, _, ?_, filledRow_lives _, nextOrderId_fresh traded,
      finish_orders finished⟩
    rw [runAmmLeg_orders ran]
    exact ages
  · exact .inr ⟨matched, _, ages, filledRow_lives _, nextOrderId_fresh matched,
      finish_orders finished⟩

theorem cancelOrder_ages {env : Env} {db after : Database} {user : UserId} {orderId : OrderId}
    (cancelled : cancelOrder env db user orderId = .ok after) :
    Table.Linked Order.Ages db.orders after.orders := by
  unfold cancelOrder at cancelled
  split at cancelled
  · rename_i order _ found _
    split at cancelled
    · rename_i own
      cases cancelled
      refine .modify Order.Ages.refl ?keeps found ?closes
      case keeps => exact fun _ => rfl
      case closes => exact Order.ages_close own.2 (.inl rfl)
    · contradiction
  · contradiction

/-- One step keeps every row to its life cycle. -/
theorem perform_ages {db after : Database} {action : Action}
    (performed : perform db action = .ok after) (orderly : Orderly db.orders) :
    Orderly after.orders ∧ Kept db.orders after.orders := by
  have linked : ∀ {orders : Table Order.id}, Table.Linked Order.Ages db.orders orders →
      Orderly orders ∧ Kept db.orders orders :=
    fun ages => ⟨orderly.ages ages, .of_linked ages⟩
  cases action with
  | execute env user data =>
      obtain ⟨execution, executed, rfl⟩ := map_eq_ok.mp performed
      rcases executeOrder_orders executed with same | ⟨matched, row, ages, lives, fresh, inserted⟩
      · rw [same]
        exact linked (.refl Order.Ages.refl _)
      · rw [inserted]
        exact ⟨Orderly.insert (orderly.ages ages) lives, (Kept.of_linked ages).trans (.insert fresh)⟩
  | cancel env user orderId => exact linked (cancelOrder_ages performed)
  | expire now =>
      cases performed
      exact linked (expireStaleOrders_ages now db)
  | sweep now dirty scanned =>
      cases performed
      exact linked (checkLimitOrderExecution_ages orderly)

/-- In every state that is reached the rows keep to their life cycle, and from there on no
row grows and no closed row changes. -/
theorem orders_keep_life_cycle {start middle final : Database} {actions more : List Action}
    (unplaced : start.orders.rows = [])
    (reached : Run (fun db action after => perform db action = .ok after) Legal start actions
      middle)
    (later : Run (fun db action after => perform db action = .ok after) Legal middle more final) :
    ∀ order ∈ middle.orders.rows, order.LifeCycle ∧
      ∃ row, final.orders.find? order.id = some row ∧
        row.remainingAmount ≤ order.remainingAmount ∧
        (order.status = .filled ∨ order.status = .cancelled ∨ order.status = .expired →
          row.status = order.status ∧ row.remainingAmount = order.remainingAmount) := by
  have initially : Orderly start.orders := by
    intro id row found
    exact absurd (Table.mem_of_find? found) (by simp [unplaced])
  have orderly : Orderly middle.orders :=
    reached.invariant (fun db : Database => Orderly db.orders)
      (fun _ _ _ _ performed before => (perform_ages performed before).1) initially
  have kept : Orderly final.orders ∧ Kept middle.orders final.orders := by
    refine later.invariant (fun db : Database => Orderly db.orders ∧ Kept middle.orders db.orders)
      ?_ ⟨orderly, .of_linked (.refl Order.Ages.refl _)⟩
    intro db action after _ performed before
    obtain ⟨next, step⟩ := perform_ages performed before.1
    exact ⟨next, before.2.trans step⟩
  intro order member
  have found := Table.find?_key_of_mem member
  obtain ⟨row, rowFound, ages⟩ := kept.2 order.id order found
  refine ⟨orderly _ _ found, row, rowFound, ages.remaining, fun terminal => ?_⟩
  have closed : order.status.isOpen = false := by
    rcases terminal with status | status | status <;> simp [status, OrderStatus.isOpen]
  rw [ages.closed closed]
  exact ⟨rfl, rfl⟩

/-- User 2's sell of ten is met by a buy of five, swept and cancelled. -/
theorem half_sold_order_cancelled :
    ∃ (actions more : List Action) (middle final : Database),
      Run (fun db action after => perform db action = .ok after) Legal openingDay actions middle ∧
      Run (fun db action after => perform db action = .ok after) Legal middle more final ∧
      ∃ order ∈ middle.orders.rows, order.status = .partiallyFilled ∧ order.LifeCycle ∧
        ∃ row, final.orders.find? order.id = some row ∧
          row.remainingAmount ≤ order.remainingAmount := by
  have played : (replay perform Legal
      [.execute quietEnv 2 (limitOrder .sell 10 (6 / 10) pos_ten grid_ten
          (by decide +kernel)),
        .execute quietEnv 1 (limitOrder .buy 3 (6 / 10) (by decide +kernel) (by decide +kernel)
          (by decide +kernel))] openingDay).any (fun middle =>
        (middle.orders.rows.any fun order => order.status = .partiallyFilled) &&
          (replay perform Legal [sweepAll middle, .cancel quietEnv 2 1] middle).isSome) = true := by
    decide +kernel
  obtain ⟨middle, replayed, rest⟩ := (Option.any_eq_true _ _).mp played
  rw [Bool.and_eq_true] at rest
  obtain ⟨order, member, status⟩ := List.any_eq_true.mp rest.1
  obtain ⟨final, ended⟩ := Option.isSome_iff_exists.mp rest.2
  have reached := run_of_replay replayed
  have later := run_of_replay ended
  obtain ⟨lives, row, found, less, _⟩ :=
    orders_keep_life_cycle (by decide +kernel) reached later order member
  exact ⟨_, _, middle, final, reached, later, order, member, by simpa using status, lives, row,
    found, less⟩

end Trading

end PredictX
