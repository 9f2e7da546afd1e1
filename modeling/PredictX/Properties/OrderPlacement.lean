import PredictX.Properties.MoneyFlows
import PredictX.Properties.PriceTimePriority

namespace PredictX.Placement

open PredictX.Data PredictX.Amm PredictX.MarketService PredictX.MatchingEngine
open PredictX.OrderService PredictX.LimitSweep PredictX.Settlement PredictX.LiquidityService

/-! What an order is while it waits, and what it moves when it comes in.

`execute_order` fills an order whole or rests what the book has left of it, and only a
limit order takes the second way.  Afterwards a row is filled, cancelled or expired, which
never changes its type.
-/

/-- Unless it was placed as a limit order, the order was filled whole. -/
def Whole (order : Order) : Prop :=
  order.orderType ≠ .limit → order.status = .filled ∧ order.remainingAmount = 0

def SameType (before after : Order) : Prop := after.orderType = before.orderType

/-- Every row is of the type it was placed with. -/
def Typed (before after : Table Order.id) : Prop := Table.Linked SameType before after

/-! # The types of orders -/

section Types

variable {orders before middle after : Table Order.id} {now : Timestamp}

namespace Typed

theorem refl (orders : Table Order.id) : Typed orders orders :=
  Table.Linked.refl (fun order => (rfl : SameType order order)) orders

theorem trans (left : Typed before middle) (right : Typed middle after) : Typed before after :=
  Table.Linked.trans (fun sooner later => Eq.trans later sooner) left right

theorem modify (id : OrderId) (update : Order → Order) (keeps : ∀ row, (update row).id = row.id)
    (same : ∀ row, (update row).orderType = row.orderType) :
    Typed orders (orders.modify id update keeps) :=
  Table.Linked.modifyAny (fun order => (rfl : SameType order order)) keeps fun row _ => same row

end Typed

theorem fillMaker_orderType (spent : ℚ) (order : Order) :
    (fillMaker now spent order).orderType = order.orderType := by
  unfold fillMaker
  dsimp only
  split <;> rfl

theorem fillTaker_orderType (spent : ℚ) (order : Order) :
    (fillTaker now spent order).orderType = order.orderType := by
  unfold fillTaker
  dsimp only
  split <;> rfl

/-- A step that ages the rows and keeps their types leaves every order whole. -/
theorem whole_of_ages (whole : ∀ order ∈ before.rows, Whole order)
    (ages : Table.Linked Order.Ages before after) (typed : Typed before after) :
    ∀ order ∈ after.rows, Whole order := by
  intro order member other
  obtain ⟨old, found, aged⟩ := ages.backward (Table.find?_key_of_mem member)
  obtain ⟨same, sameFound, isType⟩ := typed.backward (Table.find?_key_of_mem member)
  obtain rfl := Option.some.inj (found.symm.trans sameFound)
  rw [isType] at other
  obtain ⟨filled, nothing⟩ := whole old (Table.mem_of_find? found) other
  have kept : order = old := aged.closed (by rw [filled]; rfl)
  rw [kept]
  exact ⟨filled, nothing⟩

theorem trace_typed {σ : Type} {taker : Taker σ} {db final : Database} {fill done : σ}
    {offers : List Offer} (store : ∀ details orders, Typed orders (taker.store details orders))
    (trace : Trace now taker db fill offers final done) : Typed db.orders final.orders := by
  induction trace with
  | done => exact .refl _
  | skip _ _ _ ih => exact ih
  | deliver _ _ _ _ ih =>
      exact ((Typed.modify _ _ (fillMaker_id now _) (fillMaker_orderType _)).trans
        (store _ _)).trans ih

theorem expireOrder_typed (db : Database) (order : Order) :
    Typed db.orders (expireOrder now db order).orders :=
  .modify order.id (markExpired now) (markExpired_id now) fun _ => rfl

theorem expireStaleOrders_typed (now : Timestamp) (db : Database) :
    Typed db.orders (expireStaleOrders now db).orders :=
  expireStaleOrders_preserves (fun after => Typed db.orders after.orders)
    (fun _ _ typed => typed.trans (expireOrder_typed _ _)) (.refl _)

theorem checkLimitOrderExecution_typed (now : Timestamp) (scanned : List Order) (db : Database) :
    Typed db.orders (checkLimitOrderExecution now scanned db).orders := by
  obtain ⟨session, sweeping, final⟩ := checkLimitOrderExecution_sweeping now scanned db
  rw [final]
  refine (sweeping.preserves (fun after => Typed db.orders after.orders) ?book ?leg ?expiry
    (.refl _)).1
  case book =>
    intro session order market outcome matched fill typed trace
    refine typed.trans (trace_typed ?_ trace)
    intro details orders
    exact .modify order.id (fillTaker now (takerSpent order.side details)) (fillTaker_id now _)
      (fillTaker_orderType _)
  case leg =>
    intro matched traded turn remaining leg typed _ ran
    have written : Typed matched.orders (matched.orders.modify turn.order.id
        (fillResting now leg) (fillResting_id now leg)) :=
      .modify _ _ _ fun order => fillTaker_orderType leg.quantity order
    obtain ⟨_, ⟨_, _, _, _, rfl⟩ | ⟨_, _, _, _, _, _, rfl⟩⟩ := sweepLeg_ok ran
    · exact typed.trans written
    · exact typed.trans written
  case expiry => exact fun middle order typed => typed.trans (expireOrder_typed middle order)

end Types

/-! # Incoming orders -/

section Incoming

variable {env : Env} {db matched after : Database} {user : UserId} {venue : Venue}
  {data : OrderRequest} {execution : Execution} {book : BookFill}

/-- Only a limit order rests. -/
theorem limit_of_rest (routed : route venue data = .ok .rest) : data.orderType = .limit := by
  unfold route at routed
  split at routed
  · contradiction
  split at routed
  · cases routed
  rename_i notMarket
  split at routed
  · contradiction
  split at routed
  · cases routed
  split at routed
  · contradiction
  rename_i notKill
  cases isType : data.orderType with
  | market => exact absurd isType notMarket
  | limit => rfl
  | fillOrKill => exact absurd isType notKill

theorem book_typed
    (trace : Trace env.now (bookTaker data.side data.amount user) db .empty
      (bookPlan db user venue data) matched book) : Typed db.orders matched.orders :=
  trace_typed (fun _ orders => .refl orders) trace

/-- A call that returns writes nothing, or the makers' rows and one of its own. -/
theorem executeOrder_placed (executed : executeOrder env db user data = .ok execution) :
    execution.db.orders = db.orders ∨ ∃ (matched : Database) (row : Order),
      Table.Linked Order.Ages db.orders matched.orders ∧ Typed db.orders matched.orders ∧
        Whole row ∧ execution.db.orders = matched.orders.insert row := by
  obtain ⟨venue, _, _, _, ⟨_, _, rfl⟩ | ⟨_, _, filled⟩⟩ := executeOrder_ok executed
  · exact .inl rfl
  obtain ⟨matched, book, trace, ends⟩ := fillOrder_ok filled
  have ages := (book_fills trace).mono Order.Fills.toAges
  have typed := book_typed trace
  have isWhole : ∀ fill : Fill, ∀ middle : Database,
      Whole (filledRow env middle user venue data fill) := fun _ _ _ => ⟨rfl, rfl⟩
  rcases ends with ⟨_, routed, rested⟩ | ⟨_, _, traded, leg, ran, finished⟩ | ⟨_, finished⟩
  · obtain ⟨limit, _, _, _, database, _⟩ := restOrder_ok rested
    refine .inr ⟨matched, restingRow env matched user venue data book limit, ages, typed,
      fun other => absurd (limit_of_rest routed) other, ?_⟩
    rw [database]
  · refine .inr ⟨traded, _, ?_, ?_, isWhole _ traded, Trading.finish_orders finished⟩
    · rw [runAmmLeg_orders ran]
      exact ages
    · rw [runAmmLeg_orders ran]
      exact typed
  · exact .inr ⟨matched, _, ages, typed, isWhole _ matched, Trading.finish_orders finished⟩

theorem cancelOrder_typed {orderId : OrderId}
    (cancelled : cancelOrder env db user orderId = .ok after) :
    Typed db.orders after.orders := by
  unfold cancelOrder at cancelled
  split at cancelled
  · split at cancelled
    · cases cancelled
      exact .modify orderId (fun order =>
        { order with status := .cancelled, executedAt := some env.now }) (fun _ => rfl) fun _ => rfl
    · contradiction
  · contradiction

/-- Trading keeps every order whole. -/
theorem perform_whole {action : Trading.Action} (orderly : Orderly db.orders)
    (whole : ∀ order ∈ db.orders.rows, Whole order)
    (performed : Trading.perform db action = .ok after) :
    ∀ order ∈ after.orders.rows, Whole order := by
  cases action with
  | execute env user data =>
      obtain ⟨execution, executed, rfl⟩ := map_eq_ok.mp performed
      rcases executeOrder_placed executed with same | ⟨matched, row, ages, typed, isWhole, inserted⟩
      · rw [same]
        exact whole
      · rw [inserted]
        intro order member
        rcases Table.mem_insert member with old | rfl
        · exact whole_of_ages whole ages typed order old
        · exact isWhole
  | cancel env user orderId =>
      exact whole_of_ages whole (Trading.cancelOrder_ages performed) (cancelOrder_typed performed)
  | expire now =>
      cases performed
      exact whole_of_ages whole (expireStaleOrders_ages now db) (expireStaleOrders_typed now db)
  | sweep now dirty scanned =>
      cases performed
      exact whole_of_ages whole (checkLimitOrderExecution_ages orderly)
        (checkLimitOrderExecution_typed now scanned db)

end Incoming

/-! # Runs -/

section Runs

variable {platform next start final : Platform} {event : Event} {events : List Event}
  {db after : Database}

/-- Orders and referrals stay as they are. -/
structure Aside (before after : Database) : Prop where
  orders : after.orders = before.orders
  referrals : after.referrals = before.referrals

theorem createMarket_referrals {now : Timestamp} {author : Markets.Author} {made : Database}
    {market : MarketId} {request : Markets.CreateMarketRequest}
    (ran : Markets.createMarket now author db request = .ok (made, market)) :
    made.referrals = db.referrals := by
  unfold Markets.createMarket at ran
  split at ran
  · contradiction
  split at ran
  · contradiction
  split at ran
  · contradiction
  split at ran
  · contradiction
  dsimp only at ran
  split at ran
  · simp only [Except.ok.injEq, Prod.mk.injEq] at ran
    rw [← ran.1]
  · simp only [Except.ok.injEq, Prod.mk.injEq] at ran
    rw [← ran.1]

theorem distributeProtocolFees_referrals (db : Database) (scanned : List LiquidityPool) :
    (distributeProtocolFees db scanned).referrals = db.referrals := by
  have along : ∀ (treasury : UserId) (rows : List LiquidityPool) (db : Database),
      (rows.foldl (distributePool treasury) db).referrals = db.referrals := by
    intro treasury rows
    induction rows with
    | nil => exact fun _ => rfl
    | cons pool rest ih =>
        intro db
        refine (ih _).trans ?_
        unfold distributePool
        split
        · rfl
        · split <;> rfl
  unfold distributeProtocolFees
  split
  · rfl
  · exact along _ scanned _

/-- Orders and referrals are written by trading alone. -/
theorem operation_orders {operation : Operation} (performed : operation.perform db = .ok after) :
    (∃ action, Trading.perform db action = .ok after) ∨ Aside db after := by
  cases operation with
  | order env actor data => exact .inl ⟨.execute env actor data, performed⟩
  | cancel env actor orderId => exact .inl ⟨.cancel env actor orderId, performed⟩
  | expire now => exact .inl ⟨.expire now, performed⟩
  | sweep now dirty scanned => exact .inl ⟨.sweep now dirty scanned, performed⟩
  | split actor market amount =>
      obtain ⟨result, ran, rfl⟩ := map_eq_ok.mp performed
      obtain ⟨_, _, _, _, _, _, _, rfl⟩ := SplitMerge.split_ok ran
      exact .inr ⟨rfl, rfl⟩
  | merge actor market amount =>
      obtain ⟨result, ran, rfl⟩ := map_eq_ok.mp performed
      obtain ⟨_, _, _, _, _, _, _, _, _, rfl⟩ := SplitMerge.merge_ok ran
      exact .inr ⟨rfl, rfl⟩
  | addLiquidity actor market amount outcome =>
      obtain ⟨deposited, ran, rfl⟩ := map_eq_ok.mp performed
      obtain ⟨_, _, _, _, _, _, _, _, _, _, _, rfl⟩ := addLiquidity_ok ran
      exact .inr ⟨rfl, rfl⟩
  | removeLiquidity actor market lpTokens outcome =>
      obtain ⟨withdrawn, ran, rfl⟩ := map_eq_ok.mp performed
      obtain ⟨_, _, _, _, _, _, _, _, _, _, _, _, _, _, rfl⟩ := removeLiquidity_ok ran
      exact .inr ⟨rfl, rfl⟩
  | distributeFees scanned =>
      cases performed
      exact .inr ⟨MoneySupply.distributeProtocolFees_orders db scanned,
        distributeProtocolFees_referrals db scanned⟩
  | claim now actor market =>
      obtain ⟨paid, ran, rfl⟩ := map_eq_ok.mp performed
      obtain ⟨_, _, claimed⟩ := claimWinnings_ok ran
      obtain ⟨_, _, _, _, _, _, _, _, _, rfl⟩ := payClaim_ok claimed
      exact .inr ⟨rfl, rfl⟩
  | settle now scan market winning =>
      dsimp only [Operation.perform] at performed
      split at performed
      · contradiction
      · cases performed
        exact .inr ⟨rfl, rfl⟩
      · rename_i paid ran
        cases performed
        obtain ⟨_, _, _, _, _, _, _, _, _, rfl⟩ := settleMarket_ok ran
        exact .inr ⟨rfl, rfl⟩

theorem event_orders (commits : event.Commits platform next) :
    (∃ action, Trading.perform platform.db action = .ok next.db) ∨
      Aside platform.db next.db := by
  have performed := commits.1
  have untouched : ∀ {later : Database}, next.db = later → later.orders = platform.db.orders →
      later.referrals = platform.db.referrals → Aside platform.db next.db := by
    rintro later rfl orders referrals
    exact ⟨orders, referrals⟩
  cases event with
  | operate operation => exact operation_orders performed
  | createMarket now author request =>
      obtain ⟨⟨made, market⟩, ran, isAfter⟩ := map_eq_ok.mp performed
      obtain ⟨_, _, _, created⟩ := Markets.createMarket_ok ran
      exact .inr (untouched isAfter.symm created.orders (createMarket_referrals ran))
  | approveMarket now market =>
      obtain ⟨_, _, _, written⟩ := Markets.moderate_ok (Markets.approveMarket_ok performed)
      exact .inr (untouched written rfl rfl)
  | rejectMarket market =>
      obtain ⟨_, _, _, written⟩ := Markets.moderate_ok performed
      exact .inr (untouched written rfl rfl)
  | proposeResolution admin now market outcome =>
      obtain ⟨_, -, -, -, -, written⟩ := Resolution.proposeResolution_ok performed
      exact .inr (untouched written rfl rfl)
  | resolveMarket admin backends now market outcome =>
      obtain ⟨_, -, -, -, -, -, written⟩ := Resolution.resolveMarketEndpoint_ok performed
      exact .inr (untouched written rfl rfl)
  | createDispute actor now market =>
      obtain ⟨_, -, -, -, written⟩ := Resolution.createDispute_ok performed
      exact .inr (untouched written rfl rfl)
  | adjudicateDispute bench now dispute ruling =>
      obtain ⟨ruled, ran, isAfter⟩ := map_eq_ok.mp performed
      obtain ⟨row, -, -, -, -, ⟨rfl, rfl⟩ | ⟨rfl, rfl⟩⟩ := Resolution.adjudicateDispute_ok ran
      · exact .inr (untouched isAfter.symm rfl rfl)
      · rcases Resolution.uphold_cases bench now
          { platform.db with
            disputes := platform.db.disputes.modify dispute (Resolution.rule .upheld) }
          row.marketId with same | ⟨_, winning, -, -, -, written⟩
        · exact .inr (untouched (isAfter.symm.trans same) rfl rfl)
        · exact .inr (untouched (isAfter.symm.trans written) rfl rfl)
  | closeMarkets now => exact .inr (untouched (Except.ok.inj performed).symm rfl rfl)

/-- A market order and a fill-or-kill order are filled whole when they are accepted and stay
so: whatever happens, what waits in the book is a limit order. -/
theorem only_limit_orders_rest (unplaced : start.db.orders.rows = [])
    (run : Event.Runs (fun _ _ => True) start events final) :
    ∀ order ∈ final.db.orders.rows, order.orderType ≠ .limit →
      order.status = .filled ∧ order.remainingAmount = 0 := by
  have noOrders : ∀ order, order ∉ start.db.orders.rows := by
    intro order member
    rw [unplaced] at member
    cases member
  have reached : Orderly final.db.orders ∧ ∀ order ∈ final.db.orders.rows, Whole order := by
    refine run.invariant (fun platform =>
      Orderly platform.db.orders ∧ ∀ order ∈ platform.db.orders.rows, Whole order) ?_
      ⟨fun id row found => absurd (Table.mem_of_find? found) (noOrders row),
        fun order member => absurd member (noOrders order)⟩
    intro platform event after guarded commits before
    rcases event_orders commits with ⟨action, performed⟩ | aside
    · exact ⟨(Trading.perform_ages performed before.1).1,
        perform_whole before.1 before.2 performed⟩
    · rw [aside.orders]
      exact before
  exact reached.2

/-- A buy of five USDC at the opening. -/
theorem a_market_order_is_whole :
    ∃ final : Platform, Event.Runs (fun _ _ => True) ⟨Trading.openingDay, []⟩
        [.operate (.order quietEnv 1 (marketOrder .buy 5 pos_five grid_five))] final ∧
      ∃ order ∈ final.db.orders.rows, order.orderType ≠ .limit ∧ order.status = .filled ∧
        order.remainingAmount = 0 := by
  have played : succeedsWith (Event.play ⟨Trading.openingDay, []⟩
      (.operate (.order quietEnv 1 (marketOrder .buy 5 pos_five grid_five)))) (fun final =>
        final.db.orders.rows.any fun order => order.orderType = .market) = true := by
    decide +kernel
  obtain ⟨final, buys, placed⟩ := succeedsWith_iff.mp played
  obtain ⟨order, member, isMarket⟩ := List.any_eq_true.mp placed
  have other : order.orderType ≠ .limit := by
    rw [of_decide_eq_true isMarket]
    exact OrderType.noConfusion
  have run : Event.Runs (fun _ _ => True) ⟨Trading.openingDay, []⟩
      [.operate (.order quietEnv 1 (marketOrder .buy 5 pos_five grid_five))] final :=
    .act ⟨trivial, trivial⟩ (Event.commits_of_play buys) (.stop final)
  exact ⟨final, run, order, member, other, only_limit_orders_rest rfl run order member other⟩

end Runs

/-! # What an order moves -/

/-- Nobody has referred herself. -/
def NotOwnReferrer (db : Database) (user : UserId) : Prop :=
  ∀ referral ∈ db.referrals, referral.referredId = some user → referral.referrerId ≠ some user

/-- What is filled of the order has left the buyer's balance or the seller's position, and
what a buy has left is reserved. -/
def Moves (before after : Database) (order : Order) : Prop :=
  match order.side with
  | .buy =>
      after.wallets.find? order.userId = (before.wallets.find? order.userId).map fun wallet =>
        { wallet with
          balance := wallet.balance - (order.amount - order.remainingAmount)
          lockedBalance := wallet.lockedBalance + order.remainingAmount }
  | .sell =>
      Position.held after.positions ⟨order.userId, order.marketId, order.outcomeId⟩ =
        Position.held before.positions ⟨order.userId, order.marketId, order.outcomeId⟩ -
          (order.amount - order.remainingAmount)

section Book

variable {σ : Type} {now : Timestamp} {taker : Taker σ} {db after : Database} {fill final : σ}
  {offers : List Offer}

/-- A buyer pays what was delivered to her. -/
theorem trace_paid (trace : Trace now taker db fill offers after final)
    (makers : ∀ offer ∈ offers, offer.maker.side = .sell ∧ offer.maker.userId ≠ taker.userId) :
    after.wallets.find? taker.userId =
      (db.wallets.find? taker.userId).map (Wallet.debit (deliveredSum offers Offer.usdc)) := by
  induction trace with
  | done =>
      rename_i db fill
      cases db.wallets.find? taker.userId <;> simp [Wallet.debit]
  | skip _ _ _ ih =>
      rw [ih fun offer member => makers offer (List.mem_cons_of_mem _ member)]
      simp [skipped]
  | @deliver db _ _ _ maker quantity _ _ _ _ _ ih =>
      obtain ⟨side, other⟩ := makers _ List.mem_cons_self
      dsimp only at side other
      rw [ih fun offer member => makers offer (List.mem_cons_of_mem _ member)]
      change Option.map _ ((payMatch db.wallets maker taker.userId quantity _ _).find? _) = _
      simp only [payMatch, buyerOf, sellerOf, side]
      rw [Table.find?_modify_ne (Ne.symm other), Table.find?_modify_self, Option.map_map]
      congr 1
      funext wallet
      simp [Wallet.debit, Offer.usdc, sub_sub]

/-- A seller loses the shares that she delivered. -/
theorem trace_delivered (trace : Trace now taker db fill offers after final)
    {market : MarketId} {outcome : OutcomeId} (positive : ∀ offer ∈ offers, 0 < offer.quantity)
    (makers : ∀ offer ∈ offers, offer.maker.marketId = market ∧ offer.maker.outcomeId = outcome ∧
      offer.maker.side = .buy ∧ offer.maker.userId ≠ taker.userId) :
    Position.held after.positions ⟨taker.userId, market, outcome⟩ =
      Position.held db.positions ⟨taker.userId, market, outcome⟩ -
        deliveredSum offers Offer.quantity := by
  induction trace with
  | done => simp
  | skip _ _ _ ih =>
      rw [ih (fun offer member => positive offer (List.mem_cons_of_mem _ member))
        fun offer member => makers offer (List.mem_cons_of_mem _ member)]
      simp [skipped]
  | @deliver db _ _ _ maker quantity _ _ holds _ _ ih =>
      obtain ⟨marketId, outcomeId, side, other⟩ := makers _ List.mem_cons_self
      dsimp only at marketId outcomeId side other
      have moves := held_moveShares (quantity * maker.price) (positive _ List.mem_cons_self) holds
      rw [ih (fun offer member => positive offer (List.mem_cons_of_mem _ member))
        fun offer member => makers offer (List.mem_cons_of_mem _ member)]
      change Position.held (moveShares db.positions maker taker.userId quantity
        (quantity * maker.price)) _ - _ = _
      rw [moves]
      simp only [moved, sellerOf, buyerOf, side, positionKey, marketId, outcomeId,
        deliveredSum_cons, if_true, PositionKey.mk.injEq, Ne.symm other, false_and, if_false,
        add_zero]
      ring

end Book

section Movement

variable {env : Env} {db matched traded : Database} {user : UserId} {venue : Venue}
  {data : OrderRequest} {execution : Execution} {book : BookFill} {leg : AmmLeg} {fill : Fill}
  {remaining : ℚ}

/-- The book fills no more than the order asks for. -/
theorem remainder_eq
    (trace : Trace env.now (bookTaker data.side data.amount user) db .empty
      (bookPlan db user venue data) matched book) :
    remainder data book = data.amount - book.amount data.side ∧ 0 ≤ remainder data book ∧
      0 ≤ book.amount data.side := by
  have within : BookFill.empty.amount data.side ≤ data.amount := by
    cases data.side <;> exact data.amount_pos.le
  obtain ⟨total, _⟩ := trace.book_fill
    (fun offer member => (isMatch_iff.mp (mem_bookPlan member).2).2.2.1) within
  obtain ⟨shares, usdc, _⟩ := trace.bookFill
  have positive := bookPlan_positive trace
  have sharesNonneg : 0 ≤ book.matchedShares := by
    rw [shares, BookFill.empty, zero_add]
    exact deliveredSum_nonneg fun offer member => (positive offer member).1.le
  have usdcNonneg : 0 ≤ book.matchedUsdc := by
    rw [usdc, BookFill.empty, zero_add]
    exact deliveredSum_nonneg fun offer member =>
      (mul_pos (positive offer member).1 (positive offer member).2).le
  unfold remainder BookFill.amount at *
  cases side : data.side with
  | buy =>
      rw [side] at total
      exact ⟨max_eq_left (sub_nonneg.mpr total), le_max_right _ _, usdcNonneg⟩
  | sell =>
      rw [side] at total
      exact ⟨max_eq_left (sub_nonneg.mpr total), le_max_right _ _, sharesNonneg⟩

theorem book_paid (buying : data.side = .buy)
    (trace : Trace env.now (bookTaker data.side data.amount user) db .empty
      (bookPlan db user venue data) matched book) :
    matched.wallets.find? user =
      (db.wallets.find? user).map (Wallet.debit (book.amount data.side)) := by
  have paid := trace_paid trace fun offer member => by
    obtain ⟨_, _, side, _, _, _, other⟩ := isMatch_iff.mp (mem_bookPlan member).2
    rw [buying] at side
    exact ⟨side, other⟩
  rw [buying, BookFill.amount, trace.bookFill.2.1, BookFill.empty, zero_add]
  exact paid

theorem book_delivered (selling : data.side = .sell)
    (trace : Trace env.now (bookTaker data.side data.amount user) db .empty
      (bookPlan db user venue data) matched book) :
    Position.held matched.positions (venue.positionKey user) =
      Position.held db.positions (venue.positionKey user) - book.amount data.side := by
  have delivered := trace_delivered trace
    (fun offer member => (bookPlan_positive trace offer member).1) fun offer member => by
      obtain ⟨market, outcome, side, _, _, _, other⟩ := isMatch_iff.mp (mem_bookPlan member).2
      rw [selling] at side
      exact ⟨market, outcome, side, other⟩
  rw [selling, BookFill.amount, trace.bookFill.1, BookFill.empty, zero_add]
  exact delivered

/-- Her own trade rewards nobody with her own money. -/
theorem creditReferral_own (apart : NotOwnReferrer db user) :
    (creditReferral db user).wallets.find? user = db.wallets.find? user := by
  unfold creditReferral
  dsimp only
  split
  · rename_i referral pending
    have listed : referral ∈ db.referrals ∧
        (referral.referredId = some user ∧ referral.completed = false) := by
      have member : referral ∈ [referral] := List.mem_cons_self
      rw [← pending, List.mem_filter] at member
      simpa using member
    split
    · rfl
    · rename_i referrer isReferrer
      have other : referrer ≠ user := by
        rintro rfl
        exact apart referral listed.1 listed.2.1 isReferrer
      split
      · rfl
      · have elsewhere : (db.wallets.modify referrer (Wallet.credit referralRewardAmount)
            (fun _ => rfl)).find? user = db.wallets.find? user :=
          Table.find?_modify_ne (Ne.symm other)
        exact elsewhere
  · rfl

theorem finish_orderId (finished : finish env db user venue data fill = .ok execution) :
    execution.result.orderId = nextOrderId db := by
  unfold finish at finished
  dsimp only at finished
  split at finished
  · contradiction
  split at finished
  · contradiction
  split at finished
  · contradiction
  cases finished
  rfl

theorem restOrder_orderId (rested : restOrder env db user venue data book = .ok execution) :
    execution.result.orderId = nextOrderId db := by
  unfold restOrder at rested
  obtain ⟨locked, taken, rested⟩ := bind_eq_ok.mp rested
  split at rested
  · contradiction
  obtain ⟨orders, inserted, rested⟩ := bind_eq_ok.mp rested
  cases rested
  rfl

/-- A fill leaves the taker's wallet and a seller's shares as the legs did. -/
theorem finish_moves (apart : NotOwnReferrer traded user)
    (finished : finish env traded user venue data fill = .ok execution)
    (paid : data.side = .buy → traded.wallets.find? user =
      (db.wallets.find? user).map (Wallet.debit data.amount))
    (delivered : data.side = .sell → Position.held traded.positions (venue.positionKey user) =
      Position.held db.positions (venue.positionKey user) - data.amount) :
    Moves db execution.db (filledRow env traded user venue data fill) := by
  rw [(finish_ok finished).1]
  unfold Moves
  cases side : data.side with
  | buy =>
      simp only [filledRow, side]
      rw [creditReferral_own (show NotOwnReferrer (saveFill env traded user venue data fill _) user
        from apart)]
      refine (paid side).trans ?_
      congr 1
      funext wallet
      simp [Wallet.debit]
  | sell =>
      simp only [filledRow, side]
      rw [creditReferral_positions]
      simp only [saveFill, creditFill, side]
      refine (delivered side).trans ?_
      rw [sub_zero]
      rfl

theorem restOrder_moves (rested : restOrder env matched user venue data book = .ok execution)
    (whole : remainder data book = data.amount - book.amount data.side) {limit : ℚ}
    (paid : data.side = .buy → matched.wallets.find? user =
      (db.wallets.find? user).map (Wallet.debit (book.amount data.side)))
    (delivered : data.side = .sell → Position.held matched.positions (venue.positionKey user) =
      Position.held db.positions (venue.positionKey user) - book.amount data.side) :
    Moves db execution.db (restingRow env matched user venue data book limit) := by
  obtain ⟨_, locked, _, taken, database, _⟩ := restOrder_ok rested
  rw [database]
  unfold Moves
  have filled : data.amount - remainder data book = book.amount data.side := by
    rw [whole, sub_sub_cancel]
  rcases lockFunds_ok taken with ⟨side, rfl⟩ | ⟨side, _, _, _, rfl⟩
  · simp only [restingRow, side]
    refine (delivered side).trans ?_
    rw [filled]
    rfl
  · simp only [restingRow, side]
    rw [Table.find?_modify_self, paid side, Option.map_map]
    congr 1
    funext wallet
    simp only [Function.comp_apply, Wallet.lock, Wallet.debit, filled]

theorem runAmmLeg_paid (buying : data.side = .buy)
    (ran : runAmmLeg matched user venue data.side remaining = .ok (traded, leg)) :
    traded.wallets.find? user = (matched.wallets.find? user).map (Wallet.debit remaining) := by
  rw [buying] at ran
  obtain ⟨_, _, _, _, _, _, rfl⟩ := ammBuy_ok ran
  have here : (matched.wallets.modify user (Wallet.debit remaining)
      (Wallet.debit_userId remaining)).find? user =
        (matched.wallets.find? user).map (Wallet.debit remaining) := Table.find?_modify_self
  exact here

theorem runAmmLeg_delivered (selling : data.side = .sell) (positive : 0 < remaining)
    (ran : runAmmLeg matched user venue data.side remaining = .ok (traded, leg)) :
    Position.held traded.positions (venue.positionKey user) =
      Position.held matched.positions (venue.positionKey user) - remaining := by
  rw [selling] at ran
  obtain ⟨holds, _, _, _, _, rfl⟩ := ammSell_ok ran
  obtain ⟨position, found⟩ := Position.exists_of_held_pos (positive.trans_le holds)
  rw [Position.held_dispose found, if_pos rfl]

/-- Whatever the book holds and whether the rest goes to the AMM or waits: an accepted order
has moved as much money, or as many shares, as its row says was filled, and a buy has
reserved the rest.  Unless it is a limit order it was filled whole. -/
theorem an_order_moves_what_it_fills
    (executed : executeOrder env db user data = .ok execution)
    (first : duplicateOf db user data = none) (apart : NotOwnReferrer db user) :
    ∃ order, execution.db.orders.find? execution.result.orderId = some order ∧
      order.userId = user ∧ order.side = data.side ∧ order.amount = data.amount ∧
      0 ≤ order.remainingAmount ∧ order.remainingAmount ≤ order.amount ∧ Whole order ∧
      order.orderType = data.orderType ∧ Moves db execution.db order := by
  obtain ⟨venue, _, _, _, ⟨_, again, _⟩ | ⟨_, _, filled⟩⟩ := executeOrder_ok executed
  · rw [first] at again
    contradiction
  obtain ⟨matched, book, trace, ends⟩ := fillOrder_ok filled
  obtain ⟨whole, nonneg, taken⟩ := remainder_eq trace
  have same := trace.sameElsewhere.referrals
  have placed : ∀ {middle : Database} {row : Order},
      execution.db.orders = middle.orders.insert row → row.id = nextOrderId middle →
      execution.result.orderId = nextOrderId middle →
      execution.db.orders.find? execution.result.orderId = some row := by
    intro middle row inserted isNext isResult
    rw [inserted, isResult, ← isNext]
    exact Table.find?_insert_self _ (isNext ▸ nextOrderId_fresh middle)
  have amount := data.amount_pos
  rcases ends with ⟨_, routed, rested⟩ | ⟨left, _, traded, leg, ran, finished⟩ | ⟨nothing, finished⟩
  · obtain ⟨limit, _, _, _, database, _⟩ := restOrder_ok rested
    refine ⟨restingRow env matched user venue data book limit,
      placed (by rw [database]) rfl (restOrder_orderId rested), rfl, rfl, rfl, nonneg, ?_,
      fun other => absurd (limit_of_rest routed) other, rfl,
      restOrder_moves rested whole (fun side => book_paid side trace)
        fun side => book_delivered side trace⟩
    change remainder data book ≤ data.amount
    linarith
  · have referrals : traded.referrals = matched.referrals := by
      rw [(runAmmLeg_traded ran).2.2]
    refine ⟨filledRow env traded user venue data ⟨book, some leg⟩,
      placed (Trading.finish_orders finished) rfl (finish_orderId finished), rfl, rfl, rfl, le_rfl,
      amount.le, fun _ => ⟨rfl, rfl⟩, rfl, finish_moves ?_ finished (fun side => ?_) fun side => ?_⟩
    · unfold NotOwnReferrer
      rw [referrals, same]
      exact apart
    · rw [runAmmLeg_paid side ran, book_paid side trace, Option.map_map]
      congr 1
      funext wallet
      simp only [Function.comp_apply, Wallet.debit, whole]
      congr 1
      ring
    · rw [runAmmLeg_delivered side left ran, book_delivered side trace, whole]
      ring
  · have all : book.amount data.side = data.amount := by linarith
    refine ⟨filledRow env matched user venue data ⟨book, none⟩,
      placed (Trading.finish_orders finished) rfl (finish_orderId finished), rfl, rfl, rfl, le_rfl,
      amount.le, fun _ => ⟨rfl, rfl⟩, rfl, finish_moves ?_ finished (fun side => ?_) fun side => ?_⟩
    · unfold NotOwnReferrer
      rw [same]
      exact apart
    · rw [book_paid side trace, all]
    · rw [book_delivered side trace, all]

/-- Of ten USDC five go to the resting seller and five to the AMM. -/
theorem a_buy_of_ten_moves_ten :
    ∃ execution, executeOrder quietEnv quotedMarket 1 (marketOrder .buy 10 pos_ten grid_ten) =
        .ok execution ∧
      ∃ order, execution.db.orders.find? execution.result.orderId = some order ∧
        order.amount = 10 ∧ order.remainingAmount = 0 ∧ Moves quotedMarket execution.db order := by
  have traded : succeedsWith (executeOrder quietEnv quotedMarket 1
      (marketOrder .buy 10 pos_ten grid_ten)) (fun _ => true) = true := by
    decide +kernel
  obtain ⟨execution, executed, _⟩ := succeedsWith_iff.mp traded
  have apart : NotOwnReferrer quotedMarket 1 :=
    fun referral member => absurd member List.not_mem_nil
  obtain ⟨order, found, _, _, amount, _, _, whole, isType, moves⟩ :=
    an_order_moves_what_it_fills executed rfl apart
  have other : order.orderType ≠ .limit := by
    rw [isType]
    exact OrderType.noConfusion
  exact ⟨execution, executed, order, found, amount, (whole other).2, moves⟩

end Movement

end PredictX.Placement
