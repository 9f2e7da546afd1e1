import PredictX.Properties.Commitments
import PredictX.Properties.ShareConservation
import PredictX.Data.Run

namespace PredictX

open PredictX.Data PredictX.Amm PredictX.MatchingEngine PredictX.OrderService

/-! Locks over whole runs of the order operations.

A resting buy that the sweep matches as a taker pays from its owner's balance and keeps
the lock, so the equality survives a sweep only when no buy can take from the book: when
every resting sell that crosses a buy has nothing behind it.
-/

/-! # Closing an order -/

namespace Backed

variable {wallets : Table Wallet.userId} {orders : Table Order.id} {order : Order}
  {update : Order → Order} {keeps : ∀ row, (update row).id = row.id}

theorem close_sell (backed : Backed wallets orders) (found : orders.find? order.id = some order)
    (selling : order.side = .sell) (closed : (update order).status.isOpen = false) :
    Backed wallets (orders.modify order.id update keeps) := by
  refine backed.modify_idle found ?_ fun opened => absurd opened (by simp [closed])
  intro user
  rw [Order.commitment_of_closed closed, Order.commitment_of_sell selling]

/-- Closing a buy releases what it had left. -/
theorem close_buy (backed : Backed wallets orders) (found : orders.find? order.id = some order)
    (buying : order.side = .buy) (opened : order.status.isOpen = true)
    (sameOwner : (update order).userId = order.userId)
    (closed : (update order).status.isOpen = false) :
    Backed (wallets.modify order.userId (Wallet.release order.remainingAmount))
      (orders.modify order.id update keeps) := by
  refine backed.settle found buying opened sameOwner le_rfl ?_ ?_ ?_ ?_
  · rw [Order.commitment_of_closed closed, sub_self]
  · exact fun isOpen => absurd isOpen (by simp [closed])
  · exact lockedOf_modify_self _ (fun locked => max 0 (locked - order.remainingAmount))
      fun _ => rfl
  · exact fun user apart => lockedOf_modify_ne _ apart

end Backed

theorem OrderService.cancelOrder_backed {env : Env} {db after : Database} {user : UserId}
    {orderId : OrderId} (backed : Backed db.wallets db.orders)
    (cancelled : cancelOrder env db user orderId = .ok after) :
    Backed after.wallets after.orders := by
  unfold cancelOrder at cancelled
  split at cancelled
  · rename_i order _ found _
    split at cancelled
    · rename_i allowed
      obtain ⟨rfl, opened⟩ := allowed
      obtain rfl := Table.key_of_find? found
      cases cancelled
      dsimp only
      cases side : order.side with
      | buy => exact backed.close_buy found side opened rfl rfl
      | sell => exact backed.close_sell found side rfl
    · contradiction
  · contradiction

namespace LimitSweep

theorem expireOrder_backed {now : Timestamp} {db : Database} {order : Order}
    (backed : Backed db.wallets db.orders) (found : db.orders.find? order.id = some order)
    (opened : order.status.isOpen = true) :
    Backed (expireOrder now db order).wallets (expireOrder now db order).orders := by
  unfold expireOrder
  dsimp only
  cases side : order.side with
  | buy => exact backed.close_buy found side opened rfl rfl
  | sell => exact backed.close_sell found side rfl

theorem expireStaleOrders_backed {now : Timestamp} {db : Database}
    (backed : Backed db.wallets db.orders) :
    Backed (expireStaleOrders now db).wallets (expireStaleOrders now db).orders :=
  expireStaleOrders_preserves (fun db => Backed db.wallets db.orders)
    (fun found opened backed => expireOrder_backed backed found opened) backed

/-! # Orders across a sweep -/

/-- What a fill does to an order: it shrinks, and it closes only when nothing is left. -/
structure Wanes (before after : Order) : Prop where
  terms : SameTerms before after
  remaining : after.remainingAmount ≤ before.remainingAmount
  opened : after.status.isOpen = true → before.status.isOpen = true
  spent : before.status.isOpen = true →
    after.status.isOpen = true ∨ after.remainingAmount ≤ 0

/-- What any step of the sweep does to an order. -/
structure Fades (before after : Order) : Prop where
  terms : SameTerms before after
  opened : after.status.isOpen = true → before.status.isOpen = true

theorem Wanes.refl (order : Order) : Wanes order order := ⟨.refl order, le_rfl, id, .inl⟩

theorem Wanes.trans {first second third : Order} (left : Wanes first second)
    (right : Wanes second third) : Wanes first third := by
  refine ⟨left.terms.trans right.terms, right.remaining.trans left.remaining,
    left.opened ∘ right.opened, fun opened => ?_⟩
  rcases left.spent opened with still | nothing
  · exact right.spent still
  · exact .inr (right.remaining.trans nothing)

theorem Wanes.fades {before after : Order} (wanes : Wanes before after) : Fades before after :=
  ⟨wanes.terms, wanes.opened⟩

theorem fillMaker_wanes {now : Timestamp} {spent : ℚ} {order : Order} (nonneg : 0 ≤ spent)
    (opened : order.status.isOpen = true) : Wanes order (fillMaker now spent order) := by
  refine ⟨fillMaker_sameTerms now spent order, ?_, fun _ => opened, fun _ => ?_⟩
  · unfold fillMaker
    dsimp only
    split <;> exact sub_le_self _ nonneg
  · unfold fillMaker
    dsimp only
    split
    · exact .inr ‹_›
    · exact .inl rfl

/-- A taker's row that has been open since its turn began. -/
def TakesTurn (order : Order) : Prop := order.status.isOpen = true ∨ order.status = .filled

theorem fillTaker_wanes (now : Timestamp) {spent : ℚ} {order : Order} (nonneg : 0 ≤ spent)
    (turn : TakesTurn order) : Wanes order (fillTaker now spent order) := by
  refine ⟨fillTaker_sameTerms now spent order, ?_, fun isOpen => ?_, fun isOpen => ?_⟩
  · unfold fillTaker
    dsimp only
    split <;> exact sub_le_self _ nonneg
  · rcases turn with opened | filled
    · exact opened
    · unfold fillTaker at isOpen
      dsimp only at isOpen
      split at isOpen
      · contradiction
      · simp [OrderStatus.isOpen] at isOpen
  · unfold fillTaker
    dsimp only
    split
    · exact .inr ‹_›
    · refine .inl ?_
      dsimp only
      rw [if_neg (by rintro filled; simp [filled, OrderStatus.isOpen] at isOpen)]
      rfl

theorem fillTaker_turn {now : Timestamp} {spent : ℚ} {order : Order} :
    TakesTurn (fillTaker now spent order) := by
  unfold TakesTurn fillTaker
  dsimp only
  split
  · exact .inr rfl
  · dsimp only
    split
    · exact .inr rfl
    · exact .inl rfl

/-! # Sells with nothing behind them -/

/-- A buy and a sell that would match. -/
structure Crosses (buy sell : Order) : Prop where
  buying : buy.side = .buy
  selling : sell.side = .sell
  buyOpen : buy.status.isOpen = true
  sellOpen : sell.status.isOpen = true
  outcome : buy.outcomeId = sell.outcomeId
  users : buy.userId ≠ sell.userId
  price : sell.price ≤ buy.price

instance (buy sell : Order) : Decidable (Crosses buy sell) :=
  decidable_of_iff (buy.side = .buy ∧ sell.side = .sell ∧ buy.status.isOpen = true ∧
      sell.status.isOpen = true ∧ buy.outcomeId = sell.outcomeId ∧ buy.userId ≠ sell.userId ∧
      sell.price ≤ buy.price)
    ⟨fun ⟨buying, selling, buyOpen, sellOpen, outcome, users, price⟩ =>
        ⟨buying, selling, buyOpen, sellOpen, outcome, users, price⟩,
      fun crosses => ⟨crosses.1, crosses.2, crosses.3, crosses.4, crosses.5, crosses.6,
        crosses.7⟩⟩

/-- The user has no open buy on the outcome. -/
def NotBuying (orders : Table Order.id) (user : UserId) (outcome : OutcomeId) : Prop :=
  ∀ order ∈ orders.rows, order.side = .buy → order.status.isOpen = true →
    order.userId = user → order.outcomeId ≠ outcome

instance (orders : Table Order.id) (user : UserId) (outcome : OutcomeId) :
    Decidable (NotBuying orders user outcome) :=
  inferInstanceAs (Decidable (∀ order ∈ orders.rows, _ → _ → _ → _ ≠ _))

/-- The seller holds no shares and no open buy could bring her some. -/
structure Bare (db : Database) (sell : Order) : Prop where
  shares : Position.held db.positions (positionKey sell sell.userId) ≤ 0
  notBuying : NotBuying db.orders sell.userId sell.outcomeId

instance (db : Database) (sell : Order) : Decidable (Bare db sell) :=
  decidable_of_iff (Position.held db.positions (positionKey sell sell.userId) ≤ 0 ∧
      NotBuying db.orders sell.userId sell.outcomeId)
    ⟨fun ⟨shares, notBuying⟩ => ⟨shares, notBuying⟩, fun bare => ⟨bare.1, bare.2⟩⟩

/-- No open buy can take shares from the book. -/
def BookBare (db : Database) : Prop :=
  ∀ buy ∈ db.orders.rows, ∀ sell ∈ db.orders.rows, Crosses buy sell → Bare db sell

instance (db : Database) : Decidable (BookBare db) :=
  inferInstanceAs (Decidable (∀ buy ∈ db.orders.rows, ∀ sell ∈ db.orders.rows, _ → _))

theorem NotBuying.fade {before after : Table Order.id} {user : UserId} {outcome : OutcomeId}
    (linked : Table.Linked Fades before after) (notBuying : NotBuying before user outcome) :
    NotBuying after user outcome := by
  intro order member buying opened owner
  obtain ⟨row, found, fades⟩ := linked.backward (Table.find?_key_of_mem member)
  rw [fades.terms.outcomeId]
  exact notBuying row (Table.mem_of_find? found) (fades.terms.side ▸ buying)
    (fades.opened opened) (fades.terms.userId ▸ owner)

/-- Orders that fade cross no others, and shares reach only those who buy. -/
theorem BookBare.fade {before after : Database} (bare : BookBare before)
    (linked : Table.Linked Fades before.orders after.orders)
    (shares : ∀ key, NotBuying before.orders key.userId key.outcomeId →
      Position.held after.positions key ≤ Position.held before.positions key) :
    BookBare after := by
  intro buy buyMember sell sellMember crosses
  obtain ⟨oldBuy, buyFound, buyFades⟩ := linked.backward (Table.find?_key_of_mem buyMember)
  obtain ⟨oldSell, sellFound, sellFades⟩ := linked.backward (Table.find?_key_of_mem sellMember)
  have crossed : Crosses oldBuy oldSell :=
    { buying := buyFades.terms.side ▸ crosses.buying
      selling := sellFades.terms.side ▸ crosses.selling
      buyOpen := buyFades.opened crosses.buyOpen
      sellOpen := sellFades.opened crosses.sellOpen
      outcome := by rw [← buyFades.terms.outcomeId, crosses.outcome, sellFades.terms.outcomeId]
      users := by rw [← buyFades.terms.userId, ← sellFades.terms.userId]; exact crosses.users
      price := by rw [← buyFades.terms.price, ← sellFades.terms.price]; exact crosses.price }
  have was := bare oldBuy (Table.mem_of_find? buyFound) oldSell (Table.mem_of_find? sellFound)
    crossed
  have sameKey : positionKey sell sell.userId = positionKey oldSell oldSell.userId := by
    simp only [positionKey, sellFades.terms.userId, sellFades.terms.marketId,
      sellFades.terms.outcomeId]
  refine ⟨?_, ?_⟩
  · rw [sameKey]
    exact (shares _ was.notBuying).trans was.shares
  · rw [sellFades.terms.userId, sellFades.terms.outcomeId]
    exact was.notBuying.fade linked

/-! # One turn -/

/-- What a turn does to the rows it may write, short of expiring an order. -/
structure Advances (before after : Database) : Prop where
  backed : Backed after.wallets after.orders
  wanes : Table.Linked Wanes before.orders after.orders
  shares : ∀ key, NotBuying before.orders key.userId key.outcomeId →
    Position.held after.positions key ≤ Position.held before.positions key

theorem Advances.trans {first second third : Database} (left : Advances first second)
    (right : Advances second third) : Advances first third :=
  { backed := right.backed
    wanes := left.wanes.trans Wanes.trans right.wanes
    shares := fun key notBuying =>
      (right.shares key (notBuying.fade (left.wanes.mono Wanes.fades))).trans
        (left.shares key notBuying) }

theorem pendingQuantity_le {side : Side} {fill : PendingFill} {maker : Order} {quantity : ℚ}
    (asked : pendingQuantity side fill maker = some quantity) :
    quantity ≤ maker.remainingAmount := by
  unfold pendingQuantity at asked
  split at asked
  · contradiction
  extract_lets offered at asked
  split at asked
  · contradiction
  · rw [← Option.some.inj asked]
    cases side with
    | buy => exact min_le_left _ _
    | sell => exact min_le_left _ _

section Turn

variable {now : Timestamp} {session : Session} {market : MarketId} {order : Order}
  {outcome : OutcomeId} {matched : Database} {fill : PendingFill}

/-- The makers are chosen by committed rows, but the ones asked are open by their own. -/
theorem pendingPlan_open
    (live : Table.Linked Wanes session.committed.orders session.current.orders)
    (trace : Trace now (pendingTaker now order) session.current ⟨order.remainingAmount, []⟩
      (pendingPlan now session market order outcome) matched fill) :
    ∀ offer ∈ pendingPlan now session market order outcome,
      offer.maker.status.isOpen = true := by
  intro offer member
  obtain ⟨found, row, rowMember, sameId, matches_⟩ :=
    mem_findMatches (maker_mem_of_mem_plan member)
  obtain ⟨current, currentFound, wanes⟩ := live.forward (Table.find?_key_of_mem rowMember)
  rw [sameId, found] at currentFound
  cases currentFound
  rcases wanes.spent (isMatch_iff.mp matches_).2.2.2.1 with opened | nothing
  · exact opened
  · obtain ⟨_, asked⟩ := trace.asked offer member
    have positive := pending_positive trace offer member
    have atMost := pendingQuantity_le (Except.ok.inj asked)
    linarith

theorem pendingPlan_current (consistent : session.Consistent)
    (backed : Backed session.current.wallets session.current.orders)
    (live : Table.Linked Wanes session.committed.orders session.current.orders)
    (trace : Trace now (pendingTaker now order) session.current ⟨order.remainingAmount, []⟩
      (pendingPlan now session market order outcome) matched fill) :
    ∀ offer ∈ pendingPlan now session market order outcome,
      Current session.current.orders offer := by
  intro offer member
  obtain ⟨row, _⟩ := pendingPlan_maker consistent member
  have opened := pendingPlan_open live trace offer member
  have placed := backed.placed _ _ row opened
  have positive := pending_positive trace offer member
  refine ⟨row, opened, positive, fun _ => ?_⟩
  obtain ⟨_, asked⟩ := trace.asked offer member
  calc offer.usdc = offer.quantity * offer.maker.price := rfl
    _ ≤ offer.quantity * 1 := mul_le_mul_of_nonneg_left placed.price_le positive.le
    _ = offer.quantity := mul_one _
    _ ≤ offer.maker.remainingAmount := pendingQuantity_le (Except.ok.inj asked)

theorem pendingPlan_distinct (now : Timestamp) (session : Session) (market : MarketId)
    (order : Order) (outcome : OutcomeId) :
    ((pendingPlan now session market order outcome).map fun offer => offer.maker.id).Nodup := by
  have sublist := (plan_sublist session.current.outcomes (pendingTaker now order)
    (findMatches session.committed.orders session.current.orders market outcome order.side
      (some order.price) order.userId)
    (Position.held session.current.positions) ⟨order.remainingAmount, []⟩).map Order.id
  rw [List.map_map] at sublist
  exact (findMatches_nodup _ _).sublist sublist

end Turn

section Trace

variable {σ : Type} {now : Timestamp} {taker : Taker σ} {order : Order} {db after : Database}
  {offers : List Offer}

/-- Only the buyers of a trace gain shares. -/
theorem trace_held_le {fill final : σ} (trace : Trace now taker db fill offers after final)
    (positive : ∀ offer ∈ offers, 0 < offer.quantity) {key : PositionKey}
    (apart : ∀ offer ∈ offers, key ≠ positionKey offer.maker (buyerOf offer.maker taker.userId)) :
    Position.held after.positions key ≤ Position.held db.positions key := by
  induction trace with
  | done => exact le_rfl
  | skip _ _ _ ih =>
      exact ih (fun offer member => positive offer (List.mem_cons_of_mem _ member))
        fun offer member => apart offer (List.mem_cons_of_mem _ member)
  | @deliver db _ _ _ maker quantity _ _ holds _ _ ih =>
      refine (ih (fun offer member => positive offer (List.mem_cons_of_mem _ member))
        fun offer member => apart offer (List.mem_cons_of_mem _ member)).trans ?_
      have amount : 0 < quantity := positive _ List.mem_cons_self
      change Position.held (moveShares db.positions maker taker.userId quantity _) key ≤ _
      rw [held_moveShares _ amount holds, moved, if_neg (apart _ List.mem_cons_self), add_zero]
      split <;> linarith

/-- A loop that finds every seller empty-handed only skips. -/
theorem trace_unserved {fill final : σ} (trace : Trace now taker db fill offers after final)
    (positive : ∀ offer ∈ offers, 0 < offer.quantity)
    (short : ∀ offer ∈ offers, Position.held db.positions
      (positionKey offer.maker (sellerOf offer.maker taker.userId)) ≤ 0) :
    after.wallets = db.wallets ∧ after.orders = db.orders ∧ after.positions = db.positions ∧
      final = fill := by
  induction trace with
  | done => exact ⟨rfl, rfl, rfl, rfl⟩
  | skip _ _ _ ih =>
      exact ih (fun offer member => positive offer (List.mem_cons_of_mem _ member))
        fun offer member => short offer (List.mem_cons_of_mem _ member)
  | deliver _ holds _ _ _ =>
      have amount := positive _ List.mem_cons_self
      have nothing := short _ List.mem_cons_self
      exact absurd (holds.trans nothing) (not_le.mpr amount)

/-- The row of a resting sell while its own turn runs. -/
structure Selling (orders : Table Order.id) (id : OrderId) (row : Order) : Prop where
  found : orders.find? id = some row
  side : row.side = .sell
  bounded : row.Bounded
  turn : TakesTurn row

theorem fillTaker_bounded (now : Timestamp) {spent : ℚ} {order : Order}
    (bounded : order.Bounded) (nonneg : 0 ≤ spent) : (fillTaker now spent order).Bounded := by
  have terms := fillTaker_sameTerms now spent order
  have atMost := bounded.remaining_le
  have shrinks : (fillTaker now spent order).remainingAmount ≤ order.remainingAmount := by
    unfold fillTaker
    dsimp only
    split <;> exact sub_le_self _ nonneg
  exact ⟨terms.price ▸ bounded.price_pos, terms.price ▸ bounded.price_le,
    terms.amount ▸ shrinks.trans atMost⟩

theorem fillTaker_remaining {now : Timestamp} {spent : ℚ} {order : Order} :
    (fillTaker now spent order).status.isOpen = true →
      0 < (fillTaker now spent order).remainingAmount := by
  unfold fillTaker
  dsimp only
  split
  · intro opened
    contradiction
  · exact fun _ => not_le.mp ‹_›

/-- A sell's row commits nothing, whatever is written to it. -/
theorem Selling.modify {wallets : Table Wallet.userId} {orders : Table Order.id} {id : OrderId}
    {row : Order} {update : Order → Order} (backed : Backed wallets orders)
    (selling : Selling orders id row) (keeps : ∀ row, (update row).id = row.id)
    (terms : SameTerms row (update row))
    (placed : (update row).status.isOpen = true → (update row).Placed) :
    Backed wallets (orders.modify id update keeps) := by
  obtain rfl := Table.key_of_find? selling.found
  refine backed.modify_idle selling.found (fun user => ?_) placed
  rw [Order.commitment_of_sell selling.side,
    Order.commitment_of_sell (terms.side.trans selling.side)]

/-- A resting sell keeps the locks of the buys it is matched with. -/
theorem trace_sell {fill final : PendingFill} {row : Order}
    (trace : Trace now (pendingTaker now order) db fill offers after final)
    (backed : Backed db.wallets db.orders)
    (current : ∀ offer ∈ offers, Current db.orders offer)
    (distinct : (offers.map fun offer => offer.maker.id).Nodup)
    (apart : ∀ offer ∈ offers, offer.maker.id ≠ order.id)
    (side : order.side = .sell) (selling : Selling db.orders order.id row) :
    Backed after.wallets after.orders ∧ Table.Linked Wanes db.orders after.orders ∧
      ∃ row', Selling after.orders order.id row' := by
  induction trace generalizing row with
  | done => exact ⟨backed, .refl Wanes.refl _, row, selling⟩
  | skip _ _ _ ih =>
      exact ih backed (fun offer member => current offer (List.mem_cons_of_mem _ member))
        (List.nodup_cons.mp distinct).2
        (fun offer member => apart offer (List.mem_cons_of_mem _ member)) selling
  | @deliver db _ _ _ maker quantity later _ _ _ _ ih =>
      rw [List.map_cons, List.nodup_cons] at distinct
      have head := current _ List.mem_cons_self
      have makerApart : order.id ≠ maker.id := Ne.symm (apart _ List.mem_cons_self)
      have amount : 0 ≤ quantity := head.quantity.le
      have usdc : 0 ≤ quantity * maker.price :=
        mul_nonneg amount (backed.placed _ _ head.row head.opened).price_pos.le
      have spent : 0 ≤ makerSpent maker quantity (quantity * maker.price) := by
        unfold makerSpent
        split
        · exact usdc
        · exact amount
      have taken : takerSpent order.side (executedDetails db.outcomes maker quantity) = quantity := by
        rw [side]
        rfl
      -- The maker's row first, then the taker's own.
      have paid := payMatch_backed now order.userId backed head
      have sellingStill : Selling (db.orders.modify maker.id
          (fillMaker now (makerSpent maker quantity (quantity * maker.price)))
          (fillMaker_id now _)) order.id row :=
        ⟨(Table.find?_modify_ne makerApart).trans selling.found, selling.side, selling.bounded,
          selling.turn⟩
      have filled : Selling (deliver now (pendingTaker now order) db maker quantity).orders
          order.id (fillTaker now quantity row) := by
        refine ⟨?_, (fillTaker_sameTerms now quantity row).side.trans selling.side,
          fillTaker_bounded now selling.bounded amount, fillTaker_turn⟩
        change (Table.modify _ order.id (fillTaker now (takerSpent order.side _))
          (fillTaker_id now _)).find? _ = _
        rw [Table.find?_modify_self, sellingStill.found, taken]
        rfl
      have step : Backed (deliver now (pendingTaker now order) db maker quantity).wallets
          (deliver now (pendingTaker now order) db maker quantity).orders := by
        refine Selling.modify paid sellingStill (fillTaker_id now _)
          (fillTaker_sameTerms now _ row) fun opened => ?_
        rw [taken] at opened ⊢
        exact ⟨fillTaker_bounded now selling.bounded amount, fillTaker_remaining opened⟩
      have wanes : Table.Linked Wanes db.orders
          (deliver now (pendingTaker now order) db maker quantity).orders := by
        refine (Table.Linked.modify Wanes.refl (fillMaker_id now _) head.row
          (fillMaker_wanes spent head.opened)).trans Wanes.trans ?_
        refine Table.Linked.modify Wanes.refl (fillTaker_id now _) sellingStill.found ?_
        exact fillTaker_wanes now (by rw [taken]; exact amount) selling.turn
      have next : ∀ offer ∈ later, Current
          (deliver now (pendingTaker now order) db maker quantity).orders offer := by
        intro offer member
        have makerNext : offer.maker.id ≠ maker.id := fun same =>
          distinct.1 (same ▸ List.mem_map_of_mem member)
        exact ((current offer (List.mem_cons_of_mem _ member)).modify (fillMaker_id now _)
          makerNext).modify (fillTaker_id now _) (apart offer (List.mem_cons_of_mem _ member))
      obtain ⟨backedAfter, wanesAfter, last⟩ := ih step next distinct.2
        (fun offer member => apart offer (List.mem_cons_of_mem _ member)) filled
      exact ⟨backedAfter, wanes.trans Wanes.trans wanesAfter, last⟩

end Trace

/-! # The two sides of a turn -/

section Sides

variable {now : Timestamp} {session : Session} {turn : Turn} {matched traded : Database}
  {fill : PendingFill} {leg : AmmLeg}

/-- The session's rows are in order, by their committed and by their current values. -/
structure Session.Sound (session : Session) : Prop where
  committedBacked : Backed session.committed.wallets session.committed.orders
  currentBacked : Backed session.current.wallets session.current.orders
  committedBare : BookBare session.committed
  currentBare : BookBare session.current
  live : Table.Linked Wanes session.committed.orders session.current.orders

theorem BookBare.advance {before after : Database} (bare : BookBare before)
    (advances : Advances before after) : BookBare after :=
  bare.fade (advances.wanes.mono Wanes.fades) advances.shares

/-- The book leg of a resting sell. -/
theorem matchedSell_advances (consistent : session.Consistent) (sound : session.Sound)
    (found : session.current.orders.find? turn.order.id = some turn.order)
    (opened : turn.order.status.isOpen = true) (side : turn.order.side = .sell)
    (trace : Trace now (pendingTaker now turn.order) session.current
      ⟨turn.order.remainingAmount, []⟩
      (pendingPlan now session turn.market turn.order turn.outcome.id) matched fill) :
    Advances session.current matched ∧
      ∃ row, Selling matched.orders turn.order.id row := by
  have current := pendingPlan_current consistent sound.currentBacked sound.live trace
  have bought : ∀ offer ∈ pendingPlan now session turn.market turn.order turn.outcome.id,
      offer.maker.side = .buy := by
    intro offer member
    obtain ⟨_, _, _, opposite, _⟩ := pendingPlan_maker consistent member
    rwa [side] at opposite
  have apart : ∀ offer ∈ pendingPlan now session turn.market turn.order turn.outcome.id,
      offer.maker.id ≠ turn.order.id := by
    intro offer member same
    have row := (current offer member).row
    rw [same, found] at row
    have buying := bought offer member
    rw [← Option.some.inj row, side] at buying
    contradiction
  obtain ⟨backed, wanes, row⟩ := trace_sell trace sound.currentBacked current
    (pendingPlan_distinct now session turn.market turn.order turn.outcome.id) apart side
    ⟨found, side, (sound.currentBacked.placed _ _ found opened).toBounded, .inl opened⟩
  refine ⟨⟨backed, wanes, fun key notBuying => ?_⟩, row⟩
  refine trace_held_le trace (pending_positive trace) fun offer member same => ?_
  have buyer := bought offer member
  rw [buyerOf, buyer] at same
  exact notBuying offer.maker (Table.mem_of_find? (current offer member).row) buyer
    (current offer member).opened (by rw [same]; rfl) (by rw [same]; rfl)

/-- The AMM leg of a resting sell. -/
theorem soldLeg_advances {row : Order} {remaining : ℚ}
    (backed : Backed matched.wallets matched.orders)
    (selling : Selling matched.orders turn.order.id row) (side : turn.order.side = .sell)
    (left : 0 < remaining)
    (ran : sweepLeg now matched turn remaining = .ok (some (traded, leg))) :
    Advances matched traded := by
  obtain ⟨quantity, buys | sells⟩ := sweepLeg_ok ran
  · exact absurd (side.symm.trans buys.1) (by simp)
  obtain ⟨_, _, _, holds, _, _, rfl⟩ := sells
  have nonneg : 0 ≤ leg.quantity := by
    rw [quantity]
    exact left.le
  obtain ⟨position, positionFound⟩ := Position.exists_of_held_pos (left.trans_le holds)
  refine ⟨?_, ?_, fun key _ => ?_⟩
  · refine Selling.modify (backed.wallets_congr fun _ => lockedOf_credit _) selling
      (fillResting_id now leg) (fillResting_sameTerms now leg row) fun opened => ?_
    have bounded := fillTaker_bounded now selling.bounded nonneg
    exact ⟨⟨bounded.price_pos, bounded.price_le, bounded.remaining_le⟩,
      fillTaker_remaining opened⟩
  · refine Table.Linked.modify Wanes.refl (fillResting_id now leg) selling.found ?_
    have wanes := fillTaker_wanes now nonneg selling.turn
    exact ⟨fillResting_sameTerms now leg row, wanes.remaining, wanes.opened, wanes.spent⟩
  · change Position.held (Position.dispose matched.positions turn.positionKey remaining
      leg.quote.collateralIn) key ≤ _
    rw [Position.held_dispose positionFound]
    split <;> linarith

/-- The book leg of a resting buy: nobody can deliver, so nothing happens. -/
theorem matchedBuy_same (consistent : session.Consistent) (sound : session.Sound)
    (found : session.current.orders.find? turn.order.id = some turn.order)
    (opened : turn.order.status.isOpen = true) (side : turn.order.side = .buy)
    (trace : Trace now (pendingTaker now turn.order) session.current
      ⟨turn.order.remainingAmount, []⟩
      (pendingPlan now session turn.market turn.order turn.outcome.id) matched fill)
    (outcome : turn.outcome.id = turn.order.outcomeId) :
    matched.wallets = session.current.wallets ∧ matched.orders = session.current.orders ∧
      matched.positions = session.current.positions ∧
      fill = ⟨turn.order.remainingAmount, []⟩ := by
  refine trace_unserved trace (pending_positive trace) fun offer member => ?_
  obtain ⟨row, _, outcomeId, opposite, users, crosses⟩ := pendingPlan_maker consistent member
  rw [side] at opposite crosses
  have bare := sound.currentBare turn.order (Table.mem_of_find? found) offer.maker
    (Table.mem_of_find? row)
    { buying := side
      selling := opposite
      buyOpen := opened
      sellOpen := pendingPlan_open sound.live trace offer member
      outcome := by rw [outcomeId, outcome]
      users := Ne.symm users
      price := by simpa [priceCrosses] using crosses }
  rw [sellerOf, show offer.maker.side = .sell from opposite]
  exact bare.shares

/-- The AMM leg of a resting buy takes its whole remainder off the lock. -/
theorem boughtLeg_advances (backed : Backed matched.wallets matched.orders)
    (found : matched.orders.find? turn.order.id = some turn.order)
    (opened : turn.order.status.isOpen = true) (side : turn.order.side = .buy)
    (outcome : turn.outcome.id = turn.order.outcomeId)
    (ran : sweepLeg now matched turn turn.order.remainingAmount = .ok (some (traded, leg))) :
    Advances matched traded := by
  obtain ⟨quantity, buys | sells⟩ := sweepLeg_ok ran
  swap
  · exact absurd (side.symm.trans sells.1) (by simp)
  obtain ⟨_, _, _, _, rfl⟩ := buys
  have nothing : (fillResting now leg turn.order).remainingAmount ≤ 0 ∧
      (fillResting now leg turn.order).status = .filled := by
    simp [fillResting, fillTaker, quantity]
  have closed : (fillResting now leg turn.order).status.isOpen = false := by
    rw [nothing.2]
    rfl
  have positive := (backed.placed _ _ found opened).remaining_pos
  refine ⟨?_, ?_, fun key notBuying => ?_⟩
  · change Backed _ (matched.orders.modify turn.order.id (fillResting now leg)
      (fillResting_id now leg))
    refine backed.settle found side opened (fillResting_sameTerms now leg turn.order).userId
      le_rfl ?_ (fun isOpen => absurd isOpen (by simp [closed])) ?_ ?_
    · rw [Order.commitment_of_closed closed, sub_self]
    · change lockedOf (matched.wallets.modify turn.order.userId
        (payResting turn.order.remainingAmount)) _ = _
      rw [lockedOf_modify_self _ (fun locked => if 0 < locked then
        max 0 (locked - turn.order.remainingAmount) else locked) fun _ => rfl]
      refine Option.map_congr fun locked held => ?_
      exact if_pos (positive.trans_le (backed.remaining_le_locked found side opened held))
    · intro user apart
      change lockedOf (matched.wallets.modify turn.order.userId
        (payResting turn.order.remainingAmount)) user = _
      exact lockedOf_modify_ne _ apart
  · refine Table.Linked.modify Wanes.refl (fillResting_id now leg) found ?_
    refine ⟨fillResting_sameTerms now leg turn.order, nothing.1.trans positive.le,
      fun _ => opened, fun _ => .inr nothing.1⟩
  · change Position.held (Position.acquire matched.positions turn.positionKey _ _ _) key ≤ _
    rw [Position.held_acquire, if_neg, add_zero]
    rintro rfl
    exact notBuying turn.order (Table.mem_of_find? found) side opened rfl outcome.symm

end Sides

/-! # Whole sweeps -/

namespace Session.Sound

variable {session : Session} {db after : Database}

theorem of_commit (backed : Backed db.wallets db.orders) (bare : BookBare db) :
    Session.Sound ⟨db, db⟩ :=
  ⟨backed, backed, bare, bare, .refl Wanes.refl _⟩

theorem advance (sound : session.Sound) (advances : Advances session.current after) :
    Session.Sound ⟨session.committed, after⟩ :=
  { committedBacked := sound.committedBacked
    currentBacked := advances.backed
    committedBare := sound.committedBare
    currentBare := sound.currentBare.advance advances
    live := sound.live.trans Wanes.trans advances.wanes }

theorem commit (sound : session.Sound) : session.commit.Sound :=
  of_commit sound.currentBacked sound.currentBare

theorem rollback (sound : session.Sound) : session.rollback.Sound :=
  of_commit sound.committedBacked sound.committedBare

end Session.Sound

theorem tradeOrder_advances {now : Timestamp} {session : Session} {turn : Turn}
    {processed : Processed} (consistent : session.Consistent) (sound : session.Sound)
    (found : session.current.orders.find? turn.order.id = some turn.order)
    (opened : turn.order.status.isOpen = true) (outcome : turn.outcome.id = turn.order.outcomeId)
    (ran : tradeOrder now session turn = .ok processed) :
    ∃ after, Advances session.current after ∧
      (processed.session = ⟨session.committed, after⟩ ∨ processed.session = ⟨after, after⟩) := by
  obtain ⟨matched, fill, trace, _, ends⟩ := tradeOrder_ok ran
  cases side : turn.order.side with
  | sell =>
      obtain ⟨advances, row, selling⟩ :=
        matchedSell_advances consistent sound found opened side trace
      rcases ends with ⟨_, _, kept⟩ | ⟨traded, leg, _, left, _, legRan, kept⟩
      · exact ⟨matched, advances, kept⟩
      · exact ⟨traded, advances.trans
          (soldLeg_advances advances.backed selling side left legRan), .inl kept⟩
  | buy =>
      obtain ⟨wallets, orders, positions, rfl⟩ :=
        matchedBuy_same consistent sound found opened side trace outcome
      have backed : Backed matched.wallets matched.orders := by
        rw [wallets, orders]
        exact sound.currentBacked
      have idle : Advances session.current matched :=
        { backed := backed
          wanes := orders ▸ .refl Wanes.refl _
          shares := fun key _ => by rw [positions] }
      rcases ends with ⟨_, _, kept⟩ | ⟨traded, leg, _, _, _, legRan, kept⟩
      · exact ⟨matched, idle, kept⟩
      · refine ⟨traded, idle.trans ?_, .inl kept⟩
        exact boughtLeg_advances backed (by rw [orders, found]) opened side outcome legRan

theorem expireOrder_bare {now : Timestamp} {db : Database} {order : Order} (bare : BookBare db)
    (found : db.orders.find? order.id = some order) : BookBare (expireOrder now db order) := by
  refine bare.fade ?_ fun _ _ => le_rfl
  refine Table.Linked.modify (fun row => (Wanes.refl row).fades)
    (markExpired_id now) found ⟨⟨rfl, rfl, rfl, rfl, rfl, rfl⟩, fun opened => ?_⟩
  contradiction

theorem processOrder_sound {now : Timestamp} {session : Session} {market : MarketId}
    {parimutuel : Bool} {orderId : OrderId} {processed : Processed}
    (consistent : session.Consistent) (sound : session.Sound)
    (ran : processOrder now market parimutuel session orderId = .ok processed) :
    processed.session.Sound := by
  rcases processOrder_ok ran with ⟨rfl, _⟩ | ⟨order, found, opened, _, rfl⟩ |
    ⟨order, turn, found, opened, _, taken, traded⟩
  · exact sound
  · obtain rfl := Table.key_of_find? found
    exact .of_commit (expireOrder_backed sound.currentBacked found opened)
      (expireOrder_bare sound.currentBare found)
  · obtain rfl := Table.key_of_find? found
    obtain ⟨_, rfl, _, outcome, _⟩ := takeTurn_some taken
    obtain ⟨after, advances, kept | committed⟩ :=
      tradeOrder_advances consistent sound found opened outcome traded
    · rw [kept]
      exact sound.advance advances
    · rw [committed]
      exact .of_commit advances.backed (sound.currentBare.advance advances)

/-- Every session of a sweep over a bare book keeps the locks. -/
theorem Sweeping.sound {now : Timestamp} {db : Database} {session : Session}
    (sweeping : Sweeping now db session) (backed : Backed db.wallets db.orders)
    (bare : BookBare db) : session.Sound := by
  induction sweeping with
  | start => exact .of_commit backed bare
  | turn before ran ih => exact processOrder_sound before.consistent ih ran
  | commit _ ih => exact ih.commit
  | rollback _ ih => exact ih.rollback

theorem checkLimitOrderExecution_backed {now : Timestamp} {scanned : List Order} {db : Database}
    (backed : Backed db.wallets db.orders) (bare : BookBare db) :
    Backed (checkLimitOrderExecution now scanned db).wallets
      (checkLimitOrderExecution now scanned db).orders := by
  obtain ⟨session, sweeping, ends⟩ := checkLimitOrderExecution_sweeping now scanned db
  rw [ends]
  exact (sweeping.sound backed bare).committedBacked

end LimitSweep

/-! # Runs -/

namespace Trading

open LimitSweep

/-- The operations that lock and release funds. -/
inductive Action where
  | execute (env : Env) (user : UserId) (data : OrderRequest)
  | cancel (env : Env) (user : UserId) (orderId : OrderId)
  | expire (now : Timestamp)
  | sweep (now : Timestamp) (dirty : Option (List MarketId)) (scanned : List Order)

def perform (db : Database) : Action → Except Error Database
  | .execute env user data => (executeOrder env db user data).map Execution.db
  | .cancel env user orderId => cancelOrder env db user orderId
  | .expire now => .ok (expireStaleOrders now db)
  | .sweep now _ scanned => .ok (checkLimitOrderExecution now scanned db)

/-- A sweep goes over the rows its query returns. -/
def Legal (db : Database) : Action → Prop
  | .sweep _ dirty scanned => Scanned dirty db scanned
  | _ => True

/-- When the sweep runs, no resting buy can take shares from the book. -/
def SweepsBare (db : Database) : Action → Prop
  | .sweep _ _ _ => BookBare db
  | _ => True

instance (db : Database) (action : Action) : Decidable (Legal db action) :=
  match action with
  | .sweep _ dirty scanned =>
      inferInstanceAs (Decidable (scanned.Perm (db.orders.rows.filter (isSwept dirty))))
  | .execute _ _ _ | .cancel _ _ _ | .expire _ => inferInstanceAs (Decidable True)

instance (db : Database) (action : Action) : Decidable (SweepsBare db action) :=
  match action with
  | .sweep _ _ _ => inferInstanceAs (Decidable (BookBare db))
  | .execute _ _ _ | .cancel _ _ _ | .expire _ => inferInstanceAs (Decidable True)

/-- No orders and nothing locked. -/
def Unlocked (db : Database) : Prop :=
  db.orders.rows = [] ∧ ∀ wallet ∈ db.wallets.rows, wallet.lockedBalance = 0

instance (db : Database) : Decidable (Unlocked db) :=
  inferInstanceAs (Decidable (_ = _ ∧ ∀ wallet ∈ db.wallets.rows, _ = _))

/-- Every lock is the sum of its owner's open buys, and so nothing once they are closed. -/
def LocksMatch (db : Database) : Prop :=
  ∀ wallet ∈ db.wallets.rows,
    wallet.lockedBalance = commitments db.orders wallet.userId ∧
      ((∀ order ∈ db.orders.rows, order.userId = wallet.userId → order.side = .buy →
        order.status.isOpen = false) → wallet.lockedBalance = 0)

theorem perform_backed {db after : Database} {action : Action} (safe : SweepsBare db action)
    (performed : perform db action = .ok after) (backed : Backed db.wallets db.orders) :
    Backed after.wallets after.orders := by
  cases action with
  | execute env user data =>
      cases executed : executeOrder env db user data with
      | error reason => simp [perform, executed, Except.map] at performed
      | ok execution =>
          simp only [perform, executed, Except.map, Except.ok.injEq] at performed
          rw [← performed]
          exact executeOrder_backed backed executed
  | cancel env user orderId => exact cancelOrder_backed backed performed
  | expire now =>
      cases performed
      exact expireStaleOrders_backed backed
  | sweep now dirty scanned =>
      cases performed
      exact checkLimitOrderExecution_backed backed safe

theorem Unlocked.backed {db : Database} (unlocked : Unlocked db) :
    Backed db.wallets db.orders := by
  constructor
  · intro user locked held
    obtain ⟨wallet, found, rfl⟩ := Option.mem_map.mp held
    rw [unlocked.2 wallet (Table.mem_of_find? found)]
    simp [commitments, Table.sum, unlocked.1]
  · intro id order found
    exact absurd (Table.mem_of_find? found) (by simp [unlocked.1])

theorem locksMatch_of_backed {db : Database} (backed : Backed db.wallets db.orders) :
    LocksMatch db := by
  intro wallet member
  have held : wallet.lockedBalance ∈ lockedOf db.wallets wallet.userId :=
    Option.mem_map.mpr ⟨wallet, Table.find?_key_of_mem member, rfl⟩
  refine ⟨backed.locked _ _ held, fun closed => ?_⟩
  rw [backed.locked _ _ held]
  refine List.sum_eq_zero fun value valueMember => ?_
  obtain ⟨order, orderMember, rfl⟩ := List.mem_map.mp valueMember
  unfold Order.commitment
  split
  · rename_i committed
    obtain ⟨owner, buying, opened⟩ := committed
    exact absurd opened (by simp [closed order orderMember owner buying])
  · rfl

/-- In every run whose sweeps find no buy that can take from the book, the locks are the
open buys. -/
theorem locks_match_commitments {start final : Database} {actions : List Action}
    (unlocked : Unlocked start)
    (run : Run (fun db action after => perform db action = .ok after)
      (fun db action => Legal db action ∧ SweepsBare db action) start actions final) :
    LocksMatch final := by
  refine locksMatch_of_backed
    (run.invariant (fun db => Backed db.wallets db.orders) ?_ unlocked.backed)
  intro db action after guarded performed backed
  exact perform_backed guarded.2 performed backed

/-! # Two runs of the quoted market -/

/-- A limit order on YES. -/
def limitOrder (side : Side) (amount price : ℚ) (amount_pos : 0 < amount)
    (amount_grid : OnGrid scale amount)
    (price_bounds : ∀ limit ∈ some price, 0 ≤ limit ∧ limit ≤ 1) : OrderRequest :=
  { marketOrder side amount amount_pos amount_grid with
    orderType := .limit
    price := some price
    price_bounds := price_bounds }

/-- User 2 holds ten YES shares; no order has been placed. -/
def openingDay : Database :=
  { quotedMarket with
    wallets := ⟨[⟨1, 100, 0⟩, ⟨2, 100, 0⟩, ⟨3, 2000, 0⟩], by decide⟩
    orders := .empty }

/-- User 2 rests a sell at 0.60, sells the shares elsewhere while the price rises, and has
shares again when the price is back; in between, user 1's buy at 0.70 could only rest. -/
def sellerReturns : List Action :=
  [.execute quietEnv 2 (limitOrder .sell 10 (6 / 10) pos_ten grid_ten
      (by decide +kernel)),
    .execute quietEnv 2 (marketOrder .sell 10 pos_ten grid_ten),
    .execute quietEnv 3 (marketOrder .buy 400 (by decide +kernel) (by decide +kernel)),
    .execute quietEnv 1 (limitOrder .buy 7 (7 / 10) (by decide +kernel) (by decide +kernel)
      (by decide +kernel)),
    .execute quietEnv 2 (marketOrder .buy 15 (by decide +kernel) (by decide +kernel)),
    .execute quietEnv 3
      { marketOrder .buy 400 (by decide +kernel) (by decide +kernel) with outcome := .no }]

def sweepAll (db : Database) : Action :=
  .sweep 1 none (db.orders.rows.filter (isSwept none))

/-- The sweep fills every order and leaves 1.80 of user 1's funds locked. -/
theorem swept_buy_stays_locked :
    Unlocked openingDay ∧ ∃ actions final,
      Run (fun db action after => perform db action = .ok after) Legal openingDay actions final ∧
      ¬ LocksMatch final := by
  refine ⟨by decide +kernel, ?_⟩
  have played : (replay perform Legal sellerReturns openingDay).any (fun db =>
      succeedsWith (perform db (sweepAll db)) fun after =>
        lockedOf after.wallets 1 = some (18 / 10) && commitments after.orders 1 = 0) = true := by
    decide +kernel
  obtain ⟨db, replayed, swept⟩ := (Option.any_eq_true _ _).mp played
  obtain ⟨after, performed, locked⟩ := succeedsWith_iff.mp swept
  refine ⟨sellerReturns ++ [sweepAll db], after, (run_of_replay replayed).append
    (.act (List.Perm.refl _) performed (.stop after)), fun match_ => ?_⟩
  simp only [Bool.and_eq_true, decide_eq_true_eq] at locked
  obtain ⟨wallet, found, balance⟩ := Option.map_eq_some_iff.mp locked.1
  have equal := (match_ wallet (Table.mem_of_find? found)).1
  rw [balance, Table.key_of_find? found, locked.2] at equal
  norm_num at equal

/-- A buy that rests below the market, survives a sweep, and is cancelled. -/
theorem cancelled_buy_is_unlocked :
    ∃ actions final, actions.length = 3 ∧ Unlocked openingDay ∧
      Run (fun db action after => perform db action = .ok after)
        (fun db action => Legal db action ∧ SweepsBare db action) openingDay actions final ∧
      LocksMatch final := by
  have unlocked : Unlocked openingDay := by decide +kernel
  have played : (replay perform (fun db action => Legal db action ∧ SweepsBare db action)
      [.execute quietEnv 1 (limitOrder .buy 7 (4 / 10) (by decide +kernel) (by decide +kernel)
          (by decide +kernel)),
        .sweep 1 none [{ restingSell with
          userId := 1, side := .buy, amount := 7, price := 4 / 10, remainingAmount := 7
          createdAt := 1 }],
        .cancel quietEnv 1 1] openingDay).isSome = true := by
    decide +kernel
  obtain ⟨final, replayed⟩ := Option.isSome_iff_exists.mp played
  have run := run_of_replay replayed
  exact ⟨_, final, rfl, unlocked, run, locks_match_commitments unlocked run⟩

end Trading

end PredictX
