import PredictX.Workers.SweepCases

namespace PredictX

open PredictX.Data PredictX.Amm PredictX.MatchingEngine

/-! Locked funds and the open buys behind them.

`Backed` is a property of the wallet and order tables alone.  Every release in the source
takes the same amount off one open buy and off its owner's lock, so one lemma
(`Backed.settle`) covers fills of makers, cancellations, expiries and the sweep's AMM leg.
-/

/-- What an order contributes to its owner's lock. -/
def Order.commitment (user : UserId) (order : Order) : ℚ :=
  if order.userId = user ∧ order.side = .buy ∧ order.status.isOpen = true then
    order.remainingAmount
  else 0

/-- The remaining amounts of a user's open buys. -/
def commitments (orders : Table Order.id) (user : UserId) : ℚ :=
  orders.sum (Order.commitment user)

/-- The lock of a user who has a wallet. -/
def lockedOf (wallets : Table Wallet.userId) (user : UserId) : Option ℚ :=
  (wallets.find? user).map Wallet.lockedBalance

/-- The bounds on an order that do not depend on its status. -/
structure Order.Bounded (order : Order) : Prop where
  price_pos : 0 < order.price
  price_le : order.price ≤ 1
  remaining_le : order.remainingAmount ≤ order.amount

structure Order.Placed (order : Order) : Prop extends order.Bounded where
  remaining_pos : 0 < order.remainingAmount

/-- Every lock is the sum of the open buys behind it. -/
structure Backed (wallets : Table Wallet.userId) (orders : Table Order.id) : Prop where
  locked : ∀ user, ∀ locked ∈ lockedOf wallets user, locked = commitments orders user
  placed : ∀ id order, orders.find? id = some order → order.status.isOpen = true → order.Placed

section Locks

variable {wallets : Table Wallet.userId} {user other : UserId}

theorem lockedOf_modify_eq {update : Wallet → Wallet}
    (keeps : ∀ wallet, (update wallet).userId = wallet.userId)
    (same : ∀ wallet, (update wallet).lockedBalance = wallet.lockedBalance) :
    lockedOf (wallets.modify user update keeps) other = lockedOf wallets other := by
  unfold lockedOf
  by_cases isSame : other = user
  · subst isSame
    rw [Table.find?_modify_self, Option.map_map]
    congr 1
    funext wallet
    exact same wallet
  · rw [Table.find?_modify_ne isSame]

@[simp] theorem lockedOf_credit (amount : ℚ) :
    lockedOf (wallets.modify user (Wallet.credit amount)) other = lockedOf wallets other :=
  lockedOf_modify_eq _ fun _ => rfl

@[simp] theorem lockedOf_debit (amount : ℚ) :
    lockedOf (wallets.modify user (Wallet.debit amount)) other = lockedOf wallets other :=
  lockedOf_modify_eq _ fun _ => rfl

theorem lockedOf_modify_self {update : Wallet → Wallet}
    (keeps : ∀ wallet, (update wallet).userId = wallet.userId) (moves : ℚ → ℚ)
    (moved : ∀ wallet, (update wallet).lockedBalance = moves wallet.lockedBalance) :
    lockedOf (wallets.modify user update keeps) user = (lockedOf wallets user).map moves := by
  unfold lockedOf
  rw [Table.find?_modify_self, Option.map_map, Option.map_map]
  congr 1
  funext wallet
  exact moved wallet

theorem lockedOf_modify_ne {update : Wallet → Wallet}
    (keeps : ∀ wallet, (update wallet).userId = wallet.userId) (apart : other ≠ user) :
    lockedOf (wallets.modify user update keeps) other = lockedOf wallets other := by
  unfold lockedOf
  rw [Table.find?_modify_ne apart]

end Locks

namespace Order

variable {order : Order} {user : UserId}

theorem commitment_of_sell (selling : order.side = .sell) : order.commitment user = 0 := by
  simp [commitment, selling]

theorem commitment_of_closed (closed : order.status.isOpen = false) :
    order.commitment user = 0 := by
  simp [commitment, closed]

theorem commitment_of_other (apart : user ≠ order.userId) : order.commitment user = 0 := by
  simp [commitment, Ne.symm apart]

theorem commitment_of_open (buying : order.side = .buy) (opened : order.status.isOpen = true) :
    order.commitment order.userId = order.remainingAmount := by
  simp [commitment, buying, opened]

end Order

namespace Backed

variable {wallets wallets' : Table Wallet.userId} {orders : Table Order.id} {order : Order}
  {update : Order → Order} {keeps : ∀ row, (update row).id = row.id}

theorem commitment_nonneg (backed : Backed wallets orders) (user : UserId) :
    ∀ row ∈ orders.rows, 0 ≤ row.commitment user := by
  intro row member
  unfold Order.commitment
  split
  · rename_i committed
    exact (backed.placed _ _ (Table.find?_key_of_mem member) committed.2.2).remaining_pos.le
  · exact le_rfl

/-- The lock covers each open buy. -/
theorem remaining_le_locked (backed : Backed wallets orders)
    (found : orders.find? order.id = some order) (buying : order.side = .buy)
    (opened : order.status.isOpen = true) {locked : ℚ}
    (held : locked ∈ lockedOf wallets order.userId) : order.remainingAmount ≤ locked := by
  rw [backed.locked _ _ held, ← Order.commitment_of_open buying opened]
  exact Table.le_sum (backed.commitment_nonneg order.userId) (Table.mem_of_find? found)

/-- A change of balances only. -/
theorem wallets_congr (backed : Backed wallets orders)
    (same : ∀ user, lockedOf wallets' user = lockedOf wallets user) : Backed wallets' orders :=
  ⟨fun user locked held => backed.locked user locked (same user ▸ held), backed.placed⟩

theorem placed_modify (backed : Backed wallets orders)
    (found : orders.find? order.id = some order)
    (placed : (update order).status.isOpen = true → (update order).Placed) :
    ∀ id row, (orders.modify order.id update keeps).find? id = some row →
      row.status.isOpen = true → row.Placed := by
  intro id row rowFound opened
  by_cases same : id = order.id
  · subst same
    rw [Table.find?_modify_self, found] at rowFound
    cases rowFound
    exact placed opened
  · rw [Table.find?_modify_ne same] at rowFound
    exact backed.placed id row rowFound opened

/-- A change to an order that commits nothing, before or after. -/
theorem modify_idle (backed : Backed wallets orders)
    (found : orders.find? order.id = some order)
    (idle : ∀ user, (update order).commitment user = order.commitment user)
    (placed : (update order).status.isOpen = true → (update order).Placed) :
    Backed wallets (orders.modify order.id update keeps) := by
  refine ⟨fun user locked held => ?_, backed.placed_modify found placed⟩
  have delta : (update order).commitment user = order.commitment user + 0 := by
    rw [idle, add_zero]
  rw [backed.locked user locked held]
  unfold commitments
  rw [Table.sum_modify_add found delta, add_zero]

/-- An open buy gives up `spent` of its commitment and its owner's lock is released by as
much. -/
theorem settle (backed : Backed wallets orders) {spent : ℚ}
    (found : orders.find? order.id = some order) (buying : order.side = .buy)
    (opened : order.status.isOpen = true) (sameOwner : (update order).userId = order.userId)
    (covered : spent ≤ order.remainingAmount)
    (left : (update order).commitment order.userId = order.remainingAmount - spent)
    (placed : (update order).status.isOpen = true → (update order).Placed)
    (released : lockedOf wallets' order.userId =
      (lockedOf wallets order.userId).map fun locked => max 0 (locked - spent))
    (others : ∀ user, user ≠ order.userId → lockedOf wallets' user = lockedOf wallets user) :
    Backed wallets' (orders.modify order.id update keeps) := by
  refine ⟨fun user locked held => ?_, backed.placed_modify found placed⟩
  by_cases owner : user = order.userId
  · subst owner
    rw [released, Option.mem_map] at held
    obtain ⟨before, heldBefore, rfl⟩ := held
    have enough := backed.remaining_le_locked found buying opened heldBefore
    have delta : (update order).commitment order.userId =
        order.commitment order.userId + -spent := by
      rw [left, Order.commitment_of_open buying opened]
      ring
    unfold commitments
    rw [Table.sum_modify_add found delta, ← commitments, ← backed.locked _ _ heldBefore,
      max_eq_right (by linarith)]
    ring
  · have idle : (update order).commitment user = order.commitment user + 0 := by
      rw [Order.commitment_of_other owner, Order.commitment_of_other (sameOwner ▸ owner), add_zero]
    rw [others user owner] at held
    unfold commitments
    rw [Table.sum_modify_add found idle, add_zero]
    exact backed.locked user locked held

/-- A new order that commits nothing. -/
theorem insert_idle (backed : Backed wallets orders) (fresh : orders.find? order.id = none)
    (idle : ∀ user, order.commitment user = 0)
    (placed : order.status.isOpen = true → order.Placed) :
    Backed wallets (orders.insert order) := by
  constructor
  · intro user locked held
    rw [backed.locked user locked held]
    unfold commitments
    rw [Table.sum_insert order fresh, idle, add_zero]
  · intro id row found opened
    rcases Table.mem_insert (Table.mem_of_find? found) with member | rfl
    · exact backed.placed _ _ (Table.find?_key_of_mem member) opened
    · exact placed opened

/-- A new buy whose remaining amount has been locked. -/
theorem insert_locked (backed : Backed wallets orders) (fresh : orders.find? order.id = none)
    (buying : order.side = .buy) (opened : order.status.isOpen = true) (placed : order.Placed) :
    Backed (wallets.modify order.userId (Wallet.lock order.remainingAmount))
      (orders.insert order) := by
  constructor
  · intro user locked held
    unfold commitments
    rw [Table.sum_insert order fresh]
    by_cases owner : user = order.userId
    · subst owner
      rw [lockedOf_modify_self _ (· + order.remainingAmount) fun _ => rfl,
        Option.mem_map] at held
      obtain ⟨before, heldBefore, rfl⟩ := held
      rw [Order.commitment_of_open buying opened, backed.locked _ _ heldBefore, commitments]
    · rw [lockedOf_modify_ne _ owner] at held
      rw [Order.commitment_of_other owner, add_zero]
      exact backed.locked user locked held
  · intro id row found isOpen
    rcases Table.mem_insert (Table.mem_of_find? found) with member | rfl
    · exact backed.placed _ _ (Table.find?_key_of_mem member) isOpen
    · exact placed

end Backed

/-! # Fills of makers -/

namespace MatchingEngine

theorem fillMaker_side (now : Timestamp) (spent : ℚ) (order : Order) :
    (fillMaker now spent order).side = order.side :=
  (LimitSweep.fillMaker_sameTerms now spent order).side

theorem fillMaker_userId (now : Timestamp) (spent : ℚ) (order : Order) :
    (fillMaker now spent order).userId = order.userId :=
  (LimitSweep.fillMaker_sameTerms now spent order).userId

section Maker

variable {now : Timestamp} {maker : Order} {spent quantity : ℚ}
  {wallets : Table Wallet.userId} {orders : Table Order.id}

theorem fillMaker_placed (bounded : maker.Bounded) (nonneg : 0 ≤ spent) :
    (fillMaker now spent maker).status.isOpen = true → (fillMaker now spent maker).Placed := by
  unfold fillMaker
  dsimp only
  split
  · intro opened
    contradiction
  · rename_i left
    intro _
    have atMost := bounded.remaining_le
    exact ⟨⟨bounded.price_pos, bounded.price_le, by dsimp only; linarith⟩, not_le.mp left⟩

theorem fillMaker_commitment (buying : maker.side = .buy)
    (covered : spent ≤ maker.remainingAmount) :
    (fillMaker now spent maker).commitment maker.userId = maker.remainingAmount - spent := by
  unfold fillMaker
  dsimp only
  split
  · rename_i spentAll
    rw [Order.commitment_of_closed rfl]
    linarith
  · exact Order.commitment_of_open buying rfl

/-- The release is the whole price: the maker never had more left than it asked for. -/
theorem lockedRelease_eq (bounded : maker.remainingAmount ≤ maker.amount) :
    lockedRelease maker quantity (quantity * maker.price) = quantity * maker.price := by
  unfold lockedRelease
  exact min_eq_right (by linarith)

/-- What the table says of an offer when its turn comes. -/
structure Current (orders : Table Order.id) (offer : Offer) : Prop where
  row : orders.find? offer.maker.id = some offer.maker
  opened : offer.maker.status.isOpen = true
  quantity : 0 < offer.quantity
  covered : offer.maker.side = .buy → offer.usdc ≤ offer.maker.remainingAmount

theorem Current.modify {offer : Offer} {id : OrderId} {update : Order → Order}
    (current : Current orders offer) (keeps : ∀ row, (update row).id = row.id)
    (apart : offer.maker.id ≠ id) : Current (orders.modify id update keeps) offer :=
  ⟨(Table.find?_modify_ne apart).trans current.row, current.opened, current.quantity,
    current.covered⟩

/-- A match leaves the maker's lock equal to its open buys. -/
theorem payMatch_backed (now : Timestamp) (taker : UserId) {offer : Offer}
    (backed : Backed wallets orders) (current : Current orders offer) :
    Backed
      (payMatch wallets offer.maker taker offer.quantity offer.usdc offer.fee)
      (orders.modify offer.maker.id
        (fillMaker now (makerSpent offer.maker offer.quantity offer.usdc))
        (fillMaker_id now _)) := by
  have placed := backed.placed _ _ current.row current.opened
  have quantity := current.quantity
  have usdc : 0 ≤ offer.usdc := mul_nonneg quantity.le placed.price_pos.le
  cases side : offer.maker.side with
  | sell =>
      have wallets' : ∀ user, lockedOf
          (payMatch wallets offer.maker taker offer.quantity offer.usdc offer.fee) user =
          lockedOf wallets user := by
        intro user
        simp only [payMatch, side, lockedOf_credit, lockedOf_debit]
      refine (backed.wallets_congr wallets').modify_idle current.row ?_ ?_
      · intro user
        rw [Order.commitment_of_sell side,
          Order.commitment_of_sell ((fillMaker_side now _ _).trans side)]
      · exact fillMaker_placed placed.toBounded (by simpa [makerSpent, side] using quantity.le)
  | buy =>
      have covered := current.covered side
      have release : lockedRelease offer.maker offer.quantity offer.usdc = offer.usdc :=
        lockedRelease_eq placed.remaining_le
      refine backed.settle current.row side current.opened (fillMaker_userId now _ _) covered
        ?_ ?_ ?_ ?_
      · simp only [makerSpent, side]
        exact fillMaker_commitment side covered
      · simp only [makerSpent, side]
        exact fillMaker_placed placed.toBounded usdc
      · simp only [payMatch, side, release]
        rw [lockedOf_modify_self _ (fun locked => max 0 (locked - offer.usdc)) fun _ => rfl,
          lockedOf_credit, lockedOf_debit]
      · intro user apart
        simp only [payMatch, side]
        rw [lockedOf_modify_ne _ apart, lockedOf_credit, lockedOf_debit]

end Maker

/-- An incoming order keeps the locks of its makers. -/
theorem Trace.book_backed {now : Timestamp} {side : Side} {amount : ℚ} {user : UserId}
    {db after : Database} {fill final : BookFill} {offers : List Offer}
    (trace : Trace now (bookTaker side amount user) db fill offers after final)
    (backed : Backed db.wallets db.orders)
    (current : ∀ offer ∈ offers, Current db.orders offer)
    (distinct : (offers.map fun offer => offer.maker.id).Nodup) :
    Backed after.wallets after.orders := by
  induction trace with
  | done => exact backed
  | skip _ _ _ ih =>
      exact ih backed (fun offer member => current offer (List.mem_cons_of_mem _ member))
        (List.nodup_cons.mp distinct).2
  | deliver _ _ _ _ ih =>
      rw [List.map_cons, List.nodup_cons] at distinct
      refine ih (payMatch_backed _ _ backed (current _ List.mem_cons_self)) ?_ distinct.2
      intro offer member
      refine (current offer (List.mem_cons_of_mem _ member)).modify (fillMaker_id now _) ?_
      intro same
      exact distinct.1 (same ▸ List.mem_map_of_mem member)

end MatchingEngine

/-! # Incoming orders -/

namespace OrderService

open MarketService

variable {env : Env} {db matched traded : Database} {user : UserId} {venue : Venue}
  {data : OrderRequest} {execution : Execution} {book : BookFill}

theorem bookPlan_current
    (trace : Trace env.now (bookTaker data.side data.amount user) db .empty
      (bookPlan db user venue data) matched book) :
    ∀ offer ∈ bookPlan db user venue data, Current db.orders offer := by
  intro offer member
  obtain ⟨row, matches_⟩ := mem_bookPlan member
  obtain ⟨_, _, side, opened, _⟩ := isMatch_iff.mp matches_
  refine ⟨Table.find?_key_of_mem row, opened, (bookPlan_positive trace offer member).1, ?_⟩
  intro buying
  obtain ⟨fill, asked⟩ := trace.asked offer member
  have selling : data.side = .sell := by
    cases taker : data.side with
    | sell => rfl
    | buy => simp [taker, buying, Side.opposite] at side
  rw [selling] at asked
  have fits : 0 < offer.maker.price ∧
      Fits .sell data.amount fill offer.maker offer.quantity := bookQuantity_fits (by simp) asked
  exact fits.2.1

theorem bookPlan_distinct (db : Database) (user : UserId) (venue : Venue) (data : OrderRequest) :
    ((bookPlan db user venue data).map fun offer => offer.maker.id).Nodup := by
  have sublist := (plan_sublist db.outcomes (bookTaker data.side data.amount user)
    (findMatches db.orders db.orders venue.market.id venue.outcome.id data.side data.price user)
    (Position.held db.positions) .empty).map Order.id
  rw [List.map_map] at sublist
  exact (findMatches_nodup _ _).sublist sublist

theorem remainder_le (fill : 0 ≤ book.matchedShares ∧ 0 ≤ book.matchedUsdc) :
    remainder data book ≤ data.amount := by
  have positive := data.amount_pos.le
  unfold remainder
  cases data.side with
  | buy => exact max_le (by linarith [fill.2]) positive
  | sell => exact max_le (by linarith [fill.1]) positive

theorem restOrder_backed (backed : Backed db.wallets db.orders)
    (left : 0 < remainder data book) (atMost : remainder data book ≤ data.amount)
    (priced : ∀ limit ∈ data.price, 0 < limit)
    (rested : restOrder env db user venue data book = .ok execution) :
    Backed execution.db.wallets execution.db.orders := by
  obtain ⟨limit, locked, price, taken, database, _⟩ := restOrder_ok rested
  have opened : (restingRow env db user venue data book limit).status.isOpen = true := by
    unfold restingRow
    dsimp only
    split <;> rfl
  have placed : (restingRow env db user venue data book limit).Placed :=
    ⟨⟨priced limit price, (data.price_bounds limit price).2, atMost⟩, left⟩
  rw [database]
  rcases lockFunds_ok taken with ⟨selling, rfl⟩ | ⟨buying, _, _, _, rfl⟩
  · exact backed.insert_idle (nextOrderId_fresh db)
      (fun _ => Order.commitment_of_sell selling) fun _ => placed
  · exact backed.insert_locked (nextOrderId_fresh db) buying opened placed

theorem lockedOf_creditReferral (db : Database) (user other : UserId) :
    lockedOf (creditReferral db user).wallets other = lockedOf db.wallets other := by
  unfold creditReferral
  dsimp only
  split
  · split
    · rfl
    · split
      · rfl
      · exact lockedOf_credit _
  · rfl

theorem finish_backed {fill : Fill} (backed : Backed db.wallets db.orders)
    (finished : finish env db user venue data fill = .ok execution) :
    Backed execution.db.wallets execution.db.orders := by
  rw [(finish_ok finished).1, creditReferral_orders]
  refine Backed.wallets_congr ?_ fun _ => lockedOf_creditReferral _ _ _
  exact backed.insert_idle (nextOrderId_fresh db) (fun _ => Order.commitment_of_closed rfl)
    fun opened => absurd opened (by simp [filledRow, OrderStatus.isOpen])

theorem runAmmLeg_backed {side : Side} {remaining : ℚ} {leg : AmmLeg}
    (backed : Backed db.wallets db.orders)
    (ran : runAmmLeg db user venue side remaining = .ok (traded, leg)) :
    Backed traded.wallets traded.orders := by
  cases side with
  | buy =>
      obtain ⟨_, _, _, _, _, _, rfl⟩ := ammBuy_ok ran
      exact backed.wallets_congr fun _ => lockedOf_debit _
  | sell =>
      obtain ⟨_, _, _, _, _, rfl⟩ := ammSell_ok ran
      exact backed.wallets_congr fun _ => lockedOf_credit _

/-- A committed order keeps every lock equal to the open buys behind it. -/
theorem executeOrder_backed (backed : Backed db.wallets db.orders)
    (executed : executeOrder env db user data = .ok execution) :
    Backed execution.db.wallets execution.db.orders := by
  obtain ⟨venue, _, priced, _, ways⟩ := executeOrder_ok executed
  rcases ways with ⟨_, _, rfl⟩ | ⟨_, _, filled⟩
  · exact backed
  obtain ⟨matched, book, trace, ends⟩ := fillOrder_ok filled
  have positive := bookPlan_positive trace
  have matchedBacked := trace.book_backed backed (bookPlan_current trace)
    (bookPlan_distinct db user venue data)
  rcases ends with ⟨left, _, rested⟩ | ⟨_, _, traded, leg, ran, finished⟩ | ⟨_, finished⟩
  · refine restOrder_backed matchedBacked left (remainder_le ?_) priced rested
    obtain ⟨shares, usdc, _⟩ := trace.bookFill
    rw [shares, usdc]
    have shareTotal : 0 ≤ deliveredSum (bookPlan db user venue data) Offer.quantity :=
      deliveredSum_nonneg fun offer member => (positive offer member).1.le
    have usdcTotal : 0 ≤ deliveredSum (bookPlan db user venue data) Offer.usdc :=
      deliveredSum_nonneg fun offer member =>
        mul_nonneg (positive offer member).1.le (positive offer member).2.le
    exact ⟨by simpa [BookFill.empty] using shareTotal, by simpa [BookFill.empty] using usdcTotal⟩
  · exact finish_backed (runAmmLeg_backed matchedBacked ran) finished
  · exact finish_backed matchedBacked finished

end OrderService

end PredictX
