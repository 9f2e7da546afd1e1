import PredictX.Services.OrderService
import PredictX.Services.BookPlan

namespace PredictX.OrderService

open PredictX.Data PredictX.Amm PredictX.MarketService PredictX.MatchingEngine

/-! What a committed order did.

One inversion lemma for each stage of `execute_order`.  Together they say everything a
call that returns can have written, and no later proof unfolds a stage again.
-/

variable {env : Env} {db : Database} {user : UserId} {venue : Venue} {data : OrderRequest}

/-- The offers an incoming order makes to the book, from the state before the call. -/
def bookPlan (db : Database) (user : UserId) (venue : Venue) (data : OrderRequest) : List Offer :=
  plan db.outcomes (bookTaker data.side data.amount user)
    (findMatches db.orders db.orders venue.market.id venue.outcome.id data.side data.price user)
    (Position.held db.positions) .empty

/-! # The venue -/

theorem openVenue_ok {marketId : MarketId} {name : OutcomeName}
    (opened : openVenue env db marketId name = .ok venue) :
    db.markets.find? marketId = some venue.market ∧ venue.market.status = .active ∧
      env.now < venue.market.closesAt ∧
      outcomeNamed (outcomesOf db venue.market.id) name = some venue.outcome ∧
      db.pools.find? (poolKey venue.market.id venue.outcome.id
        (isParimutuel (outcomesOf db venue.market.id))) = some venue.pool ∧
      (venue.amm, venue.ammSide) = tradingAmm db venue.market.id venue.outcome venue.pool
        (isParimutuel (outcomesOf db venue.market.id)) := by
  unfold openVenue at opened
  split at opened
  · contradiction
  rename_i market found
  split at opened
  · contradiction
  rename_i active
  split at opened
  · contradiction
  rename_i clock
  dsimp only at opened
  split at opened
  · contradiction
  rename_i outcome named
  split at opened
  · contradiction
  rename_i pool resolved
  cases opened
  exact ⟨found, not_not.mp active, not_le.mp clock, named, resolvePool_ok resolved, rfl⟩

/-! # The book -/

section Book

variable {matched : Database} {book : BookFill}

theorem mem_bookPlan {offer : Offer} (member : offer ∈ bookPlan db user venue data) :
    offer.maker ∈ db.orders.rows ∧
      isMatch venue.market.id venue.outcome.id data.side data.price user offer.maker = true :=
  mem_findMatches_self (maker_mem_of_mem_plan member)

theorem matchOrderAgainstBook_trace
    (ran : matchOrderAgainstBook env.now db venue.market.id venue.outcome.id data.side data.amount
      data.price user = .ok (matched, book)) :
    Trace env.now (bookTaker data.side data.amount user) db .empty
      (bookPlan db user venue data) matched book := by
  refine offer_trace ?_ ran
  intro fill maker member quantity asked
  exact bookQuantity_pos (isMatch_iff.mp (mem_findMatches_self member).2).2.2.2.2.1 asked

/-- The offers of an incoming order are positive and priced. -/
theorem bookPlan_positive
    (trace : Trace env.now (bookTaker data.side data.amount user) db .empty
      (bookPlan db user venue data) matched book) :
    ∀ offer ∈ bookPlan db user venue data, 0 < offer.quantity ∧ 0 < offer.maker.price := by
  refine (trace.book_offers ?_ fun _ => data.amount_pos.le).2
  intro offer member
  exact (isMatch_iff.mp (mem_bookPlan member).2).2.2.2.2.1

/-- What the book leaves of the order, read off the plan. -/
def plannedRemainder (db : Database) (user : UserId) (venue : Venue) (data : OrderRequest) : ℚ :=
  match data.side with
  | .buy => max (data.amount - deliveredSum (bookPlan db user venue data) Offer.usdc) 0
  | .sell => max (data.amount - deliveredSum (bookPlan db user venue data) Offer.quantity) 0

theorem remainder_eq_planned
    (trace : Trace env.now (bookTaker data.side data.amount user) db .empty
      (bookPlan db user venue data) matched book) :
    remainder data book = plannedRemainder db user venue data := by
  obtain ⟨shares, usdc, _⟩ := trace.bookFill
  unfold remainder plannedRemainder
  cases data.side with
  | buy => simp [usdc, BookFill.empty]
  | sell => simp [shares, BookFill.empty]

end Book

/-! # The remainder -/

section Remainder

variable {matched traded : Database} {book : BookFill} {execution : Execution} {leg : AmmLeg}
  {remaining : ℚ} {fill : Fill}

theorem insertOrder_ok {order : Order} {orders : Table Order.id}
    (inserted : insertOrder db order = .ok orders) : orders = db.orders.insert order := by
  unfold insertOrder at inserted
  split at inserted
  · contradiction
  · cases inserted
    rfl

theorem nextOrderId_fresh (db : Database) : db.orders.find? (nextOrderId db) = none := by
  rw [Table.find?_eq_none]
  intro order member
  have bound : ∀ (ids : List OrderId), ∀ id ∈ ids, id ≤ ids.foldr max 0 := by
    intro ids
    induction ids with
    | nil => simp
    | cons head tail ih =>
        intro id found
        rcases List.mem_cons.mp found with rfl | later
        · exact le_max_left _ _
        · exact (ih id later).trans (le_max_right _ _)
  have below := bound (db.orders.rows.map Order.id) order.id (List.mem_map_of_mem member)
  exact Nat.ne_of_lt (Nat.lt_succ_of_le below)

/-- The reservation behind a resting order. -/
theorem lockFunds_ok {wallets locked : Table Wallet.userId} {side : Side} {amount : ℚ}
    (taken : lockFunds wallets user side amount = .ok locked) :
    (side = .sell ∧ locked = wallets) ∨
    (side = .buy ∧ ∃ wallet, wallets.find? user = some wallet ∧ amount ≤ wallet.available ∧
      locked = wallets.modify user (Wallet.lock amount)) := by
  unfold lockFunds at taken
  cases side with
  | sell =>
      cases taken
      exact .inl ⟨rfl, rfl⟩
  | buy =>
      dsimp only at taken
      split at taken
      · contradiction
      rename_i wallet found
      split at taken
      · contradiction
      cases taken
      exact .inr ⟨rfl, wallet, found, not_lt.mp ‹_›, rfl⟩

theorem restOrder_ok (rested : restOrder env db user venue data book = .ok execution) :
    ∃ limit locked, data.price = some limit ∧
      lockFunds db.wallets user data.side (remainder data book) = .ok locked ∧
      execution.db =
        { db with
          wallets := locked
          orders := db.orders.insert (restingRow env db user venue data book limit)
          transactions := db.transactions ++
            [lockEntry db user data book (restingRow env db user venue data book limit).id] } ∧
      execution.matchDetails = book.matchDetails ∧ execution.ammLeg = none ∧
      execution.result.status ≠ .filled := by
  unfold restOrder at rested
  obtain ⟨locked, taken, rested⟩ := bind_eq_ok.mp rested
  split at rested
  · contradiction
  rename_i limit priced
  obtain ⟨orders, inserted, rested⟩ := bind_eq_ok.mp rested
  cases insertOrder_ok inserted
  cases rested
  refine ⟨limit, locked, priced, taken, rfl, rfl, rfl, ?_⟩
  dsimp only
  split <;> simp

theorem ammBuy_ok (ran : ammBuy db user venue remaining = .ok (traded, leg)) :
    ∃ wallet, db.wallets.find? user = some wallet ∧ remaining ≤ wallet.available ∧
      venue.amm.buy venue.ammSide remaining = .ok (leg.amm, leg.quote) ∧
      leg.side = .buy ∧ leg.quantity = remaining ∧
      traded =
        { db with
          wallets := db.wallets.modify user (Wallet.debit remaining)
          pools := writeLeg db.pools venue.pool.key leg remaining } := by
  unfold ammBuy at ran
  split at ran
  · contradiction
  rename_i wallet found
  split at ran
  · contradiction
  split at ran
  · contradiction
  rename_i amm quote bought
  cases ran
  exact ⟨wallet, found, not_lt.mp ‹_›, bought, rfl, rfl, rfl⟩

theorem debitCollateral_ok {pool debited : LiquidityPool} {amount : ℚ} (nonneg : 0 ≤ amount)
    (taken : pool.debitCollateral id amount = .ok debited) :
    amount ≤ pool.collateral ⊔ 0 ∧ debited.collateral = pool.collateral - amount := by
  unfold LiquidityPool.debitCollateral at taken
  split at taken
  · cases taken
    have zero : amount = 0 := le_antisymm ‹_› nonneg
    simp [zero]
  split at taken
  · contradiction
  cases taken
  exact ⟨le_sup_of_le_left (not_lt.mp ‹_›), rfl⟩

theorem ammSell_ok (ran : ammSell db user venue remaining = .ok (traded, leg)) :
    remaining ≤ Position.held db.positions (venue.positionKey user) ∧
      venue.amm.sell venue.ammSide remaining = .ok (leg.amm, leg.quote) ∧
      leg.side = .sell ∧ leg.quantity = remaining ∧
      (∃ pool, db.pools.find? venue.pool.key = some pool ∧
        leg.quote.collateralIn ≤ pool.collateral ⊔ 0) ∧
      traded =
        { db with
          wallets := db.wallets.modify user (Wallet.credit leg.quote.collateralIn)
          positions := Position.dispose db.positions (venue.positionKey user) remaining
            leg.quote.collateralIn
          pools := writeLeg db.pools venue.pool.key leg (-leg.quote.collateralIn) } := by
  unfold ammSell at ran
  split at ran
  · contradiction
  split at ran
  · contradiction
  rename_i amm quote sold
  dsimp only at ran
  split at ran
  · contradiction
  rename_i pool found
  split at ran
  · contradiction
  rename_i debited taken
  cases ran
  have nonneg : 0 ≤ quote.collateralIn := BinaryAMM.executeSell_nonneg sold
  obtain ⟨covered, left⟩ := debitCollateral_ok nonneg taken
  refine ⟨not_lt.mp ‹_›, sold, rfl, rfl, ⟨pool, found, covered⟩, ?_⟩
  rw [left, sub_sub_cancel_left]

/-- What the leg moves out of the wallet and into the escrow. -/
def AmmLeg.paid (leg : AmmLeg) : ℚ :=
  match leg.side with
  | .buy => leg.quantity
  | .sell => -leg.quote.collateralIn

/-- The position after the leg. -/
def AmmLeg.movePosition (leg : AmmLeg) (positions : Table Position.key) (key : PositionKey) :
    Table Position.key :=
  match leg.side with
  | .buy => Position.acquire positions key leg.quote.sharesOut leg.quantity
      (stepAverage leg.quote.sharesOut leg.quantity)
  | .sell => Position.dispose positions key leg.quantity leg.quote.collateralIn

theorem runAmmLeg_traded {quantity : ℚ}
    (incoming : runAmmLeg db user venue data.side quantity = .ok (traded, leg)) :
    leg.side = data.side ∧ leg.quantity = quantity ∧
      traded =
        { db with
          wallets := db.wallets.modify user (Wallet.debit leg.paid)
          positions := match data.side with
            | .buy => db.positions
            | .sell => leg.movePosition db.positions (venue.positionKey user)
          pools := writeLeg db.pools venue.pool.key leg leg.paid } := by
  cases side : data.side with
  | buy =>
      rw [side] at incoming
      obtain ⟨_, _, _, _, isBuy, isQuantity, rfl⟩ := ammBuy_ok incoming
      have paid : leg.paid = quantity := by rw [AmmLeg.paid, isBuy, isQuantity]
      exact ⟨isBuy, isQuantity, by rw [paid]⟩
  | sell =>
      rw [side] at incoming
      obtain ⟨_, _, isSell, isQuantity, _, rfl⟩ := ammSell_ok incoming
      have paid : leg.paid = -leg.quote.collateralIn := by rw [AmmLeg.paid, isSell]
      have credit : db.wallets.modify user (Wallet.debit leg.paid) (fun _ => rfl) =
          db.wallets.modify user (Wallet.credit leg.quote.collateralIn) (fun _ => rfl) := by
        congr 1
        funext wallet
        simp only [Wallet.debit, Wallet.credit, paid, sub_neg_eq_add]
      refine ⟨isSell, isQuantity, ?_⟩
      rw [credit]
      simp only [paid, AmmLeg.movePosition, isSell, isQuantity]

theorem runAmmLeg_orders {side : Side}
    (ran : runAmmLeg db user venue side remaining = .ok (traded, leg)) :
    traded.orders = db.orders := by
  cases side with
  | buy =>
      obtain ⟨_, _, _, _, _, _, rfl⟩ := ammBuy_ok ran
      rfl
  | sell =>
      obtain ⟨_, _, _, _, _, rfl⟩ := ammSell_ok ran
      rfl

/-- The referral step writes wallets, referrals and the transaction log. -/
theorem creditReferral_frame (db : Database) (user : UserId) :
    ∃ wallets referrals entries, creditReferral db user =
      { db with wallets, referrals, transactions := db.transactions ++ entries } := by
  have idle : ∃ wallets referrals entries, db =
      { db with wallets, referrals, transactions := db.transactions ++ entries } :=
    ⟨db.wallets, db.referrals, [], by simp⟩
  unfold creditReferral
  dsimp only
  split
  · split
    · exact idle
    split
    · exact idle
    · exact ⟨_, _, _, rfl⟩
  · exact idle

theorem creditReferral_orders (db : Database) (user : UserId) :
    (creditReferral db user).orders = db.orders := by
  obtain ⟨_, _, _, same⟩ := creditReferral_frame db user
  rw [same]

theorem creditReferral_positions (db : Database) (user : UserId) :
    (creditReferral db user).positions = db.positions := by
  obtain ⟨_, _, _, same⟩ := creditReferral_frame db user
  rw [same]

theorem creditReferral_pools (db : Database) (user : UserId) :
    (creditReferral db user).pools = db.pools := by
  obtain ⟨_, _, _, same⟩ := creditReferral_frame db user
  rw [same]

theorem finish_ok (finished : finish env db user venue data fill = .ok execution) :
    execution.db = creditReferral (saveFill env db user venue data fill
        (db.orders.insert (filledRow env db user venue data fill))) user ∧
      execution.matchDetails = fill.book.matchDetails ∧ execution.ammLeg = fill.leg ∧
      execution.result.status = .filled := by
  unfold finish at finished
  dsimp only at finished
  split at finished
  · contradiction
  split at finished
  · contradiction
  split at finished
  · contradiction
  rename_i orders inserted
  cases insertOrder_ok inserted
  cases finished
  exact ⟨rfl, rfl, rfl, rfl⟩

/-- The three ways an order that passed its checks can end. -/
theorem fillOrder_ok (filled : fillOrder env db user venue data = .ok execution) :
    ∃ matched book, Trace env.now (bookTaker data.side data.amount user) db .empty
        (bookPlan db user venue data) matched book ∧
      ((0 < remainder data book ∧ route venue data = .ok .rest ∧
          restOrder env matched user venue data book = .ok execution) ∨
        (0 < remainder data book ∧ route venue data = .ok .amm ∧
          ∃ traded leg, runAmmLeg matched user venue data.side (remainder data book) =
              .ok (traded, leg) ∧
            finish env traded user venue data ⟨book, some leg⟩ = .ok execution) ∨
        (remainder data book ≤ 0 ∧
          finish env matched user venue data ⟨book, none⟩ = .ok execution)) := by
  unfold fillOrder at filled
  obtain ⟨⟨matched, book⟩, ran, filled⟩ := bind_eq_ok.mp filled
  refine ⟨matched, book, matchOrderAgainstBook_trace ran, ?_⟩
  dsimp only at filled
  split at filled
  · rename_i left
    obtain ⟨way, routed, filled⟩ := bind_eq_ok.mp filled
    cases way with
    | rest => exact .inl ⟨left, routed, filled⟩
    | amm =>
        obtain ⟨⟨traded, leg⟩, ran, finished⟩ := bind_eq_ok.mp filled
        exact .inr (.inl ⟨left, routed, traded, leg, ran, finished⟩)
  · exact .inr (.inr ⟨not_lt.mp ‹_›, filled⟩)

theorem executeOrder_ok (executed : executeOrder env db user data = .ok execution) :
    ∃ venue, openVenue env db data.marketId data.outcome = .ok venue ∧
      (∀ limit ∈ data.price, 0 < limit) ∧ (∃ wallet, db.wallets.find? user = some wallet) ∧
      ((∃ existing, duplicateOf db user data = some existing ∧
          execution = duplicate db user data existing) ∨
        (duplicateOf db user data = none ∧ checkHoldings db user venue data = .ok () ∧
          fillOrder env db user venue data = .ok execution)) := by
  unfold executeOrder at executed
  split at executed
  · contradiction
  rename_i priced
  obtain ⟨venue, opened, executed⟩ := bind_eq_ok.mp executed
  split at executed
  · contradiction
  rename_i walleted
  refine ⟨venue, opened, ?_, Option.ne_none_iff_exists'.mp (by simpa using walleted), ?_⟩
  · intro limit given
    rw [Option.mem_def] at given
    simpa [given] using priced
  split at executed
  · rename_i existing found
    cases executed
    exact .inl ⟨existing, found, rfl⟩
  · rename_i unseen
    obtain ⟨_, _, executed⟩ := bind_eq_ok.mp executed
    obtain ⟨_, holds, executed⟩ := bind_eq_ok.mp executed
    exact .inr ⟨unseen, holds, executed⟩

end Remainder

end PredictX.OrderService
