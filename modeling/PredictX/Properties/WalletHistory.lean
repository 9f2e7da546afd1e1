import PredictX.Data.Journal
import PredictX.Api.Events
import PredictX.Properties.LockedFunds
import PredictX.Properties.SettlementPayouts

namespace PredictX

open PredictX.Data PredictX.Amm PredictX.MatchingEngine PredictX.OrderService PredictX.LimitSweep
open PredictX.Settlement (balanceOf)

/-! The ledger rows against the balances they are about.

Balances are moved in many places and the rows are written in others.  A row is missing for
the maker of a match, for both parties of a match in the sweep and for the seed of a market,
and a seller's row is gross of the fee; everywhere else the rows account for the movement.
-/

/-- What a row says has moved; a reservation moves nothing. -/
def Transaction.movement (entry : Transaction) : ℚ :=
  match entry.type with
  | .limitOrderLock => 0
  | _ => entry.amount

/-- The `transactions` table as a journal of the wallets. -/
def walletJournal : Journal Transaction UserId ℚ where
  owner := Transaction.userId
  moved := Transaction.movement
  recorded := Transaction.balanceAfter

/-- The wallets and the ledger rows about them. -/
structure Accounts where
  wallets : Table Wallet.userId
  transactions : List Transaction

/-- The rows written in between explain what happened to every wallet. -/
def Accounts.Explained (before after : Accounts) : Prop :=
  ∃ rows, after.transactions = before.transactions ++ rows ∧
    walletJournal.Explains (balanceOf before.wallets) rows (balanceOf after.wallets)

def Database.accounts (db : Database) : Accounts := ⟨db.wallets, db.transactions⟩

def Settlement.Ledger.accounts (ledger : Settlement.Ledger) : Accounts :=
  ⟨ledger.wallets, ledger.transactions⟩

/-! # Single rows -/

section Rows

variable {wallets wallets' : Table Wallet.userId} {user : UserId} {wallet : Wallet} {amount : ℚ}
  {log : List Transaction} {entry : Transaction}

theorem balanceOf_eq (found : wallets.find? user = some wallet) :
    balanceOf wallets user = wallet.balance := by
  simp [balanceOf, found]

theorem balanceOf_modify (update : Wallet → Wallet)
    {keeps : ∀ row, (update row).userId = row.userId} (found : wallets.find? user = some wallet)
    (moves : (update wallet).balance = wallet.balance + amount) (who : UserId) :
    balanceOf (wallets.modify user update keeps) who =
      balanceOf wallets who + if user = who then amount else 0 := by
  unfold balanceOf
  by_cases same : user = who
  · subst same
    rw [Table.find?_modify_self, found, if_pos rfl]
    simpa using moves
  · rw [Table.find?_modify_ne (Ne.symm same), if_neg same, add_zero]

/-- Locks are not balances. -/
theorem balanceOf_same (update : Wallet → Wallet)
    {keeps : ∀ row, (update row).userId = row.userId}
    (same : ∀ wallet, (update wallet).balance = wallet.balance) (who : UserId) :
    balanceOf (wallets.modify user update keeps) who = balanceOf wallets who := by
  unfold balanceOf
  by_cases isUser : who = user
  · subst isUser
    rw [Table.find?_modify_self, Option.map_map]
    congr 2
    funext wallet
    exact same wallet
  · rw [Table.find?_modify_ne isUser]

theorem balanceOf_lock (who : UserId) :
    balanceOf (wallets.modify user (Wallet.lock amount)) who = balanceOf wallets who :=
  balanceOf_same (Wallet.lock amount) (fun _ => rfl) who

theorem balanceOf_release (who : UserId) :
    balanceOf (wallets.modify user (Wallet.release amount)) who = balanceOf wallets who :=
  balanceOf_same (Wallet.release amount) (fun _ => rfl) who

namespace Accounts

variable {before middle after : Accounts}

theorem Explained.refl (accounts : Accounts) : Explained accounts accounts :=
  ⟨[], (List.append_nil _).symm, .nil fun _ => rfl⟩

theorem Explained.trans (left : Explained before middle) (right : Explained middle after) :
    Explained before after := by
  obtain ⟨first, firstLog, firstRows⟩ := left
  obtain ⟨second, secondLog, secondRows⟩ := right
  exact ⟨first ++ second, by rw [secondLog, firstLog, List.append_assoc],
    firstRows.append secondRows⟩

/-- Nothing moved and nothing was written. -/
theorem Explained.idle (balance : ∀ who, balanceOf wallets' who = balanceOf wallets who) :
    Explained ⟨wallets, log⟩ ⟨wallets', log⟩ :=
  ⟨[], (List.append_nil _).symm, .nil balance⟩

/-- A wallet moves and one row says so. -/
theorem Explained.post (update : Wallet → Wallet)
    {keeps : ∀ row, (update row).userId = row.userId}
    (found : wallets.find? user = some wallet)
    (moves : (update wallet).balance = wallet.balance + entry.movement)
    (owner : entry.userId = user)
    (recorded : entry.balanceAfter = wallet.balance + entry.movement) :
    Explained ⟨wallets, log⟩ ⟨wallets.modify user update keeps, log ++ [entry]⟩ := by
  refine ⟨[entry], rfl, .single (fun who => ?_) ?_⟩
  · rw [balanceOf_modify update found moves who]
    simp only [walletJournal, owner]
  · change entry.balanceAfter = balanceOf wallets entry.userId + entry.movement
    rw [recorded, owner, balanceOf_eq found]

theorem Explained.credit (found : wallets.find? user = some wallet) (owner : entry.userId = user)
    (movement : entry.movement = amount)
    (recorded : entry.balanceAfter = wallet.balance + amount) :
    Explained ⟨wallets, log⟩ ⟨wallets.modify user (Wallet.credit amount), log ++ [entry]⟩ := by
  refine .post (Wallet.credit amount) found ?_ owner ?_
  · rw [movement]
    rfl
  · rw [movement, recorded]

theorem Explained.debit (found : wallets.find? user = some wallet) (owner : entry.userId = user)
    (movement : entry.movement = -amount)
    (recorded : entry.balanceAfter = wallet.balance - amount) :
    Explained ⟨wallets, log⟩ ⟨wallets.modify user (Wallet.debit amount), log ++ [entry]⟩ := by
  refine .post (Wallet.debit amount) found ?_ owner ?_
  · rw [movement, ← sub_eq_add_neg]
    rfl
  · rw [movement, recorded, sub_eq_add_neg]

theorem Explained.payResting (found : wallets.find? user = some wallet)
    (owner : entry.userId = user) (movement : entry.movement = -amount)
    (recorded : entry.balanceAfter = wallet.balance - amount) :
    Explained ⟨wallets, log⟩ ⟨wallets.modify user (payResting amount), log ++ [entry]⟩ := by
  refine .post (LimitSweep.payResting amount) found ?_ owner ?_
  · rw [movement, ← sub_eq_add_neg]
    rfl
  · rw [movement, recorded, sub_eq_add_neg]

/-- A row is written about a wallet that does not move. -/
theorem Explained.note (same : ∀ who, balanceOf wallets' who = balanceOf wallets who)
    (still : entry.movement = 0) (recorded : entry.balanceAfter = balanceOf wallets entry.userId) :
    Explained ⟨wallets, log⟩ ⟨wallets', log ++ [entry]⟩ := by
  refine ⟨[entry], rfl, .single (fun who => ?_) ?_⟩
  · simp [walletJournal, still, same who]
  · change entry.balanceAfter = balanceOf wallets entry.userId + entry.movement
    rw [recorded, still, add_zero]

end Accounts

end Rows

/-! # Orders -/

namespace OrderService

variable {env : Env} {db matched : Database} {user : UserId} {venue : Venue} {data : OrderRequest}
  {execution : Execution} {book : BookFill}

theorem creditReferral_explained (db : Database) (user : UserId) :
    db.accounts.Explained (creditReferral db user).accounts := by
  unfold creditReferral
  dsimp only
  split
  · split
    · exact .refl _
    split
    · exact .refl _
    · rename_i wallet found
      exact .credit found rfl rfl rfl
  · exact .refl _

/-- The incoming order takes nothing from the book. -/
def PassesBook (db : Database) (user : UserId) (venue : Venue) (data : OrderRequest) : Prop :=
  ∀ offer ∈ bookPlan db user venue data, offer.delivered = false

instance (db : Database) (user : UserId) (venue : Venue) (data : OrderRequest) :
    Decidable (PassesBook db user venue data) :=
  inferInstanceAs (Decidable (∀ offer ∈ bookPlan db user venue data, _ = _))

/-- What a fill without a match moves is what its row says. -/
theorem fill_movement (env : Env) (traded : Database) (user : UserId) (venue : Venue)
    (orders : Table Order.id) {leg : AmmLeg} (side : leg.side = data.side) :
    ∃ entry : Transaction, (saveFill env traded user venue data ⟨.empty, some leg⟩
        orders).transactions = traded.transactions ++ [entry] ∧ entry.userId = user ∧
      entry.movement = -leg.paid ∧ entry.balanceAfter = walletBalance traded user := by
  refine ⟨_, rfl, rfl, ?_, rfl⟩
  cases isSide : data.side with
  | buy =>
      rw [isSide] at side
      simp [Transaction.movement, Fill.spent, BookFill.empty, AmmLeg.total, AmmLeg.spent,
        AmmLeg.paid, side]
  | sell =>
      rw [isSide] at side
      simp [Transaction.movement, Fill.received, BookFill.empty, AmmLeg.total, AmmLeg.proceeds,
        AmmLeg.paid, side]

theorem finish_explained {traded : Database} {leg : AmmLeg} {wallet : Wallet} {remaining : ℚ}
    (found : db.wallets.find? user = some wallet)
    (ran : runAmmLeg db user venue data.side remaining = .ok (traded, leg))
    (finished : finish env traded user venue data ⟨.empty, some leg⟩ = .ok execution) :
    db.accounts.Explained execution.db.accounts := by
  rw [(finish_ok finished).1]
  refine .trans ?_ (creditReferral_explained _ user)
  obtain ⟨side, _, isTraded⟩ := runAmmLeg_traded ran
  obtain ⟨entry, log, owner, movement, recorded⟩ := fill_movement env traded user venue
    (traded.orders.insert (filledRow env traded user venue data ⟨.empty, some leg⟩)) side
  have balance : entry.balanceAfter = wallet.balance - leg.paid := by
    rw [recorded, isTraded, walletBalance]
    dsimp only
    rw [Table.find?_modify_self, found]
    rfl
  unfold Database.accounts
  rw [log, isTraded]
  exact .debit found owner movement balance

/-- An order that takes nothing from the book accounts for what it moves. -/
theorem executeOrder_explained (executed : executeOrder env db user data = .ok execution)
    (passes : ∀ venue, openVenue env db data.marketId data.outcome = .ok venue →
      duplicateOf db user data = none → PassesBook db user venue data) :
    db.accounts.Explained execution.db.accounts := by
  obtain ⟨venue, opened, _, ⟨wallet, found⟩, ways⟩ := executeOrder_ok executed
  rcases ways with ⟨_, _, rfl⟩ | ⟨unseen, _, filled⟩
  · exact .refl _
  obtain ⟨matched, book, trace, ends⟩ := fillOrder_ok filled
  obtain ⟨same, rfl⟩ := trace.idle (passes venue opened unseen)
  have idle : matched.accounts = db.accounts := by rw [same]; rfl
  have foundStill : matched.wallets.find? user = some wallet := by rw [same]; exact found
  rw [← idle]
  rcases ends with ⟨_, _, rested⟩ | ⟨_, _, traded, leg, ran, finished⟩ | ⟨nothing, _⟩
  · obtain ⟨_, locked, _, taken, database, _⟩ := restOrder_ok rested
    rw [database]
    refine .note (fun who => ?_) rfl rfl
    rcases lockFunds_ok taken with ⟨_, rfl⟩ | ⟨_, _, _, _, rfl⟩
    · rfl
    · exact balanceOf_lock who
  · exact finish_explained foundStill ran finished
  · have left : remainder data .empty = data.amount := by
      unfold remainder
      cases data.side <;> simp [BookFill.empty, data.amount_pos.le]
    exact absurd (left ▸ nothing) (not_le.mpr data.amount_pos)

theorem cancelOrder_explained {after : Database} {orderId : OrderId}
    (cancelled : cancelOrder env db user orderId = .ok after) :
    db.accounts.Explained after.accounts := by
  unfold cancelOrder at cancelled
  split at cancelled
  · rename_i order _ found _
    split at cancelled
    · cases cancelled
      refine .idle fun who => ?_
      dsimp only
      cases order.side with
      | sell => rfl
      | buy => exact balanceOf_release who
    · contradiction
  · contradiction

end OrderService

/-! # The sweep -/

namespace LimitSweep

variable {now : Timestamp} {db : Database} {session : Session} {order : Order}

theorem expireOrder_explained (now : Timestamp) (db : Database) (order : Order) :
    db.accounts.Explained (expireOrder now db order).accounts := by
  refine .idle fun who => ?_
  unfold expireOrder
  dsimp only
  cases order.side with
  | sell => rfl
  | buy => exact balanceOf_release who

theorem expireStaleOrders_explained (now : Timestamp) (db : Database) :
    db.accounts.Explained (expireStaleOrders now db).accounts :=
  expireStaleOrders_preserves (fun after => db.accounts.Explained after.accounts)
    (fun _ _ before => before.trans (expireOrder_explained now _ _)) (.refl _)

theorem sweepLeg_explained {turn : Turn} {remaining : ℚ} {traded : Database} {leg : AmmLeg}
    (ran : sweepLeg now db turn remaining = .ok (some (traded, leg))) :
    db.accounts.Explained traded.accounts := by
  obtain ⟨quantity, ⟨_, isBuy, ⟨wallet, found, _⟩, _, rfl⟩ |
    ⟨_, isSell, ⟨wallet, found⟩, _, _, _, rfl⟩⟩ := sweepLeg_ok ran
  · refine .payResting found rfl (by simp [Transaction.movement, isBuy, quantity]) ?_
    dsimp only [walletBalance]
    rw [Table.find?_modify_self, found]
    rfl
  · refine .credit found rfl (by simp [Transaction.movement, isSell]) ?_
    dsimp only [walletBalance]
    rw [Table.find?_modify_self, found]
    rfl

/-- No two resting orders can trade with each other, by the committed rows or by the
current ones. -/
structure Session.Unmatched (session : Session) : Prop where
  committed : BookBare session.committed
  current : BookBare session.current
  live : Table.Linked Wanes session.committed.orders session.current.orders

theorem Session.Unmatched.of_commit (bare : BookBare db) : Session.Unmatched ⟨db, db⟩ :=
  ⟨bare, bare, .refl Wanes.refl _⟩

/-- With nothing behind any sell that crosses a buy, the book leg of a turn delivers
nothing. -/
theorem Session.Unmatched.idle {market : MarketId} {matched : Database} {fill : PendingFill}
    (unmatched : session.Unmatched) (consistent : session.Consistent)
    (found : session.current.orders.find? order.id = some order)
    (opened : order.status.isOpen = true) (ofMarket : order.marketId = market)
    (trace : Trace now (pendingTaker now order) session.current ⟨order.remainingAmount, []⟩
      (pendingPlan now session market order order.outcomeId) matched fill) :
    matched.wallets = session.current.wallets ∧ matched.orders = session.current.orders ∧
      matched.positions = session.current.positions ∧ fill = ⟨order.remainingAmount, []⟩ := by
  refine trace_unserved trace (pending_positive trace) fun offer member => ?_
  obtain ⟨row, makerMarket, makerOutcome, opposite, users, crosses⟩ :=
    pendingPlan_maker consistent member
  have makerOpen := pendingPlan_open unmatched.live trace offer member
  cases side : order.side with
  | buy =>
      rw [side] at opposite crosses
      have bare := unmatched.current order (Table.mem_of_find? found) offer.maker
        (Table.mem_of_find? row)
        { buying := side
          selling := opposite
          buyOpen := opened
          sellOpen := makerOpen
          outcome := makerOutcome.symm
          users := Ne.symm users
          price := by simpa [priceCrosses] using crosses }
      rw [sellerOf, show offer.maker.side = .sell from opposite]
      exact bare.shares
  | sell =>
      rw [side] at opposite crosses
      have bare := unmatched.current offer.maker (Table.mem_of_find? row) order
        (Table.mem_of_find? found)
        { buying := opposite
          selling := side
          buyOpen := makerOpen
          sellOpen := opened
          outcome := makerOutcome
          users := users
          price := by simpa [priceCrosses] using crosses }
      rw [sellerOf, show offer.maker.side = .buy from opposite]
      have sameKey : positionKey offer.maker order.userId = positionKey order order.userId := by
        simp only [positionKey, makerMarket, makerOutcome, ofMarket]
      exact sameKey ▸ bare.shares

/-- The AMM leg of a whole order closes it, and only a buyer gains shares. -/
theorem sweepLeg_wanes {turn : Turn} {traded : Database} {leg : AmmLeg}
    (found : db.orders.find? turn.order.id = some turn.order)
    (opened : turn.order.status.isOpen = true) (outcome : turn.outcome.id = turn.order.outcomeId)
    (left : 0 < turn.order.remainingAmount)
    (ran : sweepLeg now db turn turn.order.remainingAmount = .ok (some (traded, leg))) :
    Table.Linked Wanes db.orders traded.orders ∧
      ∀ key, NotBuying db.orders key.userId key.outcomeId →
        Position.held traded.positions key ≤ Position.held db.positions key := by
  obtain ⟨quantity, sides⟩ := sweepLeg_ok ran
  have nonneg : 0 ≤ leg.quantity := quantity ▸ left.le
  have wanes : Wanes turn.order (fillResting now leg turn.order) := by
    have filled := fillTaker_wanes now nonneg (.inl opened)
    exact ⟨fillResting_sameTerms now leg turn.order, filled.remaining, filled.opened,
      filled.spent⟩
  have linked : Table.Linked Wanes db.orders
      (db.orders.modify turn.order.id (fillResting now leg) (fillResting_id now leg)) :=
    .modify Wanes.refl (fillResting_id now leg) found wanes
  rcases sides with ⟨side, _, _, _, rfl⟩ | ⟨_, _, _, holds, _, _, rfl⟩
  · refine ⟨linked, fun key notBuying => ?_⟩
    change Position.held (Position.acquire db.positions turn.positionKey _ _ _) key ≤ _
    rw [Position.held_acquire, if_neg, add_zero]
    rintro rfl
    exact notBuying turn.order (Table.mem_of_find? found) side opened rfl outcome.symm
  · refine ⟨linked, fun key _ => ?_⟩
    obtain ⟨position, positionFound⟩ := Position.exists_of_held_pos (left.trans_le holds)
    change Position.held (Position.dispose db.positions turn.positionKey _ _) key ≤ _
    rw [Position.held_dispose positionFound]
    split <;> linarith

/-- Where a session of the sweep stands against the rows it began with. -/
structure Session.Accounted (db : Database) (session : Session) : Prop where
  unmatched : session.Unmatched
  terms : Evolves db.orders session.committed.orders
  committed : db.accounts.Explained session.committed.accounts
  current : db.accounts.Explained session.current.accounts

theorem Session.Accounted.commit (accounted : session.Accounted db)
    (consistent : session.Consistent) : session.commit.Accounted db :=
  ⟨.of_commit accounted.unmatched.current, accounted.terms.trans consistent, accounted.current,
    accounted.current⟩

theorem Session.Accounted.rollback (accounted : session.Accounted db) :
    session.rollback.Accounted db :=
  ⟨.of_commit accounted.unmatched.committed, accounted.terms, accounted.committed,
    accounted.committed⟩

theorem Session.Accounted.advance {after : Database} (accounted : session.Accounted db)
    (wanes : Table.Linked Wanes session.current.orders after.orders)
    (shares : ∀ key, NotBuying session.current.orders key.userId key.outcomeId →
      Position.held after.positions key ≤ Position.held session.current.positions key)
    (explained : session.current.accounts.Explained after.accounts) :
    Session.Accounted db ⟨session.committed, after⟩ :=
  { unmatched :=
      { committed := accounted.unmatched.committed
        current := accounted.unmatched.current.fade (wanes.mono Wanes.fades) shares
        live := accounted.unmatched.live.trans Wanes.trans wanes }
    terms := accounted.terms
    committed := accounted.committed
    current := accounted.current.trans explained }

theorem tradeOrder_accounted {turn : Turn} {processed : Processed}
    (accounted : session.Accounted db) (consistent : session.Consistent)
    (found : session.current.orders.find? turn.order.id = some turn.order)
    (opened : turn.order.status.isOpen = true) (ofMarket : turn.order.marketId = turn.market)
    (outcome : turn.outcome.id = turn.order.outcomeId)
    (ran : tradeOrder now session turn = .ok processed) : processed.session.Accounted db := by
  obtain ⟨matched, fill, trace, _, ends⟩ := tradeOrder_ok ran
  rw [outcome] at trace
  obtain ⟨wallets, orders, positions, rfl⟩ :=
    accounted.unmatched.idle consistent found opened ofMarket trace
  have same : matched.accounts = session.current.accounts := by
    unfold Database.accounts
    rw [wallets, trace.sameElsewhere.transactions]
  have idle : Session.Accounted db ⟨session.committed, matched⟩ := by
    refine accounted.advance (orders ▸ .refl Wanes.refl _) (fun key _ => by rw [positions]) ?_
    rw [same]
    exact .refl _
  rcases ends with ⟨_, _, kept | committed⟩ | ⟨traded, leg, _, left, _, legRan, final⟩
  · rw [kept]
    exact idle
  · rw [committed]
    refine ⟨.of_commit idle.unmatched.current, ?_, idle.current, idle.current⟩
    rw [orders]
    exact accounted.terms.trans consistent
  · rw [final]
    have foundStill : matched.orders.find? turn.order.id = some turn.order := by
      rw [orders, found]
    obtain ⟨wanes, shares⟩ := sweepLeg_wanes foundStill opened outcome left legRan
    exact idle.advance wanes shares (sweepLeg_explained legRan)

theorem processOrder_accounted {parimutuel : Bool} {orderId : OrderId} {processed : Processed}
    {row : Order} (consistent : session.Consistent) (accounted : session.Accounted db)
    (placed : db.orders.find? orderId = some row)
    (ran : processOrder now row.marketId parimutuel session orderId = .ok processed) :
    processed.session.Accounted db := by
  have terms := accounted.terms.trans consistent
  rcases processOrder_ok ran with ⟨rfl, _⟩ | ⟨order, found, opened, _, rfl⟩ |
    ⟨order, turn, found, opened, _, taken, traded⟩
  · exact accounted
  · obtain rfl := Table.key_of_find? found
    have explained := accounted.current.trans (expireOrder_explained now session.current order)
    exact ⟨.of_commit (expireOrder_bare accounted.unmatched.current found),
      terms.trans (expireOrder_evolves now session.current order), explained, explained⟩
  · obtain rfl := Table.key_of_find? found
    obtain ⟨isMarket, rfl, _, outcome, _⟩ := takeTurn_some taken
    obtain ⟨latest, latestFound, sameTerms⟩ := terms _ _ placed
    cases found.symm.trans latestFound
    exact tradeOrder_accounted accounted consistent found opened
      (sameTerms.marketId.trans isMarket.symm) outcome traded

/-- A sweep in which no two orders meet accounts for every leg it runs. -/
theorem checkLimitOrderExecution_explained {dirty : Option (List MarketId)} {scanned : List Order}
    (reads : Scanned dirty db scanned) (bare : BookBare db) :
    db.accounts.Explained (checkLimitOrderExecution now scanned db).accounts := by
  have initially : Session.Accounted db (.start db) :=
    ⟨.of_commit bare, .refl _, .refl _, .refl _⟩
  obtain ⟨session, accounted, final⟩ := checkLimitOrderExecution_invariant now
    (fun session => session.Accounted db) reads initially
    (fun sweeping accounted => accounted.commit sweeping.consistent)
    (fun accounted => accounted.rollback) (by
      rintro session market parimutuel orderId processed row sweeping accounted placed rfl ran
      exact processOrder_accounted sweeping.consistent accounted placed ran)
  rw [final]
  exact accounted.committed

end LimitSweep

/-! # Settlements and claims -/

namespace Settlement

variable {now : Timestamp} {market : MarketId} {winning : OutcomeId} {ledger after : Ledger}

theorem settlePosition_explained {position : Position}
    (ran : settlePosition id now market winning ledger position = .ok after) :
    ledger.accounts.Explained after.accounts := by
  unfold settlePosition at ran
  split at ran
  · cases ran
    exact .refl _
  split at ran
  · cases ran
    exact .refl _
  rename_i wallet found
  dsimp only at ran
  split at ran
  · split at ran
    · contradiction
    cases ran
    exact .credit found rfl rfl rfl
  · cases ran
    exact .note (fun _ => rfl) rfl (balanceOf_eq found).symm

theorem redeemShare_explained {rate : ℚ} {share : LPShare}
    (ran : redeemShare id rate ledger share = .ok after) :
    ledger.accounts.Explained after.accounts := by
  unfold redeemShare at ran
  dsimp only at ran
  split at ran
  · cases ran
    exact .refl _
  split at ran
  · contradiction
  split at ran
  · cases ran
    exact .refl _
  · rename_i wallet found
    cases ran
    exact .credit found rfl rfl rfl

/-- What every row of a loop accounts for, the loop does. -/
theorem loop_explained {α : Type} {body : Ledger → α → Except Error Ledger}
    (turn : ∀ {ledger next : Ledger} {row : α}, body ledger row = .ok next →
      ledger.accounts.Explained next.accounts)
    (rows : List α) {ledger after : Ledger} (ran : rows.foldlM body ledger = .ok after) :
    ledger.accounts.Explained after.accounts := by
  induction rows generalizing ledger with
  | nil =>
      cases ran
      exact .refl _
  | cons row rest ih =>
      rw [List.foldlM_cons] at ran
      obtain ⟨next, head, tail⟩ := bind_eq_ok.mp ran
      exact (turn head).trans (ih tail)

theorem sweepFees_explained {treasury : UserId}
    (opened : (ledger.wallets.find? treasury).isSome = true)
    (ran : sweepFees id market treasury ledger = .ok after) :
    ledger.accounts.Explained after.accounts := by
  obtain ⟨wallet, found⟩ := Option.isSome_iff_exists.mp opened
  unfold sweepFees at ran
  split at ran
  · cases ran
    exact .refl _
  split at ran
  · split at ran
    · contradiction
    dsimp only at ran
    cases ran
    exact .credit found rfl rfl (by rw [found]; rfl)
  · cases ran
    exact .refl _

theorem redeemShares_explained {shares : List LPShare}
    (ran : redeemShares id shares ledger = .ok after) :
    ledger.accounts.Explained after.accounts := by
  unfold redeemShares at ran
  split at ran
  · cases ran
    exact .refl _
  split at ran
  · contradiction
  · exact loop_explained redeemShare_explained _ ran

theorem settleMarket_explained {done : Bool} {scan : Scan} {db : Database} {settled : Settled}
    (ran : settleMarket id now done scan db market winning = .ok (some settled)) :
    db.accounts.Explained settled.db.accounts := by
  obtain ⟨_, paid, swept, final, _, _, _, _, stages, rfl⟩ := settleMarket_ok ran
  have opened : db.accounts.Explained (openLedger db market winning).accounts :=
    .idle fun who => balanceOf_openWallet db.wallets _ who
  have treasury : (paid.wallets.find? (openTreasury db).1).isSome = true := by
    rw [(settlePositions_paid stages.positions).1.isSome_wallet]
    exact isSome_openWallet_self db.wallets _
  have first : (openLedger db market winning).accounts.Explained paid.accounts :=
    loop_explained settlePosition_explained _ stages.positions
  exact ((opened.trans first).trans (sweepFees_explained treasury stages.fees)).trans
    (redeemShares_explained stages.shares)

theorem claimWinnings_explained {user : UserId} {db : Database} {settled : Settled}
    (ran : claimWinnings id now user db market = .ok settled) :
    db.accounts.Explained settled.db.accounts := by
  obtain ⟨_, _, paid⟩ := claimWinnings_ok ran
  obtain ⟨_, _, wallet, _, _, _, _, found, _, rfl⟩ := payClaim_ok paid
  exact .credit found rfl rfl rfl

end Settlement

/-! # Liquidity and markets -/

theorem LiquidityService.distributeProtocolFees_explained (db : Database)
    (scanned : List LiquidityPool) :
    db.accounts.Explained (distributeProtocolFees db scanned).accounts := by
  have pools : ∀ {treasury : UserId} (rows : List LiquidityPool) {db : Database},
      (db.wallets.find? treasury).isSome = true →
      db.accounts.Explained (rows.foldl (distributePool treasury) db).accounts := by
    intro treasury rows
    induction rows with
    | nil => exact fun _ => .refl _
    | cons pool rest ih =>
        intro db opened
        obtain ⟨wallet, found⟩ := Option.isSome_iff_exists.mp opened
        refine .trans ?_ (ih ?_)
        · unfold distributePool
          split
          · exact .refl _
          split
          · exact .refl _
          · exact .credit found rfl rfl (by rw [found]; rfl)
        · unfold distributePool
          split
          · exact opened
          split
          · exact opened
          · dsimp only
            rw [Table.isSome_find?_modify]
            exact opened
  unfold distributeProtocolFees
  split
  · exact .refl _
  · have opened : db.accounts.Explained (Settlement.openTreasury db).2.accounts :=
      .idle fun who => Settlement.balanceOf_openWallet db.wallets _ who
    exact opened.trans (pools _ (Settlement.isSome_openWallet_self db.wallets _))

theorem Markets.createMarket_explained {now : Timestamp} {author : Author} {db made : Database}
    {request : CreateMarketRequest} {market : MarketId} (unseeded : ¬ canSeed db author request)
    (created : createMarket now author db request = .ok (made, market)) :
    db.accounts.Explained made.accounts := by
  unfold createMarket at created
  split at created
  · contradiction
  split at created
  · contradiction
  split at created
  · contradiction
  split at created
  · contradiction
  cases created
  exact .refl _

/-! # Decisions about markets -/

section Decisions

open PredictX.Resolution

variable {now : Timestamp} {db after : Database} {market : MarketId} {outcome : OutcomeId}

theorem Markets.moderate_accounts {status : MarketStatus}
    (ran : moderate db market status = .ok after) : after.accounts = db.accounts := by
  obtain ⟨_, _, _, rfl⟩ := moderate_ok ran
  rfl

theorem Markets.approveMarket_accounts (ran : approveMarket now db market = .ok after) :
    after.accounts = db.accounts := by
  unfold approveMarket at ran
  split at ran
  · contradiction
  split at ran
  · contradiction
  split at ran
  · contradiction
  · exact moderate_accounts ran

theorem Resolution.proposeResolution_accounts {admin : Bool}
    (ran : proposeResolution admin now db market outcome = .ok after) :
    after.accounts = db.accounts := by
  obtain ⟨row, -, -, -, -, rfl⟩ := proposeResolution_ok ran
  rfl

theorem Resolution.resolveMarketEndpoint_accounts {admin : Bool} {backends : Backends}
    (ran : resolveMarketEndpoint admin backends now db market outcome = .ok after) :
    after.accounts = db.accounts := by
  obtain ⟨row, -, -, -, -, -, rfl⟩ := resolveMarketEndpoint_ok ran
  rfl

theorem Resolution.createDispute_accounts {user : UserId}
    (ran : createDispute user now db market = .ok after) : after.accounts = db.accounts := by
  obtain ⟨row, -, -, -, rfl⟩ := createDispute_ok ran
  rfl

theorem Resolution.adjudicateDispute_accounts {bench : Bench} {dispute : ℕ} {ruling : Ruling}
    {ruled : Ruled} (ran : adjudicateDispute bench now db dispute ruling = .ok ruled) :
    ruled.db.accounts = db.accounts := by
  obtain ⟨row, -, -, -, -, ⟨rfl, rfl⟩ | ⟨rfl, rfl⟩⟩ := adjudicateDispute_ok ran
  · rfl
  · rcases uphold_cases bench now
      { db with disputes := db.disputes.modify dispute (rule .upheld) } row.marketId with
      same | ⟨_, winning, -, -, -, written⟩
    · rw [same]
      rfl
    · rw [written]
      rfl

end Decisions

/-! # Runs -/

namespace History

/-- The steps that write a row for what they move: orders that take nothing from the book,
sweeps in which no two orders can trade, and markets without a seed. -/
def Recorded (platform : Platform) : Event → Prop
  | .operate (.order env user data) =>
      ∀ venue, openVenue env platform.db data.marketId data.outcome = .ok venue →
        duplicateOf platform.db user data = none → PassesBook platform.db user venue data
  | .operate (.sweep _ _ _) => BookBare platform.db
  | .createMarket _ author request => ¬ Markets.canSeed platform.db author request
  | _ => True

theorem operation_explained {platform : Platform} {operation : Operation} {after : Database}
    (reads : operation.Reads platform.db) (recorded : Recorded platform (.operate operation))
    (performed : operation.perform platform.db = .ok after) :
    platform.db.accounts.Explained after.accounts := by
  cases operation with
  | order env user data =>
      obtain ⟨execution, executed, rfl⟩ := map_eq_ok.mp performed
      exact executeOrder_explained executed recorded
  | cancel env user orderId => exact cancelOrder_explained performed
  | expire now =>
      cases performed
      exact expireStaleOrders_explained now _
  | sweep now dirty scanned =>
      cases performed
      exact checkLimitOrderExecution_explained reads recorded
  | split user market amount =>
      obtain ⟨result, ran, rfl⟩ := map_eq_ok.mp performed
      obtain ⟨_, _, wallet, _, _, found, _, rfl⟩ := SplitMerge.split_ok ran
      exact .debit found rfl rfl rfl
  | merge user market amount =>
      obtain ⟨result, ran, rfl⟩ := map_eq_ok.mp performed
      obtain ⟨_, _, wallet, _, _, found, _, _, _, rfl⟩ := SplitMerge.merge_ok ran
      exact .credit found rfl rfl rfl
  | addLiquidity user market amount outcome =>
      obtain ⟨deposited, ran, rfl⟩ := map_eq_ok.mp performed
      obtain ⟨_, _, wallet, _, _, _, _, found, _, _, _, rfl⟩ :=
        LiquidityService.addLiquidity_ok ran
      exact .debit found rfl rfl rfl
  | removeLiquidity user market lpTokens outcome =>
      obtain ⟨withdrawn, ran, rfl⟩ := map_eq_ok.mp performed
      obtain ⟨_, _, wallet, _, _, _, _, _, found, _, _, _, _, _, rfl⟩ :=
        LiquidityService.removeLiquidity_ok ran
      exact .credit found rfl rfl rfl
  | distributeFees scanned =>
      cases performed
      exact LiquidityService.distributeProtocolFees_explained _ scanned
  | claim now user market =>
      obtain ⟨settled, ran, rfl⟩ := map_eq_ok.mp performed
      exact Settlement.claimWinnings_explained ran
  | settle now scan market winning =>
      dsimp only [Operation.perform] at performed
      split at performed
      · contradiction
      · cases performed
        exact .refl _
      · rename_i settled ran
        cases performed
        exact Settlement.settleMarket_explained ran

theorem event_explained {platform after : Platform} {event : Event}
    (reads : event.Reads platform.db) (recorded : Recorded platform event)
    (commits : event.Commits platform after) :
    platform.db.accounts.Explained after.db.accounts := by
  have performed := commits.1
  have untouched : after.db.accounts = platform.db.accounts →
      platform.db.accounts.Explained after.db.accounts := fun same => same ▸ .refl _
  cases event with
  | operate operation => exact operation_explained reads recorded performed
  | createMarket now author request =>
      obtain ⟨⟨made, market⟩, created, isAfter⟩ := map_eq_ok.mp performed
      rw [← isAfter]
      exact Markets.createMarket_explained recorded created
  | approveMarket now market => exact untouched (Markets.approveMarket_accounts performed)
  | rejectMarket market => exact untouched (Markets.moderate_accounts performed)
  | proposeResolution admin now market outcome =>
      exact untouched (Resolution.proposeResolution_accounts performed)
  | resolveMarket admin backends now market outcome =>
      exact untouched (Resolution.resolveMarketEndpoint_accounts performed)
  | createDispute user now market =>
      exact untouched (Resolution.createDispute_accounts performed)
  | adjudicateDispute bench now dispute ruling =>
      obtain ⟨ruled, ran, isAfter⟩ := map_eq_ok.mp performed
      rw [← isAfter]
      exact Resolution.adjudicateDispute_accounts ran ▸ .refl _
  | closeMarkets now =>
      rw [← Except.ok.inj performed]
      exact .refl _

/-- In every run of recorded steps the rows written account for every wallet. -/
theorem wallet_history_explains_balance {start final : Platform} {events : List Event}
    (run : Event.Runs Recorded start events final) :
    start.db.accounts.Explained final.db.accounts := by
  refine run.invariant (fun platform => start.db.accounts.Explained platform.db.accounts) ?_
    (.refl _)
  intro platform event after guarded commits before
  exact before.trans (event_explained guarded.1 guarded.2 commits)

/-- User 1 buys from user 2's resting sell: user 2 is paid and no row says so. -/
theorem makers_are_paid_without_a_row :
    ∃ (start final : Platform) (events : List Event),
      Event.Runs (fun _ _ => True) start events final ∧
      ¬ start.db.accounts.Explained final.db.accounts := by
  have played : succeedsWith (Event.play ⟨quotedMarket, []⟩
      (.operate (.order quietEnv 1 (marketOrder .buy 5 pos_five grid_five))))
      (fun final => balanceOf final.db.wallets 2 = 495 / 100 &&
        walletJournal.movements final.db.transactions 2 = 0) = true := by
    decide +kernel
  obtain ⟨final, committed, facts⟩ := succeedsWith_iff.mp played
  simp only [Bool.and_eq_true, decide_eq_true_eq] at facts
  have commits := Event.commits_of_play committed
  refine ⟨_, final, _, .act (by exact ⟨trivial, trivial⟩) commits (.stop final), ?_⟩
  rintro ⟨rows, log, explains⟩
  obtain rfl : final.db.transactions = rows := log
  have balance : balanceOf final.db.wallets 2 = balanceOf quotedMarket.wallets 2 +
      walletJournal.movements final.db.transactions 2 := explains.balance 2
  rw [facts.1, facts.2] at balance
  exact absurd balance (by decide +kernel)

theorem passesBook_of_no_orders {db : Database} {user : UserId} {venue : Venue}
    {data : OrderRequest} (unplaced : db.orders.rows = []) : PassesBook db user venue data := by
  intro offer member
  exact absurd (mem_bookPlan member).1 (by simp [unplaced])

/-- User 1 splits 10 and sells some of the YES shares to the AMM. -/
theorem split_and_sale_are_explained :
    ∃ (start final : Platform) (events : List Event), events.length = 2 ∧
      Event.Runs Recorded start events final ∧
      start.db.accounts.Explained final.db.accounts := by
  have played : succeedsWith (Event.play ⟨Trading.openingDay, []⟩
      (.operate (.split 1 1 ⟨10, by norm_num, by decide +kernel⟩)))
      (fun middle => middle.db.orders.rows = [] && succeedsWith (Event.play middle
        (.operate (.order quietEnv 1 (marketOrder .sell 4 pos_four
          grid_four)))) fun _ => true) = true := by
    decide +kernel
  obtain ⟨middle, splits, rest⟩ := succeedsWith_iff.mp played
  simp only [Bool.and_eq_true, decide_eq_true_eq] at rest
  obtain ⟨final, sells, _⟩ := succeedsWith_iff.mp rest.2
  have run : Event.Runs Recorded _ _ final :=
    .act (by exact ⟨trivial, trivial⟩) (Event.commits_of_play splits)
      (.act (by exact ⟨trivial, fun _ _ _ => passesBook_of_no_orders rest.1⟩)
        (Event.commits_of_play sells) (.stop final))
  exact ⟨_, final, _, rfl, run, wallet_history_explains_balance run⟩

end History

end PredictX
