import PredictX.Api.Events
import PredictX.Properties.OrderLifeCycle
import PredictX.Properties.SettlementPayouts

namespace PredictX.Consent

open PredictX.Data PredictX.OrderService PredictX.MatchingEngine PredictX.LimitSweep
open PredictX.Settlement

/-! Nobody loses money, shares or tokens to what others do.

A user without a resting order is on neither side of a trade that she did not ask for.  What reaches
her wallet then are rewards, fees and payouts; what leaves her rows alone is shown row by row.
-/

/-- Who asked for the event, if it was not a worker, an administrator or a judge. -/
def author : Event → Option UserId
  | .operate (.order _ user _) => some user
  | .operate (.cancel _ user _) => some user
  | .operate (.split user _ _) => some user
  | .operate (.merge user _ _) => some user
  | .operate (.addLiquidity user _ _ _) => some user
  | .operate (.removeLiquidity user _ _ _) => some user
  | .operate (.claim _ user _) => some user
  | .createMarket _ author _ => some author.userId
  | .createDispute user _ _ => some user
  | _ => none

/-- None of the user's orders rests. -/
def Idle (user : UserId) (orders : Table Order.id) : Prop :=
  ∀ id row, orders.find? id = some row → row.userId = user → row.status.isOpen = false

/-- The user's rows stay as they are. -/
structure Unmoved (user : UserId) (before after : Database) : Prop where
  wallet : after.wallets.find? user = before.wallets.find? user
  positions : ∀ market outcome, after.positions.find? ⟨user, market, outcome⟩ =
    before.positions.find? ⟨user, market, outcome⟩
  lpShares : ∀ pool, after.lpShares.find? ⟨pool, user⟩ = before.lpShares.find? ⟨pool, user⟩

/-- The user's wallet has at least what it had and locks what it locked. -/
def Gains (user : UserId) (before after : Table Wallet.userId) : Prop :=
  ∀ wallet, before.find? user = some wallet → ∃ later, after.find? user = some later ∧
    wallet.balance ≤ later.balance ∧ later.lockedBalance = wallet.lockedBalance

/-- The user has what she had, but for tokens of markets that have been settled. -/
structure Keeps (user : UserId) (settled : List MarketId) (before after : Database) : Prop where
  wallet : Gains user before.wallets after.wallets
  shares : ∀ market outcome, Position.held after.positions ⟨user, market, outcome⟩ =
    Position.held before.positions ⟨user, market, outcome⟩
  tokens : ∀ pool : PoolKey, pool.marketId ∉ settled →
    after.lpShares.find? ⟨pool, user⟩ = before.lpShares.find? ⟨pool, user⟩

section Rows

variable {user other : UserId} {before middle after : Database} {settled later : List MarketId}
  {wallets wallets' wallets'' : Table Wallet.userId} {orders orders' : Table Order.id}

namespace Unmoved

theorem refl (db : Database) : Unmoved user db db := ⟨rfl, fun _ _ => rfl, fun _ => rfl⟩

theorem trans (left : Unmoved user before middle) (right : Unmoved user middle after) :
    Unmoved user before after where
  wallet := right.wallet.trans left.wallet
  positions market outcome := (right.positions market outcome).trans (left.positions market outcome)
  lpShares pool := (right.lpShares pool).trans (left.lpShares pool)

end Unmoved

namespace Gains

theorem refl (wallets : Table Wallet.userId) : Gains user wallets wallets :=
  fun wallet found => ⟨wallet, found, le_rfl, rfl⟩

theorem trans (left : Gains user wallets wallets') (right : Gains user wallets' wallets'') :
    Gains user wallets wallets'' := by
  intro wallet found
  obtain ⟨next, nextFound, more, locked⟩ := left wallet found
  obtain ⟨last, lastFound, evenMore, lastLocked⟩ := right next nextFound
  exact ⟨last, lastFound, more.trans evenMore, lastLocked.trans locked⟩

theorem of_same (same : wallets'.find? user = wallets.find? user) : Gains user wallets wallets' :=
  fun wallet found => ⟨wallet, same.trans found, le_rfl, rfl⟩

/-- Whoever is credited. -/
theorem modify {update : Wallet → Wallet} {keeps : ∀ row, (update row).userId = row.userId}
    (gains : ∀ wallet : Wallet, wallet.balance ≤ (update wallet).balance)
    (locks : ∀ wallet : Wallet, (update wallet).lockedBalance = wallet.lockedBalance) :
    Gains user wallets (wallets.modify other update keeps) := by
  intro wallet found
  by_cases own : user = other
  · subst own
    exact ⟨update wallet, by rw [Table.find?_modify_self, found]; rfl, gains wallet, locks wallet⟩
  · exact ⟨wallet, (Table.find?_modify_ne own).trans found, le_rfl, rfl⟩

theorem credit {amount : ℚ} (nonneg : 0 ≤ amount) :
    Gains user wallets (wallets.modify other (Wallet.credit amount)) :=
  modify (fun wallet => by simpa [Wallet.credit] using nonneg) fun _ => rfl

theorem openWallet (wallets : Table Wallet.userId) (other : UserId) :
    Gains user wallets (Settlement.openWallet wallets other) := by
  intro wallet found
  refine ⟨wallet, ?_, le_rfl, rfl⟩
  rw [find?_openWallet, if_neg, found]
  rintro ⟨rfl, missing⟩
  rw [missing] at found
  contradiction

theorem credits {payouts : List Payout} (nonneg : ∀ payout ∈ payouts, 0 ≤ payout.credited)
    (wallets : Table Wallet.userId) : Gains user wallets (Settlement.credits id payouts wallets) := by
  induction payouts generalizing wallets with
  | nil => exact refl wallets
  | cons payout rest ih =>
      have head : Gains user wallets
          (wallets.modify payout.user (receive id payout.credited)) :=
        modify (fun wallet => by
          simpa [receive] using nonneg payout List.mem_cons_self) fun _ => rfl
      exact head.trans (ih (fun other member => nonneg other (List.mem_cons_of_mem _ member)) _)

end Gains

namespace Keeps

theorem of_unmoved (unmoved : Unmoved user before after) : Keeps user settled before after where
  wallet := .of_same unmoved.wallet
  shares market outcome := by rw [Position.held, unmoved.positions, Position.held]
  tokens pool _ := unmoved.lpShares pool

theorem trans (left : Keeps user settled before middle) (right : Keeps user later middle after)
    (grows : settled ⊆ later) : Keeps user later before after where
  wallet := left.wallet.trans right.wallet
  shares market outcome := (right.shares market outcome).trans (left.shares market outcome)
  tokens pool live :=
    (right.tokens pool live).trans (left.tokens pool fun ended => live (grows ended))

end Keeps

namespace Idle

theorem fills (idle : Idle user orders) (linked : Table.Linked Order.Fills orders orders') :
    Idle user orders' := by
  intro id row found own
  obtain ⟨earlier, earlierFound, fills⟩ := linked.backward found
  have closed := idle id earlier earlierFound (fills.wanes.terms.userId.symm.trans own)
  rwa [fills.closed closed]

/-- Cancelling and expiring. -/
theorem close {id : OrderId} (idle : Idle user orders) (update : Order → Order)
    (keeps : ∀ row, (update row).id = row.id) (closes : ∀ row, (update row).status.isOpen = false) :
    Idle user (orders.modify id update keeps) := by
  intro other row found own
  obtain ⟨old, oldMember, rfl⟩ := Table.mem_modify.mp (Table.mem_of_find? found)
  split
  · exact closes old
  · rename_i different
    rw [if_neg different] at own
    exact idle old.id old (Table.find?_key_of_mem oldMember) own

theorem insert {order : Order} (idle : Idle user orders) (others : order.userId ≠ user) :
    Idle user (orders.insert order) := by
  intro id row found own
  rcases Table.mem_insert (Table.mem_of_find? found) with old | rfl
  · exact idle row.id row (Table.find?_key_of_mem old) own
  · exact absurd own others

/-- An open order is somebody else's. -/
theorem ne {id : OrderId} {row : Order} (idle : Idle user orders)
    (found : orders.find? id = some row) (opened : row.status.isOpen = true) :
    user ≠ row.userId := by
  intro own
  rw [idle id row found own.symm] at opened
  contradiction

end Idle

end Rows

/-! # Trades -/

section Trades

variable {user taker : UserId} {now : Timestamp} {maker : Order} {quantity usdc fee : ℚ}
  {db matched after : Database}

theorem buyerOf_ne (notMaker : user ≠ maker.userId) (notTaker : user ≠ taker) :
    user ≠ buyerOf maker taker ∧ user ≠ sellerOf maker taker := by
  unfold buyerOf sellerOf
  cases maker.side with
  | buy => exact ⟨notMaker, notTaker⟩
  | sell => exact ⟨notTaker, notMaker⟩

theorem payMatch_unmoved (wallets : Table Wallet.userId) (notMaker : user ≠ maker.userId)
    (notTaker : user ≠ taker) :
    (payMatch wallets maker taker quantity usdc fee).find? user = wallets.find? user := by
  obtain ⟨notBuyer, notSeller⟩ := buyerOf_ne notMaker notTaker
  unfold payMatch
  cases maker.side with
  | buy =>
      dsimp only
      rw [Table.find?_modify_ne notMaker, Table.find?_modify_ne notSeller,
        Table.find?_modify_ne notBuyer]
  | sell =>
      dsimp only
      rw [Table.find?_modify_ne notSeller, Table.find?_modify_ne notBuyer]

theorem wallet_other {wallets : Table Wallet.userId} (update : Wallet → Wallet)
    (keeps : ∀ row, (update row).userId = row.userId) (others : user ≠ taker) :
    (wallets.modify taker update keeps).find? user = wallets.find? user :=
  Table.find?_modify_ne others

theorem key_ne {first second : UserId} (different : first ≠ second)
    (market market' : MarketId) (outcome outcome' : OutcomeId) :
    (⟨first, market, outcome⟩ : PositionKey) ≠ ⟨second, market', outcome'⟩ :=
  fun same => different (congrArg PositionKey.userId same)

theorem moveShares_unmoved (positions : Table Position.key) (notMaker : user ≠ maker.userId)
    (notTaker : user ≠ taker) (market : MarketId) (outcome : OutcomeId) :
    (moveShares positions maker taker quantity usdc).find? ⟨user, market, outcome⟩ =
      positions.find? ⟨user, market, outcome⟩ := by
  have makerKey := key_ne notMaker market maker.marketId outcome maker.outcomeId
  have takerKey := key_ne notTaker market maker.marketId outcome maker.outcomeId
  unfold moveShares
  cases maker.side with
  | buy => exact (Position.find?_acquire_ne makerKey).trans (Position.find?_dispose_ne takerKey)
  | sell => exact (Position.find?_dispose_ne makerKey).trans (Position.find?_acquire_ne takerKey)

theorem trace_unmoved {σ : Type} {incoming : Taker σ} {fill final : σ} {offers : List Offer}
    (trace : Trace now incoming db fill offers after final) (notTaker : user ≠ incoming.userId)
    (notMaker : ∀ offer ∈ offers, user ≠ offer.maker.userId) : Unmoved user db after := by
  induction trace with
  | done => exact .refl _
  | skip _ _ _ ih =>
      have later := ih fun offer member => notMaker offer (List.mem_cons_of_mem _ member)
      exact ⟨later.wallet, later.positions, later.lpShares⟩
  | deliver _ _ _ _ ih =>
      have head := notMaker _ List.mem_cons_self
      refine .trans ?_ (ih fun offer member => notMaker offer (List.mem_cons_of_mem _ member))
      exact ⟨payMatch_unmoved _ head notTaker, moveShares_unmoved _ head notTaker, fun _ => rfl⟩

end Trades

/-! # Orders -/

section Orders

variable {env : Env} {db after : Database} {user actor : UserId} {data : OrderRequest}
  {execution : Execution} {settled : List MarketId}

theorem creditReferral_keeps (db : Database) (actor : UserId) :
    Keeps user settled db (creditReferral db actor) := by
  unfold creditReferral
  dsimp only
  split
  · split
    · exact .of_unmoved (.refl db)
    split
    · exact .of_unmoved (.refl db)
    · exact ⟨.credit (by norm_num [referralRewardAmount]), fun _ _ => rfl, fun _ _ => rfl⟩
  · exact .of_unmoved (.refl db)

theorem runAmmLeg_unmoved {venue : Venue} {side : Side} {remaining : ℚ} {leg : AmmLeg}
    (others : user ≠ actor)
    (ran : runAmmLeg db actor venue side remaining = .ok (after, leg)) : Unmoved user db after := by
  cases side with
  | buy =>
      obtain ⟨_, _, _, _, _, _, rfl⟩ := ammBuy_ok ran
      exact ⟨wallet_other (Wallet.debit remaining) (fun _ => rfl) others, fun _ _ => rfl, fun _ => rfl⟩
  | sell =>
      obtain ⟨_, _, _, _, _, rfl⟩ := ammSell_ok ran
      exact ⟨wallet_other (Wallet.credit leg.quote.collateralIn) (fun _ => rfl) others,
        fun market outcome => Position.find?_dispose_ne (key_ne others _ _ _ _), fun _ => rfl⟩

theorem finish_keeps {venue : Venue} {fill : Fill} (others : user ≠ actor)
    (finished : finish env db actor venue data fill = .ok execution) :
    Keeps user settled db execution.db ∧
      execution.db.orders = db.orders.insert (filledRow env db actor venue data fill) := by
  obtain ⟨final, -⟩ := finish_ok finished
  rw [final]
  refine ⟨.trans (.of_unmoved ?_) (creditReferral_keeps _ actor) (List.Subset.refl settled),
    creditReferral_orders _ _⟩
  refine ⟨rfl, fun market outcome => ?_, fun _ => rfl⟩
  unfold saveFill creditFill
  cases data.side with
  | buy => exact Position.find?_acquire_ne (key_ne others _ _ _ _)
  | sell => rfl

theorem lockFunds_unmoved {wallets locked : Table Wallet.userId} {side : Side} {amount : ℚ}
    (others : user ≠ actor) (taken : lockFunds wallets actor side amount = .ok locked) :
    locked.find? user = wallets.find? user := by
  rcases lockFunds_ok taken with ⟨_, rfl⟩ | ⟨_, _, _, _, rfl⟩
  · rfl
  · exact wallet_other (Wallet.lock amount) (fun _ => rfl) others

theorem executeOrder_keeps (others : user ≠ actor) (idle : Idle user db.orders)
    (executed : executeOrder env db actor data = .ok execution) :
    Keeps user settled db execution.db ∧ Idle user execution.db.orders := by
  obtain ⟨venue, _, _, _, ⟨_, _, rfl⟩ | ⟨_, _, filled⟩⟩ := executeOrder_ok executed
  · exact ⟨.of_unmoved (.refl db), idle⟩
  obtain ⟨matched, book, trace, ends⟩ := fillOrder_ok filled
  have booked : Unmoved user db matched := trace_unmoved trace others fun offer member =>
    idle.ne (bookPlan_served trace offer member).row (bookPlan_served trace offer member).opened
  have idleBook : Idle user matched.orders := idle.fills (book_fills trace)
  rcases ends with ⟨_, _, rested⟩ | ⟨_, _, traded, leg, ran, finished⟩ | ⟨_, finished⟩
  · obtain ⟨_, _, _, taken, final, _⟩ := restOrder_ok rested
    rw [final]
    refine ⟨.of_unmoved (booked.trans ⟨lockFunds_unmoved others taken, fun _ _ => rfl,
      fun _ => rfl⟩), idleBook.insert (Ne.symm others)⟩
  · obtain ⟨keeps, orders⟩ := finish_keeps others finished
    rw [orders, runAmmLeg_orders ran]
    exact ⟨.trans (.of_unmoved (booked.trans (runAmmLeg_unmoved others ran))) keeps
      (List.Subset.refl settled), idleBook.insert (Ne.symm others)⟩
  · obtain ⟨keeps, orders⟩ := finish_keeps others finished
    rw [orders]
    exact ⟨.trans (.of_unmoved booked) keeps (List.Subset.refl settled),
      idleBook.insert (Ne.symm others)⟩

theorem cancelOrder_keeps {orderId : OrderId} (others : user ≠ actor) (idle : Idle user db.orders)
    (cancelled : cancelOrder env db actor orderId = .ok after) :
    Unmoved user db after ∧ Idle user after.orders := by
  unfold cancelOrder at cancelled
  split at cancelled
  · split at cancelled
    · rename_i order _ _ _ _
      cases cancelled
      refine ⟨⟨?_, fun _ _ => rfl, fun _ => rfl⟩, idle.close
        (fun order => { order with status := .cancelled, executedAt := some env.now })
        (fun _ => rfl) fun _ => rfl⟩
      dsimp only
      split
      · exact wallet_other (Wallet.release order.remainingAmount) (fun _ => rfl) others
      · rfl
    · contradiction
  · contradiction

end Orders

/-! # The workers -/

section Workers

variable {user : UserId} {now : Timestamp} {db : Database} {order : Order}

theorem expireOrder_unmoved (now : Timestamp) (others : user ≠ order.userId) (db : Database) :
    Unmoved user db (expireOrder now db order) := by
  refine ⟨?_, fun _ _ => rfl, fun _ => rfl⟩
  unfold expireOrder
  dsimp only
  split
  · rfl
  · exact wallet_other (Wallet.release order.remainingAmount) (fun _ => rfl) others

theorem Idle.expire (idle : Idle user db.orders) :
    Idle user (expireOrder now db order).orders :=
  idle.close (markExpired now) (markExpired_id now) fun _ => rfl

theorem expireStaleOrders_unmoved (now : Timestamp) (idle : Idle user db.orders) :
    Unmoved user db (expireStaleOrders now db) ∧ Idle user (expireStaleOrders now db).orders := by
  refine expireStaleOrders_preserves
    (fun after => Unmoved user db after ∧ Idle user after.orders) ?_ ⟨.refl db, idle⟩
  rintro middle order found opened ⟨unmoved, idle⟩
  exact ⟨unmoved.trans (expireOrder_unmoved now (idle.ne found opened) middle), idle.expire⟩

theorem sweepLeg_unmoved {turn : Turn} {remaining : ℚ} {matched traded : Database} {leg : AmmLeg}
    (others : user ≠ turn.order.userId)
    (ran : sweepLeg now matched turn remaining = .ok (some (traded, leg))) :
    Unmoved user matched traded := by
  rcases (sweepLeg_ok ran).2 with ⟨_, _, _, _, rfl⟩ | ⟨_, _, _, _, _, _, rfl⟩
  · exact ⟨wallet_other (payResting remaining) (fun _ => rfl) others,
      fun market outcome => Position.find?_acquire_ne (key_ne others _ _ _ _), fun _ => rfl⟩
  · exact ⟨wallet_other (Wallet.credit leg.quote.collateralIn) (fun _ => rfl) others,
      fun market outcome => Position.find?_dispose_ne (key_ne others _ _ _ _), fun _ => rfl⟩

/-- What a session of the sweep has not touched. -/
structure SessionUnmoved (user : UserId) (db : Database) (session : Session) : Prop where
  committed : Unmoved user db session.committed
  current : Unmoved user db session.current
  idleCommitted : Idle user session.committed.orders
  idleCurrent : Idle user session.current.orders

theorem tradeOrder_unmoved {session : Session} {turn : Turn} {processed : Processed}
    (orderly : Orderly session.current.orders) (consistent : session.Consistent)
    (live : Table.Linked Wanes session.committed.orders session.current.orders)
    (found : session.current.orders.find? turn.order.id = some turn.order)
    (opened : turn.order.status.isOpen = true) (unmoved : SessionUnmoved user db session)
    (ran : tradeOrder now session turn = .ok processed) :
    SessionUnmoved user db processed.session := by
  obtain ⟨matched, fill, trace, _, ends⟩ := tradeOrder_ok ran
  have others : user ≠ turn.order.userId := unmoved.idleCurrent.ne found opened
  have served := pendingPlan_served consistent orderly live trace
  have booked : Unmoved user db matched := unmoved.current.trans
    (trace_unmoved trace others fun offer member =>
      unmoved.idleCurrent.ne (served offer member).row (served offer member).opened)
  obtain ⟨book, taking⟩ := matched_fills consistent orderly live found opened trace
  have idle : Idle user matched.orders := unmoved.idleCurrent.fills book
  rcases ends with ⟨_, _, kept | saved⟩ | ⟨traded, leg, _, left, _, legRan, final⟩
  · rw [kept]
    exact ⟨unmoved.committed, booked, unmoved.idleCommitted, idle⟩
  · rw [saved]
    exact ⟨booked, booked, idle, idle⟩
  · rw [final]
    exact ⟨unmoved.committed, booked.trans (sweepLeg_unmoved others legRan),
      unmoved.idleCommitted, idle.fills (sweepLeg_fills taking left legRan)⟩

theorem sweeping_unmoved {session : Session} (orderly : Orderly db.orders)
    (idle : Idle user db.orders) (sweeping : Sweeping now db session) :
    SessionUnmoved user db session := by
  induction sweeping with
  | start => exact ⟨.refl db, .refl db, idle, idle⟩
  | commit _ ih => exact ⟨ih.current, ih.current, ih.idleCurrent, ih.idleCurrent⟩
  | rollback _ ih => exact ⟨ih.committed, ih.committed, ih.idleCommitted, ih.idleCommitted⟩
  | turn before ran ih =>
      have ages := before.ages orderly
      rcases processOrder_ok ran with ⟨rfl, _⟩ | ⟨order, found, opened, _, rfl⟩ |
        ⟨order, turn, found, opened, _, taken, traded⟩
      · exact ih
      · have expired := ih.current.trans
          (expireOrder_unmoved now (ih.idleCurrent.ne found opened) _)
        exact ⟨expired, expired, ih.idleCurrent.expire, ih.idleCurrent.expire⟩
      · obtain rfl := Table.key_of_find? found
        obtain ⟨_, rfl, _⟩ := takeTurn_some taken
        exact tradeOrder_unmoved (orderly.ages ages.latest) before.consistent
          (ages.current.mono Order.Fills.wanes) found opened ih traded

theorem checkLimitOrderExecution_unmoved {scanned : List Order} (orderly : Orderly db.orders)
    (idle : Idle user db.orders) :
    Unmoved user db (checkLimitOrderExecution now scanned db) ∧
      Idle user (checkLimitOrderExecution now scanned db).orders := by
  obtain ⟨session, sweeping, final⟩ := checkLimitOrderExecution_sweeping now scanned db
  have unmoved := sweeping_unmoved orderly idle sweeping
  rw [final]
  exact ⟨unmoved.committed, unmoved.idleCommitted⟩

end Workers

/-! # Shares, liquidity and markets -/

section Products

variable {user actor : UserId} {db after : Database} {market : MarketId} {amount : ℚ}

theorem split_unmoved {result : SplitMerge.Result} (others : user ≠ actor)
    (ran : SplitMerge.split db actor market amount = .ok result) : Unmoved user db result.db := by
  obtain ⟨_, _, _, _, _, _, _, rfl⟩ := SplitMerge.split_ok ran
  refine ⟨wallet_other (Wallet.debit amount) (fun _ => rfl) others, fun held outcome => ?_,
    fun _ => rfl⟩
  exact (Position.find?_acquire_ne (key_ne others _ _ _ _)).trans
    (Position.find?_acquire_ne (key_ne others _ _ _ _))

theorem merge_unmoved {result : SplitMerge.Result} (others : user ≠ actor)
    (ran : SplitMerge.merge db actor market amount = .ok result) : Unmoved user db result.db := by
  obtain ⟨_, _, _, _, _, _, _, _, _, rfl⟩ := SplitMerge.merge_ok ran
  refine ⟨wallet_other (Wallet.credit (SplitMerge.afterFee amount)) (fun _ => rfl) others,
    fun held outcome => ?_, fun _ => rfl⟩
  exact (Position.find?_dispose_ne (key_ne others _ _ _ _)).trans
    (Position.find?_dispose_ne (key_ne others _ _ _ _))

theorem shareKey_ne (others : user ≠ actor) (pool pool' : PoolKey) :
    (⟨pool, user⟩ : LPShareKey) ≠ ⟨pool', actor⟩ :=
  fun same => others (congrArg LPShareKey.userId same)

theorem addLiquidity_unmoved {tolerance : ℚ} {outcome : Option OutcomeName}
    {deposited : LiquidityService.Deposited} (others : user ≠ actor)
    (ran : LiquidityService.addLiquidity db actor market amount tolerance outcome =
      .ok deposited) : Unmoved user db deposited.db := by
  obtain ⟨_, pool, _, minted, _, _, _, _, _, _, _, rfl⟩ := LiquidityService.addLiquidity_ok ran
  refine ⟨wallet_other (Wallet.debit amount) (fun _ => rfl) others, fun _ _ => rfl, fun held => ?_⟩
  have different := shareKey_ne others held pool.key
  dsimp only
  unfold LiquidityService.creditShare
  split
  · rw [Table.find?_modify_ne different]
  · exact Table.find?_insert_ne (⟨pool.key, actor, minted, amount⟩ : LPShare) different

theorem removeLiquidity_unmoved {lpTokens tolerance : ℚ} {outcome : Option OutcomeName}
    {withdrawn : LiquidityService.Withdrawn} (others : user ≠ actor)
    (ran : LiquidityService.removeLiquidity db actor market lpTokens tolerance outcome =
      .ok withdrawn) : Unmoved user db withdrawn.db := by
  obtain ⟨_, pool, _, share, _, _, _, _, _, found, _, _, _, _, rfl⟩ :=
    LiquidityService.removeLiquidity_ok ran
  refine ⟨wallet_other
    (Wallet.credit (pool.collateral * (lpTokens / pool.lpTokenSupply))) (fun _ => rfl) others,
    fun _ _ => rfl, fun held => ?_⟩
  have different : (⟨held, user⟩ : LPShareKey) ≠ share.key := by
    rw [Table.key_of_find? found]
    exact shareKey_ne others held pool.key
  dsimp only
  rw [Table.find?_modify_ne different]

theorem find?_addAll_ne {ρ κ : Type} [DecidableEq κ] {key : ρ → κ} {k : κ} {rows : List ρ}
    (table : Table key) (different : ∀ row ∈ rows, k ≠ key row) :
    (Markets.addAll table rows).find? k = table.find? k := by
  induction rows generalizing table with
  | nil => rfl
  | cons row rest ih =>
      rw [Markets.addAll, List.foldl_cons, ← Markets.addAll,
        ih _ fun other member => different other (List.mem_cons_of_mem _ member),
        Table.find?_insert_ne row (different row List.mem_cons_self)]

theorem createMarket_unmoved {now : Timestamp} {creator : Markets.Author}
    {request : Markets.CreateMarketRequest} (others : user ≠ creator.userId)
    (created : Markets.createMarket now creator db request = .ok (after, market)) :
    Unmoved user db after ∧ after.orders = db.orders := by
  unfold Markets.createMarket at created
  split at created
  · contradiction
  split at created
  · contradiction
  split at created
  · contradiction
  split at created
  · contradiction
  dsimp only at created
  split at created
  · cases created
    refine ⟨⟨wallet_other (Wallet.debit request.initialLiquidity) (fun _ => rfl) others,
      fun _ _ => rfl, fun pool => ?_⟩, rfl⟩
    refine find?_addAll_ne db.lpShares fun row member => ?_
    obtain ⟨seeded, _, rfl⟩ := List.mem_map.mp member
    exact shareKey_ne others pool seeded.key
  · cases created
    exact ⟨⟨rfl, fun _ _ => rfl, fun _ => rfl⟩, rfl⟩

end Products

/-! # Payouts -/

section Payouts

variable {user actor : UserId} {now : Timestamp} {db : Database} {market : MarketId}
  {settled : List MarketId}

theorem distributeProtocolFees_keeps (db : Database) (scanned : List LiquidityPool) :
    Keeps user settled db (LiquidityService.distributeProtocolFees db scanned) ∧
      (LiquidityService.distributeProtocolFees db scanned).orders = db.orders := by
  have pools : ∀ (treasury : UserId) (rows : List LiquidityPool) (db : Database),
      Keeps user settled db (rows.foldl (LiquidityService.distributePool treasury) db) ∧
        (rows.foldl (LiquidityService.distributePool treasury) db).orders = db.orders := by
    intro treasury rows
    induction rows with
    | nil => exact fun db => ⟨.of_unmoved (.refl db), rfl⟩
    | cons pool rest ih =>
        intro db
        have head : Keeps user settled db (LiquidityService.distributePool treasury db pool) ∧
            (LiquidityService.distributePool treasury db pool).orders = db.orders := by
          unfold LiquidityService.distributePool
          split
          · exact ⟨.of_unmoved (.refl db), rfl⟩
          split
          · exact ⟨.of_unmoved ⟨rfl, fun _ _ => rfl, fun _ => rfl⟩, rfl⟩
          · rename_i positive
            exact ⟨⟨.credit (not_le.mp positive).le, fun _ _ => rfl, fun _ _ => rfl⟩, rfl⟩
        obtain ⟨keeps, orders⟩ := ih (LiquidityService.distributePool treasury db pool)
        exact ⟨head.1.trans keeps (List.Subset.refl settled), orders.trans head.2⟩
  unfold LiquidityService.distributeProtocolFees
  split
  · exact ⟨.of_unmoved (.refl db), rfl⟩
  · have opened : Keeps user settled db (openTreasury db).2 :=
      ⟨.openWallet db.wallets _, fun _ _ => rfl, fun _ _ => rfl⟩
    obtain ⟨keeps, orders⟩ := pools (openTreasury db).1 scanned (openTreasury db).2
    exact ⟨opened.trans keeps (List.Subset.refl settled), orders⟩

theorem claimWinnings_unmoved {paid : Settled} (others : user ≠ actor)
    (ran : claimWinnings id now actor db market = .ok paid) :
    Unmoved user db paid.db ∧ paid.db.orders = db.orders := by
  obtain ⟨_, _, claimed⟩ := claimWinnings_ok ran
  obtain ⟨_, position, _, _, found, _, _, _, _, rfl⟩ := payClaim_ok claimed
  refine ⟨⟨wallet_other (receive id position.sharesHeld) (fun _ => rfl) others,
    fun held outcome => ?_, fun _ => rfl⟩, rfl⟩
  have different : (⟨user, held, outcome⟩ : PositionKey) ≠ position.key := by
    rw [Table.key_of_find? found]
    exact key_ne others _ _ _ _
  dsimp only
  rw [Table.find?_modify_ne different]

theorem held_settleRow {positions : Table Position.key} {winning : OutcomeId} {row : Position}
    (key : PositionKey) :
    Position.held (positions.modify row.key (settleRow id now (payoutOf winning row))
      (settled_key id now winning row)) key = Position.held positions key := by
  unfold Position.held
  by_cases same : key = row.key
  · subst same
    rw [Table.find?_modify_self]
    cases positions.find? row.key <;> rfl
  · rw [Table.find?_modify_ne same]

/-- A settled row keeps its shares. -/
theorem held_settleRows {wallets : Table Wallet.userId} {winning : OutcomeId}
    {rows : List Position} (positions : Table Position.key) (key : PositionKey) :
    Position.held (settleRows id now winning wallets rows positions) key =
      Position.held positions key := by
  induction rows generalizing positions with
  | nil => rfl
  | cons row rest ih =>
      rw [settleRows, List.foldl_cons, ← settleRows, ih]
      split
      · exact held_settleRow key
      · rfl

theorem find?_burnRows {wallets : Table Wallet.userId} {rate : ℚ} {shares : List LPShare}
    (table : Table LPShare.key) {key : LPShareKey} (different : ∀ share ∈ shares, key ≠ share.key) :
    (burnRows id wallets rate shares table).find? key = table.find? key := by
  induction shares generalizing table with
  | nil => rfl
  | cons share rest ih =>
      rw [burnRows, List.foldl_cons, ← burnRows,
        ih _ fun other member => different other (List.mem_cons_of_mem _ member)]
      split
      · rw [Table.find?_modify_ne (different share List.mem_cons_self)]
      · rfl

theorem stages_credited {scan : Scan} {winning : OutcomeId} {treasury : UserId}
    {paidPool sweptPool : Option LiquidityPool} {wallets : Table Wallet.userId} :
    ∀ payout ∈ wins wallets winning scan.positions ++ (feePayout treasury paidPool ++
      redemptions id wallets sweptPool scan.lpShares), 0 ≤ payout.credited := by
  intro payout member
  simp only [List.mem_append] at member
  rcases member with won | fee | redeemed
  · obtain ⟨row, _, isWin⟩ := List.mem_filterMap.mp won
    obtain ⟨_, _, positive, rfl⟩ := win_eq_some.mp isWin
    exact positive.le
  · unfold feePayout at fee
    split at fee
    · simp at fee
    split at fee
    · rename_i positive
      obtain rfl := List.mem_singleton.mp fee
      exact positive.le
    · simp at fee
  · unfold redemptions at redeemed
    split at redeemed
    · simp at redeemed
    · obtain ⟨share, _, isRedemption⟩ := List.mem_filterMap.mp redeemed
      unfold redemption at isRedemption
      split at isRedemption
      · rename_i positive
        cases isRedemption
        dsimp only
        split
        · exact positive.le
        · exact le_rfl
      · contradiction

theorem settlementPool_market {pool : LiquidityPool} {winning : OutcomeId}
    (found : settlementPool db.pools market winning = some pool) : pool.key.marketId = market := by
  unfold settlementPool at found
  split at found
  · rename_i own
    cases found
    exact congrArg PoolKey.marketId (Table.key_of_find? own)
  · exact congrArg PoolKey.marketId (Table.key_of_find? found)

theorem settleMarket_keeps {scan : Scan} {winning : OutcomeId} {paid : Settled}
    (reads : scan.Reads db market winning) (ends : market ∈ settled)
    (ran : settleMarket id now false scan db market winning = .ok (some paid)) :
    Keeps user settled db paid.db ∧ paid.db.orders = db.orders := by
  obtain ⟨_, first, swept, final, _, _, _, _, stages, rfl⟩ := settleMarket_ok ran
  obtain ⟨firstPaid, firstShares, firstRows⟩ := settlePositions_paid stages.positions
  obtain ⟨sweptPaid, sweptShares, sweptRows⟩ := sweepFees_paid stages.fees
  obtain ⟨-, finalRows, finalShares⟩ := redeemShares_paid stages.shares
  refine ⟨⟨?_, fun held outcome => ?_, fun pool live => ?_⟩, rfl⟩
  · have wallets : final.wallets = credits id _ (openTreasury db).2.wallets := stages.paid.wallets
    change Gains user db.wallets final.wallets
    rw [wallets]
    exact (Gains.openWallet db.wallets _).trans (.credits stages_credited _)
  · change Position.held final.positions _ = _
    rw [finalRows, sweptRows, firstRows]
    exact held_settleRows db.positions _
  · change final.lpShares.find? _ = _
    rw [finalShares, sweptShares, firstShares]
    split
    · rfl
    · rename_i pool' isPool
      refine find?_burnRows db.lpShares fun share member => ?_
      rw [sweptPaid.escrow, firstPaid.escrow] at isPool
      obtain ⟨_, before, -⟩ := Option.map_eq_some_iff.mp isPool
      obtain ⟨opened, isOpened, -⟩ := Option.map_eq_some_iff.mp before
      have inMarket := (reads.lpShares opened isOpened).mem_iff.mp member
      have ofPool : share.pool = opened.key := by
        have both := (List.mem_filter.mp inMarket).2
        simp only [Bool.and_eq_true, decide_eq_true_eq] at both
        exact both.1
      intro same
      have samePool : pool = share.pool := congrArg LPShareKey.pool same
      rw [samePool, ofPool, settlementPool_market isOpened] at live
      exact live ends

end Payouts

/-! # Runs -/

section Runs

variable {user : UserId} {platform after start final : Platform} {event : Event}
  {settled : List MarketId} {events : List Event}

/-- What a step leaves of the order book and of the user's rows. -/
structure Passed (user : UserId) (settled : List MarketId) (before after : Database) : Prop where
  orderly : Orderly after.orders
  idle : Idle user after.orders
  keeps : Keeps user settled before after

theorem Passed.of_unmoved {db db' : Database} (orderly : Orderly db.orders)
    (idle : Idle user db.orders) (unmoved : Unmoved user db db' ∧ db'.orders = db.orders) :
    Passed user settled db db' :=
  ⟨unmoved.2 ▸ orderly, unmoved.2 ▸ idle, .of_unmoved unmoved.1⟩

theorem Passed.of_keeps {db db' : Database} (orderly : Orderly db.orders)
    (idle : Idle user db.orders) (keeps : Keeps user settled db db' ∧ db'.orders = db.orders) :
    Passed user settled db db' :=
  ⟨keeps.2 ▸ orderly, keeps.2 ▸ idle, keeps.1⟩

theorem operation_passed {db db' : Database} {operation : Operation}
    (reads : operation.Reads db) (others : author (.operate operation) ≠ some user)
    (orderly : Orderly db.orders) (idle : Idle user db.orders)
    (ended : (Event.operate operation).settles db ⊆ settled)
    (performed : operation.perform db = .ok db') : Passed user settled db db' := by
  have trades : ∀ {action : Trading.Action}, Trading.perform db action = .ok db' →
      Orderly db'.orders := fun traded => (Trading.perform_ages traded orderly).1
  have notUser : ∀ {actor : UserId}, some actor ≠ some user → user ≠ actor :=
    fun different same => different (congrArg some same.symm)
  cases operation with
  | order env actor data =>
      have orders := trades (show Trading.perform db (.execute env actor data) = _ from performed)
      obtain ⟨execution, executed, rfl⟩ := map_eq_ok.mp performed
      obtain ⟨keeps, stillIdle⟩ := executeOrder_keeps (notUser others) idle executed
      exact ⟨orders, stillIdle, keeps⟩
  | cancel env actor orderId =>
      have orders := trades (show Trading.perform db (.cancel env actor orderId) = _ from performed)
      obtain ⟨unmoved, stillIdle⟩ := cancelOrder_keeps (notUser others) idle performed
      exact ⟨orders, stillIdle, .of_unmoved unmoved⟩
  | expire now =>
      have orders := trades (show Trading.perform db (.expire now) = _ from performed)
      cases performed
      obtain ⟨unmoved, stillIdle⟩ := expireStaleOrders_unmoved now idle
      exact ⟨orders, stillIdle, .of_unmoved unmoved⟩
  | sweep now dirty scanned =>
      have orders := trades (show Trading.perform db (.sweep now dirty scanned) = _ from performed)
      cases performed
      obtain ⟨unmoved, stillIdle⟩ := checkLimitOrderExecution_unmoved orderly idle
      exact ⟨orders, stillIdle, .of_unmoved unmoved⟩
  | split actor market amount =>
      obtain ⟨result, ran, rfl⟩ := map_eq_ok.mp performed
      refine .of_unmoved orderly idle ⟨split_unmoved (notUser others) ran, ?_⟩
      obtain ⟨_, _, _, _, _, _, _, rfl⟩ := SplitMerge.split_ok ran
      rfl
  | merge actor market amount =>
      obtain ⟨result, ran, rfl⟩ := map_eq_ok.mp performed
      refine .of_unmoved orderly idle ⟨merge_unmoved (notUser others) ran, ?_⟩
      obtain ⟨_, _, _, _, _, _, _, _, _, rfl⟩ := SplitMerge.merge_ok ran
      rfl
  | addLiquidity actor market amount outcome =>
      obtain ⟨deposited, ran, rfl⟩ := map_eq_ok.mp performed
      refine .of_unmoved orderly idle ⟨addLiquidity_unmoved (notUser others) ran, ?_⟩
      obtain ⟨_, _, _, _, _, _, _, _, _, _, _, rfl⟩ := LiquidityService.addLiquidity_ok ran
      rfl
  | removeLiquidity actor market lpTokens outcome =>
      obtain ⟨withdrawn, ran, rfl⟩ := map_eq_ok.mp performed
      refine .of_unmoved orderly idle ⟨removeLiquidity_unmoved (notUser others) ran, ?_⟩
      obtain ⟨_, _, _, _, _, _, _, _, _, _, _, _, _, _, rfl⟩ :=
        LiquidityService.removeLiquidity_ok ran
      rfl
  | distributeFees scanned =>
      cases performed
      exact .of_keeps orderly idle (distributeProtocolFees_keeps db scanned)
  | claim now actor market =>
      obtain ⟨paid, ran, rfl⟩ := map_eq_ok.mp performed
      exact .of_unmoved orderly idle (claimWinnings_unmoved (notUser others) ran)
  | settle now scan market winning =>
      dsimp only [Operation.perform] at performed
      split at performed
      · contradiction
      · cases performed
        exact ⟨orderly, idle, .of_unmoved (.refl db)⟩
      · rename_i paid ran
        cases performed
        have ends : market ∈ settled := ended (by simp [Event.settles, ran])
        exact .of_keeps orderly idle (settleMarket_keeps reads ends ran)

theorem event_passed (reads : event.Reads platform.db) (others : author event ≠ some user)
    (orderly : Orderly platform.db.orders) (idle : Idle user platform.db.orders)
    (commits : event.Commits platform after) :
    Passed user after.settled platform.db after.db := by
  obtain ⟨performed, settled⟩ := commits
  have ended : event.settles platform.db ⊆ after.settled := by
    rw [settled]
    exact List.subset_append_left _ _
  have untouched : ∀ {db' : Database}, db'.wallets = platform.db.wallets →
      db'.positions = platform.db.positions → db'.lpShares = platform.db.lpShares →
      db'.orders = platform.db.orders → Passed user after.settled platform.db db' := by
    intro db' wallets positions lpShares orders
    refine .of_unmoved orderly idle ⟨⟨?_, fun _ _ => ?_, fun _ => ?_⟩, orders⟩
    · rw [wallets]
    · rw [positions]
    · rw [lpShares]
  cases event with
  | operate operation => exact operation_passed reads others orderly idle ended performed
  | createMarket now creator request =>
      obtain ⟨⟨made, market⟩, created, isAfter⟩ := map_eq_ok.mp performed
      rw [← isAfter]
      exact .of_unmoved orderly idle
        (createMarket_unmoved (fun same => others (congrArg some same.symm)) created)
  | approveMarket now market =>
      obtain ⟨_, _, _, written⟩ := Markets.moderate_ok (Markets.approveMarket_ok performed)
      rw [written]
      exact untouched rfl rfl rfl rfl
  | rejectMarket market =>
      obtain ⟨_, _, _, written⟩ := Markets.moderate_ok performed
      rw [written]
      exact untouched rfl rfl rfl rfl
  | proposeResolution admin now market outcome =>
      obtain ⟨_, -, -, -, -, written⟩ := Resolution.proposeResolution_ok performed
      rw [written]
      exact untouched rfl rfl rfl rfl
  | resolveMarket admin backends now market outcome =>
      obtain ⟨_, -, -, -, -, -, written⟩ := Resolution.resolveMarketEndpoint_ok performed
      rw [written]
      exact untouched rfl rfl rfl rfl
  | createDispute actor now market =>
      obtain ⟨_, -, -, -, written⟩ := Resolution.createDispute_ok performed
      rw [written]
      exact untouched rfl rfl rfl rfl
  | adjudicateDispute bench now dispute ruling =>
      obtain ⟨ruled, ran, isAfter⟩ := map_eq_ok.mp performed
      rw [← isAfter]
      obtain ⟨row, -, -, -, -, ⟨rfl, rfl⟩ | ⟨rfl, rfl⟩⟩ := Resolution.adjudicateDispute_ok ran
      · exact untouched rfl rfl rfl rfl
      · rcases Resolution.uphold_cases bench now
          { platform.db with
            disputes := platform.db.disputes.modify dispute (Resolution.rule .upheld) }
          row.marketId with same | ⟨_, winning, -, -, -, written⟩
        · rw [same]
          exact untouched rfl rfl rfl rfl
        · rw [written]
          exact untouched rfl rfl rfl rfl
  | closeMarkets now =>
      rw [← Except.ok.inj performed]
      exact untouched rfl rfl rfl rfl

/-- Whatever others do, in whichever order: a user without a resting order who asks for nothing
loses no money, no shares, and no liquidity tokens but those of a market that has been settled. -/
theorem others_take_nothing
    (run : Event.Runs (fun _ event => author event ≠ some user) start events final)
    (orderly : Orderly start.db.orders) (idle : Idle user start.db.orders) :
    Keeps user final.settled start.db final.db := by
  refine (run.invariant
    (fun platform => Passed user platform.settled start.db platform.db) ?_
    ⟨orderly, idle, .of_unmoved (.refl _)⟩).keeps
  intro platform event after guarded commits before
  have passed := event_passed guarded.1 guarded.2 before.orderly before.idle commits
  have grows : platform.settled ⊆ after.settled := by
    rw [commits.2]
    exact List.subset_append_right _ _
  exact ⟨passed.orderly, passed.idle, before.keeps.trans passed.keeps grows⟩

/-- User 1 splits and user 3 buys; user 2, who holds ten shares, is not touched. -/
theorem others_take_nothing_from_a_holder :
    ∃ (final : Platform) (events : List Event), events.length = 2 ∧
      Event.Runs (fun _ event => author event ≠ some 2) ⟨Trading.openingDay, []⟩ events final ∧
      Gains 2 Trading.openingDay.wallets final.db.wallets ∧
      Position.held final.db.positions ⟨2, 1, 1⟩ = 10 := by
  have noOrders : ∀ id row, Trading.openingDay.orders.find? id ≠ some row := fun _ _ found =>
    absurd (Table.mem_of_find? found) (by simp [Trading.openingDay, Table.empty])
  have played : succeedsWith (Event.play ⟨Trading.openingDay, []⟩
      (.operate (.split 1 1 ⟨10, by norm_num, by decide +kernel⟩)))
      (fun middle => succeedsWith (Event.play middle
        (.operate (.order quietEnv 3 (marketOrder .buy 5 pos_five grid_five))))
        fun _ => true) = true := by
    decide +kernel
  obtain ⟨middle, splits, rest⟩ := succeedsWith_iff.mp played
  obtain ⟨final, buys, _⟩ := succeedsWith_iff.mp rest
  have run : Event.Runs (fun _ event => author event ≠ some 2) ⟨Trading.openingDay, []⟩ _ final :=
    .act (by exact ⟨trivial, by decide⟩) (Event.commits_of_play splits)
      (.act (by exact ⟨trivial, (by decide : some 3 ≠ some 2)⟩) (Event.commits_of_play buys)
        (.stop final))
  have keeps := others_take_nothing run (fun id row found => absurd found (noOrders id row))
    (fun id row found => absurd found (noOrders id row))
  exact ⟨final, _, rfl, run, keeps.wallet, (keeps.shares 1 1).trans (by decide +kernel)⟩

end Runs

end PredictX.Consent
