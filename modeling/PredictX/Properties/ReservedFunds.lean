import PredictX.Services.WalletService
import PredictX.Properties.OrderLifeCycle
import PredictX.Properties.EscrowSolvency

namespace PredictX

open PredictX.Data PredictX.Amm PredictX.MatchingEngine PredictX.OrderService PredictX.LimitSweep

/-! Money that backs a resting order.

Every debit has to leave what is locked in the wallet.  All of them test the balance less
the lock, except for the seed of a new market.
-/

/-- The `CHECK` constraints of a wallet. -/
def Wallet.Covered (wallet : Wallet) : Prop :=
  0 ≤ wallet.lockedBalance ∧ wallet.lockedBalance ≤ wallet.balance

instance (wallet : Wallet) : Decidable wallet.Covered :=
  inferInstanceAs (Decidable (_ ∧ _))

def Covered (wallets : Table Wallet.userId) : Prop := ∀ wallet ∈ wallets.rows, wallet.Covered

instance (wallets : Table Wallet.userId) : Decidable (Covered wallets) :=
  inferInstanceAs (Decidable (∀ wallet ∈ wallets.rows, wallet.Covered))

/-! # Single movements -/

namespace Wallet

variable {wallet : Wallet} {amount : ℚ}

theorem Covered.debit (covered : wallet.Covered) (available : amount ≤ wallet.available) :
    (wallet.debit amount).Covered := by
  obtain ⟨nonneg, _⟩ := covered
  refine ⟨nonneg, ?_⟩
  simp only [Wallet.debit, Wallet.available] at available ⊢
  linarith

theorem Covered.credit (covered : wallet.Covered) (nonneg : 0 ≤ amount) :
    (wallet.credit amount).Covered := by
  refine ⟨covered.1, covered.2.trans ?_⟩
  simp only [Wallet.credit]
  linarith

theorem Covered.lock (covered : wallet.Covered) (nonneg : 0 ≤ amount)
    (available : amount ≤ wallet.available) : (wallet.lock amount).Covered := by
  obtain ⟨locked, _⟩ := covered
  simp only [Wallet.Covered, Wallet.lock, Wallet.available] at available ⊢
  constructor <;> linarith

theorem Covered.release (covered : wallet.Covered) (nonneg : 0 ≤ amount) :
    (wallet.release amount).Covered := by
  obtain ⟨locked, within⟩ := covered
  refine ⟨le_max_left _ _, max_le (locked.trans within) ?_⟩
  simp only [Wallet.release]
  linarith

/-- A resting buyer pays out of her balance, and no lock grows. -/
theorem Covered.payResting (covered : wallet.Covered) (nonneg : 0 ≤ amount)
    (available : amount ≤ wallet.available) : (payResting amount wallet).Covered := by
  obtain ⟨locked, within⟩ := covered
  simp only [Wallet.Covered, LimitSweep.payResting, Wallet.available] at available ⊢
  split
  · exact ⟨le_max_left _ _, max_le (by linarith) (by linarith)⟩
  · exact ⟨locked, by linarith⟩

end Wallet

namespace Covered

variable {wallets : Table Wallet.userId} {user : UserId} {amount : ℚ}

theorem modify {update : Wallet → Wallet} {keeps : ∀ row, (update row).userId = row.userId}
    (covered : Covered wallets)
    (moves : ∀ wallet, wallets.find? user = some wallet → wallet.Covered →
      (update wallet).Covered) : Covered (wallets.modify user update keeps) := by
  intro wallet member
  obtain ⟨old, oldMember, rfl⟩ := Table.mem_modify.mp member
  split
  · rename_i own
    exact moves old (own ▸ Table.find?_key_of_mem oldMember) (covered old oldMember)
  · exact covered old oldMember

theorem debit (covered : Covered wallets)
    (available : ∀ wallet, wallets.find? user = some wallet → amount ≤ wallet.available) :
    Covered (wallets.modify user (Wallet.debit amount)) :=
  covered.modify fun wallet found before => before.debit (available wallet found)

theorem modify_found {wallet : Wallet} {update : Wallet → Wallet}
    {keeps : ∀ row, (update row).userId = row.userId} (covered : Covered wallets)
    (found : wallets.find? user = some wallet)
    (moves : wallet.Covered → (update wallet).Covered) :
    Covered (wallets.modify user update keeps) := by
  refine covered.modify fun other otherFound before => ?_
  cases found.symm.trans otherFound
  exact moves before

theorem debit_found {wallet : Wallet} (covered : Covered wallets)
    (found : wallets.find? user = some wallet) (available : amount ≤ wallet.available) :
    Covered (wallets.modify user (Wallet.debit amount)) :=
  covered.modify_found found fun before => before.debit available

theorem lock_found {wallet : Wallet} (covered : Covered wallets)
    (found : wallets.find? user = some wallet) (nonneg : 0 ≤ amount)
    (available : amount ≤ wallet.available) :
    Covered (wallets.modify user (Wallet.lock amount)) :=
  covered.modify_found found fun before => before.lock nonneg available

theorem payResting_found {wallet : Wallet} (covered : Covered wallets)
    (found : wallets.find? user = some wallet) (nonneg : 0 ≤ amount)
    (available : amount ≤ wallet.available) :
    Covered (wallets.modify user (payResting amount)) :=
  covered.modify_found found fun before => before.payResting nonneg available

theorem credit (covered : Covered wallets) (nonneg : 0 ≤ amount) :
    Covered (wallets.modify user (Wallet.credit amount)) :=
  covered.modify fun _ _ before => before.credit nonneg

theorem release (covered : Covered wallets) (nonneg : 0 ≤ amount) :
    Covered (wallets.modify user (Wallet.release amount)) :=
  covered.modify fun _ _ before => before.release nonneg

end Covered

/-! # Matches -/

/-- A maker's row as the order code writes it, met by a positive quantity. -/
structure MatchingEngine.Offer.Sane (offer : Offer) : Prop where
  quantity : 0 < offer.quantity
  price : 0 < offer.maker.price
  left : offer.maker.remainingAmount ≤ offer.maker.amount

theorem MatchingEngine.Served.sane {orders : Table Order.id} {offer : Offer}
    (served : Served orders offer) (orderly : Orderly orders) (positive : 0 < offer.quantity) :
    offer.Sane := by
  have lives := orderly _ _ served.row
  exact ⟨positive, (lives.priced served.opened).1, (lives.left served.opened).2⟩

namespace Covered

theorem payMatch {wallets : Table Wallet.userId} {maker : Order} {taker : UserId}
    {quantity : ℚ} (covered : Covered wallets) (sane : Offer.Sane ⟨maker, quantity, true⟩)
    (funded : ∀ wallet, wallets.find? (buyerOf maker taker) = some wallet →
      quantity * maker.price ≤ wallet.available) :
    Covered (payMatch wallets maker taker quantity (quantity * maker.price)
      (quantity * maker.price * protocolFeeRate)) := by
  have usdc : 0 < quantity * maker.price := mul_pos sane.quantity sane.price
  have proceeds : 0 ≤ quantity * maker.price - quantity * maker.price * protocolFeeRate := by
    unfold protocolFeeRate
    linarith
  have paid : Covered ((wallets.modify (buyerOf maker taker)
      (Wallet.debit (quantity * maker.price))).modify (sellerOf maker taker)
      (Wallet.credit (quantity * maker.price - quantity * maker.price * protocolFeeRate))) :=
    (covered.debit funded).credit proceeds
  unfold MatchingEngine.payMatch
  dsimp only
  cases maker.side with
  | sell => exact paid
  | buy =>
      refine paid.release (le_min ?_ usdc.le)
      have left : maker.remainingAmount ≤ maker.amount := sane.left
      linarith

theorem trace {σ : Type} {now : Timestamp} {taker : Taker σ} {db after : Database}
    {fill final : σ} {offers : List Offer}
    (trace : Trace now taker db fill offers after final)
    (sane : ∀ offer ∈ offers, offer.Sane) (covered : Covered db.wallets) :
    Covered after.wallets := by
  induction trace with
  | done => exact covered
  | skip _ _ _ ih => exact ih (fun offer member => sane offer (List.mem_cons_of_mem _ member)) covered
  | deliver _ _ funded _ ih =>
      refine ih (fun offer member => sane offer (List.mem_cons_of_mem _ member)) ?_
      have head := sane _ List.mem_cons_self
      exact covered.payMatch ⟨head.quantity, head.price, head.left⟩ funded

end Covered

/-! # Orders -/

namespace OrderService

variable {env : Env} {db after : Database} {user : UserId} {data : OrderRequest}
  {execution : Execution}

theorem creditReferral_covered (covered : Covered db.wallets) :
    Covered (creditReferral db user).wallets := by
  unfold creditReferral
  dsimp only
  split
  · split
    · exact covered
    split
    · exact covered
    · exact covered.credit (by norm_num [referralRewardAmount])
  · exact covered

theorem runAmmLeg_covered {venue : Venue} {side : Side} {remaining : ℚ} {leg : AmmLeg}
    (covered : Covered db.wallets)
    (ran : runAmmLeg db user venue side remaining = .ok (after, leg)) : Covered after.wallets := by
  cases side with
  | buy =>
      obtain ⟨wallet, found, available, _, _, _, rfl⟩ := ammBuy_ok ran
      exact covered.debit_found found available
  | sell =>
      obtain ⟨_, sold, _, _, _, rfl⟩ := ammSell_ok ran
      exact covered.credit (BinaryAMM.executeSell_nonneg sold)

theorem executeOrder_covered (orderly : Orderly db.orders) (covered : Covered db.wallets)
    (executed : executeOrder env db user data = .ok execution) :
    Covered execution.db.wallets := by
  obtain ⟨venue, _, _, _, ways⟩ := executeOrder_ok executed
  rcases ways with ⟨_, _, rfl⟩ | ⟨_, _, filled⟩
  · exact covered
  obtain ⟨matched, book, trace, ends⟩ := fillOrder_ok filled
  have paid : Covered matched.wallets := by
    refine Covered.trace trace (fun offer member => ?_) covered
    exact (bookPlan_served trace offer member).sane orderly (bookPlan_positive trace offer member).1
  rcases ends with ⟨left, _, rested⟩ | ⟨_, _, traded, leg, ran, finished⟩ | ⟨_, finished⟩
  · obtain ⟨_, locked, _, taken, database, _⟩ := restOrder_ok rested
    rw [database]
    rcases lockFunds_ok taken with ⟨_, rfl⟩ | ⟨_, wallet, found, available, rfl⟩
    · exact paid
    · exact paid.lock_found found left.le available
  · rw [(finish_ok finished).1]
    have settled : Covered traded.wallets := runAmmLeg_covered paid ran
    exact creditReferral_covered settled
  · rw [(finish_ok finished).1]
    exact creditReferral_covered paid

theorem cancelOrder_covered {orderId : OrderId} (orderly : Orderly db.orders)
    (covered : Covered db.wallets) (cancelled : cancelOrder env db user orderId = .ok after) :
    Covered after.wallets := by
  unfold cancelOrder at cancelled
  split at cancelled
  · rename_i order _ found _
    split at cancelled
    · rename_i allowed
      cases cancelled
      dsimp only
      cases order.side with
      | sell => exact covered
      | buy => exact covered.release ((orderly _ _ found).left allowed.2).1.le
    · contradiction
  · contradiction

end OrderService

/-! # The workers -/

namespace LimitSweep

variable {now : Timestamp} {db : Database} {order : Order}

theorem expireOrder_covered (orderly : Orderly db.orders) (covered : Covered db.wallets)
    (found : db.orders.find? order.id = some order) (opened : order.status.isOpen = true) :
    Covered (expireOrder now db order).wallets := by
  unfold expireOrder
  dsimp only
  cases order.side with
  | sell => exact covered
  | buy => exact covered.release ((orderly _ _ found).left opened).1.le

theorem expireStaleOrders_covered (orderly : Orderly db.orders) (covered : Covered db.wallets) :
    Covered (expireStaleOrders now db).wallets := by
  refine (expireStaleOrders_preserves
    (fun db : Database => Orderly db.orders ∧ Covered db.wallets) ?_ ⟨orderly, covered⟩).2
  rintro db order found opened ⟨orderly, covered⟩
  exact ⟨orderly.ages (expireOrder_ages found opened),
    expireOrder_covered orderly covered found opened⟩

theorem sweepLeg_covered {turn : Turn} {remaining : ℚ} {traded : Database} {leg : AmmLeg}
    (covered : Covered db.wallets) (left : 0 < remaining)
    (ran : sweepLeg now db turn remaining = .ok (some (traded, leg))) : Covered traded.wallets := by
  rcases (sweepLeg_ok ran).2 with ⟨_, _, ⟨wallet, found, available⟩, _, rfl⟩ |
    ⟨_, _, _, _, sold, _, rfl⟩
  · exact covered.payResting_found found left.le available
  · exact covered.credit (BinaryAMM.executeSell_nonneg sold)

theorem tradeOrder_covered {session : Session} {turn : Turn} {processed : Processed}
    (orderly : Orderly session.current.orders) (consistent : session.Consistent)
    (live : Table.Linked Wanes session.committed.orders session.current.orders)
    (committed : Covered session.committed.wallets) (current : Covered session.current.wallets)
    (ran : tradeOrder now session turn = .ok processed) :
    Covered processed.session.committed.wallets ∧ Covered processed.session.current.wallets := by
  obtain ⟨matched, fill, trace, _, ends⟩ := tradeOrder_ok ran
  have paid : Covered matched.wallets := by
    refine Covered.trace trace (fun offer member => ?_) current
    exact (pendingPlan_served consistent orderly live trace offer member).sane orderly
      (pending_positive trace offer member)
  rcases ends with ⟨_, _, kept | saved⟩ | ⟨traded, leg, _, left, _, legRan, final⟩
  · rw [kept]
    exact ⟨committed, paid⟩
  · rw [saved]
    exact ⟨paid, paid⟩
  · rw [final]
    exact ⟨committed, sweepLeg_covered paid left legRan⟩

/-- No session of the sweep leaves a wallet uncovered, committed or not. -/
theorem Sweeping.covered {session : Session} (orderly : Orderly db.orders)
    (covered : Covered db.wallets) (sweeping : Sweeping now db session) :
    Covered session.committed.wallets ∧ Covered session.current.wallets := by
  induction sweeping with
  | start => exact ⟨covered, covered⟩
  | commit _ ih => exact ⟨ih.2, ih.2⟩
  | rollback _ ih => exact ⟨ih.1, ih.1⟩
  | turn before ran ih =>
      have ages := before.ages orderly
      have latest := orderly.ages ages.latest
      rcases processOrder_ok ran with ⟨rfl, _⟩ | ⟨order, found, opened, _, rfl⟩ |
        ⟨_, _, _, _, _, _, traded⟩
      · exact ih
      · obtain rfl := Table.key_of_find? found
        have released : Covered (expireOrder now _ order).wallets :=
          expireOrder_covered latest ih.2 found opened
        exact ⟨released, released⟩
      · exact tradeOrder_covered latest before.consistent (ages.current.mono Order.Fills.wanes)
          ih.1 ih.2 traded

theorem checkLimitOrderExecution_covered {scanned : List Order} (orderly : Orderly db.orders)
    (covered : Covered db.wallets) :
    Covered (checkLimitOrderExecution now scanned db).wallets := by
  obtain ⟨session, sweeping, final⟩ := checkLimitOrderExecution_sweeping now scanned db
  rw [final]
  exact (sweeping.covered orderly covered).1

end LimitSweep

/-! # Runs -/

namespace Reserving

/-- The operations that take from wallets or from what is reserved in them. -/
inductive Action where
  | createMarket (now : Timestamp) (author : Markets.Author)
      (request : Markets.CreateMarketRequest)
  | order (env : Env) (user : UserId) (data : OrderRequest)
  | split (user : UserId) (market : MarketId) (amount : PositiveMoney)
  | addLiquidity (user : UserId) (market : MarketId) (amount : PositiveMoney)
      (outcome : Option OutcomeName)
  | withdraw (user : UserId) (amount : ℚ) (key : Option String)
  | cancel (env : Env) (user : UserId) (orderId : OrderId)
  | expire (now : Timestamp)
  | sweep (now : Timestamp) (dirty : Option (List MarketId)) (scanned : List Order)

def perform (db : Database) : Action → Except Error Database
  | .createMarket now author request => (Markets.createMarket now author db request).map Prod.fst
  | .order env user data => (executeOrder env db user data).map Execution.db
  | .split user market amount =>
      (SplitMerge.split db user market amount.value).map SplitMerge.Result.db
  | .addLiquidity user market amount outcome =>
      (LiquidityService.addLiquidity db user market amount.value Operation.slippageTolerance
        outcome).map LiquidityService.Deposited.db
  | .withdraw user amount key => WalletService.withdraw db user amount key
  | .cancel env user orderId => cancelOrder env db user orderId
  | .expire now => .ok (expireStaleOrders now db)
  | .sweep now _ scanned => .ok (checkLimitOrderExecution now scanned db)

/-- A sweep goes over the rows its query returns. -/
def Legal (db : Database) : Action → Prop
  | .sweep _ dirty scanned => Scanned dirty db scanned
  | _ => True

/-- A market is seeded from money that backs no order. -/
def SeedsAvailable (db : Database) : Action → Prop
  | .createMarket _ author request => Markets.canSeed db author request = true →
      (db.wallets.find? author.userId).all fun wallet =>
        request.initialLiquidity ≤ wallet.available
  | _ => True

theorem createMarket_covered {now : Timestamp} {author : Markets.Author} {db made : Database}
    {request : Markets.CreateMarketRequest} {market : MarketId}
    (safe : SeedsAvailable db (.createMarket now author request)) (covered : Covered db.wallets)
    (created : Markets.createMarket now author db request = .ok (made, market)) :
    made.orders = db.orders ∧ Covered made.wallets := by
  unfold Markets.createMarket at created
  split at created
  · contradiction
  split at created
  · contradiction
  split at created
  · contradiction
  split at created
  · contradiction
  dsimp only at created
  split at created
  · rename_i seeds
    cases created
    refine ⟨rfl, covered.debit fun wallet found => ?_⟩
    simpa [found] using safe seeds
  · cases created
    exact ⟨rfl, covered⟩

/-- One step leaves every wallet covered and every order to its life cycle. -/
theorem perform_covered {db after : Database} {action : Action} (safe : SeedsAvailable db action)
    (performed : perform db action = .ok after)
    (sound : Orderly db.orders ∧ Covered db.wallets) :
    Orderly after.orders ∧ Covered after.wallets := by
  obtain ⟨orderly, covered⟩ := sound
  have trades : ∀ {action : Trading.Action}, Trading.perform db action = .ok after →
      Orderly after.orders := fun traded => (Trading.perform_ages traded orderly).1
  cases action with
  | createMarket now author request =>
      obtain ⟨⟨made, market⟩, created, rfl⟩ := map_eq_ok.mp performed
      obtain ⟨sameOrders, seeded⟩ := createMarket_covered safe covered created
      exact ⟨sameOrders ▸ orderly, seeded⟩
  | order env user data =>
      have orders := trades (show Trading.perform db (.execute env user data) = _ from performed)
      obtain ⟨execution, executed, rfl⟩ := map_eq_ok.mp performed
      exact ⟨orders, executeOrder_covered orderly covered executed⟩
  | split user market amount =>
      obtain ⟨result, ran, rfl⟩ := map_eq_ok.mp performed
      obtain ⟨_, _, wallet, _, _, found, available, rfl⟩ := SplitMerge.split_ok ran
      exact ⟨orderly, covered.debit_found found available⟩
  | addLiquidity user market amount outcome =>
      obtain ⟨deposited, ran, rfl⟩ := map_eq_ok.mp performed
      obtain ⟨_, _, wallet, _, _, _, _, found, available, _, _, rfl⟩ :=
        LiquidityService.addLiquidity_ok ran
      exact ⟨orderly, covered.debit_found found available⟩
  | withdraw user amount key =>
      obtain ⟨wallet, found, _, available, rfl⟩ := WalletService.withdraw_ok performed
      exact ⟨orderly, covered.debit_found found available⟩
  | cancel env user orderId =>
      have orders := trades (show Trading.perform db (.cancel env user orderId) = _ from performed)
      exact ⟨orders, cancelOrder_covered orderly covered performed⟩
  | expire now =>
      have orders := trades (show Trading.perform db (.expire now) = _ from performed)
      cases performed
      exact ⟨orders, expireStaleOrders_covered orderly covered⟩
  | sweep now dirty scanned =>
      have orders := trades (show Trading.perform db (.sweep now dirty scanned) = _ from performed)
      cases performed
      exact ⟨orders, checkLimitOrderExecution_covered orderly covered⟩

/-- When every market is seeded from available money, no step of any run spends what backs
an order. -/
theorem reserved_funds_are_kept {start final : Database} {actions : List Action}
    (orderly : Orderly start.orders) (covered : Covered start.wallets)
    (run : Run (fun db action after => perform db action = .ok after)
      (fun db action => Legal db action ∧ SeedsAvailable db action) start actions final) :
    Covered final.wallets := by
  refine (run.invariant (fun db : Database => Orderly db.orders ∧ Covered db.wallets) ?_
    ⟨orderly, covered⟩).2
  intro db action after guarded performed sound
  exact perform_covered guarded.2 performed sound

instance (db : Database) (action : Action) : Decidable (Legal db action) :=
  match action with
  | .sweep _ dirty scanned =>
      inferInstanceAs (Decidable (scanned.Perm (db.orders.rows.filter (isSwept dirty))))
  | .createMarket _ _ _ | .order _ _ _ | .split _ _ _ | .addLiquidity _ _ _ _ | .withdraw _ _ _
  | .cancel _ _ _ | .expire _ => inferInstanceAs (Decidable True)

instance (db : Database) (action : Action) : Decidable (SeedsAvailable db action) :=
  match action with
  | .createMarket _ _ _ => inferInstanceAs (Decidable (_ = true → _ = true))
  | .sweep _ _ _ | .order _ _ _ | .split _ _ _ | .addLiquidity _ _ _ _ | .withdraw _ _ _
  | .cancel _ _ _ | .expire _ => inferInstanceAs (Decidable True)

/-- User 1 backs a buy with half of her 100. -/
def restingHalf : Action :=
  .order quietEnv 1 (Trading.limitOrder .buy 50 (4 / 10) pos_fifty grid_fifty
    (by decide +kernel))

theorem openingDay_orderly : Orderly Trading.openingDay.orders := by
  intro id row found
  exact absurd (Table.mem_of_find? found) (by simp [Trading.openingDay, Table.empty])

/-- She seeds a market with the money behind her order. -/
theorem seed_spends_reserved_funds :
    Orderly Trading.openingDay.orders ∧ Covered Trading.openingDay.wallets ∧
      ∃ final, Run (fun db action after => perform db action = .ok after) Legal Trading.openingDay
        [restingHalf, .createMarket 1 BinaryMarket.administrator BinaryMarket.seededRequest]
        final ∧ ¬ Covered final.wallets := by
  have played : (replay perform Legal
      [restingHalf, .createMarket 1 BinaryMarket.administrator BinaryMarket.seededRequest]
      Trading.openingDay).any (fun db => ¬ Covered db.wallets) = true := by decide +kernel
  obtain ⟨final, replayed, uncovered⟩ := (Option.any_eq_true _ _).mp played
  exact ⟨openingDay_orderly, by decide +kernel, final, run_of_replay replayed,
    by simpa using uncovered⟩

/-- She withdraws the other half and cancels the order. -/
theorem other_half_is_withdrawn :
    ∃ final, Run (fun db action after => perform db action = .ok after)
        (fun db action => Legal db action ∧ SeedsAvailable db action) Trading.openingDay
        [restingHalf, .withdraw 1 50 none, .cancel quietEnv 1 1] final ∧
      Orderly Trading.openingDay.orders ∧ Covered Trading.openingDay.wallets ∧
      Covered final.wallets := by
  have played : (replay perform (fun db action => Legal db action ∧ SeedsAvailable db action)
      [restingHalf, .withdraw 1 50 none, .cancel quietEnv 1 1] Trading.openingDay).isSome =
        true := by
    decide +kernel
  obtain ⟨final, replayed⟩ := Option.isSome_iff_exists.mp played
  have run := run_of_replay replayed
  have covered : Covered Trading.openingDay.wallets := by decide +kernel
  exact ⟨final, run, openingDay_orderly, covered,
    reserved_funds_are_kept openingDay_orderly covered run⟩

end Reserving

end PredictX
