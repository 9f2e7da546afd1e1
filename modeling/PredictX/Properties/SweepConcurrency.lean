import PredictX.Workers.SweepSessions
import PredictX.Properties.OrderLifeCycle

namespace PredictX.LimitSweep

open PredictX.Data PredictX.MatchingEngine PredictX.OrderService PredictX.Trading

/-! Whether the sweep loses what others commit while it runs.

As long as nobody changes a row the session has loaded, its objects show the stored rows and
each of its transactions does what it would do alone.  The transactions then take effect in
the order of their commits, and an order that was cancelled is closed when its turn comes.
-/

/-! # A sweep that nobody interrupts -/

section Alone

variable {now : Timestamp} {market : MarketId} {parimutuel : Bool} {session : Session}
  {orderId : OrderId} {processed : Processed}

/-- `turnCommits` says whether the turn has committed. -/
theorem processOrder_commits
    (ran : processOrder now market parimutuel session orderId = .ok processed) :
    (turnCommits now market parimutuel session orderId = true ∧
        processed.session = .start processed.session.current) ∨
      (turnCommits now market parimutuel session orderId = false ∧
        processed.session.committed = session.committed) := by
  unfold processOrder at ran
  unfold turnCommits
  cases found : session.current.orders.find? orderId with
  | none =>
      rw [found] at ran
      cases ran
      exact .inr ⟨rfl, rfl⟩
  | some order =>
      rw [found] at ran
      dsimp only at ran ⊢
      split at ran
      · rename_i closed
        cases ran
        rw [if_pos closed]
        exact .inr ⟨rfl, rfl⟩
      rename_i opened
      rw [if_neg opened]
      split at ran
      · rename_i expired
        cases ran
        rw [if_pos expired]
        exact .inl ⟨rfl, rfl⟩
      rename_i fresh
      rw [if_neg fresh]
      cases taken : takeTurn session.current market parimutuel order with
      | none =>
          rw [taken] at ran
          cases ran
          exact .inr ⟨rfl, rfl⟩
      | some turn =>
          rw [taken] at ran
          dsimp only at ran ⊢
          unfold tradeOrder at ran
          cases isMatched : matchPendingOrder now session.committed.orders session.current
              turn.order turn.market turn.outcome.id with
          | error reason =>
              rw [isMatched] at ran
              contradiction
          | ok result =>
              obtain ⟨matched, fill⟩ := result
              rw [isMatched] at ran
              dsimp only at ran ⊢
              split at ran
              · rename_i left
                split at ran
                · rename_i fillable
                  simp only [fillable, Bool.not_true, Bool.and_false, Bool.false_and, reduceCtorEq,
                    false_and, true_and, false_or]
                  split at ran
                  · contradiction
                  · cases ran
                    rfl
                  · cases ran
                    rfl
                · rename_i unfillable
                  cases ran
                  dsimp only
                  cases isFilled : (matched.orders.find? turn.order.id).any
                      fun row => decide (row.status = .filled) with
                  | true => exact .inr ⟨by simp, rfl⟩
                  | false => exact .inl ⟨by simp [left, unfillable], rfl⟩
              · rename_i spent
                cases ran
                exact .inr ⟨by simp [spent], rfl⟩

variable {groups' : List (MarketId × List OrderId)} {db final : Database}

theorem sweepGroup_cons (orderId : OrderId) (rest : List OrderId) (session : Session) :
    sweepGroup now market parimutuel groups' (orderId :: rest) session =
      match processOrder now market parimutuel session orderId with
      | .error _ => ⟨none, ⟨none, groups'⟩⟩
      | .ok processed =>
          if turnCommits now market parimutuel session orderId then
            ⟨some processed.session.current, ⟨some (market, parimutuel, rest), groups'⟩⟩
          else sweepGroup now market parimutuel groups' rest processed.session := rfl

theorem sweepOrders_cons (orderId : OrderId) (rest : List OrderId) (session : Session) :
    sweepOrders now market parimutuel (orderId :: rest) session =
      match processOrder now market parimutuel session orderId with
      | .error _ => session.rollback
      | .ok processed => sweepOrders now market parimutuel rest processed.session := rfl

/-- The loop of a group is its transactions one after the other. -/
theorem sweepGroup_orders (ids : List OrderId) (session : Session) :
    (∃ after rest, sweepGroup now market parimutuel groups' ids session =
        ⟨some after, ⟨some (market, parimutuel, rest), groups'⟩⟩ ∧ rest.length < ids.length ∧
        sweepOrders now market parimutuel ids session =
          sweepOrders now market parimutuel rest (.start after)) ∨
      ∃ after, sweepGroup now market parimutuel groups' ids session = ⟨after, ⟨none, groups'⟩⟩ ∧
        sweepOrders now market parimutuel ids session =
          .start (after.getD session.committed) := by
  induction ids generalizing session with
  | nil => exact .inr ⟨some session.current, rfl, rfl⟩
  | cons orderId rest ih =>
      rw [sweepGroup_cons, sweepOrders_cons]
      cases ran : processOrder now market parimutuel session orderId with
      | error reason => exact .inr ⟨none, rfl, rfl⟩
      | ok processed =>
          dsimp only
          rcases processOrder_commits ran with ⟨commits, started⟩ | ⟨goesOn, same⟩
          · rw [if_pos commits]
            refine .inl ⟨processed.session.current, rest, rfl, Nat.lt_succ_self _, ?_⟩
            rw [← started]
          · rw [if_neg (by simp [goesOn])]
            rcases ih processed.session with ⟨after, left, ended, shorter, later⟩ |
              ⟨after, ended, later⟩
            · exact .inl ⟨after, left, ended, Nat.lt_succ_of_lt shorter, later⟩
            · exact .inr ⟨after, ended, by rw [later, same]⟩

/-- A group ends with a commit or a rollback. -/
theorem sweepOrders_ends (ids : List OrderId) (session : Session) :
    sweepOrders now market parimutuel ids session =
      .start (sweepOrders now market parimutuel ids session).committed := by
  induction ids generalizing session with
  | nil => rfl
  | cons orderId rest ih =>
      unfold sweepOrders
      split
      · rfl
      · exact ih _

/-- The transactions of a sweep that has the database to itself. -/
inductive Finishes (now : Timestamp) : SweepPoint → Database → Database → Prop
  | done (db : Database) : Finishes now ⟨none, []⟩ db db
  | step {point : SweepPoint} {db final : Database}
      (later : Finishes now (segment now point (.start db)).next
        ((segment now point (.start db)).after.getD db) final) :
      Finishes now point db final

theorem finishes_orders (ids : List OrderId) {point : SweepPoint}
    (here : segment now point (.start db) =
      sweepGroup now market parimutuel groups' ids (.start db))
    (later : Finishes now ⟨none, groups'⟩
      (sweepOrders now market parimutuel ids (.start db)).committed final) :
    Finishes now point db final := by
  induction size : ids.length using Nat.strong_induction_on generalizing ids point db with
  | _ length ih =>
      refine .step ?_
      rw [here]
      rcases sweepGroup_orders ids (.start db) with
        ⟨after, rest, ended, shorter, same⟩ | ⟨after, ended, same⟩
      · rw [ended]
        exact ih rest.length (size ▸ shorter) rest rfl (same ▸ later) rfl
      · rw [ended]
        rw [same] at later
        exact later

theorem segment_cons (now : Timestamp) (db : Database) (batch : MarketId × List OrderId)
    (rest : List (MarketId × List OrderId)) :
    segment now ⟨none, batch :: rest⟩ (.start db) =
      match db.markets.find? batch.1 with
      | none => ⟨none, ⟨none, rest⟩⟩
      | some row =>
          if row.status ≠ .active then ⟨none, ⟨none, rest⟩⟩
          else
            sweepGroup now batch.1
              (MarketService.isParimutuel (MarketService.outcomesOf db batch.1)) rest batch.2
              (.start db) := rfl

theorem sweepMarket_start (now : Timestamp) (db : Database) (market : MarketId)
    (ids : List OrderId) :
    sweepMarket now (.start db) market ids =
      match db.markets.find? market with
      | none => .start db
      | some row =>
          if row.status ≠ .active then .start db
          else
            sweepOrders now market
              (MarketService.isParimutuel (MarketService.outcomesOf db market)) ids
              (.start db) := rfl

/-- Uninterrupted, the transactions make up `check_limit_order_execution`. -/
theorem finishes_sweep (now : Timestamp) (scanned : List Order) (db : Database) :
    Finishes now ⟨none, groups scanned⟩ db (checkLimitOrderExecution now scanned db) := by
  unfold checkLimitOrderExecution
  induction groups scanned generalizing db with
  | nil => exact .done db
  | cons batch rest ih =>
      obtain ⟨market, ids⟩ := batch
      rw [List.foldl_cons]
      dsimp only
      have skipped : sweepMarket now (.start db) market ids = .start db →
          segment now ⟨none, (market, ids) :: rest⟩ (.start db) = ⟨none, ⟨none, rest⟩⟩ →
          Finishes now ⟨none, (market, ids) :: rest⟩ db
            (rest.foldl (fun session group => sweepMarket now session group.1 group.2)
              (sweepMarket now (.start db) market ids)).committed := by
        intro same ended
        refine .step ?_
        rw [ended, same]
        exact ih db
      have unfolded := segment_cons now db (market, ids) rest
      have swept := sweepMarket_start now db market ids
      dsimp only at unfolded
      cases found : db.markets.find? market with
      | none =>
          rw [found] at unfolded swept
          exact skipped swept unfolded
      | some row =>
          rw [found] at unfolded swept
          dsimp only at unfolded swept
          by_cases closed : row.status ≠ .active
          · rw [if_pos closed] at unfolded swept
            exact skipped swept unfolded
          · rw [if_neg closed] at unfolded swept
            refine finishes_orders ids unfolded ?_
            rw [swept, sweepOrders_ends]
            exact ih _

end Alone

/-! # Objects that show the stored rows -/

namespace Objects

variable {objects : Objects} {db after : Database}

structure Current (objects : Objects) (db : Database) : Prop where
  orders : objects.orders.Current db.orders
  wallets : objects.wallets.Current db.wallets
  positions : objects.positions.Current db.positions
  pools : objects.pools.Current db.pools
  markets : objects.markets.Current db.markets

theorem Current.empty (db : Database) : Objects.empty.Current db :=
  ⟨.empty _, .empty _, .empty _, .empty _, .empty _⟩

theorem Current.load (current : objects.Current db) (row : RowKey) :
    (objects.load db row).Current db := by
  obtain ⟨orders, wallets, positions, pools, markets⟩ := current
  cases row with
  | order id => exact ⟨orders.load id, wallets, positions, pools, markets⟩
  | wallet user => exact ⟨orders, wallets.load user, positions, pools, markets⟩
  | position key => exact ⟨orders, wallets, positions.load key, pools, markets⟩
  | pool key => exact ⟨orders, wallets, positions, pools.load key, markets⟩
  | market id => exact ⟨orders, wallets, positions, pools, markets.load id⟩

theorem Current.loadAll (rows : List RowKey) (current : objects.Current db) :
    (rows.foldl (fun objects row => objects.load db row) objects).Current db := by
  induction rows generalizing objects with
  | nil => exact current
  | cons row rest ih => exact ih (current.load row)

theorem Current.flushed (objects : Objects) (view after : Database) :
    (objects.flushed view after).Current after :=
  ⟨.flushed _ _ _, .flushed _ _ _, .flushed _ _ _, .flushed _ _ _, .flushed _ _ _⟩

theorem Current.step (current : objects.Current db)
    (kept : ∀ row, objects.Has row → SameRow db after row) : objects.Current after where
  orders := current.orders.step fun id => kept (.order id)
  wallets := current.wallets.step fun user => kept (.wallet user)
  positions := current.positions.step fun key => kept (.position key)
  pools := current.pools.step fun key => kept (.pool key)
  markets := current.markets.step fun id => kept (.market id)

theorem view_current (current : objects.Current db) : objects.view db = db := by
  unfold view
  rw [IdentityMap.overlay_current current.orders, IdentityMap.overlay_current current.wallets,
    IdentityMap.overlay_current current.positions, IdentityMap.overlay_current current.pools,
    IdentityMap.overlay_current current.markets]

end Objects

theorem flush_stored (db after : Database) : flush db after db = after := by
  unfold flush
  rw [flushRows_stored Order.writeBack_stored, flushRows_stored Wallet.writeBack_stored,
    flushRows_stored Position.writeBack_stored, flushRows_stored LiquidityPool.writeBack_stored,
    flushRows_stored Market.writeBack_stored]

/-- A transaction of the sweep whose objects are current is the one it makes alone. -/
theorem commit_current {floor : Floor} {sweep : SweepSession}
    (current : sweep.objects.Current floor.db) :
    Transaction.perform floor.db (.sweep sweep.now sweep.point) = .ok (floor.commit sweep).db ∧
      ∀ next, (floor.commit sweep).sweep = some next →
        next.objects.Current (floor.commit sweep).db := by
  have here : sweep.objects.view floor.db = floor.db := Objects.view_current current
  unfold Transaction.perform Floor.commit
  rw [here]
  dsimp only
  cases ended : (segment sweep.now sweep.point ⟨floor.db, floor.db⟩).after with
  | none =>
      refine ⟨?_, ?_⟩
      · rw [show segment sweep.now sweep.point (.start floor.db) =
          segment sweep.now sweep.point ⟨floor.db, floor.db⟩ from rfl, ended]
        rfl
      · rintro next ⟨⟩
        exact .empty _
  | some after =>
      refine ⟨?_, ?_⟩
      · rw [show segment sweep.now sweep.point (.start floor.db) =
          segment sweep.now sweep.point ⟨floor.db, floor.db⟩ from rfl, ended]
        dsimp only
        rw [flush_stored]
        rfl
      · rintro next ⟨⟩
        dsimp only
        rw [flush_stored]
        exact .flushed _ _ _

/-! # Cancelled orders -/

section Cancelled

variable {now : Timestamp} {db after : Database} {session : Session}

theorem sweepGroup_sweeping {market : MarketId} {parimutuel : Bool}
    {groups' : List (MarketId × List OrderId)} (ids : List OrderId)
    (sweeping : Sweeping now db session)
    (ended : (sweepGroup now market parimutuel groups' ids session).after = some after) :
    ∃ last, Sweeping now db last ∧ last.current = after := by
  induction ids generalizing session with
  | nil => exact ⟨session, sweeping, Option.some.inj ended⟩
  | cons orderId rest ih =>
      unfold sweepGroup at ended
      split at ended
      · contradiction
      · rename_i processed ran
        split at ended
        · exact ⟨processed.session, sweeping.turn ran, Option.some.inj ended⟩
        · exact ih (sweeping.turn ran) ended

theorem segment_sweeping {point : SweepPoint}
    (ended : (segment now point (.start db)).after = some after) :
    ∃ last, Sweeping now db last ∧ last.current = after := by
  unfold segment at ended
  split at ended
  · exact sweepGroup_sweeping _ .start ended
  · contradiction
  · split at ended
    · contradiction
    split at ended
    · contradiction
    · exact sweepGroup_sweeping _ .start ended

/-- Each transaction keeps the order rows to their life cycle. -/
theorem perform_kept {transaction : Transaction}
    (performed : transaction.perform db = .ok after) (orderly : Orderly db.orders) :
    Orderly after.orders ∧ Kept db.orders after.orders := by
  have linked : ∀ {orders : Table Order.id}, Table.Linked Order.Ages db.orders orders →
      Orderly orders ∧ Kept db.orders orders :=
    fun ages => ⟨orderly.ages ages, .of_linked ages⟩
  cases transaction with
  | sweep now point =>
      cases performed
      cases ended : (segment now point (.start db)).after with
      | none => exact linked (.refl Order.Ages.refl _)
      | some after =>
          obtain ⟨last, sweeping, rfl⟩ := segment_sweeping ended
          exact linked (sweeping.ages orderly).latest
  | other theirs =>
      cases theirs with
      | order env user data =>
          have executed : Trading.perform db (.execute env user data) = .ok after := performed
          exact perform_ages executed orderly
      | cancel env user orderId =>
          have cancelled : Trading.perform db (.cancel env user orderId) = .ok after := performed
          exact perform_ages cancelled orderly
      | split user market amount =>
          obtain ⟨result, ran, rfl⟩ := map_eq_ok.mp performed
          obtain ⟨_, _, _, _, _, _, _, rfl⟩ := SplitMerge.split_ok ran
          exact linked (.refl Order.Ages.refl _)
      | withdraw user amount key =>
          obtain ⟨_, _, _, _, rfl⟩ := WalletService.withdraw_ok performed
          exact linked (.refl Order.Ages.refl _)

/-- A cancelled order is stored as such. -/
theorem cancelOrder_cancelled {env : Env} {user : UserId} {orderId : OrderId}
    (cancelled : cancelOrder env db user orderId = .ok after) :
    ∃ row, after.orders.find? orderId = some row ∧ row.status = .cancelled := by
  unfold cancelOrder at cancelled
  split at cancelled
  · rename_i order _ found _
    split at cancelled
    · cases cancelled
      refine ⟨{ order with status := .cancelled, executedAt := some env.now }, ?_, rfl⟩
      dsimp only
      rw [Table.find?_modify_self, found]
      rfl
    · contradiction
  · contradiction

end Cancelled

/-! # Runs -/

/-- Whoever commits while the sweep runs leaves the rows alone that the sweep has loaded. -/
def Undisturbed (floor : Floor) : Step → Prop
  | .other theirs => ∀ sweep, floor.sweep = some sweep → ∀ after,
      theirs.perform floor.db = .ok after → ∀ row, sweep.objects.Has row →
        SameRow floor.db after row
  | _ => True

/-- The transactions one after the other. -/
def serially (transactions : List Transaction) (db : Database) : Except Error Database :=
  transactions.foldlM Transaction.perform db

/-- The orders that were cancelled are cancelled. -/
def CancelledStay (floor : Floor) : Prop :=
  ∀ env user orderId, .other (.cancel env user orderId) ∈ floor.log →
    ∃ row, floor.db.orders.find? orderId = some row ∧ row.status = .cancelled

structure Lossless (start : Database) (floor : Floor) : Prop where
  serial : serially floor.log start = .ok floor.db
  objects : ∀ sweep, floor.sweep = some sweep → sweep.objects.Current floor.db
  orderly : Orderly floor.db.orders
  cancelled : CancelledStay floor

theorem Lossless.append {start after : Database} {floor : Floor} {transaction : Transaction}
    (lossless : Lossless start floor) (performed : transaction.perform floor.db = .ok after) :
    serially (floor.log ++ [transaction]) start = .ok after ∧ Orderly after.orders ∧
      ∀ env user orderId, .other (.cancel env user orderId) ∈ floor.log ++ [transaction] →
        ∃ row, after.orders.find? orderId = some row ∧ row.status = .cancelled := by
  obtain ⟨orderly, kept⟩ := perform_kept performed lossless.orderly
  refine ⟨?_, orderly, ?_⟩
  · unfold serially
    rw [List.foldlM_append]
    exact bind_eq_ok.mpr ⟨floor.db, lossless.serial, bind_eq_ok.mpr ⟨after, performed, rfl⟩⟩
  · intro env user orderId member
    rcases List.mem_append.mp member with earlier | now
    · obtain ⟨row, found, status⟩ := lossless.cancelled env user orderId earlier
      obtain ⟨row', found', ages⟩ := kept orderId row found
      have closed : row.status.isOpen = false := by rw [status]; rfl
      exact ⟨row', found', (ages.closed closed).symm ▸ status⟩
    · obtain rfl := List.mem_singleton.mp now
      exact cancelOrder_cancelled performed

theorem Lossless.step {start : Database} {floor next : Floor} {action : Step}
    (lossless : Lossless start floor) (undisturbed : Undisturbed floor action)
    (worked : Works floor action next) : Lossless start next := by
  cases worked with
  | @begin now dirty scanned idle reads =>
      refine ⟨lossless.serial, ?_, lossless.orderly, lossless.cancelled⟩
      rintro sweep ⟨⟩
      have loaded := (Objects.Current.empty floor.db).loadAll
        (scanned.map fun order => .order order.id)
      rw [List.foldl_map] at loaded
      exact loaded
  | @load sweep row running =>
      refine ⟨lossless.serial, ?_, lossless.orderly, lossless.cancelled⟩
      rintro next ⟨⟩
      exact (lossless.objects sweep running).load row
  | @commit sweep running =>
      obtain ⟨performed, current⟩ := commit_current (lossless.objects sweep running)
      obtain ⟨serial, orderly, cancelled⟩ := lossless.append performed
      exact ⟨serial, current, orderly, cancelled⟩
  | @other theirs after performed free =>
      have ended : (Transaction.other theirs).perform floor.db = .ok after := performed
      obtain ⟨serial, orderly, cancelled⟩ := lossless.append ended
      refine ⟨serial, ?_, orderly, cancelled⟩
      intro sweep running
      exact (lossless.objects sweep running).step (undisturbed sweep running after performed)

theorem sweep_loses_no_update {start : Database} {actions : List Step} {final : Floor}
    (orderly : Orderly start.orders)
    (run : Run Works Undisturbed ⟨start, [], none⟩ actions final) :
    serially final.log start = .ok final.db ∧ CancelledStay final := by
  have lossless : Lossless start final := by
    refine run.invariant (Lossless start) ?_ ⟨rfl, ?_, orderly, ?_⟩
    · intro floor action next undisturbed worked lossless
      exact lossless.step undisturbed worked
    · intro sweep running
      exact absurd running (by simp)
    · intro env user orderId member
      exact absurd member List.not_mem_nil
  exact ⟨lossless.serial, lossless.cancelled⟩

/-! # An order that is cancelled while it waits for its turn -/

def expiringBuy : Order :=
  { restingSell with userId := 1, side := .buy, price := 6 / 10, expiresAt := some 1 }

def waitingBuy : Order :=
  { restingSell with id := 2, userId := 2, side := .buy, price := 6 / 10 }

/-- Two resting buys of 10 USDC; the first has expired. -/
def waitingBook : Database :=
  { quotedMarket with
    wallets := ⟨[⟨1, 100, 10⟩, ⟨2, 100, 10⟩], by decide⟩
    positions := .empty
    orders := ⟨[expiringBuy, waitingBuy], by decide⟩ }

def cancelling : Other := .cancel quietEnv 2 2

/-- The two transactions of the sweep. -/
def firstTransaction : Transaction := .sweep 5 ⟨none, [(1, [1, 2])]⟩
def secondTransaction : Transaction := .sweep 5 ⟨some (1, false, [2]), []⟩

def statusOf (db : Database) (order : OrderId) : Option OrderStatus :=
  (db.orders.find? order).map Order.status

/-- The sweep when it has loaded both orders. -/
def begunSweep : SweepSession where
  now := 5
  point := ⟨none, groups [expiringBuy, waitingBuy]⟩
  objects := [expiringBuy, waitingBuy].foldl (fun objects order =>
    objects.load waitingBook (.order order.id)) .empty
  held := [.order 1, .order 2]

/-- The sweep has expired the first order and committed. -/
def interrupted : Floor := Floor.commit ⟨waitingBook, [], some begunSweep⟩ begunSweep

def interruptedSweep : SweepSession := interrupted.sweep.getD begunSweep

theorem sweep_interrupted {guard : Floor → Step → Prop}
    (free : ∀ floor action, (∀ theirs, action ≠ .other theirs) → guard floor action) :
    Run Works guard ⟨waitingBook, [], none⟩ [.begin 5 none [expiringBuy, waitingBuy], .commit]
      interrupted := by
  have reads : [expiringBuy, waitingBuy].Subperm
      (waitingBook.orders.rows.filter (isSwept none)) := by
    rw [show waitingBook.orders.rows.filter (isSwept none) = [expiringBuy, waitingBuy] by
      decide +kernel]
  exact .act (free _ _ (by simp)) (.begin rfl reads)
    (.act (free _ _ (by simp)) (.commit rfl) (.stop _))

/-- The locks are released. -/
theorem interrupted_free (after : Database) : ∀ sweep, interrupted.sweep = some sweep →
    ∀ row ∈ sweep.held, SameRow interrupted.db after row := by
  rintro sweep ⟨⟩ row member
  exact absurd member List.not_mem_nil

/-- The sweep goes on after somebody else's transaction. -/
def resumed (theirs : Other) (after : Database) : Floor :=
  Floor.commit ⟨after, interrupted.log ++ [.other theirs], interrupted.sweep⟩ interruptedSweep

theorem resumed_run {guard : Floor → Step → Prop} {theirs : Other} {after : Database}
    (free : ∀ floor action, (∀ theirs, action ≠ .other theirs) → guard floor action)
    (guarded : guard interrupted (.other theirs))
    (performed : theirs.perform interrupted.db = .ok after) :
    ∃ actions, Run Works guard ⟨waitingBook, [], none⟩ actions (resumed theirs after) := by
  have commits : Works ⟨after, interrupted.log ++ [.other theirs], interrupted.sweep⟩ .commit
      (resumed theirs after) := .commit rfl
  exact ⟨_, (sweep_interrupted free).append (.act guarded (.other performed (interrupted_free after))
    (.act (free _ _ (by simp)) commits (.stop _)))⟩

theorem resumed_log (theirs : Other) (after : Database) :
    (resumed theirs after).log = [firstTransaction, .other theirs, secondTransaction] := by
  have point : interruptedSweep.point = ⟨some (1, false, [2]), []⟩ := by decide +kernel
  have first : groups [expiringBuy, waitingBuy] = [(1, [1, 2])] := by decide +kernel
  show ([Transaction.sweep 5 ⟨none, groups [expiringBuy, waitingBuy]⟩] ++ [.other theirs]) ++
    [Transaction.sweep 5 interruptedSweep.point] = _
  rw [point, first]
  rfl

/-- The order is cancelled when the sweep has released its locks, and the sweep fills it. -/
theorem cancelled_order_is_filled :
    ∃ actions final, Run Works (fun _ _ => True) ⟨waitingBook, [], none⟩ actions final ∧
      final.log = [firstTransaction, .other cancelling, secondTransaction] ∧
      statusOf final.db 2 = some .filled ∧
      ∀ order ∈ [[firstTransaction, .other cancelling, secondTransaction],
          [.other cancelling, firstTransaction, secondTransaction],
          [firstTransaction, secondTransaction, .other cancelling]],
        serially order waitingBook ≠ .ok final.db := by
  have race : succeedsWith ((cancelling.perform interrupted.db).map fun db =>
      (Floor.commit ⟨db, interrupted.log ++ [.other cancelling], interrupted.sweep⟩
        interruptedSweep).db) (fun db => decide (statusOf db 2 = some .filled)) = true := by
    decide +kernel
  have cancelledBetween : succeedsWith
      (serially [firstTransaction, .other cancelling, secondTransaction] waitingBook)
      (fun db => decide (statusOf db 2 = some .cancelled)) = true := by decide +kernel
  have cancelledFirst : succeedsWith
      (serially [.other cancelling, firstTransaction, secondTransaction] waitingBook)
      (fun db => decide (statusOf db 2 = some .cancelled)) = true := by decide +kernel
  have cancelledLast : succeedsWith
      (serially [firstTransaction, secondTransaction, .other cancelling] waitingBook)
      (fun _ => true) = false := by decide +kernel
  obtain ⟨final, ran, filled⟩ := succeedsWith_iff.mp race
  obtain ⟨after, cancelled, rfl⟩ := map_eq_ok.mp ran
  obtain ⟨actions, run⟩ := resumed_run (fun _ _ _ => trivial) trivial cancelled
  refine ⟨actions, _, run, resumed_log cancelling after, of_decide_eq_true filled, ?_⟩
  have differs : ∀ {order : List Transaction}, succeedsWith (serially order waitingBook)
      (fun db => decide (statusOf db 2 = some .cancelled)) = true →
      serially order waitingBook ≠ .ok (resumed cancelling after).db := by
    intro order succeeds same
    obtain ⟨computed, isComputed, holds⟩ := succeedsWith_iff.mp succeeds
    obtain rfl := Except.ok.inj (isComputed.symm.trans same)
    exact absurd ((of_decide_eq_true holds).symm.trans (of_decide_eq_true filled)) (by simp)
  intro order member
  rcases List.mem_cons.mp member with rfl | member
  · exact differs cancelledBetween
  rcases List.mem_cons.mp member with rfl | member
  · exact differs cancelledFirst
  · rw [List.mem_singleton.mp member]
    intro same
    rw [same] at cancelledLast
    exact absurd cancelledLast (by simp [succeedsWith])

theorem waitingBook_orderly : Orderly waitingBook.orders := by
  intro id row found
  have member : row = expiringBuy ∨ row = waitingBuy := by
    simpa [waitingBook] using Table.mem_of_find? found
  rcases member with rfl | rfl
  all_goals
    refine ⟨?_, ?_, ?_, ?_, ?_, ?_⟩
    all_goals decide +kernel

/-- A withdrawal from a wallet that the sweep has not loaded yet. -/
theorem withdrawal_during_sweep :
    ∃ actions final, Run Works Undisturbed ⟨waitingBook, [], none⟩ actions final ∧
      final.log = [firstTransaction, .other (.withdraw 2 50 none), secondTransaction] ∧
      statusOf final.db 2 = some .filled ∧
      serially final.log waitingBook = .ok final.db ∧ CancelledStay final := by
  have filled : succeedsWith (((Other.withdraw 2 50 none).perform interrupted.db).map
      fun db => (resumed (.withdraw 2 50 none) db).db)
      (fun db => decide (statusOf db 2 = some .filled)) = true := by decide +kernel
  obtain ⟨final, ran, filled⟩ := succeedsWith_iff.mp filled
  obtain ⟨after, withdrawn, rfl⟩ := map_eq_ok.mp ran
  have free : ∀ floor action, (∀ theirs, action ≠ .other theirs) → Undisturbed floor action := by
    intro floor action inner
    cases action with
    | other theirs => exact absurd rfl (inner theirs)
    | _ => trivial
  have unloaded : (interruptedSweep.objects.wallets.lookup 2).isSome = false := by decide +kernel
  have undisturbed : Undisturbed interrupted (.other (.withdraw 2 50 none)) := by
    rintro sweep ⟨⟩ later performed row loaded
    obtain ⟨wallet, -, -, -, rfl⟩ := WalletService.withdraw_ok performed
    cases row with
    | wallet user =>
        have other : user ≠ 2 := by
          rintro rfl
          exact absurd (unloaded.symm.trans loaded) (by simp)
        dsimp only [SameRow]
        rw [Table.find?_modify_ne other]
    | _ => rfl
  obtain ⟨actions, run⟩ := resumed_run free undisturbed withdrawn
  exact ⟨actions, _, run, resumed_log _ _, of_decide_eq_true filled,
    sweep_loses_no_update waitingBook_orderly run⟩

end PredictX.LimitSweep
