import PredictX.Api.Events
import PredictX.Properties.MoneyConservation
import PredictX.Properties.OrderLifeCycle
import PredictX.Properties.ProviderFairness
import PredictX.Properties.SettlementPayouts

namespace PredictX.MoneySupply

open PredictX.Data PredictX.MarketService PredictX.MatchingEngine PredictX.OrderService
open PredictX.LimitSweep PredictX.Settlement PredictX.LiquidityService

/-! What every operation does to the money.

Money moves between wallets and escrows.  Only a referral reward and the fee of a match that is
skipped come from nowhere, and nothing is lost as long as everyone who is owed has a wallet and
no escrow is below zero.
-/

def rewardOf (referral : Referral) : ℚ :=
  if referral.completed then referral.rewardAmount else 0

/-- The rewards that have been paid. -/
def rewarded (db : Database) : ℚ := (db.referrals.map rewardOf).sum

/-- The money that no reward has brought in. -/
def supply (db : Database) : ℚ := db.money - rewarded db

def Lasting (before after : Table Wallet.userId) : Prop :=
  ∀ user, hasWallet before user = true → hasWallet after user = true

def Funded (pools : Table LiquidityPool.key) : Prop := ∀ pool ∈ pools.rows, 0 ≤ pool.collateral

/-- Whoever placed an order has a wallet. -/
def Placed (wallets : Table Wallet.userId) (orders : Table Order.id) : Prop :=
  ∀ order ∈ orders.rows, hasWallet wallets order.userId = true

def Provided (wallets : Table Wallet.userId) (shares : Table LPShare.key) : Prop :=
  ∀ share ∈ shares.rows, hasWallet wallets share.userId = true

/-- A binary market has its pool. -/
def Pooled (db : Database) : Prop :=
  ∀ market, outcomesOf db market ≠ [] → isParimutuel (outcomesOf db market) = false →
    (db.pools.find? ⟨market, none⟩).isSome = true

/-- `delta` came into the wallets. -/
structure Receives (delta : ℚ) (before after : Table Wallet.userId) : Prop where
  lasting : Lasting before after
  total : after.sum Wallet.balance = before.sum Wallet.balance + delta

/-- `delta` came into the escrows. -/
structure Escrows (delta : ℚ) (before after : Table LiquidityPool.key) : Prop where
  lasting : ∀ key, (before.find? key).isSome = true → (after.find? key).isSome = true
  funded : Funded before → Funded after
  total : after.sum LiquidityPool.collateral = before.sum LiquidityPool.collateral + delta

/-- What a step does to the money; `clean` says that it skips no match. -/
structure Flows (clean : Prop) (before after : Database) : Prop where
  lasting : Lasting before.wallets after.wallets
  pools : ∀ key, (before.pools.find? key).isSome = true → (after.pools.find? key).isSome = true
  outcomes : after.outcomes = before.outcomes
  funded : Funded before.pools → Funded after.pools
  grows : supply before ≤ supply after
  kept : clean → supply after = supply before

section Rows

variable {wallets wallets' wallets'' : Table Wallet.userId} {user : UserId} {amount delta : ℚ}
  {pools pools' pools'' : Table LiquidityPool.key} {key : PoolKey} {pool : LiquidityPool}

theorem Lasting.refl (wallets : Table Wallet.userId) : Lasting wallets wallets := fun _ => id

theorem Lasting.trans (left : Lasting wallets wallets') (right : Lasting wallets' wallets'') :
    Lasting wallets wallets'' := fun user has => right user (left user has)

namespace Receives

theorem refl (wallets : Table Wallet.userId) : Receives 0 wallets wallets :=
  ⟨.refl wallets, (add_zero _).symm⟩

theorem trans {first second : ℚ} (left : Receives first wallets wallets')
    (right : Receives second wallets' wallets'') : Receives (first + second) wallets wallets'' := by
  refine ⟨left.lasting.trans right.lasting, ?_⟩
  rw [right.total, left.total, add_assoc]

/-- A payment to a wallet that exists. -/
theorem pay (update : Wallet → Wallet) (keeps : ∀ wallet, (update wallet).userId = wallet.userId)
    (owned : hasWallet wallets user = true)
    (moves : ∀ wallet, (update wallet).balance = wallet.balance + delta) :
    Receives delta wallets (wallets.modify user update keeps) := by
  refine ⟨fun other has => ?_, ?_⟩
  · rw [hasWallet, Table.isSome_find?_modify]
    exact has
  · rw [sum_balance_modify keeps moves, if_pos owned]

theorem credit (owned : hasWallet wallets user = true) :
    Receives amount wallets (wallets.modify user (Wallet.credit amount)) :=
  pay (Wallet.credit amount) (fun _ => rfl) owned fun _ => rfl

theorem debit (owned : hasWallet wallets user = true) :
    Receives (-amount) wallets (wallets.modify user (Wallet.debit amount)) :=
  pay (Wallet.debit amount) (fun _ => rfl) owned fun _ => sub_eq_add_neg _ _

/-- Locking and releasing leave the balance as it is. -/
theorem unmoved (update : Wallet → Wallet)
    (keeps : ∀ wallet, (update wallet).userId = wallet.userId)
    (same : ∀ wallet, (update wallet).balance = wallet.balance) :
    Receives 0 wallets (wallets.modify user update keeps) := by
  refine ⟨fun other has => ?_, ?_⟩
  · rw [hasWallet, Table.isSome_find?_modify]
    exact has
  · rw [add_zero]
    exact Table.sum_modify_eq fun wallet _ => same wallet

theorem opened (wallets : Table Wallet.userId) (user : UserId) :
    Receives 0 wallets (openWallet wallets user) :=
  ⟨fun _ has => isSome_openWallet has, by rw [sum_openWallet, add_zero]⟩

end Receives

namespace Escrows

theorem refl (pools : Table LiquidityPool.key) : Escrows 0 pools pools :=
  ⟨fun _ => id, id, (add_zero _).symm⟩

theorem trans {first second : ℚ} (left : Escrows first pools pools')
    (right : Escrows second pools' pools'') : Escrows (first + second) pools pools'' := by
  refine ⟨fun key has => right.lasting key (left.lasting key has), right.funded ∘ left.funded, ?_⟩
  rw [right.total, left.total, add_assoc]

/-- One escrow changes and stays at or above zero. -/
theorem write (update : LiquidityPool → LiquidityPool)
    (keeps : ∀ row, (update row).key = row.key) (found : pools.find? key = some pool)
    (change : (update pool).collateral = pool.collateral + delta)
    (left : 0 ≤ pool.collateral → 0 ≤ pool.collateral + delta) :
    Escrows delta pools (pools.modify key update keeps) := by
  refine ⟨fun other has => ?_, fun funded row member => ?_, Table.sum_modify_add found change⟩
  · rw [Table.isSome_find?_modify]
    exact has
  · obtain ⟨old, oldMember, rfl⟩ := Table.mem_modify.mp member
    split
    · rename_i isKey
      have same := Table.find?_key_of_mem oldMember
      rw [isKey, found] at same
      cases same
      rw [change]
      exact left (funded pool (Table.mem_of_find? found))
    · exact funded old oldMember

end Escrows

theorem Placed.lasting {orders : Table Order.id} (placed : Placed wallets orders)
    (lasting : Lasting wallets wallets') : Placed wallets' orders :=
  fun order member => lasting _ (placed order member)

theorem Placed.modify {orders : Table Order.id} {id : OrderId} (update : Order → Order)
    (keeps : ∀ row, (update row).id = row.id) (placed : Placed wallets orders)
    (own : ∀ row, (update row).userId = row.userId) :
    Placed wallets (orders.modify id update keeps) := by
  intro row member
  obtain ⟨old, oldMember, rfl⟩ := Table.mem_modify.mp member
  split
  · rw [own]
    exact placed old oldMember
  · exact placed old oldMember

theorem Placed.insert {orders : Table Order.id} {order : Order} (placed : Placed wallets orders)
    (owned : hasWallet wallets order.userId = true) : Placed wallets (orders.insert order) := by
  intro row member
  rcases Table.mem_insert member with old | rfl
  · exact placed row old
  · exact owned

theorem Provided.lasting {shares : Table LPShare.key} (provided : Provided wallets shares)
    (lasting : Lasting wallets wallets') : Provided wallets' shares :=
  fun share member => lasting _ (provided share member)

end Rows

namespace Flows

variable {clean first second : Prop} {before middle after : Database}

/-- What leaves the wallets comes into the escrows, or the other way round. -/
theorem exchange {delta : ℚ} (wallets : Receives (-delta) before.wallets after.wallets)
    (pools : Escrows delta before.pools after.pools) (outcomes : after.outcomes = before.outcomes)
    (referrals : after.referrals = before.referrals) : Flows clean before after := by
  have same : supply after = supply before := by
    rw [supply, supply, Database.money, Database.money, wallets.total, pools.total, rewarded,
      rewarded, referrals]
    ring
  exact ⟨wallets.lasting, pools.lasting, outcomes, pools.funded, same.ge, fun _ => same⟩

/-- Only the wallets change, and not in what they hold together. -/
theorem stay (wallets : Receives 0 before.wallets after.wallets)
    (pools : after.pools = before.pools) (outcomes : after.outcomes = before.outcomes)
    (referrals : after.referrals = before.referrals) : Flows clean before after := by
  refine .exchange (by rw [neg_zero]; exact wallets) ?_ outcomes referrals
  rw [pools]
  exact .refl _

/-- A step that only writes other columns. -/
theorem idle (wallets : after.wallets = before.wallets) (pools : after.pools = before.pools)
    (outcomes : after.outcomes = before.outcomes) (referrals : after.referrals = before.referrals) :
    Flows clean before after := by
  refine .stay ?_ pools outcomes referrals
  rw [wallets]
  exact .refl _

theorem refl (db : Database) : Flows clean db db := .idle rfl rfl rfl rfl

theorem trans (left : Flows clean before middle) (right : Flows clean middle after) :
    Flows clean before after where
  lasting := left.lasting.trans right.lasting
  pools key has := right.pools key (left.pools key has)
  outcomes := right.outcomes.trans left.outcomes
  funded := right.funded ∘ left.funded
  grows := left.grows.trans right.grows
  kept holds := (right.kept holds).trans (left.kept holds)

theorem weaken (flows : Flows first before after) (stronger : second → first) :
    Flows second before after :=
  { flows with kept := fun holds => flows.kept (stronger holds) }

end Flows

/-! # Matches -/

section Matches

variable {σ : Type} {now : Timestamp} {taker : Taker σ} {db after : Database} {fill final : σ}
  {offers : List Offer} {side : Side} {pools : Table LiquidityPool.key}

theorem creditFee_funded {maker : Order} {fee : ℚ} (funded : Funded pools) :
    Funded (creditFee pools maker fee) := by
  unfold creditFee
  split
  · exact funded
  rename_i pool found
  split
  · rename_i positive
    intro row member
    obtain ⟨old, oldMember, rfl⟩ := Table.mem_modify.mp member
    have nonneg := funded old oldMember
    split
    · exact add_nonneg nonneg positive.le
    · exact nonneg
  · exact funded

theorem trace_funded (trace : Trace now taker db fill offers after final) :
    Funded db.pools → Funded after.pools := by
  induction trace with
  | done => exact id
  | skip _ _ _ ih => exact fun funded => ih (creditFee_funded funded)
  | deliver _ _ _ _ ih => exact fun funded => ih (creditFee_funded funded)

theorem trace_placed {wallets : Table Wallet.userId}
    (stores : ∀ details orders, Placed wallets orders → Placed wallets (taker.store details orders))
    (trace : Trace now taker db fill offers after final) :
    Placed wallets db.orders → Placed wallets after.orders := by
  induction trace with
  | done => exact id
  | skip _ _ _ ih => exact ih
  | @deliver _ _ _ _ maker quantity _ _ _ _ _ ih =>
      intro placed
      refine ih (stores _ _ (.modify (fillMaker now _) (fillMaker_id now _) placed fun row => ?_))
      exact (fillMaker_sameTerms now _ row).userId

/-- A skipped match adds its fee; nothing else adds or takes away. -/
theorem trace_flows (trace : Trace now taker db fill offers after final)
    (booked : ∀ offer ∈ offers, Booked db.pools side offer)
    (owned : hasWallet db.wallets taker.userId = true)
    (makers : ∀ offer ∈ offers, hasWallet db.wallets offer.maker.userId = true) :
    Flows (∀ offer ∈ offers, offer.delivered = true) db after := by
  obtain ⟨money, -⟩ := trace.money booked (fun _ => rfl) owned
  have whole : deliveredSum offers (orphaned (hasWallet db.wallets) side) = 0 := by
    refine List.sum_eq_zero fun part member => ?_
    obtain ⟨offer, inOffers, rfl⟩ := List.mem_map.mp member
    simp [orphaned, makers offer inOffers]
  have skips : 0 ≤ skippedFees offers := by
    refine List.sum_nonneg fun part member => ?_
    obtain ⟨offer, inOffers, rfl⟩ := List.mem_map.mp member
    split
    · exact le_rfl
    · exact (booked offer inOffers).fee_pos.le
  have rewards : rewarded after = rewarded db := by
    rw [rewarded, rewarded, trace.sameElsewhere.referrals]
  rw [whole, mul_zero, add_zero] at money
  have change : supply after = supply db + skippedFees offers := by
    rw [supply, supply, money, rewards]
    ring
  refine ⟨fun user has => ?_, fun key has => ?_, trace.sameElsewhere.outcomes,
    trace_funded trace, ?_, fun all => ?_⟩
  · exact (trace.isSome_wallet user).trans has
  · rw [trace.isSome_pool]
    exact has
  · rw [change]
    exact le_add_of_nonneg_right skips
  · have none_ : skippedFees offers = 0 := by
      refine List.sum_eq_zero fun part member => ?_
      obtain ⟨offer, inOffers, rfl⟩ := List.mem_map.mp member
      simp [all offer inOffers]
    rw [change, none_, add_zero]

end Matches

/-! # Orders -/

section Orders

variable {env : Env} {db matched traded after : Database} {user : UserId} {venue : Venue}
  {data : OrderRequest} {execution : Execution} {leg : AmmLeg} {clean : Prop}

/-- A reward shows in the wallet and in what has been rewarded. -/
theorem creditReferral_flows (db : Database) (user : UserId) :
    Flows clean db (creditReferral db user) := by
  unfold creditReferral
  extract_lets isPending
  split
  · rename_i referral single
    split
    · exact .refl db
    rename_i referrer isReferrer
    split
    · exact .refl db
    rename_i wallet found
    have owned : hasWallet db.wallets referrer = true := by simp [hasWallet, found]
    have credited : Receives referralRewardAmount db.wallets
        (db.wallets.modify referrer (Wallet.credit referralRewardAmount)) := .credit owned
    have paid : ∀ referrals : List Referral, ((referrals.map fun row => if isPending row then
        { row with completed := true, rewardAmount := referralRewardAmount } else row).map
          rewardOf).sum =
        (referrals.map rewardOf).sum +
          (referrals.filter isPending).length * referralRewardAmount := by
      intro referrals
      induction referrals with
      | nil => simp
      | cons row rest ih =>
          simp only [List.map_cons, List.sum_cons, ih]
          by_cases pending : isPending row = true
          · have waiting : row.completed = false := by
              simp only [isPending, Bool.and_eq_true, Bool.not_eq_true'] at pending
              exact pending.2
            rw [List.filter_cons_of_pos pending, List.length_cons, if_pos pending]
            simp only [rewardOf, waiting, if_true, Bool.false_eq_true, if_false]
            push_cast
            ring
          · rw [List.filter_cons_of_neg pending, if_neg pending]
            ring
    have kept : supply { db with
        wallets := db.wallets.modify referrer (Wallet.credit referralRewardAmount)
        referrals := db.referrals.map fun row => if isPending row then
          { row with completed := true, rewardAmount := referralRewardAmount } else row } =
        supply db := by
      simp only [supply, Database.money, rewarded, credited.total, paid, single,
        List.length_singleton, Nat.cast_one]
      ring
    exact ⟨credited.lasting, fun _ => id, rfl, id, kept.ge, fun _ => kept⟩
  · exact .refl db

theorem runAmmLeg_flows {side : Side} {remaining : ℚ} {pool : LiquidityPool}
    (positive : 0 < remaining) (owned : hasWallet matched.wallets user = true)
    (found : matched.pools.find? venue.pool.key = some pool)
    (ran : runAmmLeg matched user venue side remaining = .ok (traded, leg)) :
    Flows clean matched traded := by
  cases side with
  | buy =>
      obtain ⟨_, _, _, _, _, _, rfl⟩ := ammBuy_ok ran
      have escrowed : Escrows remaining matched.pools
          (writeLeg matched.pools venue.pool.key leg remaining) :=
        .write _ _ found rfl fun nonneg => add_nonneg nonneg positive.le
      exact .exchange (.debit owned) escrowed rfl rfl
  | sell =>
      obtain ⟨_, _, _, _, ⟨row, rowFound, covered⟩, rfl⟩ := ammSell_ok ran
      cases found.symm.trans rowFound
      have escrowed : Escrows (-leg.quote.collateralIn) matched.pools
          (writeLeg matched.pools venue.pool.key leg (-leg.quote.collateralIn)) := by
        refine .write _ _ found rfl fun nonneg => ?_
        rw [max_eq_left nonneg] at covered
        linarith
      refine .exchange ?_ escrowed rfl rfl
      rw [neg_neg]
      exact .credit owned

theorem finish_flows {fill : Fill}
    (finished : finish env db user venue data fill = .ok execution) :
    Flows clean db execution.db := by
  rw [(finish_ok finished).1]
  refine .trans ?_ (creditReferral_flows _ user)
  exact .idle rfl rfl rfl rfl

theorem restOrder_flows {book : BookFill}
    (rested : restOrder env db user venue data book = .ok execution) :
    Flows clean db execution.db := by
  obtain ⟨_, _, _, locked, database, _⟩ := restOrder_ok rested
  rw [database]
  rcases lockFunds_ok locked with ⟨_, rfl⟩ | ⟨_, _, _, _, rfl⟩
  · exact .idle rfl rfl rfl rfl
  · exact .stay (.unmoved (Wallet.lock _) (fun _ => rfl) fun _ => rfl) rfl rfl rfl

/-- Every match that the order makes is delivered. -/
def Delivers (env : Env) (db : Database) (user : UserId) (data : OrderRequest) : Prop :=
  ∀ venue, openVenue env db data.marketId data.outcome = .ok venue →
    duplicateOf db user data = none →
    ∀ offer ∈ bookPlan db user venue data, offer.delivered = true

theorem executeOrder_flows (placed : Placed db.wallets db.orders)
    (executed : executeOrder env db user data = .ok execution) :
    Flows (Delivers env db user data) db execution.db ∧
      Placed execution.db.wallets execution.db.orders := by
  obtain ⟨venue, opened, _, ⟨wallet, found⟩, ways⟩ := executeOrder_ok executed
  have owned : hasWallet db.wallets user = true := by simp [hasWallet, found]
  rcases ways with ⟨existing, _, rfl⟩ | ⟨unseen, _, filled⟩
  · exact ⟨.refl db, placed⟩
  obtain ⟨matched, book, trace, ends⟩ := fillOrder_ok filled
  have booked := bookPlan_booked opened trace
  have traded : Flows (Delivers env db user data) db matched := by
    refine (trace_flows trace booked owned fun offer member => ?_).weaken fun delivers =>
      delivers venue opened unseen
    exact placed offer.maker (mem_bookPlan member).1
  have kept : Placed db.wallets matched.orders := trace_placed (fun _ _ => id) trace placed
  rcases ends with ⟨_, _, rested⟩ | ⟨left, _, after, leg, ran, finished⟩ | ⟨_, finished⟩
  · have flows := traded.trans (restOrder_flows rested)
    refine ⟨flows, ?_⟩
    obtain ⟨_, _, _, _, database, _⟩ := restOrder_ok rested
    have orders := congrArg Database.orders database
    dsimp only at orders
    rw [orders]
    exact (kept.insert owned).lasting flows.lasting
  · have pool : (matched.pools.find? venue.pool.key).isSome := by
      rw [trace.isSome_pool]
      obtain ⟨_, _, _, _, poolFound, _⟩ := openVenue_ok opened
      rw [Table.key_of_find? poolFound, poolFound]
      rfl
    obtain ⟨row, rowFound⟩ := Option.isSome_iff_exists.mp pool
    have swapped : Flows (Delivers env db user data) matched after := runAmmLeg_flows left
      ((trace.isSome_wallet user).trans owned) rowFound ran
    have flows := traded.trans (swapped.trans (finish_flows finished))
    refine ⟨flows, ?_⟩
    rw [Trading.finish_orders finished, runAmmLeg_orders ran]
    exact (kept.insert owned).lasting flows.lasting
  · have flows := traded.trans (finish_flows finished)
    refine ⟨flows, ?_⟩
    rw [Trading.finish_orders finished]
    exact (kept.insert owned).lasting flows.lasting

theorem cancelOrder_flows {orderId : OrderId} (placed : Placed db.wallets db.orders)
    (cancelled : cancelOrder env db user orderId = .ok after) :
    Flows clean db after ∧ Placed after.wallets after.orders := by
  unfold cancelOrder at cancelled
  split at cancelled
  · rename_i order _ _ _
    split at cancelled
    · cases cancelled
      have both : ∀ {later : Database}, Flows clean db later → Placed db.wallets later.orders →
          Flows clean db later ∧ Placed later.wallets later.orders :=
        fun flows kept => ⟨flows, kept.lasting flows.lasting⟩
      refine both (.stay ?_ rfl rfl rfl) ?_
      · cases order.side with
        | buy => exact .unmoved (Wallet.release _) (fun _ => rfl) fun _ => rfl
        | sell => exact .refl _
      · exact Placed.modify (fun order =>
          { order with status := .cancelled, executedAt := some env.now }) (fun _ => rfl) placed
          fun _ => rfl
    · contradiction
  · contradiction

end Orders

/-! # The order workers -/

section Sweeps

variable {now : Timestamp} {db matched traded : Database} {turn : Turn} {remaining : ℚ}
  {leg : AmmLeg} {session : Session} {clean : Prop}

theorem expireOrder_flows (now : Timestamp) (db : Database) (order : Order) :
    Flows clean db (expireOrder now db order) := by
  refine .stay ?_ rfl rfl rfl
  unfold expireOrder
  dsimp only
  cases order.side with
  | sell => exact .refl _
  | buy => exact .unmoved (Wallet.release _) (fun _ => rfl) fun _ => rfl

theorem expireOrder_placed {wallets : Table Wallet.userId} {order : Order}
    (placed : Placed wallets db.orders) : Placed wallets (expireOrder now db order).orders :=
  .modify (markExpired now) (fun _ => rfl) placed fun _ => rfl

theorem expireStaleOrders_flows (now : Timestamp) (placed : Placed db.wallets db.orders) :
    Flows clean db (expireStaleOrders now db) ∧
      Placed (expireStaleOrders now db).wallets (expireStaleOrders now db).orders := by
  have all : Flows clean db (expireStaleOrders now db) ∧
      Placed db.wallets (expireStaleOrders now db).orders :=
    expireStaleOrders_preserves
      (fun after => Flows clean db after ∧ Placed db.wallets after.orders)
      (fun _ _ before => ⟨before.1.trans (expireOrder_flows now _ _), expireOrder_placed before.2⟩)
      ⟨.refl db, placed⟩
  exact ⟨all.1, all.2.lasting all.1.lasting⟩

/-- A swept sell takes no more than the escrow holds. -/
theorem sweepLeg_covered (selling : turn.order.side = .sell)
    (ran : sweepLeg now matched turn remaining = .ok (some (traded, leg))) :
    ∃ pool, matched.pools.find? turn.poolKey = some pool ∧
      leg.quote.collateralIn ≤ max pool.collateral 0 := by
  unfold sweepLeg at ran
  rw [selling] at ran
  dsimp only [sweepSell] at ran
  split at ran
  · cases ran
  split at ran
  · cases ran
  split at ran
  · contradiction
  rename_i quote _
  split at ran
  · contradiction
  rename_i pool found
  split at ran
  · contradiction
  rename_i debited taken
  cases ran
  refine ⟨pool, found, ?_⟩
  obtain ⟨_, covered⟩ := debitCollateral_eq taken
  by_cases positive : 0 < quote.collateralIn
  · exact le_max_of_le_left (covered positive)
  · exact le_max_of_le_right (not_lt.mp positive)

theorem sweepLeg_flows (positive : 0 < remaining) {pool : LiquidityPool}
    (found : matched.pools.find? turn.poolKey = some pool)
    (ran : sweepLeg now matched turn remaining = .ok (some (traded, leg))) :
    Flows clean matched traded := by
  rcases (sweepLeg_ok ran).2 with ⟨_, _, ⟨wallet, owner, _⟩, _, rfl⟩ |
    ⟨selling, _, ⟨wallet, owner⟩, _, _, _, rfl⟩
  · have owned : hasWallet matched.wallets turn.order.userId = true := by simp [hasWallet, owner]
    have escrowed : Escrows remaining matched.pools
        (writeSweepLeg matched.pools turn leg remaining) :=
      .write _ _ found rfl fun nonneg => add_nonneg nonneg positive.le
    have paid : Receives (-remaining) matched.wallets
        (matched.wallets.modify turn.order.userId (payResting remaining)) :=
      .pay (payResting remaining) _ owned fun _ => sub_eq_add_neg _ _
    exact .exchange paid escrowed rfl rfl
  · have owned : hasWallet matched.wallets turn.order.userId = true := by simp [hasWallet, owner]
    obtain ⟨row, rowFound, covered⟩ := sweepLeg_covered selling ran
    cases found.symm.trans rowFound
    have escrowed : Escrows (-leg.quote.collateralIn) matched.pools
        (writeSweepLeg matched.pools turn leg (-leg.quote.collateralIn)) := by
      refine .write _ _ found rfl fun nonneg => ?_
      rw [max_eq_left nonneg] at covered
      linarith
    refine .exchange ?_ escrowed rfl rfl
    rw [neg_neg]
    exact .credit owned

/-- Every match that the sweep makes is delivered. -/
def SweepDelivers (now : Timestamp) (db : Database) : Prop :=
  ∀ session, Sweeping now db session → ∀ order market outcome,
    ∀ offer ∈ pendingPlan now session market order outcome, offer.delivered = true

/-- What holds of a session that a sweep passes through. -/
structure SessionFlows (clean : Prop) (db : Database) (session : Session) : Prop where
  committed : Flows clean db session.committed
  current : Flows clean db session.current
  stored : Placed db.wallets session.committed.orders
  placed : Placed db.wallets session.current.orders

theorem SessionFlows.commit (flows : SessionFlows clean db session) :
    SessionFlows clean db session.commit :=
  ⟨flows.current, flows.current, flows.placed, flows.placed⟩

theorem SessionFlows.rollback (flows : SessionFlows clean db session) :
    SessionFlows clean db session.rollback :=
  ⟨flows.committed, flows.committed, flows.stored, flows.stored⟩

/-- The makers that a resting order meets. -/
theorem pendingPlan_booked {order : Order} {market : MarketId} {outcome : OutcomeId}
    {fill : PendingFill} {parimutuel : Bool} {pool : LiquidityPool}
    (consistent : session.Consistent) (priced : 0 < order.price)
    (found : session.current.pools.find? (poolKey market outcome parimutuel) = some pool)
    (trace : Trace now (pendingTaker now order) session.current ⟨order.remainingAmount, []⟩
      (pendingPlan now session market order outcome) matched fill) :
    ∀ offer ∈ pendingPlan now session market order outcome,
      Booked session.current.pools order.side offer := by
  intro offer member
  obtain ⟨_, marketId, outcomeId, side, _, crosses⟩ := pendingPlan_maker consistent member
  refine ⟨isSome_feePool_of_resolved marketId outcomeId found,
    pending_positive trace offer member, ?_, side⟩
  cases taker : order.side with
  | buy => exact pending_price trace taker offer member
  | sell =>
      rw [taker] at crosses
      have bound : order.price ≤ offer.maker.price := by simpa [priceCrosses] using crosses
      exact priced.trans_le bound

theorem tradeOrder_flows {processed : Processed} {pool : LiquidityPool}
    (consistent : session.Consistent) (flows : SessionFlows clean db session)
    (delivers : clean → ∀ offer ∈
      pendingPlan now session turn.market turn.order turn.outcome.id, offer.delivered = true)
    (found : session.current.orders.find? turn.order.id = some turn.order)
    (priced : 0 < turn.order.price)
    (poolFound : session.current.pools.find? turn.poolKey = some pool)
    (key : turn.poolKey = poolKey turn.market turn.outcome.id turn.parimutuel)
    (ran : tradeOrder now session turn = .ok processed) :
    SessionFlows clean db processed.session := by
  obtain ⟨matched, fill, trace, _, ends⟩ := tradeOrder_ok ran
  have owns : ∀ {row : Order}, row ∈ session.current.orders.rows →
      hasWallet session.current.wallets row.userId = true :=
    fun member => flows.current.lasting _ (flows.placed _ member)
  have booked := pendingPlan_booked consistent priced (key ▸ poolFound) trace
  have matches_ : Flows clean session.current matched := by
    refine (trace_flows trace booked (owns (Table.mem_of_find? found))
      fun offer member => ?_).weaken delivers
    exact owns (Table.mem_of_find? (pendingPlan_maker consistent member).1)
  have placed : Placed db.wallets matched.orders :=
    trace_placed (fun _ _ placed => .modify (fillTaker now _) (fillTaker_id now _) placed
      fun row => (fillTaker_sameTerms now _ row).userId) trace flows.placed
  have afterBook := flows.current.trans matches_
  rcases ends with ⟨_, _, kept | committed⟩ | ⟨traded, leg, _, left, _, legRan, final⟩
  · rw [kept]
    exact ⟨flows.committed, afterBook, flows.stored, placed⟩
  · rw [committed]
    exact ⟨afterBook, afterBook, placed, placed⟩
  · rw [final]
    obtain ⟨row, rowFound⟩ : ∃ row, matched.pools.find? turn.poolKey = some row := by
      refine Option.isSome_iff_exists.mp ?_
      rw [trace.isSome_pool, poolFound]
      rfl
    refine ⟨flows.committed, afterBook.trans (sweepLeg_flows left rowFound legRan), flows.stored, ?_⟩
    rcases (sweepLeg_ok legRan).2 with ⟨_, _, _, _, rfl⟩ | ⟨_, _, _, _, _, _, rfl⟩
    · exact .modify (fillResting now leg) (fillResting_id now leg) placed
        fun row => (fillResting_sameTerms now leg row).userId
    · exact .modify (fillResting now leg) (fillResting_id now leg) placed
        fun row => (fillResting_sameTerms now leg row).userId

theorem sweeping_flows (orderly : Orderly db.orders) (placed : Placed db.wallets db.orders)
    (sweeping : Sweeping now db session) : SessionFlows (SweepDelivers now db) db session := by
  induction sweeping with
  | start => exact ⟨.refl db, .refl db, placed, placed⟩
  | commit _ ih => exact ih.commit
  | rollback _ ih => exact ih.rollback
  | @turn session _ _ _ _ before ran ih =>
      rcases processOrder_ok ran with ⟨rfl, _⟩ | ⟨order, found, _, _, rfl⟩ |
        ⟨order, turn, found, opened, _, taken, traded⟩
      · exact ih
      · exact SessionFlows.commit
          ⟨ih.committed, ih.current.trans (expireOrder_flows now _ order), ih.stored,
            expireOrder_placed ih.placed⟩
      · obtain rfl := Table.key_of_find? found
        obtain ⟨rfl, rfl, rfl, _, key, pool, poolFound, _⟩ := takeTurn_some taken
        have lives := (orderly.ages (before.ages orderly).latest) _ _ found
        refine tradeOrder_flows before.consistent ih (fun delivers => ?_) found
          (lives.priced opened).1 poolFound key traded
        exact delivers session before turn.order turn.market turn.outcome.id

theorem checkLimitOrderExecution_flows {scanned : List Order} (orderly : Orderly db.orders)
    (placed : Placed db.wallets db.orders) :
    Flows (SweepDelivers now db) db (checkLimitOrderExecution now scanned db) ∧
      Placed (checkLimitOrderExecution now scanned db).wallets
        (checkLimitOrderExecution now scanned db).orders := by
  obtain ⟨session, sweeping, final⟩ := checkLimitOrderExecution_sweeping now scanned db
  have flows := sweeping_flows orderly placed sweeping
  rw [final]
  exact ⟨flows.committed, flows.stored.lasting flows.committed.lasting⟩

end Sweeps

/-! # Splits, liquidity and fees -/

section Products

variable {db : Database} {user : UserId} {market : MarketId} {amount : ℚ} {clean : Prop}

theorem pairOf_pooled {first second : Outcome} (pooled : Pooled db)
    (paired : SplitMerge.pairOf db market = .ok (first, second)) :
    ∃ pool, db.pools.find? ⟨market, none⟩ = some pool := by
  obtain ⟨_, rest, _, _, outcomes, binary⟩ := SplitMerge.pairOf_ok paired
  exact Option.isSome_iff_exists.mp (pooled market (by simp [outcomes]) binary)

theorem split_flows {result : SplitMerge.Result} (pooled : Pooled db)
    (ran : SplitMerge.split db user market amount = .ok result) : Flows clean db result.db := by
  obtain ⟨_, _, wallet, paired, positive, owner, _, rfl⟩ := SplitMerge.split_ok ran
  obtain ⟨pool, found⟩ := pairOf_pooled pooled paired
  have owned : hasWallet db.wallets user = true := by simp [hasWallet, owner]
  have escrowed : Escrows amount db.pools
      (db.pools.modify ⟨market, none⟩ (SplitMerge.splitPool amount)) :=
    .write _ _ found rfl fun nonneg => add_nonneg nonneg positive.le
  exact .exchange (.debit owned) escrowed rfl rfl

theorem merge_flows {result : SplitMerge.Result} (pooled : Pooled db)
    (ran : SplitMerge.merge db user market amount = .ok result) : Flows clean db result.db := by
  obtain ⟨_, _, wallet, paired, positive, owner, _, _, covered, rfl⟩ := SplitMerge.merge_ok ran
  obtain ⟨pool, found⟩ := pairOf_pooled pooled paired
  have owned : hasWallet db.wallets user = true := by simp [hasWallet, owner]
  have paid : 0 < SplitMerge.afterFee amount := by
    have part : SplitMerge.afterFee amount = amount * (98 / 100) := by
      unfold SplitMerge.afterFee SplitMerge.feeOf splitMergeFeeRate
      ring
    rw [part]
    positivity
  have escrowed : Escrows (-SplitMerge.afterFee amount) db.pools
      (db.pools.modify ⟨market, none⟩ (SplitMerge.mergePool amount)) :=
    .write _ _ found (sub_eq_add_neg _ _) fun _ => by linarith [covered pool found paid]
  refine .exchange ?_ escrowed rfl rfl
  rw [neg_neg]
  exact .credit owned

theorem addLiquidity_flows {tolerance : ℚ} {outcome : Option OutcomeName} {deposited : Deposited}
    (ran : addLiquidity db user market amount tolerance outcome = .ok deposited) :
    Flows clean db deposited.db := by
  obtain ⟨_, pool, wallet, minted, _, _, resolved, owner, _, _, nonneg, rfl⟩ := addLiquidity_ok ran
  obtain ⟨found, _⟩ := resolveLiquidityPool_ok resolved
  have owned : hasWallet db.wallets user = true := by simp [hasWallet, owner]
  have escrowed : Escrows amount db.pools
      (db.pools.modify pool.key (writeLiquidity (depositInto amount minted pool))) :=
    .write _ _ found rfl fun escrow => add_nonneg escrow nonneg
  exact .exchange (.debit owned) escrowed rfl rfl

/-- A provider who holds tokens of a market that trades takes out no less than nothing. -/
theorem removeLiquidity_flows {lpTokens tolerance : ℚ} {outcome : Option OutcomeName}
    {withdrawn : Withdrawn} (positive : 0 < lpTokens) (funded : Funded db.pools)
    (sound : Providers.Sound db)
    (ran : removeLiquidity db user market lpTokens tolerance outcome = .ok withdrawn) :
    Flows clean db withdrawn.db := by
  obtain ⟨row, pool, wallet, share, left, marketFound, active, resolved, owner, held, enough, _, _,
    debited, rfl⟩ := removeLiquidity_ok ran
  obtain ⟨found, ofMarket, _⟩ := resolveLiquidityPool_ok resolved
  have owned : hasWallet db.wallets user = true := by simp [hasWallet, owner]
  have trading : Providers.Trading db.markets pool.marketId :=
    ofMarket ▸ ⟨row, marketFound, .inl active⟩
  have ofPool : share.pool = pool.key := congrArg LPShareKey.pool (Table.key_of_find? held)
  have atMost : lpTokens ≤ pool.lpTokenSupply := by
    rw [sound.supply_of_trading found trading, ← ofPool]
    exact enough.trans
      (Providers.lpTokens_le_poolTokens sound.tokens (Table.mem_of_find? held))
  have redeemed : 0 ≤ pool.collateral * (lpTokens / pool.lpTokenSupply) :=
    mul_nonneg (funded pool (Table.mem_of_find? found))
      (div_nonneg positive.le (positive.le.trans atMost))
  obtain ⟨isLeft, covered⟩ := debitCollateral_eq debited
  rw [max_eq_right redeemed] at isLeft
  have escrowed : Escrows (-(pool.collateral * (lpTokens / pool.lpTokenSupply))) db.pools
      (db.pools.modify pool.key (writeLiquidity left)) := by
    refine .write _ _ found ?_ fun nonneg => ?_
    · rw [isLeft]
      exact sub_eq_add_neg _ _
    · rcases redeemed.lt_or_eq with some_ | none_
      · have inside : pool.collateral * (lpTokens / pool.lpTokenSupply) ≤ pool.collateral :=
          covered some_
        linarith
      · rw [← none_]
        simpa using nonneg
  refine .exchange ?_ escrowed rfl rfl
  rw [neg_neg]
  exact .credit owned

/-- One pool of the fee sweep whose row is as it was scanned. -/
theorem distributePool_flows {treasury : UserId} {pool : LiquidityPool}
    (owned : hasWallet db.wallets treasury = true) (found : db.pools.find? pool.key = some pool) :
    Flows clean db (distributePool treasury db pool) := by
  unfold distributePool
  split
  · exact .refl db
  split
  · have escrowed : Escrows 0 db.pools
        (db.pools.modify pool.key (carryFees (sweepable pool))) :=
      .write _ _ found (add_zero _).symm fun nonneg => by simpa using nonneg
    refine .exchange ?_ escrowed rfl rfl
    rw [neg_zero]
    exact .refl _
  · have atMost : sweepable pool ≤ pool.collateral := min_le_right _ _
    have escrowed : Escrows (-sweepable pool) db.pools
        (db.pools.modify pool.key (payFees (sweepable pool))) :=
      .write _ _ found (sub_eq_add_neg _ _) fun _ => by linarith
    refine .exchange ?_ escrowed rfl rfl
    rw [neg_neg]
    exact .credit owned

theorem distributePool_other {treasury : UserId} {pool other : LiquidityPool}
    (apart : other.key ≠ pool.key) :
    (distributePool treasury db pool).pools.find? other.key = db.pools.find? other.key := by
  unfold distributePool
  split
  · rfl
  split
  · dsimp only
    rw [Table.find?_modify_ne apart]
  · dsimp only
    rw [Table.find?_modify_ne apart]

theorem distributeProtocolFees_orders (db : Database) (scanned : List LiquidityPool) :
    (distributeProtocolFees db scanned).orders = db.orders := by
  have along : ∀ (treasury : UserId) (rows : List LiquidityPool) (db : Database),
      (rows.foldl (distributePool treasury) db).orders = db.orders := by
    intro treasury rows
    induction rows with
    | nil => exact fun _ => rfl
    | cons pool rest ih =>
        intro db
        refine (ih _).trans ?_
        unfold distributePool
        split
        · rfl
        · split <;> rfl
  unfold distributeProtocolFees
  split
  · rfl
  · exact along _ scanned _

theorem distributeProtocolFees_flows {scanned : List LiquidityPool}
    (reads : scanned.Perm (pendingFees db)) :
    Flows clean db (distributeProtocolFees db scanned) := by
  have along : ∀ (treasury : UserId) (rows : List LiquidityPool) (db : Database),
      hasWallet db.wallets treasury = true →
      (∀ row ∈ rows, db.pools.find? row.key = some row) →
      (rows.map LiquidityPool.key).Nodup →
      Flows clean db (rows.foldl (distributePool treasury) db) := by
    intro treasury rows
    induction rows with
    | nil => exact fun db _ _ _ => .refl db
    | cons pool rest ih =>
        intro db owned current distinct
        obtain ⟨found, later⟩ := List.forall_mem_cons.mp current
        rw [List.map_cons, List.nodup_cons] at distinct
        have head : Flows clean db (distributePool treasury db pool) :=
          distributePool_flows owned found
        refine head.trans (ih _ (head.lasting _ owned) (fun other member => ?_) distinct.2)
        rw [distributePool_other fun same => distinct.1 (same ▸ List.mem_map_of_mem member)]
        exact later other member
  unfold distributeProtocolFees
  split
  · exact .refl db
  · have opened : Flows clean db (openTreasury db).2 :=
      .stay (.opened db.wallets (openTreasury db).1) rfl rfl rfl
    refine opened.trans (along _ scanned _ (isSome_openWallet_self _ _) (fun row member => ?_) ?_)
    · exact Table.find?_key_of_mem (List.mem_of_mem_filter (reads.mem_iff.mp member))
    · rw [(reads.map LiquidityPool.key).nodup_iff]
      exact db.pools.unique.sublist (List.filter_sublist.map _)

end Products

end PredictX.MoneySupply
