import PredictX.Properties.Bans
import PredictX.Properties.OrderPlacement

namespace PredictX.Moderation

open PredictX.Data PredictX.OrderService PredictX.LimitSweep PredictX.MatchingEngine
open PredictX.MoneySupply PredictX.Placement

/-! The books of the exchange: where its money comes from.

It is paid in, or it is a reward.  An account is referred at most once, by one that was there before
it, and a referral is paid at most once; so rewards are bounded by the number of new accounts.
-/

/-! # Payments -/

section Payments

variable {env : Env} {db matched traded after : Database} {user : UserId} {now : Timestamp}

/-- A referral that has been paid for. -/
def Referral.pay (referral : Referral) : Referral :=
  { referral with completed := true, rewardAmount := referralRewardAmount }

/-- Some referrals have been paid for; the rest is as it was. -/
def Pays (before after : List Referral) : Prop :=
  ∃ paid : Referral → Bool, after = before.map fun row => if paid row then Referral.pay row else row

theorem Pays.refl (referrals : List Referral) : Pays referrals referrals :=
  ⟨fun _ => false, by simp⟩

theorem Pays.of_eq {before after : List Referral} (same : after = before) : Pays before after :=
  same ▸ .refl before

theorem creditReferral_pays (db : Database) (user : UserId) :
    Pays db.referrals (creditReferral db user).referrals := by
  unfold creditReferral
  extract_lets isPending
  split
  · split
    · exact .refl _
    split
    · exact .refl _
    · exact ⟨isPending, rfl⟩
  · exact .refl _

theorem executeOrder_pays {data : OrderRequest} {execution : Execution}
    (executed : executeOrder env db user data = .ok execution) :
    Pays db.referrals execution.db.referrals := by
  obtain ⟨venue, _, _, _, ⟨existing, _, rfl⟩ | ⟨_, _, filled⟩⟩ := executeOrder_ok executed
  · exact .refl _
  obtain ⟨matched, book, trace, ends⟩ := fillOrder_ok filled
  rw [← trace.sameElsewhere.referrals]
  rcases ends with ⟨_, _, rested⟩ | ⟨_, _, traded, leg, ran, finished⟩ | ⟨_, finished⟩
  · obtain ⟨_, _, _, _, database, _⟩ := restOrder_ok rested
    rw [database]
    exact .refl _
  · have same : traded.referrals = matched.referrals := by rw [(runAmmLeg_traded ran).2.2]
    rw [(finish_ok finished).1, ← same]
    exact creditReferral_pays _ user
  · rw [(finish_ok finished).1]
    exact creditReferral_pays _ user

theorem cancelOrder_referrals {order : OrderId}
    (cancelled : cancelOrder env db user order = .ok after) :
    after.referrals = db.referrals := by
  unfold cancelOrder at cancelled
  split at cancelled
  · split at cancelled
    · cases cancelled
      rfl
    · contradiction
  · contradiction

theorem sweepLeg_referrals {turn : Turn} {remaining : ℚ} {leg : AmmLeg}
    (ran : sweepLeg now matched turn remaining = .ok (some (traded, leg))) :
    traded.referrals = matched.referrals := by
  rcases (sweepLeg_ok ran).2 with ⟨_, _, _, _, rfl⟩ | ⟨_, _, _, _, _, _, rfl⟩
  · rfl
  · rfl

theorem tradeOrder_referrals {session : Session} {turn : Turn} {processed : Processed}
    (kept : session.committed.referrals = db.referrals ∧ session.current.referrals = db.referrals)
    (ran : tradeOrder now session turn = .ok processed) :
    processed.session.committed.referrals = db.referrals ∧
      processed.session.current.referrals = db.referrals := by
  obtain ⟨matched, fill, trace, _, ends⟩ := tradeOrder_ok ran
  have booked := trace.sameElsewhere.referrals.trans kept.2
  rcases ends with ⟨_, _, stayed | saved⟩ | ⟨traded, leg, _, _, _, legRan, final⟩
  · rw [stayed]
    exact ⟨kept.1, booked⟩
  · rw [saved]
    exact ⟨booked, booked⟩
  · rw [final]
    exact ⟨kept.1, (sweepLeg_referrals legRan).trans booked⟩

theorem sweeping_referrals {session : Session} (sweeping : Sweeping now db session) :
    session.committed.referrals = db.referrals ∧ session.current.referrals = db.referrals := by
  induction sweeping with
  | start => exact ⟨rfl, rfl⟩
  | commit _ ih => exact ⟨ih.2, ih.2⟩
  | rollback _ ih => exact ⟨ih.1, ih.1⟩
  | turn _ ran ih =>
      rcases processOrder_ok ran with ⟨rfl, _⟩ | ⟨_, _, _, _, rfl⟩ | ⟨_, _, _, _, _, _, traded⟩
      · exact ih
      · exact ⟨ih.2, ih.2⟩
      · exact tradeOrder_referrals ih traded

theorem trading_pays {action : Trading.Action} (performed : Trading.perform db action = .ok after) :
    Pays db.referrals after.referrals := by
  cases action with
  | execute env user data =>
      obtain ⟨execution, executed, rfl⟩ := map_eq_ok.mp performed
      exact executeOrder_pays executed
  | cancel env user order => exact .of_eq (cancelOrder_referrals performed)
  | expire now =>
      cases performed
      exact .of_eq (expireStaleOrders_preserves (fun after => after.referrals = db.referrals)
        (fun _ _ kept => kept) rfl)
  | sweep now dirty scanned =>
      cases performed
      obtain ⟨session, sweeping, final⟩ := checkLimitOrderExecution_sweeping now scanned db
      rw [final]
      exact .of_eq (sweeping_referrals sweeping).1

/-- An event of the platform pays for referrals and makes none. -/
theorem event_pays {platform next : Platform} {event : Event}
    (commits : event.Commits platform next) : Pays platform.db.referrals next.db.referrals := by
  rcases event_orders commits with ⟨_, performed⟩ | aside
  · exact trading_pays performed
  · exact .of_eq aside.referrals

end Payments

/-! # Who referred whom -/

section Referrals

variable {exchange after start : Exchange} {visit : Visit} {new : UserId}

/-- The accounts, the oldest first. -/
def accountIds (exchange : Exchange) : List UserId := exchange.profiles.rows.map Profile.id

/-- Somebody was brought along by an account that was there before. -/
def Follows (ids : List UserId) (referral : Referral) : Prop :=
  ∃ referrer referred, referral.referrerId = some referrer ∧ referral.referredId = some referred ∧
    [referrer, referred].Sublist ids

structure Referred (start exchange : Exchange) : Prop where
  follows : ∀ referral ∈ exchange.platform.db.referrals, Follows (accountIds exchange) referral
  once : (exchange.platform.db.referrals.map Referral.referredId).Nodup
  rewards : ∀ referral ∈ exchange.platform.db.referrals, referral.completed = true →
    referral.rewardAmount = referralRewardAmount
  count : exchange.platform.db.referrals.length + (accountIds start).length ≤
    (accountIds exchange).length

theorem Referred.pays (referred : Referred start exchange)
    (pays : Pays exchange.platform.db.referrals after.platform.db.referrals)
    (same : accountIds after = accountIds exchange) : Referred start after := by
  obtain ⟨paid, written⟩ := pays
  constructor
  · intro row member
    rw [written] at member
    obtain ⟨referral, isOld, rfl⟩ := List.mem_map.mp member
    rw [same]
    split
    · exact referred.follows referral isOld
    · exact referred.follows referral isOld
  · have ids : (exchange.platform.db.referrals.map fun row =>
        if paid row then Referral.pay row else row).map Referral.referredId =
          exchange.platform.db.referrals.map Referral.referredId := by
      rw [List.map_map]
      refine List.map_congr_left fun row _ => ?_
      dsimp only [Function.comp_apply]
      split <;> rfl
    rw [written, ids]
    exact referred.once
  · intro row member completed
    rw [written] at member
    obtain ⟨referral, isOld, rfl⟩ := List.mem_map.mp member
    split
    · rfl
    · rename_i unpaid
      rw [if_neg unpaid] at completed
      exact referred.rewards referral isOld completed
  · rw [written, List.length_map, same]
    exact referred.count

theorem accountIds_modify {update : Profile → Profile}
    {keeps : ∀ profile, (update profile).id = profile.id}
    (written : after.profiles = exchange.profiles.modify new update keeps) :
    accountIds after = accountIds exchange := by
  unfold accountIds
  rw [written, Table.keys_modify]

theorem accountIds_enrol (unused : Unused exchange new) (data : RegisterRequest) :
    accountIds (exchange.enrol new data) = accountIds exchange ++ [new] := by
  unfold accountIds Exchange.enrol
  dsimp only
  rw [Table.insert_rows _ unused.1, List.map_append]
  rfl

/-- A code belongs to an account that is there. -/
theorem referrerOf_mem {code : Option String} {referrer : UserId}
    (found : referrerOf exchange.profiles code = some referrer) :
    referrer ∈ accountIds exchange := by
  unfold referrerOf at found
  split at found
  · contradiction
  split at found
  · contradiction
  · obtain ⟨profile, isFound, rfl⟩ := Option.map_eq_some_iff.mp found
    exact List.mem_map_of_mem (List.mem_of_find?_eq_some isFound)

theorem Referred.enrol (referred : Referred start exchange) (unused : Unused exchange new)
    (data : RegisterRequest) : Referred start (exchange.enrol new data) := by
  have ids := accountIds_enrol unused data
  have grown : (accountIds exchange).Sublist (accountIds (exchange.enrol new data)) := by
    rw [ids]
    exact List.sublist_append_left _ _
  have absent : new ∉ accountIds exchange := by
    intro member
    obtain ⟨profile, isProfile, rfl⟩ := List.mem_map.mp member
    have found := Table.find?_key_of_mem isProfile
    rw [unused.1] at found
    contradiction
  have older : ∀ referral ∈ exchange.platform.db.referrals,
      Follows (accountIds (exchange.enrol new data)) referral := by
    intro referral member
    obtain ⟨referrer, brought, isReferrer, isReferred, order⟩ := referred.follows referral member
    exact ⟨referrer, brought, isReferrer, isReferred, order.trans grown⟩
  have count := referred.count
  cases source : referrerOf exchange.profiles data.referralCode with
  | none =>
      have same : (exchange.enrol new data).platform.db.referrals =
          exchange.platform.db.referrals := by
        simp [Exchange.enrol, source]
      refine ⟨?_, ?_, ?_, ?_⟩
      · rw [same]
        exact older
      · rw [same]
        exact referred.once
      · rw [same]
        exact referred.rewards
      · rw [same, ids, List.length_append]
        omega
  | some referrer =>
      have more : (exchange.enrol new data).platform.db.referrals =
          exchange.platform.db.referrals ++ [pendingReferral referrer new] := by
        simp [Exchange.enrol, source]
      have first : [referrer, new].Sublist (accountIds (exchange.enrol new data)) := by
        rw [ids]
        exact (List.singleton_sublist.mpr (referrerOf_mem source)).append (List.Sublist.refl [new])
      refine ⟨?_, ?_, ?_, ?_⟩
      · rw [more]
        intro referral member
        rcases List.mem_append.mp member with isOld | isNew
        · exact older referral isOld
        · obtain rfl := List.mem_singleton.mp isNew
          exact ⟨referrer, new, rfl, rfl, first⟩
      · rw [more, List.map_append, List.nodup_append]
        refine ⟨referred.once, List.nodup_singleton _, fun id isOld other isNew => ?_⟩
        obtain ⟨referral, member, rfl⟩ := List.mem_map.mp isOld
        obtain ⟨_, brought, _, isReferred, order⟩ := referred.follows referral member
        obtain rfl := List.mem_singleton.mp isNew
        rw [isReferred]
        intro same
        cases same
        exact absent (order.subset (List.mem_cons_of_mem _ (List.mem_singleton_self _)))
      · rw [more]
        intro referral member completed
        rcases List.mem_append.mp member with isOld | isNew
        · exact referred.rewards referral isOld completed
        · obtain rfl := List.mem_singleton.mp isNew
          contradiction
      · rw [more, ids, List.length_append, List.length_append, List.length_singleton,
          List.length_singleton]
        omega

/-- A visit pays for referrals, or it is a registration. -/
theorem makes_pays (makes : Makes exchange visit after) :
    (Pays exchange.platform.db.referrals after.platform.db.referrals ∧
      accountIds after = accountIds exchange) ∨
    ∃ new data, Unused exchange new ∧ after = exchange.enrol new data := by
  cases makes with
  | auth => exact .inl ⟨.refl _, rfl⟩
  | request _ _ _ commits => exact .inl ⟨event_pays commits, rfl⟩
  | work _ _ commits => exact .inl ⟨event_pays commits, rfl⟩
  | register unused registered =>
      rcases register_ok registered with rfl | rfl
      · exact .inl ⟨.refl _, rfl⟩
      · exact .inr ⟨_, _, unused, rfl⟩
  | referralCode given =>
      obtain ⟨platform, -, profiles, -⟩ := getReferralCode_ok given
      refine .inl ⟨.of_eq (by rw [platform]), ?_⟩
      rcases profiles with same | ⟨_, same⟩
      · exact congrArg (fun profiles => profiles.rows.map Profile.id) same
      · exact accountIds_modify same
  | ban banned =>
      obtain ⟨-, platform, -, profiles, -⟩ := banUser_ok banned
      refine .inl ⟨.of_eq ?_, accountIds_modify profiles⟩
      rw [platform]
      exact cancelOpenOrders_preserves
        (fun later => later.referrals = exchange.platform.db.referrals)
        (fun cancelled kept => (cancelOrder_referrals cancelled).trans kept) rfl
  | unban unbanned =>
      obtain ⟨platform, -, profiles, -⟩ := unbanUser_ok unbanned
      exact .inl ⟨.of_eq (by rw [platform]), accountIds_modify profiles⟩
  | delete deleted =>
      obtain ⟨_, -, platform, -, profiles, -⟩ := deleteMyAccount_ok deleted
      exact .inl ⟨.of_eq (by rw [platform]), accountIds_modify profiles⟩
  | deposit | withdraw | confirmWithdrawal => exact .inl ⟨.refl _, rfl⟩

theorem makes_referred (makes : Makes exchange visit after) (referred : Referred start exchange) :
    Referred start after := by
  rcases makes_pays makes with ⟨pays, same⟩ | ⟨new, data, unused, rfl⟩
  · exact referred.pays pays same
  · exact referred.enrol unused data

/-- The rewards that have been paid, counted. -/
def rewardsPaid (exchange : Exchange) : ℕ :=
  exchange.platform.db.referrals.countP Referral.completed

theorem Referred.rewarded_eq (referred : Referred start exchange) :
    rewarded exchange.platform.db = rewardsPaid exchange * referralRewardAmount := by
  have along : ∀ referrals : List Referral, (∀ referral ∈ referrals, referral.completed = true →
      referral.rewardAmount = referralRewardAmount) →
      (referrals.map rewardOf).sum = referrals.countP Referral.completed * referralRewardAmount := by
    intro referrals
    induction referrals with
    | nil => simp
    | cons referral rest ih =>
        intro rewards
        obtain ⟨head, tail⟩ := List.forall_mem_cons.mp rewards
        rw [List.map_cons, List.sum_cons, ih tail, List.countP_cons, rewardOf]
        split
        · rename_i completed
          rw [head completed]
          push_cast
          ring
        · push_cast
          ring
  exact along _ referred.rewards

/-- Nobody brings herself along. -/
theorem Referred.notOwn (referred : Referred start exchange) (user : UserId) :
    NotOwnReferrer exchange.platform.db user := by
  intro referral member isReferred isReferrer
  obtain ⟨referrer, brought, sameReferrer, sameReferred, order⟩ := referred.follows referral member
  cases sameReferrer.symm.trans isReferrer
  cases sameReferred.symm.trans isReferred
  have distinct : (accountIds exchange).Nodup := exchange.profiles.unique
  simpa using distinct.sublist order

/-- Whatever happens in whichever order: every referral names an account and an older one that
brought it along, no account is brought along twice, a completed one has paid the reward as it is
set, and the rewards cost at most one reward for every new account. -/
theorem referrals_are_a_forest {visits : List Visit} {final : Exchange}
    (run : Run Makes (fun _ _ => True) start visits final)
    (unreferred : start.platform.db.referrals = []) :
    (∀ referral ∈ final.platform.db.referrals, Follows (accountIds final) referral) ∧
    (final.platform.db.referrals.map Referral.referredId).Nodup ∧
    (∀ user, NotOwnReferrer final.platform.db user) ∧
    (∀ referral ∈ final.platform.db.referrals, referral.completed = true →
      referral.rewardAmount = referralRewardAmount) ∧
    rewarded final.platform.db = rewardsPaid final * referralRewardAmount ∧
    rewardsPaid final + (accountIds start).length ≤ (accountIds final).length := by
  have initially : Referred start start := by
    constructor <;> simp [unreferred]
  have referred : Referred start final :=
    run.invariant (Referred start) (fun _ _ _ _ makes before => makes_referred makes before)
      initially
  refine ⟨referred.follows, referred.once, referred.notOwn, referred.rewards,
    referred.rewarded_eq, ?_⟩
  have few : rewardsPaid final ≤ final.platform.db.referrals.length := List.countP_le_length
  have count := referred.count
  omega

end Referrals

/-! # The books -/

section Books

variable {exchange after start final : Exchange} {visit : Visit} {visits : List Visit}

/-- The visit skips no match. -/
def CleanVisit (exchange : Exchange) : Visit → Prop
  | .request _ _ event => Clean exchange.platform.db event
  | .work event => Clean exchange.platform.db event
  | _ => True

/-- The money that has come neither from outside nor as a reward. -/
def funds (exchange : Exchange) : ℚ :=
  supply exchange.platform.db - exchange.cash.sum outside

theorem funds_of_same (platform : after.platform = exchange.platform)
    (cash : after.cash = exchange.cash) : funds after = funds exchange := by
  unfold funds
  rw [platform, cash]

theorem supply_enrol {new : UserId} (unused : Unused exchange new) (data : RegisterRequest) :
    supply (exchange.enrol new data).platform.db = supply exchange.platform.db := by
  have pending : ((((referrerOf exchange.profiles data.referralCode).map
      fun referrer => pendingReferral referrer new).toList).map rewardOf).sum = 0 := by
    cases referrerOf exchange.profiles data.referralCode with
    | none => rfl
    | some referrer => simp [pendingReferral, rewardOf]
  unfold supply rewarded Database.money Exchange.enrol
  dsimp only
  rw [List.map_append, List.sum_append, pending, Table.sum_insert _ unused.2.2]
  simp

theorem cancelOpenOrders_supply {env : Env} {target : UserId} {db : Database}
    (backed : MoneySupply.Backed db) :
    supply (cancelOpenOrdersForUser env target db).1 = supply db := by
  refine (cancelOpenOrders_preserves
    (fun after => MoneySupply.Backed after ∧ supply after = supply db) ?_ ⟨backed, rfl⟩).2
  intro before after order cancelled ⟨still, same⟩
  have advances := cancelOrder_advances still cancelled
  exact ⟨advances.backed, (advances.kept trivial).trans same⟩

theorem withTill_funds {till : CashSessions.Till} {user : UserId} {amount : ℚ}
    (settles : Settles exchange.till till user amount) :
    funds (exchange.withTill till) = funds exchange := by
  have total := settles.total
  unfold funds supply Database.money Exchange.withTill
  unfold Exchange.till at total
  dsimp only at total ⊢
  have same : rewarded { exchange.platform.db with wallets := till.wallets } =
      rewarded exchange.platform.db := rfl
  rw [same]
  linarith

/-- A visit loses no money, and if it skips no match it makes none. -/
theorem makes_funds (makes : Makes exchange visit after) (sane : Sane exchange) :
    funds exchange ≤ funds after ∧ (CleanVisit exchange visit → funds after = funds exchange) := by
  have kept : ∀ {later : Exchange}, funds later = funds exchange →
      funds exchange ≤ funds later ∧
        (CleanVisit exchange visit → funds later = funds exchange) :=
    fun same => ⟨same.ge, fun _ => same⟩
  have event : ∀ {event : Event} {next : Platform}, event.Reads exchange.platform.db →
      event.Commits exchange.platform next →
      funds exchange ≤ funds { exchange with platform := next } ∧
        (Clean exchange.platform.db event →
          funds { exchange with platform := next } = funds exchange) := by
    intro event next reads commits
    have advances := MoneySupply.event_advances reads sane.backed commits
    exact ⟨sub_le_sub_right advances.grows _,
      fun clean => congrArg (· - exchange.cash.sum outside) (advances.kept clean)⟩
  cases makes with
  | auth => exact kept rfl
  | request _ _ reads commits => exact event reads commits
  | work _ reads commits => exact event reads commits
  | register unused registered =>
      rcases register_ok registered with rfl | rfl
      · exact kept rfl
      · exact kept (congrArg (· - exchange.cash.sum outside) (supply_enrol unused _))
  | referralCode given =>
      obtain ⟨platform, -, -, cash⟩ := getReferralCode_ok given
      exact kept (funds_of_same platform cash)
  | ban banned =>
      obtain ⟨-, platform, -, -, cash⟩ := banUser_ok banned
      refine kept ?_
      rw [funds, platform, cash, cancelOpenOrders_supply sane.backed]
      rfl
  | unban unbanned =>
      obtain ⟨platform, -, -, cash⟩ := unbanUser_ok unbanned
      exact kept (funds_of_same platform cash)
  | delete deleted =>
      obtain ⟨_, -, platform, -, -, cash⟩ := deleteMyAccount_ok deleted
      exact kept (funds_of_same platform cash)
  | deposit asks stores =>
      obtain ⟨_, _, settles, _⟩ := stores_settles sane.banked asks stores
      exact kept (withTill_funds settles)
  | withdraw _ asks stores =>
      obtain ⟨_, _, settles, _⟩ := stores_settles sane.banked asks stores
      exact kept (withTill_funds settles)
  | confirmWithdrawal _ asks stores =>
      obtain ⟨_, _, settles, _⟩ := stores_settles sane.banked asks stores
      exact kept (withTill_funds settles)

/-- What deposits, withdrawals and rewards have brought in since. -/
def brought (start final : Exchange) : ℚ :=
  (final.cash.sum outside - start.cash.sum outside) +
    (rewarded final.platform.db - rewarded start.platform.db)

/-- All the money of the exchange: whatever happens, none is lost, and as long as no match is
skipped, what the wallets and the escrows hold has come as a deposit or a reward and has not been
withdrawn. -/
theorem the_books_add_up (run : Run Makes (fun _ _ => True) start visits final)
    (sane : Sane start) :
    start.platform.db.money + brought start final ≤ final.platform.db.money ∧
      (Run Makes CleanVisit start visits final →
        final.platform.db.money = start.platform.db.money + brought start final) := by
  have books : ∀ exchange : Exchange, funds exchange = exchange.platform.db.money -
      rewarded exchange.platform.db - exchange.cash.sum outside := fun _ => rfl
  constructor
  · obtain ⟨-, grows⟩ : Sane final ∧ funds start ≤ funds final := by
      refine run.invariant (fun exchange => Sane exchange ∧ funds start ≤ funds exchange) ?_
        ⟨sane, le_rfl⟩
      intro exchange visit after _ makes ⟨still, grows⟩
      exact ⟨makes_sane makes still, grows.trans (makes_funds makes still).1⟩
    rw [books, books] at grows
    unfold brought
    linarith
  · intro clean
    obtain ⟨-, same⟩ : Sane final ∧ funds final = funds start := by
      refine clean.invariant (fun exchange => Sane exchange ∧ funds exchange = funds start) ?_
        ⟨sane, rfl⟩
      intro exchange visit after guarded makes ⟨still, same⟩
      exact ⟨makes_sane makes still, ((makes_funds makes still).2 guarded).trans same⟩
    rw [books, books] at same
    unfold brought
    linarith

end Books

/-! # A newcomer -/

section Newcomer

/-- User 1 has a code to pass on. -/
def invitation : Exchange :=
  { twoAccounts with
    profiles := (Table.single ⟨1, "", false, some "INVITE", none, none, false⟩).insert
      ⟨9, "", true, none, none, none, false⟩ }

def newcomer : RegisterRequest := ⟨"new", "newcomer", "secret", some "INVITE"⟩

def enrolled : Exchange := invitation.enrol 5 newcomer

def firstLogin : Auth.Call := ⟨0, none, ⟨3, 3, 3⟩, .login 5 true⟩

def admitted : Exchange :=
  { enrolled with accounts := (Auth.handle enrolled.accounts firstLogin).2 }

def firstPayment : CashSessions.Payment := ⟨"pi_5", 2500, true, some 5⟩

def paidIn : CashSessions.Till where
  wallets := admitted.till.setBalance 5 (0 + firstPayment.amount)
  rows := admitted.cash.insert ⟨1, 5, .deposit, firstPayment.amount, 0 + firstPayment.amount,
    some "pi_5", .completed⟩
  history := [] ++ [.credited "pi_5" 5 firstPayment.amount]

def firstBuy : Event := .operate (.order quietEnv 5 (marketOrder .buy 5 pos_five grid_five))

def withCode : Option Auth.Caller := some ⟨⟨5, some 3, 3, 900⟩, true⟩

def firstDay : List Visit :=
  [.register (fun _ => none) 5 newcomer, .auth firstLogin, .deposit firstPayment,
    .request moderator 1 newMarket, .request withCode 2 firstBuy]

theorem firstDay_run : ∃ final : Exchange, Run Makes CleanVisit invitation firstDay final ∧
    rewardsPaid final = 1 ∧ brought invitation final = 26 := by
  have played : succeedsWith (Event.play (admitted.withTill paidIn).platform newMarket)
      (fun opened => opened.db.orders.rows = [] &&
        succeedsWith (Event.play opened firstBuy) fun bought =>
          bought.db.referrals.countP Referral.completed = 1 &&
            brought invitation { admitted.withTill paidIn with platform := bought } = 26) =
      true := by
    decide +kernel
  obtain ⟨opened, opens, rest⟩ := succeedsWith_iff.mp played
  simp only [Bool.and_eq_true, decide_eq_true_eq] at rest
  obtain ⟨noOrders, buys⟩ := rest
  obtain ⟨bought, buys, result⟩ := succeedsWith_iff.mp buys
  simp only [Bool.and_eq_true, decide_eq_true_eq] at result
  have unused : Unused invitation 5 := by decide +kernel
  have registered : register (fun _ => none) invitation 5 newcomer = .ok enrolled := by
    have long : ¬ newcomer.username.length < 3 := by decide
    have unknown : (invitation.profiles.rows.any fun profile =>
        profile.email = newcomer.email) = false := by decide +kernel
    simp only [register, if_neg long, unknown, Bool.false_eq_true, if_false]
    rfl
  have serves : Auth.Serves enrolled.accounts firstLogin admitted.accounts :=
    ⟨by decide +kernel, rfl⟩
  have asks : Asks admitted.till (.deposit firstPayment)
      ⟨.deposit firstPayment, .locked, some ⟨5, 0, 0⟩, none⟩ :=
    .tail (.single (.paymentLookup rfl rfl rfl rfl (by decide +kernel)))
      (.depositLock rfl rfl rfl (by decide +kernel))
  have stores : CashSessions.Stores admitted.till
      ⟨.deposit firstPayment, .locked, some ⟨5, 0, 0⟩, none⟩ paidIn :=
    @CashSessions.Stores.credit admitted.till firstPayment 5 ⟨5, 0, 0⟩ 1 _ rfl rfl rfl rfl
      (by decide +kernel) (by decide +kernel)
  have admin : (admitted.withTill paidIn).accounts.getCurrentUser 1 moderator = .ok ⟨9, true⟩ := by
    decide +kernel
  have known : (admitted.withTill paidIn).accounts.getCurrentUser 2 withCode = .ok ⟨5, true⟩ := by
    decide +kernel
  have clean : Clean opened.db firstBuy := by
    intro venue _ _ offer member
    have maker := (mem_bookPlan member).1
    rw [noOrders] at maker
    cases maker
  have run : Run Makes CleanVisit invitation firstDay
      { admitted.withTill paidIn with platform := bought } :=
    .act trivial (.register unused registered) (.act trivial (.auth serves)
      (.act trivial (.deposit asks stores)
        (.act trivial (.request admin rfl trivial (Event.commits_of_play opens))
          (.act clean (.request known rfl trivial (Event.commits_of_play buys)) (.stop _)))))
  exact ⟨_, run, result.1, result.2⟩

/-- User 5 comes with the code of user 1, pays in, and buys for the first time. -/
theorem the_newcomer_follows :
    ∃ final : Exchange, Run Makes (fun _ _ => True) invitation firstDay final ∧
      (∀ user, NotOwnReferrer final.platform.db user) ∧
      rewarded final.platform.db = (1 : ℕ) * referralRewardAmount := by
  obtain ⟨final, run, one, -⟩ := firstDay_run
  have anyRun := run.weaken fun _ _ _ => trivial
  obtain ⟨_, _, notOwn, _, rewards, _⟩ := referrals_are_a_forest anyRun rfl
  rw [one] at rewards
  exact ⟨final, anyRun, notOwn, rewards⟩

/-- Of what is there at the end 25 were paid in and one is the reward of user 1. -/
theorem the_first_day_adds_up :
    ∃ final : Exchange, Run Makes CleanVisit invitation firstDay final ∧
      final.platform.db.money = invitation.platform.db.money + 26 := by
  obtain ⟨final, run, -, more⟩ := firstDay_run
  have fresh : invitation.platform.Fresh := ⟨rfl, rfl, rfl, rfl⟩
  have unpaid : Banked invitation.till := fun row member => absurd member List.not_mem_nil
  have anyRun := run.weaken fun _ _ _ => trivial
  have money := (the_books_add_up anyRun ⟨backed_fresh fresh rfl rfl, unpaid⟩).2 run
  rw [more] at money
  exact ⟨final, run, money⟩

end Newcomer

end PredictX.Moderation
