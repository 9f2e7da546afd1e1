import PredictX.Api.Events
import PredictX.Properties.Consent
import PredictX.Services.AccountDeletion
import PredictX.Services.CashSessions

namespace PredictX.Moderation

open PredictX.Data PredictX.Auth PredictX.OrderService

/-! The whole exchange: accounts that are registered, banned and deleted, the sessions they sign
in with, the money they pay in and withdraw, and the platform that their requests reach through
`get_current_user`.

Rate limits, the largest withdrawal and the second factor of a step-up are left out: they only
refuse.  A visit is served whole before the next one: a ban commits with every order that it
cancels, and nothing comes in between.
-/

/-- The columns of `users` besides `is_active` that a request here reads or writes. -/
structure Profile where
  id : UserId
  email : String
  isAdmin : Bool
  referralCode : Option String
  banReason : Option String
  bannedAt : Option ℚ
  isDeleted : Bool
deriving DecidableEq, Repr

structure Exchange where
  platform : Platform
  accounts : Auth.Accounts
  profiles : Table Profile.id
  /-- The rows of `transactions` for money that comes from outside or goes there. -/
  cash : Table CashSessions.CashRow.id

inductive Denied where
  | refusal (refusal : Refusal)
  | validation (message : String)
  /-- `AccountDeletionBlockedError`. -/
  | conflict (openOrders unsettledPositions : ℕ)
  /-- `Unable to generate unique referral code after retries`. -/
  | internal
deriving DecidableEq, Repr

/-! # Registration -/

structure RegisterRequest where
  email : String
  username : String
  password : String
  referralCode : Option String
deriving DecidableEq, Repr

/-- An id that no row has. -/
def Unused (exchange : Exchange) (id : UserId) : Prop :=
  exchange.profiles.find? id = none ∧ exchange.accounts.users.find? id = none ∧
    exchange.platform.db.wallets.find? id = none

instance (exchange : Exchange) (id : UserId) : Decidable (Unused exchange id) :=
  inferInstanceAs (Decidable (_ ∧ _))

/-- The account that a referral code belongs to; the empty string is none. -/
def referrerOf (profiles : Table Profile.id) (code : Option String) : Option UserId :=
  match code with
  | none => none
  | some code =>
      if code = "" then none
      else (profiles.rows.find? fun profile => profile.referralCode = some code).map Profile.id

/-- `Referral(..., status="pending")`. -/
def pendingReferral (referrer referred : UserId) : Referral where
  referrerId := some referrer
  referredId := some referred
  completed := false
  rewardAmount := 0

/-- The rows of a new account. -/
def Exchange.enrol (exchange : Exchange) (new : UserId) (data : RegisterRequest) : Exchange where
  platform :=
    { exchange.platform with
      db :=
        { exchange.platform.db with
          wallets := exchange.platform.db.wallets.insert ⟨new, 0, 0⟩
          referrals := exchange.platform.db.referrals ++
            ((referrerOf exchange.profiles data.referralCode).map
              fun referrer => pendingReferral referrer new).toList } }
  accounts := { exchange.accounts with users := exchange.accounts.users.insert ⟨new, true⟩ }
  profiles := exchange.profiles.insert ⟨new, data.email, false, none, none, none, false⟩
  cash := exchange.cash

/-- `register`.  `weakness` is what `PasswordStrengthService.check` finds, if anything; whoever
has an account under the address is sent a mail, and nothing is written. -/
def register (weakness : String → Option String) (exchange : Exchange) (new : UserId)
    (data : RegisterRequest) : Except Denied Exchange :=
  if data.username.length < 3 then
    .error (.validation "Username must be at least 3 characters")
  else
    match weakness data.password with
    | some reason => .error (.validation reason)
    | none =>
        if exchange.profiles.rows.any fun profile => profile.email = data.email then .ok exchange
        else .ok (exchange.enrol new data)

/-- `get_referral_code`, with the codes it draws: a code that is taken fails the commit, and the
fifth failure ends the request. -/
def getReferralCode (exchange : Exchange) (now : ℚ) (caller : Option Caller)
    (drawn : List String) : Except Denied (Exchange × String) :=
  match exchange.accounts.getCurrentUser now caller with
  | .error refusal => .error (.refusal refusal)
  | .ok user =>
      match (exchange.profiles.find? user.id).bind Profile.referralCode with
      | some code => .ok (exchange, code)
      | none =>
          match (drawn.take 5).find? fun code =>
              !exchange.profiles.rows.any fun profile => profile.referralCode = some code with
          | none => .error .internal
          | some code =>
              .ok ({ exchange with
                profiles := exchange.profiles.modify user.id fun profile =>
                  { profile with referralCode := some code } }, code)

/-! # Bans -/

/-- A request the schema let through; the reason has been stripped. -/
structure BanRequest where
  reason : String
  note : Option String
  reason_length : 3 ≤ reason.length ∧ reason.length ≤ 500
deriving DecidableEq

/-- `_get_admin_user`. -/
def getAdminUser (exchange : Exchange) (now : ℚ) (caller : Option Caller) : Except Denied User :=
  match exchange.accounts.getCurrentUser now caller with
  | .error refusal => .error (.refusal refusal)
  | .ok user =>
      if (exchange.profiles.find? user.id).any Profile.isAdmin then .ok user
      else .error (.refusal (.forbidden "Admin access required"))

/-- The user's open orders, the oldest first. -/
def openOrderIds (db : Database) (user : UserId) : List OrderId :=
  ((db.orders.rows.filter fun order => order.userId = user && order.status.isOpen).insertionSort
    fun left right => left.createdAt ≤ right.createdAt).map Order.id

/-- One turn of the loop: an order that cannot be cancelled is passed over. -/
def cancelNext (env : Env) (user : UserId) (state : Database × List OrderId) (order : OrderId) :
    Database × List OrderId :=
  match cancelOrder env state.1 user order with
  | .ok after => (after, state.2 ++ [order])
  | .error _ => state

/-- `cancel_open_orders_for_user`. -/
def cancelOpenOrdersForUser (env : Env) (user : UserId) (db : Database) :
    Database × List OrderId :=
  (openOrderIds db user).foldl (cancelNext env user) (db, [])

def Profile.ban (now : ℚ) (reason : String) (profile : Profile) : Profile :=
  { profile with banReason := some reason, bannedAt := some now }

def Profile.unban (profile : Profile) : Profile :=
  { profile with banReason := none, bannedAt := none }

/-- `ban_user`: the orders are cancelled first, then every token and session is revoked. -/
def banUser (env : Env) (exchange : Exchange) (now : ℚ) (caller : Option Caller)
    (target : UserId) (data : BanRequest) : Except Denied (Exchange × List OrderId) :=
  match getAdminUser exchange now caller with
  | .error denied => .error denied
  | .ok _ =>
      match exchange.profiles.find? target with
      | none => .error (.refusal (.notFound "User not found"))
      | some profile =>
          if profile.isAdmin then .error (.refusal (.forbidden "Cannot ban an admin"))
          else
            let cancelled := cancelOpenOrdersForUser env target exchange.platform.db
            .ok (
              { exchange with
                platform := { exchange.platform with db := cancelled.1 }
                accounts := AccountDeletion.lockOut exchange.accounts target
                profiles := exchange.profiles.modify target (Profile.ban now data.reason) },
              cancelled.2)

/-- What `unban_user` does to the accounts; a deleted account is not looked for. -/
def letIn (accounts : Auth.Accounts) (user : UserId) : Auth.Accounts :=
  { accounts with users := accounts.users.modify user fun row => { row with isActive := true } }

/-- `unban_user`. -/
def unbanUser (exchange : Exchange) (now : ℚ) (caller : Option Caller) (target : UserId) :
    Except Denied Exchange :=
  match getAdminUser exchange now caller with
  | .error denied => .error denied
  | .ok _ =>
      match exchange.profiles.find? target with
      | none => .error (.refusal (.notFound "User not found"))
      | some _ =>
          .ok { exchange with
            accounts := letIn exchange.accounts target
            profiles := exchange.profiles.modify target Profile.unban }

/-! # Deletion -/

/-- The row that a deleted account leaves. -/
def Profile.erase (tombstone : String) (profile : Profile) : Profile :=
  { profile with
    email := tombstone
    isAdmin := false
    referralCode := none
    isDeleted := true }

/-- `delete_my_account`; `verified` says that the step-up has been accepted. -/
def deleteMyAccount (exchange : Exchange) (now : ℚ) (caller : Option Caller) (verified : Bool)
    (tombstone : String) : Except Denied Exchange :=
  match exchange.accounts.getCurrentUser now caller with
  | .error refusal => .error (.refusal refusal)
  | .ok user =>
      if !verified then .error (.refusal (.unauthorized "Incorrect password"))
      else
        let orders := AccountDeletion.openOrders exchange.platform.db user.id
        let unsettled := AccountDeletion.unsettledPositions exchange.platform.db user.id
        if orders ≠ 0 ∨ unsettled ≠ 0 then .error (.conflict orders unsettled)
        else
          .ok { exchange with
            accounts := AccountDeletion.lockOut exchange.accounts user.id
            profiles := exchange.profiles.modify user.id (Profile.erase tombstone) }

/-! # External money -/

def Exchange.till (exchange : Exchange) : CashSessions.Till where
  wallets := exchange.platform.db.wallets
  rows := exchange.cash
  history := []

/-- The exchange once a request has written the till. -/
def Exchange.withTill (exchange : Exchange) (till : CashSessions.Till) : Exchange :=
  { exchange with
    platform :=
      { exchange.platform with db := { exchange.platform.db with wallets := till.wallets } }
    cash := till.rows }

/-- A request has made its look-ups and taken its locks. -/
def Asks (till : CashSessions.Till) (request : CashSessions.Request)
    (session : CashSessions.CashSession) : Prop :=
  Relation.ReflTransGen (CashSessions.Reads till) ⟨request, .begun, none, none⟩ session

/-! # Steps -/

inductive Visit where
  | auth (call : Call)
  /-- An endpoint of the platform behind `get_current_user`. -/
  | request (caller : Option Caller) (now : ℚ) (event : Event)
  /-- What a worker or a member of the staff does. -/
  | work (event : Event)
  | register (weakness : String → Option String) (new : UserId) (data : RegisterRequest)
  | referralCode (caller : Option Caller) (now : ℚ) (drawn : List String)
  | ban (env : Env) (caller : Option Caller) (now : ℚ) (target : UserId) (data : BanRequest)
  | unban (caller : Option Caller) (now : ℚ) (target : UserId)
  | delete (caller : Option Caller) (now : ℚ) (verified : Bool) (tombstone : String)
  /-- `payment_intent.succeeded`. -/
  | deposit (payment : CashSessions.Payment)
  | withdraw (caller : Option Caller) (now : ℚ) (amount : PositiveMoney) (key : Option String)
  | confirmWithdrawal (caller : Option Caller) (now : ℚ) (withdrawal : ℕ) (confirmed : Bool)

/-- What a visit that is not refused leaves behind. -/
inductive Makes (exchange : Exchange) : Visit → Exchange → Prop
  | auth {call : Call} {after : Auth.Accounts} (serves : Serves exchange.accounts call after) :
      Makes exchange (.auth call) { exchange with accounts := after }
  | request {caller : Option Caller} {now : ℚ} {event : Event} {user : User} {after : Platform}
      (known : exchange.accounts.getCurrentUser now caller = .ok user)
      (own : Consent.author event = some user.id) (reads : event.Reads exchange.platform.db)
      (commits : event.Commits exchange.platform after) :
      Makes exchange (.request caller now event) { exchange with platform := after }
  | work {event : Event} {after : Platform} (nobody : Consent.author event = none)
      (reads : event.Reads exchange.platform.db)
      (commits : event.Commits exchange.platform after) :
      Makes exchange (.work event) { exchange with platform := after }
  | register {weakness : String → Option String} {new : UserId} {data : RegisterRequest}
      {after : Exchange} (unused : Unused exchange new)
      (registered : Moderation.register weakness exchange new data = .ok after) :
      Makes exchange (.register weakness new data) after
  | referralCode {caller : Option Caller} {now : ℚ} {drawn : List String} {after : Exchange}
      {code : String} (given : getReferralCode exchange now caller drawn = .ok (after, code)) :
      Makes exchange (.referralCode caller now drawn) after
  | ban {env : Env} {caller : Option Caller} {now : ℚ} {target : UserId} {data : BanRequest}
      {after : Exchange} {cancelled : List OrderId}
      (banned : banUser env exchange now caller target data = .ok (after, cancelled)) :
      Makes exchange (.ban env caller now target data) after
  | unban {caller : Option Caller} {now : ℚ} {target : UserId} {after : Exchange}
      (unbanned : unbanUser exchange now caller target = .ok after) :
      Makes exchange (.unban caller now target) after
  | delete {caller : Option Caller} {now : ℚ} {verified : Bool} {tombstone : String}
      {after : Exchange}
      (deleted : deleteMyAccount exchange now caller verified tombstone = .ok after) :
      Makes exchange (.delete caller now verified tombstone) after
  | deposit {payment : CashSessions.Payment} {session : CashSessions.CashSession}
      {till : CashSessions.Till} (asks : Asks exchange.till (.deposit payment) session)
      (stores : CashSessions.Stores exchange.till session till) :
      Makes exchange (.deposit payment) (exchange.withTill till)
  | withdraw {caller : Option Caller} {now : ℚ} {amount : PositiveMoney} {key : Option String}
      {user : User} {session : CashSessions.CashSession} {till : CashSessions.Till}
      (known : exchange.accounts.getCurrentUser now caller = .ok user)
      (asks : Asks exchange.till (.withdraw user.id amount key) session)
      (stores : CashSessions.Stores exchange.till session till) :
      Makes exchange (.withdraw caller now amount key) (exchange.withTill till)
  | confirmWithdrawal {caller : Option Caller} {now : ℚ} {withdrawal : ℕ} {confirmed : Bool}
      {admin : User} {session : CashSessions.CashSession} {till : CashSessions.Till}
      (known : getAdminUser exchange now caller = .ok admin)
      (asks : Asks exchange.till (.confirm withdrawal confirmed) session)
      (stores : CashSessions.Stores exchange.till session till) :
      Makes exchange (.confirmWithdrawal caller now withdrawal confirmed)
        (exchange.withTill till)

end PredictX.Moderation
