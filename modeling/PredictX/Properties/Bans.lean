import PredictX.Api.Moderation
import PredictX.Properties.DeletedAccounts
import PredictX.Properties.ExternalMoney
import PredictX.Properties.LiveSessions
import PredictX.Properties.LockedFunds
import PredictX.Properties.MoneySupply

namespace PredictX.Moderation

open PredictX.Data PredictX.Auth PredictX.OrderService PredictX.AccountDeletion
open PredictX.Consent PredictX.LimitSweep PredictX.MatchingEngine PredictX.MoneySupply

/-! A ban is a freeze.

The resting orders of a banned account are cancelled and its reservations released; until it is let
in again it asks for nothing, and so nobody takes anything from it.
-/

/-! # The cancelled orders -/

section Cancels

variable {env : Env} {db after : Database} {target user : UserId} {order : OrderId}

/-- What one cancelled order preserves, `cancel_open_orders_for_user` preserves. -/
theorem cancelOpenOrders_preserves (property : Database → Prop)
    (cancels : ∀ {db after : Database} {order : OrderId},
      cancelOrder env db target order = .ok after → property db → property after)
    (initially : property db) : property (cancelOpenOrdersForUser env target db).1 := by
  have along : ∀ (ids : List OrderId) (state : Database × List OrderId), property state.1 →
      property (ids.foldl (cancelNext env target) state).1 := by
    intro ids
    induction ids with
    | nil => exact fun _ holds => holds
    | cons order rest ih =>
        intro state holds
        refine ih _ ?_
        unfold cancelNext
        split
        · exact cancels ‹_› holds
        · exact holds
  exact along _ _ initially

theorem mem_openOrderIds :
    order ∈ openOrderIds db user ↔
      ∃ row ∈ db.orders.rows, row.id = order ∧ row.userId = user ∧ row.status.isOpen = true := by
  unfold openOrderIds
  simp only [List.mem_map, List.mem_insertionSort, List.mem_filter, Bool.and_eq_true,
    decide_eq_true_eq]
  constructor
  · rintro ⟨row, ⟨member, own, opened⟩, isId⟩
    exact ⟨row, member, isId, own, opened⟩
  · rintro ⟨row, member, isId, own, opened⟩
    exact ⟨row, ⟨member, own, opened⟩, isId⟩

/-- The row of an order that a ban may have cancelled. -/
def Withdrawn (env : Env) (user : UserId) (row row' : Order) : Prop :=
  row' = row ∨ row.userId = user ∧ row.status.isOpen = true ∧
    row' = { row with status := .cancelled, executedAt := some env.now }

theorem Withdrawn.refl (row : Order) : Withdrawn env user row row := .inl rfl

theorem Withdrawn.trans {first second third : Order} (left : Withdrawn env user first second)
    (right : Withdrawn env user second third) : Withdrawn env user first third := by
  rcases left with rfl | ⟨own, opened, rfl⟩
  · exact right
  · rcases right with rfl | ⟨_, stillOpen, _⟩
    · exact .inr ⟨own, opened, rfl⟩
    · contradiction

/-- What a ban does to the books: it cancels and releases, and takes nothing. -/
structure Released (env : Env) (user : UserId) (before after : Database) : Prop where
  orders : Table.Linked (Withdrawn env user) before.orders after.orders
  balances : ∀ owner, (after.wallets.find? owner).map Wallet.balance =
    (before.wallets.find? owner).map Wallet.balance
  positions : after.positions = before.positions
  lpShares : after.lpShares = before.lpShares

theorem Released.refl (db : Database) : Released env user db db :=
  ⟨.refl Withdrawn.refl _, fun _ => rfl, rfl, rfl⟩

theorem Released.trans {middle : Database} (left : Released env user db middle)
    (right : Released env user middle after) : Released env user db after where
  orders := left.orders.trans Withdrawn.trans right.orders
  balances owner := (right.balances owner).trans (left.balances owner)
  positions := right.positions.trans left.positions
  lpShares := right.lpShares.trans left.lpShares

/-- What `cancel_order` writes. -/
structure Cancels (env : Env) (user : UserId) (order : OrderId) (before after : Database) :
    Prop where
  others : ∀ id row, after.orders.find? id = some row → row.status.isOpen = true →
    id ≠ order ∧ before.orders.find? id = some row
  wallets : ∀ owner, hasWallet after.wallets owner = hasWallet before.wallets owner
  released : Released env user before after

theorem cancelOrder_ok (cancelled : cancelOrder env db target order = .ok after) :
    Cancels env target order db after := by
  unfold cancelOrder at cancelled
  split at cancelled
  · rename_i row wallet isFound _
    split at cancelled
    · rename_i allowed
      cases cancelled
      have cancels : Withdrawn env target row
          { row with status := .cancelled, executedAt := some env.now } :=
        .inr ⟨allowed.1, allowed.2, rfl⟩
      have keeps : ∀ row : Order, Order.id
          { row with status := .cancelled, executedAt := some env.now } = row.id := fun _ => rfl
      refine ⟨fun id found isFound opened => ?_, fun user => ?_,
        .modify Withdrawn.refl keeps isFound cancels, fun user => ?_, rfl, rfl⟩
      · by_cases same : id = order
        · subst same
          dsimp only at isFound
          rw [Table.find?_modify_self] at isFound
          obtain ⟨_, _, rfl⟩ := Option.map_eq_some_iff.mp isFound
          contradiction
        · dsimp only at isFound
          rw [Table.find?_modify_ne same] at isFound
          exact ⟨same, isFound⟩
      · cases row.side with
        | buy =>
            unfold hasWallet
            dsimp only
            rw [Table.isSome_find?_modify]
        | sell => rfl
      · cases row.side with
        | sell => rfl
        | buy =>
            dsimp only
            by_cases same : user = target
            · subst same
              rw [Table.find?_modify_self, Option.map_map]
              rfl
            · rw [Table.find?_modify_ne same]
    · contradiction
  · contradiction

/-- The owner of an open order can cancel it. -/
theorem cancelOrder_isOk {row : Order} (found : db.orders.find? order = some row)
    (own : row.userId = target) (opened : row.status.isOpen = true)
    (owned : hasWallet db.wallets target = true) :
    ∃ after, cancelOrder env db target order = .ok after := by
  obtain ⟨wallet, isWallet⟩ := Option.isSome_iff_exists.mp owned
  unfold cancelOrder
  rw [found, isWallet]
  exact ⟨_, if_pos ⟨own, opened⟩⟩

/-- Every open order is cancelled. -/
theorem cancelOpenOrders_idle (owned : ∀ row ∈ db.orders.rows, row.userId = target →
      hasWallet db.wallets target = true) :
    Idle target (cancelOpenOrdersForUser env target db).1.orders := by
  have along : ∀ (ids : List OrderId) (state : Database × List OrderId),
      (∀ id row, state.1.orders.find? id = some row → row.userId = target →
        row.status.isOpen = true → id ∈ ids ∧ hasWallet state.1.wallets target = true) →
      Idle target (ids.foldl (cancelNext env target) state).1.orders := by
    intro ids
    induction ids with
    | nil =>
        intro state listed id row found own
        by_contra opened
        have member := (listed id row found own (by simpa using opened)).1
        cases member
    | cons order rest ih =>
        intro state listed
        refine ih _ ?_
        unfold cancelNext
        split
        · rename_i after cancelled
          have cancels := cancelOrder_ok cancelled
          intro id row found own opened
          obtain ⟨other, before⟩ := cancels.others id row found opened
          obtain ⟨member, hasOne⟩ := listed id row before own opened
          exact ⟨(List.mem_cons.mp member).resolve_left other,
            (cancels.wallets target).trans hasOne⟩
        · rename_i reason refused
          intro id row found own opened
          obtain ⟨member, hasOne⟩ := listed id row found own opened
          refine ⟨(List.mem_cons.mp member).resolve_left ?_, hasOne⟩
          rintro rfl
          obtain ⟨after, accepted⟩ : ∃ after, cancelOrder env state.1 target id = .ok after :=
            cancelOrder_isOk found own opened hasOne
          rw [accepted] at refused
          contradiction
  refine along _ _ fun id row found own opened => ?_
  have member := Table.mem_of_find? found
  exact ⟨mem_openOrderIds.mpr ⟨row, member, Table.key_of_find? found, own, opened⟩,
    owned row member own⟩

/-- A ban of someone without resting orders leaves the platform alone. -/
theorem cancelOpenOrders_of_idle (idle : Idle target db.orders) :
    (cancelOpenOrdersForUser env target db).1 = db := by
  have nothing : openOrderIds db target = [] := by
    refine List.eq_nil_iff_forall_not_mem.mpr fun order member => ?_
    obtain ⟨row, isRow, _, own, opened⟩ := mem_openOrderIds.mp member
    rw [idle row.id row (Table.find?_key_of_mem isRow) own] at opened
    contradiction
  unfold cancelOpenOrdersForUser
  rw [nothing]
  rfl

/-- What the ban of someone else leaves of a user's rows. -/
theorem cancelOpenOrders_passed (settled : List MarketId) (others : user ≠ target)
    (orderly : Orderly db.orders) (idle : Idle user db.orders) :
    Passed user settled db (cancelOpenOrdersForUser env target db).1 := by
  refine cancelOpenOrders_preserves (Passed user settled db) ?_
    ⟨orderly, idle, .of_unmoved (.refl db)⟩
  intro before after order cancelled passed
  have notAuthor : author (.operate (.cancel env target order)) ≠ some user :=
    fun same => others (Option.some.inj same).symm
  have reads : Operation.Reads before (.cancel env target order) := trivial
  have step := operation_passed reads notAuthor passed.orderly passed.idle
    (List.nil_subset settled) cancelled
  exact ⟨step.orderly, step.idle, passed.keeps.trans step.keeps (List.Subset.refl _)⟩

theorem cancelOpenOrders_released :
    Released env target db (cancelOpenOrdersForUser env target db).1 :=
  cancelOpenOrders_preserves (Released env target db)
    (fun cancelled released => released.trans (cancelOrder_ok cancelled).released) (.refl db)

/-- Where a lock is the sum of the open buys behind it, nothing stays locked. -/
theorem cancelOpenOrders_unlocked (backed : PredictX.Backed db.wallets db.orders)
    (idle : Idle target (cancelOpenOrdersForUser env target db).1.orders) {locked : ℚ}
    (isLocked : locked ∈ lockedOf (cancelOpenOrdersForUser env target db).1.wallets target) :
    locked = 0 := by
  have still : PredictX.Backed (cancelOpenOrdersForUser env target db).1.wallets
      (cancelOpenOrdersForUser env target db).1.orders :=
    cancelOpenOrders_preserves (fun after => PredictX.Backed after.wallets after.orders)
      (fun cancelled before => cancelOrder_backed before cancelled) backed
  rw [still.locked target locked isLocked]
  refine List.sum_eq_zero fun amount member => ?_
  obtain ⟨row, isRow, rfl⟩ := List.mem_map.mp member
  refine if_neg fun held => ?_
  have closed := idle row.id row (Table.find?_key_of_mem isRow) held.1
  exact Bool.noConfusion (held.2.2.symm.trans closed)

theorem cancelOpenOrders_lasting :
    Lasting db.wallets (cancelOpenOrdersForUser env target db).1.wallets := by
  refine cancelOpenOrders_preserves (fun after => Lasting db.wallets after.wallets) ?_ (.refl _)
  intro before after order cancelled lasting owner owned
  rw [(cancelOrder_ok cancelled).wallets]
  exact lasting owner owned

/-- A cancelled order is an event of the platform that skips no match. -/
theorem cancelOrder_advances (backed : MoneySupply.Backed db)
    (cancelled : cancelOrder env db target order = .ok after) : Advances True db after := by
  have commits : Event.Commits ⟨db, []⟩ (.operate (.cancel env target order)) ⟨after, []⟩ :=
    ⟨cancelled, rfl⟩
  have reads : Event.Reads (Platform.db ⟨db, []⟩) (.operate (.cancel env target order)) := trivial
  exact MoneySupply.event_advances reads backed commits

theorem cancelOpenOrders_backed (backed : MoneySupply.Backed db) :
    MoneySupply.Backed (cancelOpenOrdersForUser env target db).1 :=
  cancelOpenOrders_preserves MoneySupply.Backed
    (fun cancelled still => (cancelOrder_advances still cancelled).backed) backed

end Cancels

/-! # The accounts -/

section Accounts

variable {accounts : Auth.Accounts} {call : Call} {user target : UserId} {id : Auth.SessionId}

theorem blacklistAccessToken_users {now : ℚ} {caller : Option Caller} :
    (accounts.blacklistAccessToken now caller).users = accounts.users := by
  unfold Auth.Accounts.blacklistAccessToken
  split
  · rfl
  · dsimp only
    split <;> rfl

/-- No request to the authentication changes who may come in. -/
theorem handle_users : (handle accounts call).2.users = accounts.users := by
  have did : Did accounts call (handle accounts call) := handle_did
  generalize handle accounts call = result at did ⊢
  cases did with
  | kept | reset | dropped | login | rotated | revoked | ended => rfl
  | signedOff | loggedOutAlone | loggedOut | loggedOutAll | changed =>
      exact blacklistAccessToken_users

theorem not_any_of_locked (locked : LockedOut accounts user) :
    (accounts.users.find? user).any User.isActive = false := by
  cases found : accounts.users.find? user with
  | none => rfl
  | some row => exact locked row found

/-- Whoever is locked out is issued nothing. -/
theorem handle_issues (locked : LockedOut accounts user) {access : AccessToken} {new : TokenId}
    (issued : (handle accounts call).1 = .issued access new) : access.sub ≠ user := by
  have did : Did accounts call (handle accounts call) := handle_did
  have inactive := not_any_of_locked locked
  generalize handle accounts call = result at did issued
  cases did with
  | kept | loggedOutAlone | loggedOut | loggedOutAll | revoked | reset | ended | dropped =>
      exact absurd issued nofun
  | signedOff _ _ silent => exact absurd issued (silent access new)
  | login _ active =>
      cases issued
      rintro rfl
      exact Bool.noConfusion (active.symm.trans inactive)
  | rotated _ _ _ _ admits =>
      cases issued
      rintro rfl
      exact Bool.noConfusion (admits.active.symm.trans inactive)
  | changed _ known =>
      cases issued
      exact locked.refuses known

/-- A lock-out ends the sessions of the user. -/
theorem lockOut_revokes {session : Auth.Session} (found : accounts.sessions.find? id = some session)
    (own : session.userId = user) : (AccountDeletion.lockOut accounts user).SessionRevoked id := by
  refine ⟨session.revokeFor user, ?_, ?_⟩
  · unfold AccountDeletion.lockOut Auth.Accounts.revokeChain Auth.Accounts.revokeSessionsOf
    dsimp only [Auth.Accounts.revokeAllRefreshTokens]
    rw [Table.find?_updateAll, found]
    rfl
  · cases already : session.revoked with
    | true => simp [Auth.Session.revokeFor, already]
    | false => simp [Auth.Session.revokeFor, already, own, Auth.Session.revoke]

theorem lockOut_sessionRevoked (revoked : accounts.SessionRevoked id) :
    (AccountDeletion.lockOut accounts target).SessionRevoked id := by
  have ended : (accounts.revokeSessionsOf target).SessionRevoked id := revoked.revokeAll
  exact ended

theorem locked_lockOut (locked : LockedOut accounts user) :
    LockedOut (AccountDeletion.lockOut accounts target) user := by
  intro row found
  by_cases same : user = target
  · subst same
    exact lockOut_locks accounts user row found
  · dsimp only [AccountDeletion.lockOut] at found
    rw [Table.find?_modify_ne same] at found
    exact locked row found

theorem locked_letIn (locked : LockedOut accounts user) (others : user ≠ target) :
    LockedOut (letIn accounts target) user := by
  intro row found
  dsimp only [Moderation.letIn] at found
  rw [Table.find?_modify_ne others] at found
  exact locked row found

end Accounts

/-! # The requests -/

section Requests

variable {env : Env} {exchange after : Exchange} {now : ℚ} {caller : Option Caller}
  {target user new : UserId}

theorem banUser_ok {data : BanRequest} {cancelled : List OrderId}
    (banned : banUser env exchange now caller target data = .ok (after, cancelled)) :
    (exchange.profiles.find? target).isSome = true ∧
    after.platform =
      ⟨(cancelOpenOrdersForUser env target exchange.platform.db).1, exchange.platform.settled⟩ ∧
    after.accounts = AccountDeletion.lockOut exchange.accounts target ∧
    after.profiles = exchange.profiles.modify target (Profile.ban now data.reason) ∧
    after.cash = exchange.cash := by
  unfold banUser at banned
  split at banned
  · contradiction
  split at banned
  · contradiction
  rename_i profile found
  split at banned
  · contradiction
  · cases banned
    exact ⟨Option.isSome_iff_exists.mpr ⟨profile, found⟩, rfl, rfl, rfl, rfl⟩

theorem unbanUser_ok (unbanned : unbanUser exchange now caller target = .ok after) :
    after.platform = exchange.platform ∧ after.accounts = letIn exchange.accounts target ∧
    after.profiles = exchange.profiles.modify target Profile.unban ∧
    after.cash = exchange.cash := by
  unfold unbanUser at unbanned
  split at unbanned
  · contradiction
  split at unbanned
  · contradiction
  · cases unbanned
    exact ⟨rfl, rfl, rfl, rfl⟩

theorem deleteMyAccount_ok {verified : Bool} {tombstone : String}
    (deleted : deleteMyAccount exchange now caller verified tombstone = .ok after) :
    ∃ account, exchange.accounts.getCurrentUser now caller = .ok account ∧
      after.platform = exchange.platform ∧
      after.accounts = AccountDeletion.lockOut exchange.accounts account.id ∧
      after.profiles = exchange.profiles.modify account.id (Profile.erase tombstone) ∧
      after.cash = exchange.cash := by
  unfold deleteMyAccount at deleted
  split at deleted
  · contradiction
  rename_i account known
  split at deleted
  · contradiction
  dsimp only at deleted
  split at deleted
  · contradiction
  · cases deleted
    exact ⟨account, known, rfl, rfl, rfl, rfl⟩

theorem register_ok {weakness : String → Option String} {data : RegisterRequest}
    (registered : register weakness exchange new data = .ok after) :
    after = exchange ∨ after = exchange.enrol new data := by
  unfold register at registered
  split at registered
  · contradiction
  split at registered
  · contradiction
  split at registered
  · exact .inl (Except.ok.inj registered).symm
  · exact .inr (Except.ok.inj registered).symm

theorem getReferralCode_ok {drawn : List String} {code : String}
    (given : getReferralCode exchange now caller drawn = .ok (after, code)) :
    after.platform = exchange.platform ∧ after.accounts = exchange.accounts ∧
    (after.profiles = exchange.profiles ∨ ∃ user,
      after.profiles = exchange.profiles.modify user fun profile =>
        { profile with referralCode := some code }) ∧
    after.cash = exchange.cash := by
  unfold getReferralCode at given
  split at given
  · contradiction
  split at given
  · cases given
    exact ⟨rfl, rfl, .inl rfl, rfl⟩
  split at given
  · contradiction
  · cases given
    exact ⟨rfl, rfl, .inr ⟨_, rfl⟩, rfl⟩

theorem lasting_enrol {data : RegisterRequest} : Lasting exchange.platform.db.wallets
    (exchange.enrol new data).platform.db.wallets := by
  intro owner owned
  obtain ⟨wallet, found⟩ := Option.isSome_iff_exists.mp owned
  have kept : (exchange.platform.db.wallets.insert ⟨new, 0, 0⟩).find? owner = some wallet :=
    Table.find?_insert_of_find? _ found
  exact Option.isSome_iff_exists.mpr ⟨wallet, kept⟩

theorem backed_of_lasting {db : Database} {wallets : Table Wallet.userId}
    (referrals : List Referral) (backed : MoneySupply.Backed db)
    (lasting : Lasting db.wallets wallets) :
    MoneySupply.Backed { db with wallets := wallets, referrals := referrals } where
  orderly := backed.orderly
  sound := ⟨backed.sound.reserves, backed.sound.tokens, backed.sound.supply,
    backed.sound.undecided⟩
  placed := backed.placed.lasting lasting
  provided := backed.provided.lasting lasting
  funded := backed.funded
  pooled := backed.pooled

/-- What the books of the exchange rest on. -/
structure Sane (exchange : Exchange) : Prop where
  backed : MoneySupply.Backed exchange.platform.db
  banked : Banked exchange.till

theorem banked_of_lasting (banked : Banked exchange.till) (same : after.cash = exchange.cash)
    (lasting : Lasting exchange.platform.db.wallets after.platform.db.wallets) :
    Banked after.till := by
  intro row member
  have old : row ∈ exchange.cash.rows := same ▸ member
  exact ⟨lasting _ (banked row old).1, (banked row old).2⟩

/-- A visit to the accounts alone. -/
theorem Sane.of_same (sane : Sane exchange) (platform : after.platform = exchange.platform)
    (cash : after.cash = exchange.cash) : Sane after where
  backed := platform ▸ sane.backed
  banked := banked_of_lasting sane.banked cash (platform ▸ .refl _)

theorem Sane.event (sane : Sane exchange) {event : Event} {next : Platform}
    (reads : event.Reads exchange.platform.db) (commits : event.Commits exchange.platform next) :
    Sane { exchange with platform := next } := by
  have advances := MoneySupply.event_advances reads sane.backed commits
  exact ⟨advances.backed, banked_of_lasting sane.banked rfl advances.lasting⟩

theorem Sane.cash (sane : Sane exchange) {request : CashSessions.Request}
    {session : CashSessions.CashSession} {till : CashSessions.Till}
    (asks : Asks exchange.till request session)
    (stores : CashSessions.Stores exchange.till session till) : Sane (exchange.withTill till) := by
  obtain ⟨_, _, settles, _⟩ := stores_settles sane.banked asks stores
  exact ⟨backed_of_lasting _ sane.backed settles.lasting, settles.banked⟩

/-- No visit leaves the books without backing. -/
theorem makes_sane {visit : Visit} (makes : Makes exchange visit after) (sane : Sane exchange) :
    Sane after := by
  cases makes with
  | auth => exact sane.of_same rfl rfl
  | request _ _ reads commits => exact sane.event reads commits
  | work _ reads commits => exact sane.event reads commits
  | @register _ new data _ _ registered =>
      have lasting : Lasting exchange.platform.db.wallets
        (exchange.enrol new data).platform.db.wallets := lasting_enrol
      rcases register_ok registered with rfl | rfl
      · exact sane
      · exact ⟨backed_of_lasting _ sane.backed lasting,
          banked_of_lasting sane.banked rfl lasting⟩
  | referralCode given =>
      obtain ⟨platform, -, -, cash⟩ := getReferralCode_ok given
      exact sane.of_same platform cash
  | ban banned =>
      obtain ⟨-, platform, -, -, cash⟩ := banUser_ok banned
      refine ⟨?_, banked_of_lasting sane.banked cash ?_⟩
      · rw [platform]
        exact cancelOpenOrders_backed sane.backed
      · rw [platform]
        exact cancelOpenOrders_lasting
  | unban unbanned =>
      obtain ⟨platform, -, -, cash⟩ := unbanUser_ok unbanned
      exact sane.of_same platform cash
  | delete deleted =>
      obtain ⟨_, -, platform, -, -, cash⟩ := deleteMyAccount_ok deleted
      exact sane.of_same platform cash
  | deposit asks stores => exact sane.cash asks stores
  | withdraw _ asks stores => exact sane.cash asks stores
  | confirmWithdrawal _ asks stores => exact sane.cash asks stores

/-- No visit brings a session back. -/
theorem makes_sessionRevoked {visit : Visit} {id : Auth.SessionId}
    (makes : Makes exchange visit after) (revoked : exchange.accounts.SessionRevoked id) :
    after.accounts.SessionRevoked id := by
  cases makes with
  | auth serves =>
      obtain ⟨-, rfl⟩ := serves
      exact handle_did.keeps_session revoked
  | request | work | deposit | withdraw | confirmWithdrawal => exact revoked
  | register _ registered =>
      rcases register_ok registered with rfl | rfl
      · exact revoked
      · exact revoked
  | referralCode given =>
      obtain ⟨-, accounts, -⟩ := getReferralCode_ok given
      rw [accounts]
      exact revoked
  | ban banned =>
      obtain ⟨-, -, accounts, -⟩ := banUser_ok banned
      rw [accounts]
      exact lockOut_sessionRevoked revoked
  | unban unbanned =>
      obtain ⟨-, accounts, -⟩ := unbanUser_ok unbanned
      rw [accounts]
      exact revoked
  | delete deleted =>
      obtain ⟨_, -, -, accounts, -⟩ := deleteMyAccount_ok deleted
      rw [accounts]
      exact lockOut_sessionRevoked revoked

end Requests

/-! # Runs -/

section Runs

variable {user : UserId} {books : Database} {exchange after : Exchange} {visit : Visit}
  {env : Env} {now : ℚ} {caller : Option Caller} {data : BanRequest}
  {start before banned final : Exchange} {visits more : List Visit} {cancelled : List OrderId}

/-- The visit lets the user in again. -/
def Readmits (user : UserId) : Visit → Prop
  | .unban _ _ target => target = user
  | _ => False

/-- A banned account; `books` are those that the ban has left. -/
structure Frozen (user : UserId) (books : Database) (exchange : Exchange) : Prop where
  orderly : Orderly exchange.platform.db.orders
  idle : Idle user exchange.platform.db.orders
  keeps : Keeps user exchange.platform.settled books exchange.platform.db
  locked : LockedOut exchange.accounts user
  known : (exchange.profiles.find? user).isSome = true

/-- A visit to the accounts alone. -/
theorem Frozen.of_same (frozen : Frozen user books exchange)
    (platform : after.platform = exchange.platform) (locked : LockedOut after.accounts user)
    (known : (after.profiles.find? user).isSome = true) : Frozen user books after where
  orderly := platform ▸ frozen.orderly
  idle := platform ▸ frozen.idle
  keeps := platform ▸ frozen.keeps
  locked := locked
  known := known

/-- Somebody else's event. -/
theorem Frozen.event (frozen : Frozen user books exchange) {event : Event} {next : Platform}
    (others : author event ≠ some user) (reads : event.Reads exchange.platform.db)
    (commits : event.Commits exchange.platform next) :
    Frozen user books { exchange with platform := next } := by
  have passed := event_passed reads others frozen.orderly frozen.idle commits
  have grows : exchange.platform.settled ⊆ next.settled := by
    rw [commits.2]
    exact List.subset_append_right _ _
  exact ⟨passed.orderly, passed.idle, frozen.keeps.trans passed.keeps grows, frozen.locked,
    frozen.known⟩

/-- A new account has another id. -/
theorem Frozen.enrol (frozen : Frozen user books exchange) {new : UserId}
    (unused : Unused exchange new) (data : RegisterRequest) :
    Frozen user books (exchange.enrol new data) := by
  have others : user ≠ new := by
    rintro rfl
    have known := frozen.known
    rw [unused.1] at known
    contradiction
  have unmoved : Unmoved user exchange.platform.db (exchange.enrol new data).platform.db :=
    ⟨Table.find?_insert_ne _ others, fun _ _ => rfl, fun _ => rfl⟩
  refine ⟨frozen.orderly, frozen.idle,
    frozen.keeps.trans (.of_unmoved unmoved) (List.Subset.refl _), fun row found => ?_, ?_⟩
  · have same : (exchange.accounts.users.insert ⟨new, true⟩).find? user = some row := found
    rw [Table.find?_insert_ne _ others] at same
    exact frozen.locked row same
  · have same : ((exchange.profiles.insert
        ⟨new, data.email, false, none, none, none, false⟩).find? user).isSome = true := by
      rw [Table.find?_insert_ne _ others]
      exact frozen.known
    exact same

/-- The ban of an account, once more or of another one. -/
theorem Frozen.ban (frozen : Frozen user books exchange) {target : UserId}
    (isBanned : banUser env exchange now caller target data = .ok (after, cancelled)) :
    Frozen user books after := by
  obtain ⟨-, platform, accounts, profiles, -⟩ := banUser_ok isBanned
  have known : (after.profiles.find? user).isSome = true := by
    rw [profiles, Table.isSome_find?_modify]
    exact frozen.known
  have locked : LockedOut after.accounts user := accounts ▸ locked_lockOut frozen.locked
  by_cases same : user = target
  · subst same
    rw [cancelOpenOrders_of_idle frozen.idle] at platform
    exact frozen.of_same platform locked known
  · have passed : Passed user exchange.platform.settled exchange.platform.db
        (cancelOpenOrdersForUser env target exchange.platform.db).1 :=
      cancelOpenOrders_passed _ same frozen.orderly frozen.idle
    exact ⟨platform ▸ passed.orderly, platform ▸ passed.idle,
      platform ▸ frozen.keeps.trans passed.keeps (List.Subset.refl _), locked, known⟩

/-- Money from outside, or money that another user withdraws. -/
theorem Frozen.cash (frozen : Frozen user books exchange) {owner : UserId} {amount : ℚ}
    {till : CashSessions.Till} (settles : Settles exchange.till till owner amount)
    (harmless : owner ≠ user ∨ 0 ≤ amount) : Frozen user books (exchange.withTill till) := by
  have gains : Gains user exchange.platform.db.wallets till.wallets := by
    rw [settles.wallets]
    rcases harmless with others | nonneg
    · exact .of_same (Table.find?_modify_ne others.symm)
    · exact .credit nonneg
  have keeps : Keeps user exchange.platform.settled exchange.platform.db
      (exchange.withTill till).platform.db := ⟨gains, fun _ _ => rfl, fun _ _ => rfl⟩
  exact ⟨frozen.orderly, frozen.idle, frozen.keeps.trans keeps (List.Subset.refl _),
    frozen.locked, frozen.known⟩

/-- Whatever happens short of an unban, the account stays as the ban has left it. -/
theorem Frozen.step (frozen : Frozen user books exchange) (sane : Sane exchange)
    (shut : ¬ Readmits user visit) (makes : Makes exchange visit after) :
    Frozen user books after := by
  cases makes with
  | auth serves =>
      obtain ⟨-, rfl⟩ := serves
      refine frozen.of_same rfl ?_ frozen.known
      unfold LockedOut
      rw [handle_users]
      exact frozen.locked
  | request known own reads commits =>
      refine frozen.event (fun same => ?_) reads commits
      exact frozen.locked.refuses known (Option.some.inj (own.symm.trans same))
  | work nobody reads commits =>
      refine frozen.event (fun same => ?_) reads commits
      rw [nobody] at same
      contradiction
  | register unused registered =>
      rcases register_ok registered with rfl | rfl
      · exact frozen
      · exact frozen.enrol unused _
  | referralCode given =>
      obtain ⟨platform, accounts, profiles, -⟩ := getReferralCode_ok given
      refine frozen.of_same platform (accounts ▸ frozen.locked) ?_
      rcases profiles with same | ⟨_, same⟩
      · rw [same]
        exact frozen.known
      · rw [same, Table.isSome_find?_modify]
        exact frozen.known
  | ban isBanned => exact frozen.ban isBanned
  | unban unbanned =>
      obtain ⟨platform, accounts, profiles, -⟩ := unbanUser_ok unbanned
      have locked : LockedOut after.accounts user :=
        accounts ▸ locked_letIn frozen.locked fun same => shut same.symm
      refine frozen.of_same platform locked ?_
      rw [profiles, Table.isSome_find?_modify]
      exact frozen.known
  | delete deleted =>
      obtain ⟨account, -, platform, accounts, profiles, -⟩ := deleteMyAccount_ok deleted
      refine frozen.of_same platform (accounts ▸ locked_lockOut frozen.locked) ?_
      rw [profiles, Table.isSome_find?_modify]
      exact frozen.known
  | deposit asks stores =>
      obtain ⟨_, _, settles, ⟨_, _, other⟩ | nonneg⟩ := stores_settles sane.banked asks stores
      · contradiction
      · exact frozen.cash settles (.inr nonneg)
  | withdraw known asks stores =>
      obtain ⟨_, _, settles, ⟨_, _, own⟩ | nonneg⟩ := stores_settles sane.banked asks stores
      · cases own
        exact frozen.cash settles (.inl (frozen.locked.refuses known))
      · exact frozen.cash settles (.inr nonneg)
  | confirmWithdrawal _ asks stores =>
      obtain ⟨_, _, settles, ⟨_, _, other⟩ | nonneg⟩ := stores_settles sane.banked asks stores
      · contradiction
      · exact frozen.cash settles (.inr nonneg)

theorem frozen_ban (backed : MoneySupply.Backed before.platform.db)
    (isBanned : banUser env before now caller user data = .ok (banned, cancelled)) :
    Frozen user banned.platform.db banned := by
  obtain ⟨known, platform, accounts, profiles, -⟩ := banUser_ok isBanned
  have idle : Idle user (cancelOpenOrdersForUser env user before.platform.db).1.orders :=
    cancelOpenOrders_idle fun row member own => own ▸ backed.placed row member
  refine ⟨?_, platform ▸ idle, .of_unmoved (.refl _), accounts ▸ lockOut_locks _ user, ?_⟩
  · rw [platform]
    exact (cancelOpenOrders_backed backed).orderly
  · rw [profiles, Table.isSome_find?_modify]
    exact known

/-- A ban is a freeze.  The resting orders of the account are cancelled and what they lock is
released, and nothing else moves.  Until it is let in again, whoever trades: none of its orders
rests, it loses nothing but tokens of markets that are settled, it signs in to nothing, and no
request of it is served. -/
theorem a_ban_is_a_freeze (earlier : Run Makes (fun _ _ => True) start visits before)
    (sane : Sane start)
    (isBanned : banUser env before now caller user data = .ok (banned, cancelled))
    (later : Run Makes (fun _ visit => ¬ Readmits user visit) banned more final) :
    Released env user before.platform.db banned.platform.db ∧
    (PredictX.Backed before.platform.db.wallets before.platform.db.orders →
      ∀ locked ∈ lockedOf banned.platform.db.wallets user, locked = 0) ∧
    Idle user final.platform.db.orders ∧
    Keeps user final.platform.settled banned.platform.db final.platform.db ∧
    (∀ now caller account, final.accounts.getCurrentUser now caller = .ok account →
      account.id ≠ user) ∧
    ∀ call access new, (handle final.accounts call).1 = .issued access new → access.sub ≠ user := by
  have saneThen : Sane before :=
    earlier.invariant Sane (fun _ _ _ _ makes still => makes_sane makes still) sane
  have saneNow : Sane banned := makes_sane (.ban isBanned) saneThen
  obtain ⟨-, frozen⟩ : Sane final ∧ Frozen user banned.platform.db final := by
    refine later.invariant
      (fun exchange => Sane exchange ∧ Frozen user banned.platform.db exchange) ?_
      ⟨saneNow, frozen_ban saneThen.backed isBanned⟩
    intro exchange visit after shut makes ⟨sane, frozen⟩
    exact ⟨makes_sane makes sane, frozen.step sane shut makes⟩
  obtain ⟨-, platform, -⟩ := banUser_ok isBanned
  refine ⟨?_, fun matched locked isLocked => ?_, frozen.idle, frozen.keeps,
    fun _ _ _ known => frozen.locked.refuses known,
    fun _ _ _ issued => handle_issues frozen.locked issued⟩
  · rw [platform]
    exact cancelOpenOrders_released
  · rw [platform] at isLocked
    exact cancelOpenOrders_unlocked matched (cancelOpenOrders_idle fun row member own =>
      own ▸ saneThen.backed.placed row member) isLocked

/-- User 1 may trade and user 9 may ban. -/
def twoAccounts : Exchange where
  platform := ⟨{ BinaryMarket.emptyExchange with
    wallets := BinaryMarket.emptyExchange.wallets.insert ⟨9, 10000, 0⟩ }, []⟩
  accounts :=
    { Auth.Accounts.start ((Table.single ⟨1, true⟩).insert ⟨9, true⟩) with
      sessions := (Table.single ⟨1, 1, 1, 1000, false⟩).insert ⟨2, 9, 2, 1000, false⟩ }
  profiles := (Table.single ⟨1, "", false, none, none, none, false⟩).insert
    ⟨9, "", true, none, none, none, false⟩
  cash := .empty

def trader : Option Caller := some ⟨⟨1, some 1, 1, 900⟩, true⟩

def moderator : Option Caller := some ⟨⟨9, some 2, 2, 900⟩, true⟩

def newMarket : Event := .createMarket 0 ⟨9, true, true, false⟩ BinaryMarket.seededRequest

theorem fair_price : ∀ limit ∈ some (4 / 10 : ℚ), 0 ≤ limit ∧ limit ≤ 1 := by decide +kernel

theorem spam_length : 3 ≤ "spam".length ∧ "spam".length ≤ 500 := by decide

def spamming : BanRequest := ⟨"spam", none, spam_length⟩

def restingBuy : Event :=
  .operate (.order quietEnv 1 (Trading.limitOrder .buy 50 (4 / 10) pos_fifty grid_fifty
    fair_price))

/-- User 9 opens a market, user 1 rests a buy and is banned. -/
theorem a_banned_trader_waits :
    ∃ before banned final : Exchange, ∃ cancelled : List OrderId, cancelled.length = 1 ∧
      Run Makes (fun _ _ => True) twoAccounts
        [.request moderator 0 newMarket, .request trader 1 restingBuy] before ∧
      banUser quietEnv before 2 moderator 1 spamming = .ok (banned, cancelled) ∧
      Run Makes (fun _ visit => ¬ Readmits 1 visit) banned [.work (.closeMarkets 3)] final ∧
      Idle 1 final.platform.db.orders ∧
      Keeps 1 final.platform.settled banned.platform.db final.platform.db := by
  have played : succeedsWith (Event.play twoAccounts.platform newMarket) (fun opened =>
      succeedsWith (Event.play opened restingBuy) fun rested =>
        succeedsWith (banUser quietEnv { twoAccounts with platform := rested } 2 moderator 1
          spamming) fun result => result.2.length = 1) = true := by
    decide +kernel
  obtain ⟨opened, opens, rest⟩ := succeedsWith_iff.mp played
  obtain ⟨rested, rests, rest⟩ := succeedsWith_iff.mp rest
  obtain ⟨⟨banned, cancelled⟩, isBanned, one⟩ := succeedsWith_iff.mp rest
  have admin : twoAccounts.accounts.getCurrentUser 0 moderator = .ok ⟨9, true⟩ := by
    decide +kernel
  have known : twoAccounts.accounts.getCurrentUser 1 trader = .ok ⟨1, true⟩ := by
    decide +kernel
  have earlier : Run Makes (fun _ _ => True) twoAccounts
      [.request moderator 0 newMarket, .request trader 1 restingBuy]
      { twoAccounts with platform := rested } :=
    .act trivial (.request admin rfl trivial (Event.commits_of_play opens))
      (.act trivial (.request known rfl trivial (Event.commits_of_play rests)) (.stop _))
  have closes : Event.Commits banned.platform (.closeMarkets 3)
      ⟨Resolution.checkMarketsReadyToResolve 3 banned.platform.db, banned.platform.settled⟩ :=
    ⟨rfl, rfl⟩
  have later : Run Makes (fun _ visit => ¬ Readmits 1 visit) banned [.work (.closeMarkets 3)] _ :=
    .act id (.work rfl trivial closes) (.stop _)
  have fresh : twoAccounts.platform.Fresh := ⟨rfl, rfl, rfl, rfl⟩
  have unpaid : Banked twoAccounts.till := fun row member => absurd member List.not_mem_nil
  obtain ⟨_, _, idle, keeps, _⟩ :=
    a_ban_is_a_freeze earlier ⟨backed_fresh fresh rfl rfl, unpaid⟩ isBanned later
  exact ⟨_, banned, _, cancelled, of_decide_eq_true one, earlier, isBanned, later, idle, keeps⟩

/-- A session that a ban ends stays ended, also when the account is let in again. -/
theorem no_session_survives_a_ban
    (isBanned : banUser env before now caller user data = .ok (banned, cancelled))
    (later : Run Makes (fun _ _ => True) banned more final) :
    ∀ session ∈ before.accounts.sessions.rows, session.userId = user →
      ∀ now (caller : Caller), caller.access.sid = some session.id →
        ∃ refusal, final.accounts.getCurrentUser now (some caller) = .error refusal := by
  intro session member own now caller bound
  have ended : banned.accounts.SessionRevoked session.id := by
    obtain ⟨-, -, accounts, -⟩ := banUser_ok isBanned
    rw [accounts]
    exact lockOut_revokes (Table.find?_key_of_mem member) own
  exact getCurrentUser_refuses
    (later.invariant (fun exchange => exchange.accounts.SessionRevoked session.id)
      (fun _ _ _ _ makes still => makes_sessionRevoked makes still) ended) bound

/-- User 1 is let in again and has to sign in again. -/
theorem an_unban_keeps_the_session_ended :
    ∃ banned final : Exchange, ∃ cancelled : List OrderId,
      banUser quietEnv twoAccounts 2 moderator 1 spamming = .ok (banned, cancelled) ∧
      Run Makes (fun _ _ => True) banned [.unban moderator 3 1] final ∧
      ∃ refusal, final.accounts.getCurrentUser 4 trader = .error refusal := by
  have played : succeedsWith (banUser quietEnv twoAccounts 2 moderator 1 spamming) (fun result =>
      succeedsWith (unbanUser result.1 3 moderator 1) fun _ => true) = true := by
    decide +kernel
  obtain ⟨⟨banned, cancelled⟩, isBanned, rest⟩ := succeedsWith_iff.mp played
  obtain ⟨final, unbanned, _⟩ := succeedsWith_iff.mp rest
  have later : Run Makes (fun _ _ => True) banned [.unban moderator 3 1] final :=
    .act trivial (.unban unbanned) (.stop final)
  have member : ⟨1, 1, 1, 1000, false⟩ ∈ twoAccounts.accounts.sessions.rows := by
    decide +kernel
  exact ⟨banned, final, cancelled, isBanned, later,
    no_session_survives_a_ban isBanned later _ member rfl 4 _ rfl⟩

end Runs

end PredictX.Moderation
