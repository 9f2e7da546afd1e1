import PredictX.Services.AccountDeletion
import PredictX.Properties.PayOnce

namespace PredictX.AccountDeletion

open PredictX.Data PredictX.Auth PredictX.Settlement

/-! Does a deleted account hold money?

The two counts see open orders and positions of markets that are not resolved.  They do not see
a balance, provider tokens or the shares of a market that is resolved and not yet settled, nor a
request that commits after them.
-/

structure NothingLeft (db : Database) (user : UserId) : Prop where
  orders : ∀ order ∈ db.orders.rows, order.userId = user → order.status.isOpen = false
  positions : ∀ position ∈ db.positions.rows, position.userId = user →
    position.settledAt = none → position.sharesHeld = 0
  provider : ∀ share ∈ db.lpShares.rows, share.userId = user → share.lpTokens ≤ 0
  wallet : ∃ wallet, db.wallets.find? user = some wallet ∧ wallet.available ≤ 0

/-- What the counts do not look at. -/
structure Cleared (db : Database) (user : UserId) : Prop where
  /-- No unsettled shares in a market that counts as settled. -/
  positions : ∀ position ∈ db.positions.rows, position.userId = user →
    position.settledAt = none → position.sharesHeld ≠ 0 → unresolved db position = true
  provider : ∀ share ∈ db.lpShares.rows, share.userId = user → share.lpTokens ≤ 0
  wallet : ∃ wallet, db.wallets.find? user = some wallet ∧ wallet.available ≤ 0
  treasury : db.systemUser ≠ some user

/-- The user's requests keep out of the deletion's way, and it finds her account cleared. -/
def Quiet (user : UserId) (site : Site) : Action → Prop
  | .serve _ => site.stage = .idle ∨ site.stage = .begun
  | .erase => site.requests.rows = [] ∧ Cleared site.db user
  | _ => True

/-! # Settlements -/

section Settlements

variable {db : Database} {user : UserId} {now : Timestamp} {scan : Scan} {market : MarketId}
  {winning : OutcomeId} {settled : Settled}

theorem find?_credits_of_ne {payouts : List Payout} {wallets : Table Wallet.userId}
    (others : ∀ payout ∈ payouts, payout.user ≠ user) :
    (credits id payouts wallets).find? user = wallets.find? user := by
  induction payouts generalizing wallets with
  | nil => rfl
  | cons payout rest ih =>
      rw [List.forall_mem_cons] at others
      rw [credits, List.foldl_cons, ← credits, ih others.2,
        Table.find?_modify_ne (Ne.symm others.1)]

theorem lt_freshUser {wallet : Wallet} (found : db.wallets.find? user = some wallet) :
    user < freshUser db := by
  have bounded : ∀ ids : List UserId, ∀ id ∈ ids, id ≤ ids.foldr max 0 := by
    intro ids
    induction ids with
    | nil => simp
    | cons head tail ih =>
        intro id member
        rcases List.mem_cons.mp member with rfl | later
        · exact le_max_left _ _
        · exact (ih id later).trans (le_max_right _ _)
  obtain ⟨member, isUser⟩ := Table.find?_eq_some.mp found
  refine Nat.lt_succ_of_le (bounded _ user ?_)
  simp only [List.mem_append, List.mem_map]
  exact .inl (.inl ⟨wallet, member, isUser⟩)

theorem treasury_ne {wallet : Wallet} (found : db.wallets.find? user = some wallet)
    (other : db.systemUser ≠ some user) : (openTreasury db).1 ≠ user := by
  unfold openTreasury
  dsimp only
  cases isSystem : db.systemUser with
  | none => exact (lt_freshUser found).ne'
  | some treasury =>
      rintro rfl
      exact other isSystem

/-- A settlement leaves a user alone who has nothing it could pay for. -/
theorem settle_leaves_wallet {wallet : Wallet} (reads : scan.Reads db market winning)
    (ran : settleMarket id now false scan db market winning = .ok (some settled))
    (found : db.wallets.find? user = some wallet) (treasury : db.systemUser ≠ some user)
    (positions : ∀ position ∈ db.positions.rows, position.userId = user →
      position.settledAt = none → position.sharesHeld = 0)
    (provider : ∀ share ∈ db.lpShares.rows, share.userId = user → share.lpTokens ≤ 0) :
    settled.db.wallets.find? user = some wallet := by
  obtain ⟨row, paid, swept, final, _, _, _, _, stages, rfl⟩ := settleMarket_ok ran
  have wallets : final.wallets = credits id (payoutsOf id winning db scan paid swept)
      (openTreasury db).2.wallets := stages.paid.wallets
  have isTreasury := treasury_ne found treasury
  have opened : (openTreasury db).2.wallets.find? user = some wallet := by
    rw [openTreasury_wallets]
    unfold openWallet
    split
    · exact found
    · have apart : user ≠ Wallet.userId ⟨(openTreasury db).1, 0, 0⟩ := Ne.symm isTreasury
      rw [Table.find?_insert_ne _ apart]
      exact found
  have others : ∀ payout ∈ payoutsOf id winning db scan paid swept, payout.user ≠ user := by
    intro payout member
    rcases mem_payoutsOf member with won | fee | redeemed
    · obtain ⟨position, scanned, due, _, positive, rfl⟩ := mem_wins.mp won
      rintro rfl
      have isRow := (List.mem_filter.mp (reads.positions.mem_iff.mp scanned)).1
      unfold payoutOf at positive
      rw [positions position isRow rfl due] at positive
      simp at positive
    · obtain ⟨pool, _, _, rfl⟩ := mem_feePayout.mp fee
      exact isTreasury
    · obtain ⟨pool, isPool, share, scanned, _, rfl⟩ := mem_redemptions.mp redeemed
      rintro rfl
      obtain ⟨before, isBefore, _⟩ := stages.pool_kept isPool
      have isRow := (reads.lpShares before isBefore).mem_iff.mp scanned
      exact absurd (liveShares_positive isRow)
        (not_lt.mpr (provider share (List.mem_filter.mp isRow).1 rfl))
  have held : (commitLedger now market (openTreasury db).2 final).wallets = final.wallets := rfl
  dsimp only
  rw [held, wallets, find?_credits_of_ne others, opened]

theorem settle_keeps_orders
    (ran : settleMarket id now false scan db market winning = .ok (some settled)) :
    settled.db.orders = db.orders := by
  obtain ⟨_, _, _, _, _, _, _, _, _, rfl⟩ := settleMarket_ok ran
  rfl

theorem settle_keeps_treasury {wallet : Wallet}
    (ran : settleMarket id now false scan db market winning = .ok (some settled))
    (found : db.wallets.find? user = some wallet) (treasury : db.systemUser ≠ some user) :
    settled.db.systemUser ≠ some user := by
  obtain ⟨_, _, _, _, _, _, _, _, _, rfl⟩ := settleMarket_ok ran
  intro isUser
  have same : some (openTreasury db).1 = some user := isUser
  exact treasury_ne found treasury (Option.some.inj same)

theorem settle_unsettled (reads : scan.Reads db market winning)
    (ran : settleMarket id now false scan db market winning = .ok (some settled))
    {position : Position} (member : position ∈ settled.db.positions.rows)
    (due : position.settledAt = none) : position ∈ db.positions.rows :=
  Table.mem_of_find?
    ((pays_of_settleMarket reads ran).positions _ _ (Table.find?_key_of_mem member) due)

theorem settle_provider (reads : scan.Reads db market winning)
    (ran : settleMarket id now false scan db market winning = .ok (some settled))
    (provider : ∀ share ∈ db.lpShares.rows, share.userId = user → share.lpTokens ≤ 0) :
    ∀ share ∈ settled.db.lpShares.rows, share.userId = user → share.lpTokens ≤ 0 := by
  intro share member owner
  by_contra live
  have before := (pays_of_settleMarket reads ran).shares _ _ (Table.find?_key_of_mem member)
    (not_le.mp live)
  exact live (provider share (Table.mem_of_find? before) owner)

/-- A settlement resolves markets and opens none. -/
theorem settle_unresolved
    (ran : settleMarket id now false scan db market winning = .ok (some settled))
    {position : Position} (open_ : unresolved settled.db position = true) :
    unresolved db position = true := by
  obtain ⟨_, _, _, _, _, _, _, _, _, rfl⟩ := settleMarket_ok ran
  unfold unresolved at open_ ⊢
  have markets : (commitLedger now market (openTreasury db).2 ‹Ledger›).markets =
      db.markets.modify market (markResolved now) := rfl
  dsimp only at open_
  rw [markets] at open_
  by_cases same : position.marketId = market
  · subst same
    rw [Table.find?_modify_self] at open_
    cases found : db.markets.find? position.marketId with
    | none =>
        rw [found] at open_
        cases open_
    | some row =>
        rw [found] at open_
        cases open_
  · rw [Table.find?_modify_ne same] at open_
    exact open_

theorem NothingLeft.settle (left : NothingLeft db user) (reads : scan.Reads db market winning)
    (ran : settleMarket id now false scan db market winning = .ok (some settled))
    (treasury : db.systemUser ≠ some user) :
    NothingLeft settled.db user ∧
      settled.db.wallets.find? user = db.wallets.find? user := by
  obtain ⟨wallet, found, spent⟩ := left.wallet
  have kept := settle_leaves_wallet reads ran found treasury left.positions left.provider
  refine ⟨⟨?_, ?_, settle_provider reads ran left.provider, wallet, kept, spent⟩, ?_⟩
  · rw [settle_keeps_orders ran]
    exact left.orders
  · intro position member owner due
    exact left.positions position (settle_unsettled reads ran member due) owner due
  · rw [kept, found]

end Settlements

/-! # The account -/

def LockedOut (accounts : Auth.Accounts) (user : UserId) : Prop :=
  ∀ row, accounts.users.find? user = some row → row.isActive = false

theorem lockOut_locks (accounts : Auth.Accounts) (user : UserId) :
    LockedOut (lockOut accounts user) user := by
  intro row found
  have modified : (accounts.users.modify user fun row => { row with isActive := false }).find? user =
      some row := found
  rw [Table.find?_modify_self] at modified
  obtain ⟨_, _, rfl⟩ := Option.map_eq_some_iff.mp modified
  rfl

theorem LockedOut.refuses {accounts : Auth.Accounts} {user : UserId} {now : ℚ}
    {caller : Option Caller} {account : User} (locked : LockedOut accounts user)
    (known : accounts.getCurrentUser now caller = .ok account) : account.id ≠ user := by
  unfold Auth.Accounts.getCurrentUser at known
  split at known
  · contradiction
  unfold Auth.Accounts.loadUser at known
  split at known
  · contradiction
  split at known
  · contradiction
  split at known
  · contradiction
  rename_i row found
  split at known
  · rename_i active
    obtain ⟨_, _, same⟩ := bind_eq_ok.mp known
    cases same
    intro isUser
    obtain ⟨_, isKey⟩ := Table.find?_eq_some.mp found
    rw [← isKey, isUser] at found
    rw [locked _ found] at active
    contradiction
  · contradiction

/-! # Runs -/

/-- What the deletion has made sure of so far. -/
def Assured (user : UserId) (site : Site) : Prop :=
  let noOrders := ∀ order ∈ site.db.orders.rows, order.userId = user →
    order.status.isOpen = false
  match site.stage with
  | .idle | .begun => True
  | .counted orders => orders = 0 → noOrders
  | .checked => noOrders ∧ ∀ position ∈ site.db.positions.rows, position.userId = user →
      position.settledAt = none → position.sharesHeld ≠ 0 → unresolved site.db position = false
  | .deleted => NothingLeft site.db user ∧ site.db.systemUser ≠ some user ∧
      site.requests.rows = [] ∧ LockedOut site.accounts user

section Runs

variable {user : UserId} {site after : Site} {action : Action}

theorem noOrders_of_count (none_ : openOrders site.db user = 0) :
    ∀ order ∈ site.db.orders.rows, order.userId = user → order.status.isOpen = false := by
  intro order member owner
  have closed := List.countP_eq_zero.mp none_ order member
  simpa [owner] using closed

theorem resolved_of_count (none_ : unsettledPositions site.db user = 0) :
    ∀ position ∈ site.db.positions.rows, position.userId = user →
      position.settledAt = none → position.sharesHeld ≠ 0 →
      unresolved site.db position = false := by
  intro position member owner _ held
  have over_ := List.countP_eq_zero.mp none_ position member
  simpa [owner, held] using over_

theorem assured_settle {now : Timestamp} {scan : Scan} {market : MarketId} {winning : OutcomeId}
    {settled : Settled} (reads : scan.Reads site.db market winning)
    (ran : settleMarket id now false scan site.db market winning = .ok (some settled))
    (assured : Assured user site) : Assured user { site with db := settled.db } := by
  unfold Assured at assured ⊢
  cases isStage : site.stage with
  | idle => trivial
  | begun => trivial
  | counted orders =>
      simp only [isStage] at assured
      dsimp only
      rw [settle_keeps_orders ran]
      exact assured
  | checked =>
      simp only [isStage] at assured
      obtain ⟨noOrders, resolved⟩ := assured
      dsimp only
      rw [settle_keeps_orders ran]
      refine ⟨noOrders, ?_⟩
      intro position member owner due held
      have before := resolved position (settle_unsettled reads ran member due) owner due held
      by_contra open_
      rw [settle_unresolved ran (Bool.eq_true_of_not_eq_false open_)] at before
      contradiction
  | deleted =>
      simp only [isStage] at assured
      obtain ⟨left, treasury, quiet, locked⟩ := assured
      obtain ⟨wallet, found, _⟩ := left.wallet
      exact ⟨(left.settle reads ran treasury).1, settle_keeps_treasury ran found treasury,
        quiet, locked⟩

/-- A request that ends has been in flight, so nothing is deleted yet. -/
theorem not_deleted_of_request {request : OwnRequest} (assured : Assured user site)
    (found : site.requests.find? request.id = some request) : site.stage ≠ .deleted := by
  intro deleted
  unfold Assured at assured
  simp only [deleted] at assured
  have member := Table.mem_of_find? found
  rw [assured.2.2.1] at member
  exact List.not_mem_nil member

theorem assured_of_db {other : Site} (assured : Assured user site) (sameDb : other.db = site.db)
    (sameStage : other.stage = site.stage) (notDeleted : site.stage ≠ .deleted) :
    Assured user other := by
  unfold Assured at assured ⊢
  rw [sameDb, sameStage]
  cases isStage : site.stage with
  | idle => trivial
  | begun => trivial
  | counted orders =>
      simp only [isStage] at assured
      exact assured
  | checked =>
      simp only [isStage] at assured
      exact assured
  | deleted => exact absurd isStage notDeleted

theorem assured_step (quiet : Quiet user site action) (moves : Moves user site action after)
    (assured : Assured user site) : Assured user after := by
  cases moves with
  | ask known self _ _ =>
      refine assured_of_db assured rfl rfl ?_
      intro deleted
      unfold Assured at assured
      simp only [deleted] at assured
      exact assured.2.2.2.refuses known self
  | serve found ran =>
      -- a request may write only while nothing has been counted
      unfold Assured
      rcases quiet with idle | begun
      · simp only [idle]
      · simp only [begun]
  | fail found raised =>
      exact assured_of_db assured rfl rfl (not_deleted_of_request assured found)
  | settle reads ran => exact assured_settle reads ran assured
  | start idle known self => trivial
  | countOrders begun => exact noOrders_of_count
  | @countPositions orders counted =>
      unfold Assured at assured
      simp only [counted] at assured
      unfold Assured
      dsimp only
      split_ifs with clear
      · exact ⟨assured clear.1, resolved_of_count clear.2⟩
      · trivial
  | erase checked =>
      unfold Assured at assured
      simp only [checked] at assured
      obtain ⟨noOrders, resolved⟩ := assured
      obtain ⟨noRequests, cleared⟩ := quiet
      refine ⟨⟨noOrders, ?_, cleared.provider, cleared.wallet⟩, cleared.treasury, noRequests,
        lockOut_locks _ _⟩
      intro position member owner due
      by_contra held
      have isOpen := cleared.positions position member owner due held
      rw [resolved position member owner due held] at isOpen
      contradiction

/-- Once the account is deleted, every step leaves its wallet alone. -/
theorem deleted_step (moves : Moves user site action after) (assured : Assured user site)
    (deleted : site.stage = .deleted) :
    after.stage = .deleted ∧ after.db.wallets.find? user = site.db.wallets.find? user := by
  have held := assured
  unfold Assured at held
  simp only [deleted] at held
  obtain ⟨left, treasury, _, _⟩ := held
  cases moves with
  | ask known self _ _ => exact ⟨deleted, rfl⟩
  | serve found ran => exact absurd deleted (not_deleted_of_request assured found)
  | fail found raised => exact ⟨deleted, rfl⟩
  | settle reads ran => exact ⟨deleted, (left.settle reads ran treasury).2⟩
  | start idle known self => simp [deleted] at idle
  | countOrders begun => simp [deleted] at begun
  | countPositions counted => simp [deleted] at counted
  | erase checked => simp [deleted] at checked

/-- A deletion that the user's own requests keep out of and that finds nothing it does not look
at leaves no money to the account, and none is paid to it later. -/
theorem cleared_account_stays_empty {start final : Site} {actions more : List Action}
    (idle : start.stage = .idle) (run : Run (Moves user) (Quiet user) start actions site)
    (deleted : site.stage = .deleted) (later : Run (Moves user) (Quiet user) site more final) :
    NothingLeft final.db user ∧
      final.db.wallets.find? user = site.db.wallets.find? user := by
  have step : ∀ site action after, Quiet user site action → Moves user site action after →
      Assured user site → Assured user after :=
    fun _ _ _ quiet moves assured => assured_step quiet moves assured
  have initially : Assured user start := by
    unfold Assured
    simp only [idle]
  have assured := run.invariant (Assured user) step initially
  have stepLater : ∀ state action after, Quiet user state action → Moves user state action after →
      (Assured user state ∧ state.stage = .deleted ∧
        state.db.wallets.find? user = site.db.wallets.find? user) →
      Assured user after ∧ after.stage = .deleted ∧
        after.db.wallets.find? user = site.db.wallets.find? user := by
    rintro state action after quiet moves ⟨assured, deleted, same⟩
    obtain ⟨still, kept⟩ := deleted_step moves assured deleted
    exact ⟨assured_step quiet moves assured, still, kept.trans same⟩
  obtain ⟨held, isDeleted, same⟩ := later.invariant _ stepLater ⟨assured, deleted, rfl⟩
  unfold Assured at held
  simp only [isDeleted] at held
  exact ⟨held.1, same⟩

end Runs

/-! # A winner who leaves -/

def signedInUser : Auth.Accounts :=
  { Auth.Accounts.start (.single ⟨1, true⟩) with
    sessions := ⟨[⟨1, 1, 1, 1000, false⟩], by decide⟩ }

def herToken : Option Caller := some ⟨⟨1, some 1, 1, 900⟩, true⟩

/-- A resolved market that is not settled yet; user 1 holds `shares` of the winning outcome. -/
def afterTheVerdict (shares : ℚ) : Site where
  db :=
    { wallets := ⟨[⟨1, 0, 0⟩, ⟨9, 0, 0⟩], by simp⟩
      positions := ⟨[⟨1, 1, 1, shares, 1/2, 0, none⟩], by simp⟩
      orders := .empty
      pools := ⟨[⟨1, none, 100, 100, 100, 0, 0, 0⟩], by simp⟩
      lpShares := .empty
      markets := ⟨[⟨1, .resolved, 0, some 5, some 1, none, none, 0, 0, 0⟩], by simp⟩
      outcomes := .empty
      disputes := .empty
      referrals := []
      trades := []
      transactions := []
      systemUser := some 9 }
  accounts := signedInUser
  requests := .empty
  stage := .idle

def deletion : List Action := [.start, .countOrders, .countPositions, .erase]

def deletedAfterTheVerdict (shares : ℚ) : Site :=
  { afterTheVerdict shares with accounts := lockOut signedInUser 1, stage := .deleted }

theorem deletion_run {guard : Site → Action → Prop} {shares : ℚ}
    (starts : ∀ site, guard site .start) (orders : ∀ site, guard site .countOrders)
    (positions : ∀ site, guard site .countPositions)
    (clear : guard { afterTheVerdict shares with stage := .checked } .erase) :
    Run (Moves 1) guard (afterTheVerdict shares) deletion (deletedAfterTheVerdict shares) := by
  have known : signedInUser.getCurrentUser 0 herToken = .ok ⟨1, true⟩ := by decide +kernel
  have settled : ∀ position : Position, position.marketId = 1 →
      unresolved (afterTheVerdict shares).db position = false := by
    intro position isMarket
    unfold unresolved
    rw [isMarket]
    rfl
  have noPositions : unsettledPositions (afterTheVerdict shares).db 1 = 0 := by
    refine List.countP_eq_zero.mpr ?_
    intro position member
    have isRow : position = ⟨1, 1, 1, shares, 1/2, 0, none⟩ := List.mem_singleton.mp member
    rw [settled position (by rw [isRow])]
    simp
  have counts : Moves 1 { afterTheVerdict shares with stage := .counted 0 } .countPositions
      { afterTheVerdict shares with stage := .checked } := by
    have counted := @Moves.countPositions 1
      { afterTheVerdict shares with stage := .counted 0 } 0 rfl
    dsimp only at counted
    rwa [noPositions, if_pos ⟨rfl, rfl⟩] at counted
  exact .act (starts _) (.start rfl known rfl) (.act (orders _) (.countOrders rfl)
    (.act (positions _) counts (.act clear (.erase rfl) (.stop _))))

def herRows (shares : ℚ) : Scan := ⟨[⟨1, 1, 1, shares, 1/2, 0, none⟩], []⟩

theorem herRows_reads (shares : ℚ) :
    (herRows shares).Reads (deletedAfterTheVerdict shares).db 1 1 := by
  refine ⟨.refl _, ?_⟩
  intro pool _
  exact .refl _

/-- The settlement of user 1's rows goes through and leaves her the balance. -/
theorem settle_herRows {shares balance : ℚ}
    (computed : (match settleMarket id 7 false (herRows shares)
        (deletedAfterTheVerdict shares).db 1 1 with
      | .ok (some settled) => decide (settled.db.wallets.find? 1 = some ⟨1, balance, 0⟩)
      | _ => false) = true) :
    ∃ settled, Moves 1 (deletedAfterTheVerdict shares) .settle
        { deletedAfterTheVerdict shares with db := settled } ∧
      settled.wallets.find? 1 = some ⟨1, balance, 0⟩ := by
  split at computed
  · rename_i settled ran
    exact ⟨settled.db, .settle (herRows_reads shares) ran, of_decide_eq_true computed⟩
  · contradiction

/-- The account is deleted with ten winning shares, and the settlement pays them to it. -/
theorem deleted_winner_is_paid :
    ∃ final, Run (Moves 1) (fun _ _ => True) (afterTheVerdict 10) deletion
        (deletedAfterTheVerdict 10) ∧
      (deletedAfterTheVerdict 10).stage = .deleted ∧
      ¬ NothingLeft (deletedAfterTheVerdict 10).db 1 ∧
      Run (Moves 1) (fun _ _ => True) (deletedAfterTheVerdict 10) [.settle] final ∧
      (deletedAfterTheVerdict 10).db.wallets.find? 1 = some ⟨1, 0, 0⟩ ∧
      final.db.wallets.find? 1 = some ⟨1, 10, 0⟩ := by
  obtain ⟨settled, settles, credited⟩ := @settle_herRows 10 10 (by decide +kernel)
  have held : ¬ NothingLeft (deletedAfterTheVerdict 10).db 1 := by
    intro left
    have none_ := left.positions ⟨1, 1, 1, 10, 1/2, 0, none⟩ (List.mem_singleton.mpr rfl) rfl rfl
    norm_num at none_
  exact ⟨_, deletion_run (fun _ => trivial) (fun _ => trivial) (fun _ => trivial) trivial, rfl,
    held, .act trivial settles (.stop _), rfl, credited⟩

theorem cleared_account_stays_empty_concrete :
    ∃ settled, Run (Moves 1) (Quiet 1) (afterTheVerdict 0) deletion (deletedAfterTheVerdict 0) ∧
      Run (Moves 1) (Quiet 1) (deletedAfterTheVerdict 0) [.settle]
        { deletedAfterTheVerdict 0 with db := settled } ∧
      NothingLeft settled 1 ∧ settled.wallets.find? 1 = some ⟨1, 0, 0⟩ := by
  have cleared : Cleared (afterTheVerdict 0).db 1 := by
    refine ⟨?_, fun _ member => absurd member List.not_mem_nil, ⟨_, rfl, le_of_eq (sub_self 0)⟩,
      by decide⟩
    intro position member _ _ held
    have isRow : position = ⟨1, 1, 1, 0, 1/2, 0, none⟩ := List.mem_singleton.mp member
    exact absurd (by rw [isRow]) held
  have run : Run (Moves 1) (Quiet 1) (afterTheVerdict 0) deletion (deletedAfterTheVerdict 0) :=
    deletion_run (fun _ => trivial) (fun _ => trivial) (fun _ => trivial) ⟨rfl, cleared⟩
  obtain ⟨settled, settles, _⟩ := @settle_herRows 0 0 (by decide +kernel)
  have later : Run (Moves 1) (Quiet 1) (deletedAfterTheVerdict 0) [.settle]
      { deletedAfterTheVerdict 0 with db := settled } := .act trivial settles (.stop _)
  obtain ⟨left, same⟩ := cleared_account_stays_empty rfl run rfl later
  exact ⟨settled, run, later, left, same⟩

end PredictX.AccountDeletion
