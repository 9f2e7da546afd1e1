import PredictX.Services.WalletService

namespace PredictX.WalletService

open PredictX.Data

/-! Withdrawals of one user as the others' withdrawals go on beside them.

The look-up of an idempotency key is made among the user's own rows, the unique index counts
everybody's.  What another user does can be seen through that index and in no other way.
-/

structure Request where
  user : UserId
  amount : ℚ
  key : Option String
deriving DecidableEq, Repr

def Request.result (db : Database) (request : Request) : Except Error Database :=
  withdraw db request.user request.amount request.key

/-- A call that raises is rolled back. -/
def Request.serve (db : Database) (request : Request) : Database :=
  match request.result db with
  | .ok after => after
  | .error _ => db

/-- The user has a withdrawal under the key. -/
def usedBy (user : UserId) (key : Option String) (db : Database) : Bool :=
  key.any fun key =>
    db.transactions.any fun entry => entry.userId = user && isWithdrawal key entry

/-- What a user gets to see of a history: how each call ends, and the wallet after it. -/
def view (user : UserId) : Database → List Request → List (Except Error Unit × Option Wallet)
  | _, [] => []
  | db, request :: rest =>
      let later := view user (request.serve db) rest
      if request.user = user then
        ((request.result db).map fun _ => (), (request.serve db).wallets.find? user) :: later
      else later

/-- Something holds whenever the user's turn comes. -/
def AtTurnsOf (user : UserId) (holds : Database → Request → Prop) : Database → List Request → Prop
  | _, [] => True
  | db, request :: rest =>
      (request.user = user → holds db request) ∧ AtTurnsOf user holds (request.serve db) rest

/-- A call that is told that its withdrawal was processed already is one that the user made. -/
def TruthfullyProcessed (db : Database) (request : Request) : Prop :=
  request.result db = .error .idempotency → usedBy request.user request.key db = true

/-- A withdrawal that the user can afford, and whose key is new to the user, has a key that nobody
else has used. -/
def KeyFree (db : Database) (request : Request) : Prop :=
  ∀ wallet, db.wallets.find? request.user = some wallet → 0 < request.amount →
    request.amount ≤ wallet.available → usedBy request.user request.key db = false →
      ∀ other, usedBy other request.key db = false

/-- Two databases are the same to the user. -/
structure Agree (user : UserId) (left right : Database) : Prop where
  wallet : left.wallets.find? user = right.wallets.find? user
  rows : left.transactions.filter (fun entry => entry.userId = user) =
    right.transactions.filter fun entry => entry.userId = user

/-! # One call -/

section Calls

variable {db left right : Database} {user : UserId} {request : Request}

theorem usedBy_filter (user : UserId) (key : Option String) (db : Database) :
    usedBy user key db = key.any fun key =>
      (db.transactions.filter fun entry => entry.userId = user).any (isWithdrawal key) := by
  simp [usedBy, List.any_filter]

theorem Agree.usedBy (agree : Agree user left right) (key : Option String) :
    usedBy user key left = usedBy user key right := by
  rw [usedBy_filter, usedBy_filter, agree.rows]

theorem Agree.alreadyProcessed (agree : Agree user left right) (key : Option String) :
    alreadyProcessed left user key = alreadyProcessed right user key := by
  have used := agree.usedBy key
  cases key with
  | none => rfl
  | some key =>
      simp only [WalletService.usedBy, Option.any_some] at used
      simp [WalletService.alreadyProcessed, used]

/-- The index counts the user's rows and those of the others. -/
theorem keyTaken_iff {key : Option String} :
    keyTaken db key = true ↔ ∃ other, usedBy other key db = true := by
  cases key with
  | none => simp [keyTaken, usedBy]
  | some key => simp [keyTaken, usedBy]

theorem used_of_alreadyProcessed {key : Option String}
    (processed : alreadyProcessed db user key = true) : usedBy user key db = true := by
  cases key with
  | none => simp [alreadyProcessed] at processed
  | some key =>
      simp only [alreadyProcessed, Option.any_some, Bool.and_eq_true] at processed
      exact processed.2

theorem Request.serve_ok {after : Database} (ran : request.result db = .ok after) :
    request.serve db = after := by
  simp [serve, ran]

theorem Request.serve_error {error : Error} (ran : request.result db = .error error) :
    request.serve db = db := by
  simp [serve, ran]

/-- Another user's call leaves the wallet and the rows alone. -/
theorem agree_serve_other (other : request.user ≠ user) : Agree user db (request.serve db) := by
  cases ran : request.result db with
  | error error =>
      rw [Request.serve_error ran]
      exact ⟨rfl, rfl⟩
  | ok after =>
      rw [Request.serve_ok ran]
      obtain ⟨wallet, _, _, _, rfl⟩ := withdraw_ok ran
      have wallet : (db.wallets.modify request.user (Wallet.debit request.amount)).find? user =
          db.wallets.find? user := Table.find?_modify_ne (Ne.symm other)
      exact ⟨wallet.symm, by simp [other]⟩

/-- `withdraw` of an affordable amount: the look-up, then the index. -/
theorem result_affordable {wallet : Wallet} (found : db.wallets.find? request.user = some wallet)
    (positive : 0 < request.amount) (covered : request.amount ≤ wallet.available) :
    request.result db =
      if alreadyProcessed db request.user request.key ∨ keyTaken db request.key = true then
        .error .idempotency
      else
        .ok { db with
          wallets := db.wallets.modify request.user (Wallet.debit request.amount)
          transactions := db.transactions ++ [⟨request.user, .withdrawal, -request.amount,
            wallet.balance - request.amount, .withdrawal request.key⟩] } := by
  cases processed : alreadyProcessed db request.user request.key with
  | true => simp [Request.result, withdraw, not_le.mpr positive, processed]
  | false =>
      cases taken : keyTaken db request.key with
      | true =>
          simp [Request.result, withdraw, not_le.mpr positive, processed, found,
            not_lt.mpr covered, taken]
      | false =>
          simp [Request.result, withdraw, not_le.mpr positive, processed, found,
            not_lt.mpr covered, taken]

theorem refused_as_processed (refused : request.result db = .error .idempotency) :
    alreadyProcessed db request.user request.key = true ∨
      ∃ wallet, db.wallets.find? request.user = some wallet ∧ 0 < request.amount ∧
        request.amount ≤ wallet.available ∧ keyTaken db request.key = true := by
  unfold Request.result withdraw at refused
  split at refused
  · cases refused
  rename_i positive
  split at refused
  · exact .inl ‹_›
  split at refused
  · cases refused
  rename_i wallet found
  split at refused
  · cases refused
  rename_i covered
  split at refused
  · exact .inr ⟨wallet, found, not_le.mp positive, not_lt.mp covered, ‹_›⟩
  · cases refused

theorem truthfullyProcessed_iff : TruthfullyProcessed db request ↔ KeyFree db request := by
  constructor
  · intro truthful wallet found positive covered unused other
    by_contra used
    have taken : keyTaken db request.key = true :=
      keyTaken_iff.mpr ⟨other, by simpa using used⟩
    have refused : request.result db = .error .idempotency := by
      rw [result_affordable found positive covered, if_pos (.inr taken)]
    rw [truthful refused] at unused
    contradiction
  · intro free refused
    by_contra unused
    rw [Bool.not_eq_true] at unused
    have notProcessed : alreadyProcessed db request.user request.key = false := by
      by_contra processed
      rw [used_of_alreadyProcessed (by simpa using processed)] at unused
      contradiction
    obtain processed | ⟨wallet, found, positive, covered, taken⟩ := refused_as_processed refused
    · rw [notProcessed] at processed
      contradiction
    · obtain ⟨other, used⟩ := keyTaken_iff.mp taken
      rw [free wallet found positive covered unused other] at used
      contradiction

/-- A free key is taken by the user or by nobody. -/
theorem keyTaken_of_free {wallet : Wallet} (free : KeyFree db request)
    (found : db.wallets.find? request.user = some wallet) (positive : 0 < request.amount)
    (covered : request.amount ≤ wallet.available) :
    keyTaken db request.key = usedBy request.user request.key db := by
  rw [Bool.eq_iff_iff, keyTaken_iff]
  constructor
  · rintro ⟨other, used⟩
    by_contra unused
    rw [free wallet found positive covered (by simpa using unused) other] at used
    contradiction
  · intro used
    exact ⟨_, used⟩

theorem refused_alike (agree : Agree request.user left right)
    (unaffordable : ∀ wallet, left.wallets.find? request.user = some wallet →
      0 < request.amount → wallet.available < request.amount) :
    ∃ error, request.result left = .error error ∧ request.result right = .error error := by
  unfold Request.result withdraw
  rw [agree.alreadyProcessed, agree.wallet]
  rw [agree.wallet] at unaffordable
  split
  · exact ⟨_, rfl, rfl⟩
  rename_i positive
  split
  · exact ⟨_, rfl, rfl⟩
  cases found : right.wallets.find? request.user with
  | none => exact ⟨_, rfl, rfl⟩
  | some wallet =>
      have short := unaffordable wallet found (not_le.mp positive)
      refine ⟨.insufficientBalance wallet.available request.amount, ?_, ?_⟩
      · simp [short]
      · simp [short]

/-- With free keys, a call does the same to databases that are the same to its user. -/
theorem agree_serve_own (agree : Agree request.user left right) (leftFree : KeyFree left request)
    (rightFree : KeyFree right request) :
    ((request.result left).map fun _ => ()) = ((request.result right).map fun _ => ()) ∧
      Agree request.user (request.serve left) (request.serve right) := by
  by_cases affordable : ∃ wallet, left.wallets.find? request.user = some wallet ∧
      0 < request.amount ∧ request.amount ≤ wallet.available
  · obtain ⟨wallet, found, positive, covered⟩ := affordable
    have rightFound : right.wallets.find? request.user = some wallet := agree.wallet ▸ found
    have leftResult := result_affordable found positive covered
    have rightResult := result_affordable rightFound positive covered
    rw [keyTaken_of_free leftFree found positive covered, agree.alreadyProcessed,
      agree.usedBy] at leftResult
    rw [keyTaken_of_free rightFree rightFound positive covered] at rightResult
    split at rightResult
    · rename_i refused
      rw [if_pos refused] at leftResult
      rw [Request.serve_error leftResult, Request.serve_error rightResult, leftResult, rightResult]
      exact ⟨rfl, agree⟩
    · rename_i accepted
      rw [if_neg accepted] at leftResult
      rw [Request.serve_ok leftResult, Request.serve_ok rightResult, leftResult, rightResult]
      refine ⟨rfl, ?_, ?_⟩
      · simp only [Table.find?_modify_self, agree.wallet]
      · simp only [List.filter_append, agree.rows]
  · have unaffordable : ∀ wallet, left.wallets.find? request.user = some wallet →
        0 < request.amount → wallet.available < request.amount := by
      intro wallet found positive
      by_contra covered
      exact affordable ⟨wallet, found, positive, not_lt.mp covered⟩
    obtain ⟨error, leftResult, rightResult⟩ := refused_alike agree unaffordable
    rw [Request.serve_error leftResult, Request.serve_error rightResult, leftResult, rightResult]
    exact ⟨rfl, agree⟩

end Calls

/-! # Histories -/

section Histories

variable {left right : Database} {user : UserId} {before beside : List Request}

theorem Agree.trans {middle : Database} (first : Agree user left middle)
    (second : Agree user middle right) : Agree user left right :=
  ⟨first.wallet.trans second.wallet, first.rows.trans second.rows⟩

theorem Agree.symm (agree : Agree user left right) : Agree user right left :=
  ⟨agree.wallet.symm, agree.rows.symm⟩

theorem atTurnsOf_iff {holds holds' : Database → Request → Prop}
    (same : ∀ db request, holds db request ↔ holds' db request) (db : Database)
    (requests : List Request) :
    AtTurnsOf user holds db requests ↔ AtTurnsOf user holds' db requests := by
  induction requests generalizing db with
  | nil => rfl
  | cons request rest ih => simp only [AtTurnsOf, same, ih]

theorem view_nil_of_filter (db : Database)
    (none : before.filter (fun request => request.user = user) = []) : view user db before = [] := by
  induction before generalizing db with
  | nil => rfl
  | cons request rest ih =>
      rw [List.filter_cons] at none
      by_cases own : request.user = user
      · simp [own] at none
      · simp only [own, decide_false, Bool.false_eq_true, if_false] at none
        simp only [view, own, if_false]
        exact ih _ none

/-- The calls of the others are passed over on either side until both come to one of the user's. -/
theorem view_agree (agree : Agree user left right)
    (same : before.filter (fun request => request.user = user) =
      beside.filter fun request => request.user = user)
    (leftFree : AtTurnsOf user KeyFree left before)
    (rightFree : AtTurnsOf user KeyFree right beside) :
    view user left before = view user right beside := by
  induction before generalizing left right beside with
  | nil => rw [view_nil_of_filter right same.symm, view]
  | cons request rest ih =>
      by_cases own : request.user = user
      · subst own
        induction beside generalizing right with
        | nil => simp at same
        | cons other others following =>
            by_cases ours : other.user = request.user
            · simp only [List.filter_cons, ours, decide_true, if_true, List.cons.injEq] at same
              obtain ⟨rfl, same⟩ := same
              obtain ⟨ends, after⟩ := agree_serve_own agree (leftFree.1 rfl) (rightFree.1 rfl)
              simp only [view, if_true, ends, after.wallet]
              rw [ih after same leftFree.2 rightFree.2]
            · simp only [List.filter_cons, ours, decide_false, Bool.false_eq_true,
                if_false] at same
              have passed := following (agree.trans (agree_serve_other ours))
                (by simpa [List.filter_cons] using same) rightFree.2
              simpa [view, ours] using passed
      · simp only [List.filter_cons, own, decide_false, Bool.false_eq_true, if_false] at same
        simp only [view, own, if_false]
        exact ih ((agree_serve_other own).symm.trans agree) same leftFree.2 rightFree

/-- Beside other histories of the other users, a user's calls end as they did, none of them with a
key reported as processed that the user has not used, if and only if no key they need is taken by
someone else. -/
theorem keys_keep_apart_iff (agree : Agree user left right)
    (same : before.filter (fun request => request.user = user) =
      beside.filter fun request => request.user = user) :
    (view user left before = view user right beside ∧
        AtTurnsOf user TruthfullyProcessed left before ∧
        AtTurnsOf user TruthfullyProcessed right beside) ↔
      AtTurnsOf user KeyFree left before ∧ AtTurnsOf user KeyFree right beside := by
  rw [atTurnsOf_iff fun _ _ => truthfullyProcessed_iff,
    atTurnsOf_iff fun _ _ => truthfullyProcessed_iff]
  constructor
  · rintro ⟨_, free⟩
    exact free
  · rintro ⟨leftFree, rightFree⟩
    exact ⟨view_agree agree same leftFree rightFree, leftFree, rightFree⟩

end Histories

/-- Two users with a hundred each and no withdrawal. -/
def twoSavers : Database where
  wallets := ⟨[⟨1, 100, 0⟩, ⟨2, 100, 0⟩], by decide⟩
  positions := .empty
  orders := .empty
  pools := .empty
  lpShares := .empty
  markets := .empty
  outcomes := .empty
  disputes := .empty
  referrals := []
  trades := []
  transactions := []
  systemUser := none

def ownCall : Request := ⟨1, 10, some "key"⟩

/-- The other user has come first with the same key. -/
theorem key_of_another_user_taken :
    view 1 twoSavers [ownCall] = [(.ok (), some ⟨1, 90, 0⟩)] ∧
      view 1 twoSavers [⟨2, 10, some "key"⟩, ownCall] =
        [(.error .idempotency, some ⟨1, 100, 0⟩)] ∧
      ¬ AtTurnsOf 1 TruthfullyProcessed twoSavers [⟨2, 10, some "key"⟩, ownCall] := by
  refine ⟨by decide +kernel, by decide +kernel, ?_⟩
  intro truthful
  have found : (Request.serve twoSavers ⟨2, 10, some "key"⟩).wallets.find? 1 =
      some ⟨1, 100, 0⟩ := by decide +kernel
  have taken : keyTaken (Request.serve twoSavers ⟨2, 10, some "key"⟩) (some "key") = true := by
    decide +kernel
  have refused := @result_affordable _ ownCall _ found (by decide +kernel)
    (by decide +kernel)
  rw [if_pos (.inr taken)] at refused
  exact absurd (truthful.2.1 rfl refused) (by decide +kernel)

/-- With a key of its own the other user is not noticed. -/
theorem key_of_its_own_not_noticed :
    view 1 twoSavers [ownCall] = view 1 twoSavers [⟨2, 10, some "other"⟩, ownCall] := by
  have unused : ∀ other, usedBy other (some "key") twoSavers = false := by
    intro other
    rfl
  have onlyOther : ∀ other, usedBy other (some "key")
      (Request.serve twoSavers ⟨2, 10, some "other"⟩) = false := by
    intro other
    by_contra used
    have taken := keyTaken_iff.mpr ⟨other, by simpa using used⟩
    exact absurd taken (by decide +kernel)
  have free : AtTurnsOf 1 KeyFree twoSavers [ownCall] :=
    ⟨fun _ _ _ _ _ _ => unused, trivial⟩
  have stillFree : AtTurnsOf 1 KeyFree twoSavers [⟨2, 10, some "other"⟩, ownCall] :=
    ⟨fun own => absurd own (by decide), fun _ _ _ _ _ _ => onlyOther, trivial⟩
  exact (keys_keep_apart_iff ⟨rfl, rfl⟩ (by decide)).mpr ⟨free, stillFree⟩ |>.1

end PredictX.WalletService
