import PredictX.Api.Moderation
import PredictX.Data.Bulk
import PredictX.Properties.MoneyFlows
import PredictX.Services.CashSessions

namespace PredictX.CashSessions

open PredictX.Data PredictX.Data.Protocol

/-! External money moves once.

The look-ups that come before the locks decide nothing: two deliveries can both pass them.
A reference is credited or debited once because of the index, and a withdrawal is decided
once because its row is locked from the test of its status to the commit.
-/

namespace Movement

def credits (payment : String) : Movement → Bool
  | .credited other _ _ => other = payment
  | _ => false

def debits (user : UserId) (key : String) : Movement → Bool
  | .debited _ other reference _ => other = user && reference = some key
  | _ => false

/-- The withdrawal is completed or failed. -/
def decides (id : ℕ) : Movement → Bool
  | .completed other | .refunded other _ _ => other = id
  | _ => false

end Movement

/-- What a row counts for in its owner's balance. -/
def CashRow.flow (user : UserId) (row : CashRow) : ℚ :=
  if row.userId = user ∧ row.status ≠ .failed then row.amount else 0

structure HappensOnce (start final : Till) : Prop where
  credits : ∀ payment, final.history.countP (Movement.credits payment) ≤ 1
  debits : ∀ user key, final.history.countP (Movement.debits user key) ≤ 1
  decisions : ∀ id, final.history.countP (Movement.decides id) ≤ 1
  refunds : ∀ id user amount, .refunded id user amount ∈ final.history →
    ∃ key, .debited id user key amount ∈ final.history
  failed : ∀ row ∈ final.rows.rows, row.kind = .withdrawal → row.status = .failed →
    .refunded row.id row.userId (-row.amount) ∈ final.history
  balance : ∀ user before, start.wallets.find? user = some before →
    ∃ after, final.wallets.find? user = some after ∧
      after.balance = before.balance + final.rows.sum (CashRow.flow user)

/-! # What a transaction knows -/

structure Knows (till : Till) (session : CashSession) : Prop where
  wallet : session.stage = .locked → ∀ user, session.target = some user →
    till.wallets.find? user = session.wallet
  row : ∀ row, session.row = some row →
    till.rows.find? row.id = some row ∧ row.kind = .withdrawal ∧ row.status = .pending

section Tables

variable {till : Till} {user other : UserId} {balance : ℚ} {rowId otherId : ℕ}
  {status : CashStatus}

theorem find?_setBalance_self :
    (till.setBalance user balance).find? user =
      (till.wallets.find? user).map fun wallet => { wallet with balance } := by
  unfold Till.setBalance
  rw [Table.find?_modify_self]

theorem find?_setBalance_ne (different : other ≠ user) :
    (till.setBalance user balance).find? other = till.wallets.find? other := by
  unfold Till.setBalance
  rw [Table.find?_modify_ne different]

theorem find?_setStatus_self :
    (till.setStatus rowId status).find? rowId =
      (till.rows.find? rowId).map fun row => { row with status } := by
  unfold Till.setStatus
  rw [Table.find?_modify_self]

theorem find?_setStatus_ne (different : otherId ≠ rowId) :
    (till.setStatus rowId status).find? otherId = till.rows.find? otherId := by
  unfold Till.setStatus
  rw [Table.find?_modify_ne different]

end Tables

variable {till after : Till} {session writer : CashSession}

/-- A commit touches a wallet it has locked, as it is, and the row it has locked. -/
theorem Stores.frame (knows : Knows till writer) (stored : Stores till writer after) :
    (∀ user, after.wallets.find? user = till.wallets.find? user ∨
      ∃ wallet, writer.wallet = some wallet ∧ till.wallets.find? user = some wallet) ∧
    ∀ id row, till.rows.find? id = some row → ¬ writer.Holds (.row id) →
      after.rows.find? id = some row := by
  have written : ∀ {user wallet balance}, writer.stage = .locked → writer.target = some user →
      writer.wallet = some wallet → ∀ other,
      (till.setBalance user balance).find? other = till.wallets.find? other ∨
        ∃ wallet, writer.wallet = some wallet ∧ till.wallets.find? other = some wallet := by
    intro user wallet balance stage target loaded other
    by_cases same : other = user
    · subst same
      exact .inr ⟨wallet, loaded, (knows.wallet stage other target).trans loaded⟩
    · exact .inl (find?_setBalance_ne same)
  have decided : ∀ {row : CashRow} {status : CashStatus}, writer.row = some row → ∀ id old,
      till.rows.find? id = some old → ¬ writer.Holds (.row id) →
      (till.setStatus row.id status).find? id = some old := by
    intro row status loaded id old found free
    rw [← found]
    refine find?_setStatus_ne ?_
    rintro rfl
    exact free ⟨row, loaded, rfl⟩
  cases stored with
  | credit request stage owner loaded fresh indexed =>
      exact ⟨written stage (by rw [CashSession.target, request]; exact owner) loaded,
        fun id row found _ => Table.find?_insert_of_find? _ found⟩
  | debit request stage loaded fresh indexed =>
      exact ⟨written stage (by rw [CashSession.target, request]) loaded,
        fun id row found _ => Table.find?_insert_of_find? _ found⟩
  | complete request stage loaded => exact ⟨fun _ => .inl rfl, decided loaded⟩
  | refund request stage loaded held =>
      exact ⟨written stage (by rw [CashSession.target, request, loaded]; rfl) held,
        decided loaded⟩
  | reject request stage loaded missing => exact ⟨fun _ => .inl rfl, decided loaded⟩

theorem Knows.stable (knows : Knows till session) (informed : Knows till writer)
    (apart : cashFlows.Apart session writer) (stored : Stores till writer after) :
    Knows after session := by
  obtain ⟨wallets, rows⟩ := stored.frame informed
  constructor
  · intro stage user target
    have current := knows.wallet stage user target
    rcases wallets user with same | ⟨wallet, loaded, found⟩
    · rw [same, current]
    · have owner := Table.key_of_find? found
      exact absurd ⟨wallet, loaded, owner⟩
        (apart (.wallet user) ⟨wallet, current.symm.trans found, owner⟩)
  · intro row loaded
    obtain ⟨found, facts⟩ := knows.row row loaded
    exact ⟨rows row.id row found (apart (.row row.id) ⟨row, loaded, rfl⟩), facts⟩

theorem Knows.read {next : CashSession} (knows : Knows till session)
    (asked : Reads till session next) : Knows till next := by
  cases asked with
  | paymentLookup request stage usd owner unseen =>
      exact ⟨(fun locked => by cases locked), knows.row⟩
  | @depositLock payment user wallet _ request stage owner found =>
      refine ⟨fun _ other target => ?_, knows.row⟩
      rw [CashSession.target, request] at target
      cases owner.symm.trans target
      exact found
  | keyLookup request stage unused => exact ⟨(fun locked => by cases locked), knows.row⟩
  | withdrawalLock request stage found covered =>
      refine ⟨fun _ other target => ?_, knows.row⟩
      rw [CashSession.target, request] at target
      cases target
      exact found
  | rowLock request stage found kind pending =>
      refine ⟨(fun locked => by cases locked), ?_⟩
      rintro row ⟨⟩
      obtain rfl := Table.key_of_find? found
      exact ⟨found, kind, pending⟩
  | refundLock request stage loaded =>
      refine ⟨fun _ other target => ?_, knows.row⟩
      rw [CashSession.target, request, loaded] at target
      cases target
      rfl

def informed : Serial cashFlows where
  Knows := Knows
  fresh := by
    rintro till session ⟨begun, _, noRow⟩
    refine ⟨fun locked => ?_, fun row loaded => ?_⟩
    · rw [show CashSession.stage session = .begun from begun] at locked
      contradiction
    · rw [show CashSession.row session = none from noRow] at loaded
      contradiction
  query := Knows.read
  stable := Knows.stable

/-! # What the tables say about the history -/

structure Sound (start till : Till) : Prop where
  owned : ∀ id row, till.rows.find? id = some row →
    ∃ wallet, till.wallets.find? row.userId = some wallet
  credited : ∀ payment user amount, .credited payment user amount ∈ till.history →
    ∃ id row, till.rows.find? id = some row ∧ row.kind = .deposit ∧ row.reference = some payment
  debited : ∀ id user key amount, .debited id user key amount ∈ till.history →
    ∃ row, till.rows.find? id = some row ∧ row.kind = .withdrawal ∧ row.reference = key
  recorded : ∀ id row, till.rows.find? id = some row → row.kind = .withdrawal →
    .debited id row.userId row.reference (-row.amount) ∈ till.history
  decided : ∀ id, ∀ movement ∈ till.history, movement.decides id = true →
    ∃ row, till.rows.find? id = some row ∧ row.status ≠ .pending
  once : HappensOnce start till

theorem countP_snoc_le {moves : List Movement} {new : Movement} {test : Movement → Bool}
    (before : moves.countP test ≤ 1)
    (first : test new = true → ∀ movement ∈ moves, test movement = false) :
    (moves ++ [new]).countP test ≤ 1 := by
  rw [List.countP_append, List.countP_singleton]
  split
  · rename_i tested
    have none_ : moves.countP test = 0 := by
      rw [List.countP_eq_zero]
      intro movement member
      simp [first tested movement member]
    omega
  · omega

/-- The index refuses a reference that a row has. -/
theorem referenceTaken_of_row {kind : CashKind} {reference : String} {id : ℕ} {row : CashRow}
    (found : till.rows.find? id = some row) (sameKind : row.kind = kind)
    (same : row.reference = some reference) :
    till.referenceTaken kind (some reference) = true := by
  simp only [Till.referenceTaken, Option.isSome_some, Bool.true_and, List.any_eq_true]
  exact ⟨row, Table.mem_of_find? found, by simp [sameKind, same]⟩

variable {start : Till}

theorem sound_start (empty : start.rows = .empty) (unmoved : start.history = []) :
    Sound start start := by
  have noRow : ∀ id row, start.rows.find? id ≠ some row := by
    intro id row found
    rw [empty] at found
    cases found
  refine ⟨fun id row found => absurd found (noRow id row), ?_, ?_,
    fun id row found => absurd found (noRow id row), ?_, ?_, ?_, ?_, ?_, ?_, ?_⟩
  all_goals simp only [unmoved, List.not_mem_nil, false_implies, implies_true, List.countP_nil,
    zero_le, empty]
  · intro row member
    cases member
  · intro user before found
    exact ⟨before, found, by simp [Table.empty, Table.sum]⟩

/-- A wallet stays where it is, whatever its balance. -/
theorem find?_setBalance_some {user other : UserId} {balance : ℚ} {wallet : Wallet}
    (found : till.wallets.find? other = some wallet) :
    ∃ after, (till.setBalance user balance).find? other = some after := by
  by_cases same : other = user
  · subst same
    rw [find?_setBalance_self, found]
    exact ⟨_, rfl⟩
  · exact ⟨wallet, (find?_setBalance_ne same).trans found⟩

/-- The balances follow the rows when the target's balance and her rows move together. -/
theorem balance_moved {user : UserId} {wallet : Wallet} {delta : ℚ} {rows : Table CashRow.id}
    (once : HappensOnce start till) (found : till.wallets.find? user = some wallet)
    (moved : ∀ other, rows.sum (CashRow.flow other) =
      till.rows.sum (CashRow.flow other) + if user = other then delta else 0) :
    ∀ other before, start.wallets.find? other = some before →
      ∃ after, (till.setBalance user (wallet.balance + delta)).find? other = some after ∧
        after.balance = before.balance + rows.sum (CashRow.flow other) := by
  intro other before starts
  obtain ⟨current, isCurrent, balance⟩ := once.balance other before starts
  rw [moved other]
  by_cases same : other = user
  · subst same
    cases isCurrent.symm.trans found
    refine ⟨_, by rw [find?_setBalance_self, found]; rfl, ?_⟩
    rw [if_pos rfl]
    dsimp only
    rw [balance]
    ring
  · refine ⟨current, (find?_setBalance_ne same).trans isCurrent, ?_⟩
    rw [if_neg (Ne.symm same), add_zero, balance]

theorem Sound.credit {payment : Payment} {user : UserId} {wallet : Wallet} {id : ℕ}
    (sound : Sound start till) (found : till.wallets.find? user = some wallet)
    (fresh : till.rows.find? id = none)
    (indexed : till.referenceTaken .deposit (some payment.id) = false) :
    Sound start
      { wallets := till.setBalance user (wallet.balance + payment.amount)
        rows := till.rows.insert ⟨id, user, .deposit, payment.amount,
          wallet.balance + payment.amount, some payment.id, .completed⟩
        history := till.history ++ [.credited payment.id user payment.amount] } := by
  set new : CashRow := ⟨id, user, .deposit, payment.amount, wallet.balance + payment.amount,
    some payment.id, .completed⟩ with isNew
  have old : ∀ {row : CashRow} {rowId : ℕ}, till.rows.find? rowId = some row →
      (till.rows.insert new).find? rowId = some row := Table.find?_insert_of_find? new
  refine ⟨?_, ?_, ?_, ?_, ?_, ⟨?_, ?_, ?_, ?_, ?_, ?_⟩⟩
  · intro rowId row isRow
    rcases Table.find?_insert_cases isRow with ⟨_, rfl⟩ | before
    · exact find?_setBalance_some found
    · obtain ⟨theirs, isTheirs⟩ := sound.owned rowId row before
      exact find?_setBalance_some isTheirs
  · intro reference owner amount member
    rcases List.mem_append.mp member with before | last
    · obtain ⟨rowId, row, isRow, facts⟩ := sound.credited reference owner amount before
      exact ⟨rowId, row, old isRow, facts⟩
    · obtain ⟨rfl, rfl, rfl⟩ : reference = payment.id ∧ owner = user ∧ amount = payment.amount := by
        simpa using last
      exact ⟨id, new, Table.find?_insert_self new fresh, rfl, rfl⟩
  · intro rowId owner key amount member
    obtain ⟨row, isRow, facts⟩ := sound.debited rowId owner key amount (by simpa using member)
    exact ⟨row, old isRow, facts⟩
  · intro rowId row isRow kind
    rcases Table.find?_insert_cases isRow with ⟨_, rfl⟩ | before
    · cases kind
    · exact List.mem_append_left _ (sound.recorded rowId row before kind)
  · intro rowId movement member decides
    rcases List.mem_append.mp member with before | last
    · obtain ⟨row, isRow, status⟩ := sound.decided rowId movement before decides
      exact ⟨row, old isRow, status⟩
    · rw [List.mem_singleton.mp last] at decides
      contradiction
  · refine fun reference => countP_snoc_le (sound.once.credits reference) fun isThis => ?_
    intro movement member
    -- An earlier credit of the payment has left a row with its reference.
    cases movement with
    | credited other owner amount =>
        obtain ⟨rowId, row, isRow, kind, same⟩ := sound.credited other owner amount member
        have taken := referenceTaken_of_row isRow kind same
        simp only [Movement.credits, decide_eq_true_eq] at isThis
        simp only [Movement.credits, decide_eq_false_iff_not]
        rintro rfl
        rw [← isThis, indexed] at taken
        contradiction
    | debited | completed | refunded => rfl
  · refine fun owner key => countP_snoc_le (sound.once.debits owner key) fun isThis => ?_
    cases isThis
  · refine fun rowId => countP_snoc_le (sound.once.decisions rowId) fun isThis => ?_
    cases isThis
  · intro rowId owner amount member
    obtain ⟨key, isDebit⟩ := sound.once.refunds rowId owner amount (by simpa using member)
    exact ⟨key, List.mem_append_left _ isDebit⟩
  · intro row member kind failed
    rcases Table.mem_insert member with before | rfl
    · exact List.mem_append_left _ (sound.once.failed row before kind failed)
    · cases kind
  · refine balance_moved sound.once found fun other => ?_
    rw [Table.sum_insert new fresh]
    simp [CashRow.flow, isNew]

theorem Sound.debit {user : UserId} {amount : ℚ} {key : Option String} {wallet : Wallet} {id : ℕ}
    (sound : Sound start till) (found : till.wallets.find? user = some wallet)
    (fresh : till.rows.find? id = none)
    (indexed : till.referenceTaken .withdrawal key = false) :
    Sound start
      { wallets := till.setBalance user (wallet.balance - amount)
        rows := till.rows.insert ⟨id, user, .withdrawal, -amount, wallet.balance - amount, key,
          .pending⟩
        history := till.history ++ [.debited id user key amount] } := by
  set new : CashRow := ⟨id, user, .withdrawal, -amount, wallet.balance - amount, key, .pending⟩
    with isNew
  have old : ∀ {row : CashRow} {rowId : ℕ}, till.rows.find? rowId = some row →
      (till.rows.insert new).find? rowId = some row := Table.find?_insert_of_find? new
  refine ⟨?_, ?_, ?_, ?_, ?_, ⟨?_, ?_, ?_, ?_, ?_, ?_⟩⟩
  · intro rowId row isRow
    rcases Table.find?_insert_cases isRow with ⟨_, rfl⟩ | before
    · exact find?_setBalance_some found
    · obtain ⟨theirs, isTheirs⟩ := sound.owned rowId row before
      exact find?_setBalance_some isTheirs
  · intro reference owner paid member
    obtain ⟨rowId, row, isRow, facts⟩ :=
      sound.credited reference owner paid (by simpa using member)
    exact ⟨rowId, row, old isRow, facts⟩
  · intro rowId owner reference paid member
    rcases List.mem_append.mp member with before | last
    · obtain ⟨row, isRow, facts⟩ := sound.debited rowId owner reference paid before
      exact ⟨row, old isRow, facts⟩
    · obtain ⟨rfl, -, rfl, -⟩ : rowId = id ∧ owner = user ∧ reference = key ∧ paid = amount := by
        simpa using last
      exact ⟨new, Table.find?_insert_self new fresh, rfl, rfl⟩
  · intro rowId row isRow kind
    rcases Table.find?_insert_cases isRow with ⟨rfl, rfl⟩ | before
    · simp [isNew]
    · exact List.mem_append_left _ (sound.recorded rowId row before kind)
  · intro rowId movement member decides
    rcases List.mem_append.mp member with before | last
    · obtain ⟨row, isRow, status⟩ := sound.decided rowId movement before decides
      exact ⟨row, old isRow, status⟩
    · rw [List.mem_singleton.mp last] at decides
      contradiction
  · refine fun reference => countP_snoc_le (sound.once.credits reference) fun isThis => ?_
    cases isThis
  · refine fun owner reference => countP_snoc_le (sound.once.debits owner reference) ?_
    intro isThis movement member
    -- An earlier debit with the key has left a row with it.
    cases movement with
    | debited rowId other stored paid =>
        obtain ⟨row, isRow, kind, same⟩ := sound.debited rowId other stored paid member
        simp only [Movement.debits, Bool.and_eq_true, decide_eq_true_eq] at isThis
        simp only [Movement.debits, Bool.and_eq_false_iff, decide_eq_false_iff_not]
        right
        rintro rfl
        have taken := referenceTaken_of_row isRow kind same
        rw [← isThis.2, indexed] at taken
        contradiction
    | credited | completed | refunded => rfl
  · refine fun rowId => countP_snoc_le (sound.once.decisions rowId) fun isThis => ?_
    cases isThis
  · intro rowId owner paid member
    obtain ⟨reference, isDebit⟩ := sound.once.refunds rowId owner paid (by simpa using member)
    exact ⟨reference, List.mem_append_left _ isDebit⟩
  · intro row member kind failed
    rcases Table.mem_insert member with before | rfl
    · exact List.mem_append_left _ (sound.once.failed row before kind failed)
    · cases failed
  · rw [sub_eq_add_neg]
    refine balance_moved sound.once found fun other => ?_
    rw [Table.sum_insert new fresh]
    simp [CashRow.flow, isNew]

theorem find?_setStatus_cases {id rowId : ℕ} {row found : CashRow} {status : CashStatus}
    (isRow : till.rows.find? id = some row)
    (read : (till.setStatus id status).find? rowId = some found) :
    rowId = id ∧ found = { row with status } ∨ rowId ≠ id ∧ till.rows.find? rowId = some found := by
  by_cases same : rowId = id
  · subst same
    rw [find?_setStatus_self, isRow] at read
    exact .inl ⟨rfl, (Option.some.inj read).symm⟩
  · rw [find?_setStatus_ne same] at read
    exact .inr ⟨same, read⟩

theorem find?_setStatus_some {id rowId : ℕ} {row : CashRow} {status : CashStatus}
    (found : till.rows.find? rowId = some row) :
    ∃ after, (till.setStatus id status).find? rowId = some after ∧ after.kind = row.kind ∧
      after.reference = row.reference ∧ (after.status = row.status ∨ after.status = status) := by
  by_cases same : rowId = id
  · subst same
    rw [find?_setStatus_self, found]
    exact ⟨_, rfl, rfl, rfl, .inr rfl⟩
  · rw [find?_setStatus_ne same]
    exact ⟨row, found, rfl, rfl, .inl rfl⟩

/-- What the history is told of a decision. -/
def CashRow.verdict (row : CashRow) : Bool → CashStatus × Movement
  | true => (.completed, .completed row.id)
  | false => (.failed, .refunded row.id row.userId (-row.amount))

/-- The part of a decision that does not depend on which way it goes. -/
theorem Sound.decide {row : CashRow} {wallets : Table Wallet.userId} (confirmed : Bool)
    (sound : Sound start till) (isRow : till.rows.find? row.id = some row)
    (kind : row.kind = .withdrawal) (pending : row.status = .pending)
    (kept : ∀ user wallet, till.wallets.find? user = some wallet →
      ∃ after, wallets.find? user = some after)
    (balance : ∀ user before, start.wallets.find? user = some before →
      ∃ after, wallets.find? user = some after ∧ after.balance = before.balance +
        (till.setStatus row.id (row.verdict confirmed).1).sum (CashRow.flow user)) :
    Sound start
      { wallets
        rows := till.setStatus row.id (row.verdict confirmed).1
        history := till.history ++ [(row.verdict confirmed).2] } := by
  have settled : (row.verdict confirmed).1 ≠ .pending := by
    cases confirmed <;> simp [CashRow.verdict]
  have isDebit := sound.recorded row.id row isRow kind
  refine ⟨?_, ?_, ?_, ?_, ?_, ⟨?_, ?_, ?_, ?_, ?_, balance⟩⟩
  · intro rowId found read
    rcases find?_setStatus_cases isRow read with ⟨rfl, rfl⟩ | ⟨_, before⟩
    · obtain ⟨wallet, owner⟩ := sound.owned row.id row isRow
      exact kept row.userId wallet owner
    · obtain ⟨wallet, owner⟩ := sound.owned rowId found before
      exact kept found.userId wallet owner
  · intro payment user amount member
    have before : .credited payment user amount ∈ till.history := by
      cases confirmed <;> simpa [CashRow.verdict] using member
    obtain ⟨rowId, found, read, isDeposit, reference⟩ :=
      sound.credited payment user amount before
    obtain ⟨after, isAfter, sameKind, same, _⟩ := find?_setStatus_some read
    exact ⟨rowId, after, isAfter, sameKind.trans isDeposit, same.trans reference⟩
  · intro rowId user key amount member
    have before : .debited rowId user key amount ∈ till.history := by
      cases confirmed <;> simpa [CashRow.verdict] using member
    obtain ⟨found, read, isWithdrawal, reference⟩ := sound.debited rowId user key amount before
    obtain ⟨after, isAfter, sameKind, same, _⟩ := find?_setStatus_some read
    exact ⟨after, isAfter, sameKind.trans isWithdrawal, same.trans reference⟩
  · intro rowId found read isWithdrawal
    rcases find?_setStatus_cases isRow read with ⟨rfl, rfl⟩ | ⟨_, before⟩
    · exact List.mem_append_left _ isDebit
    · exact List.mem_append_left _ (sound.recorded rowId found before isWithdrawal)
  · intro rowId movement member decides
    rcases List.mem_append.mp member with before | last
    · obtain ⟨found, read, status⟩ := sound.decided rowId movement before decides
      obtain ⟨after, isAfter, _, _, same | changed⟩ := find?_setStatus_some read
      · exact ⟨after, isAfter, same ▸ status⟩
      · exact ⟨after, isAfter, changed ▸ settled⟩
    · have this : row.id = rowId := by
        rw [List.mem_singleton.mp last] at decides
        cases confirmed <;> simpa [CashRow.verdict, Movement.decides] using decides
      subst this
      exact ⟨_, by rw [find?_setStatus_self, isRow]; rfl, settled⟩
  · refine fun payment => countP_snoc_le (sound.once.credits payment) fun isThis => ?_
    cases confirmed <;> cases isThis
  · refine fun user key => countP_snoc_le (sound.once.debits user key) fun isThis => ?_
    cases confirmed <;> cases isThis
  · refine fun rowId => countP_snoc_le (sound.once.decisions rowId) ?_
    intro isThis movement member
    have this : row.id = rowId := by
      cases confirmed <;> simpa [CashRow.verdict, Movement.decides] using isThis
    subst this
    -- A decided row is not pending.
    rw [Bool.eq_false_iff]
    intro decides
    obtain ⟨found, read, status⟩ := sound.decided row.id movement member decides
    cases isRow.symm.trans read
    exact status pending
  · intro rowId user amount member
    rcases List.mem_append.mp member with before | last
    · obtain ⟨key, earlier⟩ := sound.once.refunds rowId user amount before
      exact ⟨key, List.mem_append_left _ earlier⟩
    · cases confirmed with
      | true => cases List.mem_singleton.mp last
      | false =>
          obtain ⟨rfl, rfl, rfl⟩ :
              rowId = row.id ∧ user = row.userId ∧ amount = -row.amount := by
            simpa [CashRow.verdict] using last
          exact ⟨row.reference, List.mem_append_left _ isDebit⟩
  · intro found member isWithdrawal failed
    have read := Table.find?_eq_some.mpr ⟨member, rfl⟩
    rcases find?_setStatus_cases isRow read with ⟨_, rfl⟩ | ⟨_, before⟩
    · cases confirmed with
      | true => cases failed
      | false => simp [CashRow.verdict]
    · exact List.mem_append_left _
        (sound.once.failed found (Table.mem_of_find? before) isWithdrawal failed)

theorem Sound.complete {row : CashRow} (sound : Sound start till)
    (isRow : till.rows.find? row.id = some row) (kind : row.kind = .withdrawal)
    (pending : row.status = .pending) :
    Sound start { till with
      rows := till.setStatus row.id .completed
      history := till.history ++ [.completed row.id] } := by
  refine sound.decide true isRow kind pending (fun _ wallet found => ⟨wallet, found⟩) ?_
  intro user before starts
  obtain ⟨after, found, balance⟩ := sound.once.balance user before starts
  have same : (till.setStatus row.id .completed).sum (CashRow.flow user) =
      till.rows.sum (CashRow.flow user) + 0 := by
    unfold Till.setStatus
    refine Table.sum_modify_add isRow ?_
    simp [CashRow.flow, pending]
  refine ⟨after, found, ?_⟩
  rw [balance]
  exact congrArg (before.balance + ·) ((add_zero _).symm.trans same.symm)

theorem Sound.refund {row : CashRow} {wallet : Wallet} (sound : Sound start till)
    (isRow : till.rows.find? row.id = some row) (kind : row.kind = .withdrawal)
    (pending : row.status = .pending) (owner : till.wallets.find? row.userId = some wallet) :
    Sound start
      { wallets := till.setBalance row.userId (wallet.balance - row.amount)
        rows := till.setStatus row.id .failed
        history := till.history ++ [.refunded row.id row.userId (-row.amount)] } := by
  refine sound.decide false isRow kind pending
    (fun _ _ found => find?_setBalance_some found) ?_
  rw [sub_eq_add_neg]
  refine balance_moved sound.once owner fun other => ?_
  unfold Till.setStatus
  refine Table.sum_modify_add isRow ?_
  by_cases same : row.userId = other
  · simp [CashRow.flow, CashRow.verdict, same, pending]
  · simp [CashRow.flow, same]

theorem Sound.store (knows : Knows till session) (stored : Stores till session after)
    (sound : Sound start till) : Sound start after := by
  cases stored with
  | @credit payment user wallet id _ request stage owner loaded fresh indexed =>
      have target : session.target = some user := by rw [CashSession.target, request]; exact owner
      have found := (knows.wallet stage user target).trans loaded
      exact sound.credit found fresh indexed
  | @debit user amount key wallet id _ request stage loaded fresh indexed =>
      have target : session.target = some user := by rw [CashSession.target, request]
      have found := (knows.wallet stage user target).trans loaded
      exact sound.debit found fresh indexed
  | complete request stage loaded =>
      obtain ⟨isRow, kind, pending⟩ := knows.row _ loaded
      exact sound.complete isRow kind pending
  | @refund id row wallet _ request stage loaded held =>
      obtain ⟨isRow, kind, pending⟩ := knows.row row loaded
      have target : session.target = some row.userId := by
        rw [CashSession.target, request, loaded]; rfl
      exact sound.refund isRow kind pending ((knows.wallet stage _ target).trans held)
  | @reject id row _ request stage loaded missing =>
      -- The owner of a row has a wallet, so this branch is not reached.
      obtain ⟨isRow, _, _⟩ := knows.row row loaded
      have target : session.target = some row.userId := by
        rw [CashSession.target, request, loaded]; rfl
      obtain ⟨wallet, owner⟩ := sound.owned row.id row isRow
      cases owner.symm.trans ((knows.wallet stage _ target).trans missing)

theorem external_money_moves_once {moves : List Move} {final : cashFlows.State}
    (empty : start.rows = .empty) (unmoved : start.history = [])
    (run : Run cashFlows.Interleaves (fun _ _ => True) (State.idle start) moves final) :
    HappensOnce start final.shared := by
  have sound := informed.invariant (Sound start) Sound.store run (sound_start empty unmoved)
  exact sound.once

def paid : Payment := ⟨"pi_1", 2500, true, some 1⟩

/-- A wallet with 10 in it, or with the payment as well. -/
def opened : Till := ⟨⟨[⟨1, 10, 0⟩], by decide⟩, .empty, []⟩

def creditedOnce : Till :=
  { wallets := opened.setBalance 1 (10 + paid.amount)
    rows := opened.rows.insert
      ⟨0, 1, .deposit, paid.amount, 10 + paid.amount, some "pi_1", .completed⟩
    history := opened.history ++ [.credited "pi_1" 1 paid.amount] }

def delivery (stage : Stage) (wallet : Option Wallet) : CashSession :=
  ⟨.deposit paid, stage, wallet, none⟩

/-- Both deliveries look the payment up before either is credited; the second one gets the
wallet after the first, and the index stops it. -/
theorem two_deliveries_credit_once :
    ∃ moves, ∃ late : CashSession, Run cashFlows.Interleaves (fun _ _ => True)
        (State.idle opened) moves (.pair creditedOnce none (some late)) ∧
      late.stage = .locked ∧ (∀ after, ¬ Stores creditedOnce late after) ∧
      HappensOnce opened creditedOnce := by
  let late := delivery .locked (creditedOnce.wallets.find? 1)
  have free : ∀ stage (session : CashSession), cashFlows.Apart session (delivery stage none) := by
    rintro stage session (user | id) _ ⟨_, held, _⟩ <;> cases held
  have lookup : Reads opened (delivery .begun none) (delivery .checked none) :=
    .paymentLookup rfl rfl rfl rfl rfl
  have firstLocks : Reads opened (delivery .checked none) (delivery .locked (some ⟨1, 10, 0⟩)) :=
    .depositLock rfl rfl rfl (by decide +kernel)
  have credits : Stores opened (delivery .locked (some ⟨1, 10, 0⟩)) creditedOnce :=
    @Stores.credit opened paid 1 ⟨1, 10, 0⟩ 0 _ rfl rfl rfl rfl rfl rfl
  have secondLocks : Reads creditedOnce (delivery .checked none) late :=
    .depositLock rfl rfl rfl rfl
  have begins : Run cashFlows.Interleaves (fun _ _ => True) (.pair opened none none)
      [.begin 0, .begin 1]
      (.pair opened (some (delivery .begun none)) (some (delivery .begun none))) :=
    .act trivial (.beginLeft ⟨rfl, rfl, rfl⟩)
      (.act trivial (.beginRight ⟨rfl, rfl, rfl⟩) (.stop _))
  have run : Run cashFlows.Interleaves (fun _ _ => True) (State.idle opened)
      ([.begin 0, .begin 1] ++ [.query 0, .query 1, .query 0, .commit 0, .query 1])
      (.pair creditedOnce none (some late)) := by
    refine (congrArg (Run _ _ · _ _) State.idle_eq_pair).mpr (begins.append ?_)
    exact .act trivial (.queryLeft lookup (by rintro _ ⟨⟩; exact free _ _))
      (.act trivial (.queryRight lookup (by rintro _ ⟨⟩; exact free _ _))
        (.act trivial (.queryLeft firstLocks (by rintro _ ⟨⟩; exact free _ _))
          (.act trivial (.commitLeft credits)
            (.act trivial (.queryRight secondLocks (by rintro _ ⟨⟩)) (.stop _)))))
  refine ⟨_, late, run, rfl, ?_, external_money_moves_once rfl rfl run⟩
  intro after stored
  have taken : creditedOnce.referenceTaken .deposit (some "pi_1") = true := by decide +kernel
  cases stored with
  | credit request stage owner loaded fresh indexed =>
      cases request
      exact absurd (taken.symm.trans indexed) (by decide)
  | debit request | complete request | refund request | reject request => cases request

end PredictX.CashSessions

namespace PredictX.Moderation

open PredictX.Data PredictX.MatchingEngine PredictX.MoneySupply PredictX.CashSessions

/-! What one request does to the money that comes from outside.

A row counts for its amount until it has failed.  Whatever a request stores, the balance of one
user and the rows move by the same amount.
-/

/-- What a row stands for. -/
def outside (row : CashRow) : ℚ := if row.status = .failed then 0 else row.amount

/-- Every row has a wallet, and a withdrawal takes money out. -/
def Banked (till : Till) : Prop :=
  ∀ row ∈ till.rows.rows, hasWallet till.wallets row.userId = true ∧
    (row.kind = .withdrawal → row.amount ≤ 0)

/-- `amount` came to the user from outside. -/
structure Settles (till after : Till) (user : UserId) (amount : ℚ) : Prop where
  owned : hasWallet till.wallets user = true
  wallets : after.wallets = till.wallets.modify user (Wallet.credit amount)
  rows : after.rows.sum outside = till.rows.sum outside + amount
  banked : Banked after

section Requests

variable {till after : Till} {request : CashSessions.Request} {session : CashSession}
  {user : UserId} {amount : ℚ} {row : CashRow}

theorem Asks.knows (asks : Asks till request session) :
    Knows till session ∧ session.request = request := by
  induction asks with
  | refl => exact ⟨informed.fresh ⟨rfl, rfl, rfl⟩, rfl⟩
  | tail _ reads ih =>
      refine ⟨ih.1.read reads, ?_⟩
      cases reads with
      | paymentLookup | depositLock | keyLookup | withdrawalLock | rowLock | refundLock =>
          exact ih.2

theorem setBalance_credit {wallet : Wallet} (found : till.wallets.find? user = some wallet) :
    till.setBalance user (wallet.balance + amount) =
      till.wallets.modify user (Wallet.credit amount) :=
  Table.modify_congr found rfl

theorem modify_credit_zero (wallets : Table Wallet.userId) (user : UserId) :
    wallets.modify user (Wallet.credit 0) = wallets :=
  Table.modify_eq_self fun wallet _ => by simp [Wallet.credit]

theorem Settles.lasting (settles : Settles till after user amount) :
    Lasting till.wallets after.wallets := by
  rw [settles.wallets]
  exact (Receives.credit settles.owned).lasting

theorem Settles.total (settles : Settles till after user amount) :
    after.wallets.sum Wallet.balance - after.rows.sum outside =
      till.wallets.sum Wallet.balance - till.rows.sum outside := by
  rw [settles.rows, settles.wallets, (Receives.credit settles.owned).total]
  ring

theorem lasting_credit (owned : hasWallet till.wallets user = true) (amount : ℚ) :
    Lasting till.wallets (till.wallets.modify user (Wallet.credit amount)) :=
  (Receives.credit owned).lasting

/-- A new row and the movement of its amount. -/
theorem settles_insert {wallet : Wallet} {history : List Movement} (row : CashRow)
    (banked : Banked till) (found : till.wallets.find? row.userId = some wallet)
    (fresh : till.rows.find? row.id = none) (live : row.status ≠ .failed)
    (taken : row.kind = .withdrawal → row.amount ≤ 0) :
    Settles till ⟨till.setBalance row.userId (wallet.balance + row.amount),
      till.rows.insert row, history⟩ row.userId row.amount := by
  have owned : hasWallet till.wallets row.userId = true := by simp [hasWallet, found]
  have stays := lasting_credit owned row.amount
  refine ⟨owned, setBalance_credit found, ?_, fun other member => ?_⟩
  · dsimp only
    rw [Table.sum_insert row fresh, outside, if_neg live]
  · dsimp only
    rw [setBalance_credit found]
    rcases Table.mem_insert member with old | rfl
    · exact ⟨stays _ (banked other old).1, (banked other old).2⟩
    · exact ⟨stays _ owned, taken⟩

/-- A decided row and what goes back to its owner. -/
theorem settles_decide (amount : ℚ) (status : CashStatus) (history : List Movement)
    (banked : Banked till) (found : till.rows.find? row.id = some row)
    (moved : outside { row with status } = outside row + amount) :
    Settles till ⟨till.wallets.modify row.userId (Wallet.credit amount),
      till.setStatus row.id status, history⟩ row.userId amount := by
  have owned := (banked row (Table.mem_of_find? found)).1
  have stays := lasting_credit owned amount
  have keeps : ∀ row : CashRow, CashRow.id { row with status } = row.id := fun _ => rfl
  have total : (till.rows.modify row.id (fun row => { row with status }) keeps).sum outside =
      till.rows.sum outside + amount := Table.sum_modify_add found moved
  refine ⟨owned, rfl, total, fun other member => ?_⟩
  have written : other ∈
      (till.rows.modify row.id (fun row => { row with status }) keeps).rows := member
  obtain ⟨old, oldMember, rfl⟩ := Table.mem_modify.mp written
  have before := banked old oldMember
  split
  · exact ⟨stays _ before.1, before.2⟩
  · exact ⟨stays _ before.1, before.2⟩

/-- What a request stores.  A withdrawal takes from the one who asks, and nothing else takes. -/
theorem stores_settles (banked : Banked till) (asks : Asks till request session)
    (stores : Stores till session after) :
    ∃ user amount, Settles till after user amount ∧
      ((∃ value key, request = .withdraw user value key) ∨ 0 ≤ amount) := by
  obtain ⟨knows, rfl⟩ := asks.knows
  cases stores with
  | @credit payment user wallet id _ asked stage owner loaded fresh indexed =>
      have target : session.target = some user := by rw [CashSession.target, asked]; exact owner
      have found := (knows.wallet stage user target).trans loaded
      refine ⟨user, payment.amount, settles_insert ⟨id, user, .deposit, payment.amount,
        wallet.balance + payment.amount, some payment.id, .completed⟩ banked found fresh nofun
          nofun, .inr ?_⟩
      unfold Payment.amount
      positivity
  | @debit user value key wallet id _ asked stage loaded fresh indexed =>
      have target : session.target = some user := by rw [CashSession.target, asked]
      have found := (knows.wallet stage user target).trans loaded
      have taken : -value.value ≤ 0 := neg_nonpos.mpr value.pos.le
      rw [sub_eq_add_neg]
      exact ⟨user, -value.value, settles_insert ⟨id, user, .withdrawal, -value.value,
        wallet.balance + -value.value, key, .pending⟩ banked found fresh nofun fun _ => taken,
        .inl ⟨value, key, asked⟩⟩
  | @complete id row _ asked stage loaded =>
      obtain ⟨found, _, pending⟩ := knows.row row loaded
      have settles := settles_decide 0 .completed (till.history ++ [.completed row.id])
        banked found
        (by simp [outside, pending])
      rw [modify_credit_zero] at settles
      exact ⟨row.userId, 0, settles, .inr le_rfl⟩
  | @refund id row wallet _ asked stage loaded held =>
      obtain ⟨found, kind, pending⟩ := knows.row row loaded
      have target : session.target = some row.userId := by
        rw [CashSession.target, asked, loaded]
        rfl
      have isWallet := (knows.wallet stage row.userId target).trans held
      have taken := (banked row (Table.mem_of_find? found)).2 kind
      have settles := settles_decide (-row.amount) .failed
        (till.history ++ [.refunded row.id row.userId (-row.amount)]) banked found
        (by simp [outside, pending])
      rw [← setBalance_credit isWallet, ← sub_eq_add_neg] at settles
      exact ⟨row.userId, -row.amount, settles, .inr (neg_nonneg.mpr taken)⟩
  | @reject id row _ asked stage loaded missing =>
      -- Every row has a wallet.
      obtain ⟨found, _, _⟩ := knows.row row loaded
      have target : session.target = some row.userId := by
        rw [CashSession.target, asked, loaded]
        rfl
      have owned := (banked row (Table.mem_of_find? found)).1
      rw [hasWallet, (knows.wallet stage row.userId target).trans missing] at owned
      contradiction

end Requests

end PredictX.Moderation
