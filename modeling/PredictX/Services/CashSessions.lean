import PredictX.Data.Sessions
import PredictX.Services.WalletService

namespace PredictX.CashSessions

open PredictX.Data PredictX.Data.Protocol

/-! Deposits, withdrawals and their confirmation, interleaved.

A wallet is read `FOR UPDATE`, and so is the row of a withdrawal that is being confirmed; the
look-ups of a payment or of an idempotency key lock nothing.  The partial unique indexes are
tested when the row is stored: a transaction that fails the test aborts.  `history` lists the
money that has moved, which no table does.
-/

/-- `payment_intent.succeeded`. -/
structure Payment where
  id : String
  amountCents : ℕ
  isUsd : Bool
  userId : Option UserId
deriving DecidableEq, Repr

/-- `(Decimal(amount_cents) / Decimal(100)).quantize(Decimal("0.01"))`. -/
def Payment.amount (payment : Payment) : ℚ := payment.amountCents / 100

inductive CashKind where
  | deposit
  | withdrawal
deriving DecidableEq, Repr

inductive CashStatus where
  | pending
  | completed
  | failed
deriving DecidableEq, Repr

/-- A row of `transactions`; a withdrawal's amount is negative. -/
structure CashRow where
  id : ℕ
  userId : UserId
  kind : CashKind
  amount : ℚ
  balanceAfter : ℚ
  reference : Option String
  status : CashStatus
deriving DecidableEq, Repr

inductive Movement where
  | credited (payment : String) (user : UserId) (amount : ℚ)
  | debited (id : ℕ) (user : UserId) (key : Option String) (amount : ℚ)
  | completed (id : ℕ)
  | refunded (id : ℕ) (user : UserId) (amount : ℚ)
deriving DecidableEq, Repr

structure Till where
  wallets : Table Wallet.userId
  rows : Table CashRow.id
  history : List Movement

/-- `uq_transactions_deposit_ref` and `uq_transactions_withdrawal_ref`: a reference that is not
null is there once. -/
def Till.referenceTaken (till : Till) (kind : CashKind) (reference : Option String) : Bool :=
  reference.isSome &&
    till.rows.rows.any fun row => row.kind = kind && row.reference = reference

/-- The look-up of a payment, or of a user's idempotency key. -/
def Till.recorded (till : Till) (kind : CashKind) (user : Option UserId) (reference : String) :
    Bool :=
  till.rows.rows.any fun row => row.kind = kind && row.reference = some reference &&
    user.all (row.userId = ·)

inductive Request where
  | deposit (payment : Payment)
  | withdraw (user : UserId) (amount : PositiveMoney) (key : Option String)
  | confirm (withdrawal : ℕ) (confirmed : Bool)

inductive Stage where
  | begun
  | checked
  | locked
deriving DecidableEq, Repr

/-- The rows a transaction has locked, as it read them. -/
structure CashSession where
  request : Request
  stage : Stage
  wallet : Option Wallet
  row : Option CashRow

inductive CashLock where
  | wallet (user : UserId)
  | row (id : ℕ)
deriving DecidableEq, Repr

/-- The user whose wallet the transaction moves. -/
def CashSession.target (session : CashSession) : Option UserId :=
  match session.request with
  | .deposit payment => payment.userId
  | .withdraw user _ _ => some user
  | .confirm _ _ => session.row.map CashRow.userId

def CashSession.Holds (session : CashSession) : CashLock → Prop
  | .wallet user => ∃ wallet, session.wallet = some wallet ∧ wallet.userId = user
  | .row id => ∃ row, session.row = some row ∧ row.id = id

inductive Reads (till : Till) : CashSession → CashSession → Prop
  | paymentLookup {payment : Payment} {user : UserId} {session : CashSession}
      (request : session.request = .deposit payment) (stage : session.stage = .begun)
      (usd : payment.isUsd = true) (owner : payment.userId = some user)
      (unseen : till.recorded .deposit none payment.id = false) :
      Reads till session { session with stage := .checked }
  | depositLock {payment : Payment} {user : UserId} {wallet : Wallet} {session : CashSession}
      (request : session.request = .deposit payment) (stage : session.stage = .checked)
      (owner : payment.userId = some user) (found : till.wallets.find? user = some wallet) :
      Reads till session { session with stage := .locked, wallet := some wallet }
  | keyLookup {user : UserId} {amount : PositiveMoney} {key : Option String}
      {session : CashSession} (request : session.request = .withdraw user amount key)
      (stage : session.stage = .begun)
      (unused : ∀ text, key = some text → text ≠ "" →
        till.recorded .withdrawal (some user) text = false) :
      Reads till session { session with stage := .checked }
  | withdrawalLock {user : UserId} {amount : PositiveMoney} {key : Option String}
      {wallet : Wallet} {session : CashSession}
      (request : session.request = .withdraw user amount key) (stage : session.stage = .checked)
      (found : till.wallets.find? user = some wallet)
      (covered : amount.value ≤ wallet.available) :
      Reads till session { session with stage := .locked, wallet := some wallet }
  | rowLock {id : ℕ} {confirmed : Bool} {row : CashRow} {session : CashSession}
      (request : session.request = .confirm id confirmed) (stage : session.stage = .begun)
      (found : till.rows.find? id = some row) (kind : row.kind = .withdrawal)
      (pending : row.status = .pending) :
      Reads till session { session with stage := .checked, row := some row }
  | refundLock {id : ℕ} {row : CashRow} {session : CashSession}
      (request : session.request = .confirm id false) (stage : session.stage = .checked)
      (loaded : session.row = some row) :
      Reads till session
        { session with stage := .locked, wallet := till.wallets.find? row.userId }

/-- The wallet's row with a new balance. -/
def Till.setBalance (till : Till) (user : UserId) (balance : ℚ) : Table Wallet.userId :=
  till.wallets.modify user fun wallet => { wallet with balance }

def Till.setStatus (till : Till) (rowId : ℕ) (status : CashStatus) : Table CashRow.id :=
  till.rows.modify rowId fun row => { row with status }

inductive Stores (till : Till) : CashSession → Till → Prop
  | credit {payment : Payment} {user : UserId} {wallet : Wallet} {id : ℕ} {session : CashSession}
      (request : session.request = .deposit payment) (stage : session.stage = .locked)
      (owner : payment.userId = some user) (loaded : session.wallet = some wallet)
      (fresh : till.rows.find? id = none)
      (indexed : till.referenceTaken .deposit (some payment.id) = false) :
      Stores till session
        { wallets := till.setBalance user (wallet.balance + payment.amount)
          rows := till.rows.insert ⟨id, user, .deposit, payment.amount,
            wallet.balance + payment.amount, some payment.id, .completed⟩
          history := till.history ++ [.credited payment.id user payment.amount] }
  | debit {user : UserId} {amount : PositiveMoney} {key : Option String} {wallet : Wallet}
      {id : ℕ} {session : CashSession} (request : session.request = .withdraw user amount key)
      (stage : session.stage = .locked) (loaded : session.wallet = some wallet)
      (fresh : till.rows.find? id = none)
      (indexed : till.referenceTaken .withdrawal key = false) :
      Stores till session
        { wallets := till.setBalance user (wallet.balance - amount.value)
          rows := till.rows.insert ⟨id, user, .withdrawal, -amount.value,
            wallet.balance - amount.value, key, .pending⟩
          history := till.history ++ [.debited id user key amount.value] }
  | complete {id : ℕ} {row : CashRow} {session : CashSession}
      (request : session.request = .confirm id true) (stage : session.stage = .checked)
      (loaded : session.row = some row) :
      Stores till session
        { till with
          rows := till.setStatus row.id .completed
          history := till.history ++ [.completed row.id] }
  | refund {id : ℕ} {row : CashRow} {wallet : Wallet} {session : CashSession}
      (request : session.request = .confirm id false) (stage : session.stage = .locked)
      (loaded : session.row = some row) (held : session.wallet = some wallet) :
      Stores till session
        { wallets := till.setBalance row.userId (wallet.balance - row.amount)
          rows := till.setStatus row.id .failed
          history := till.history ++ [.refunded row.id row.userId (-row.amount)] }
  /-- `if wallet:` without a wallet. -/
  | reject {id : ℕ} {row : CashRow} {session : CashSession}
      (request : session.request = .confirm id false) (stage : session.stage = .locked)
      (loaded : session.row = some row) (missing : session.wallet = none) :
      Stores till session { till with rows := till.setStatus row.id .failed }

def cashFlows : Protocol Till where
  Session := CashSession
  Row := CashLock
  fresh session := session.stage = .begun ∧ session.wallet = none ∧ session.row = none
  holds := CashSession.Holds
  query := Reads
  commit := Stores
  holds_fresh := by
    rintro session (user | id) ⟨_, noWallet, noRow⟩
    · rintro ⟨wallet, held, _⟩
      rw [noWallet] at held
      contradiction
    · rintro ⟨row, held, _⟩
      rw [noRow] at held
      contradiction

end PredictX.CashSessions
