import PredictX.Models

namespace PredictX.WalletService

open PredictX.Data

/-! Withdrawals.  The balance is debited at once; the transfer itself comes later. -/

/-- A withdrawal that was recorded under `key`. -/
def isWithdrawal (key : String) (entry : Transaction) : Bool :=
  entry.type = .withdrawal && entry.reference = .withdrawal (some key)

/-- The user has used the key before; an empty key is not looked up. -/
def alreadyProcessed (db : Database) (user : UserId) (key : Option String) : Bool :=
  key.any fun key =>
    key ≠ "" && db.transactions.any fun entry => entry.userId = user && isWithdrawal key entry

/-- `uq_transactions_withdrawal_ref`: the key is taken, by whomever. -/
def keyTaken (db : Database) (key : Option String) : Bool :=
  key.any fun key => db.transactions.any (isWithdrawal key)

/-- `WalletService.withdraw`. -/
def withdraw (db : Database) (user : UserId) (amount : ℚ) (key : Option String) :
    Except Error Database :=
  if amount ≤ 0 then .error (.validation .validationError)
  else if alreadyProcessed db user key then .error .idempotency
  else
    match db.wallets.find? user with
    | none => .error .notFound
    | some wallet =>
        if wallet.available < amount then .error (.insufficientBalance wallet.available amount)
        else if keyTaken db key then .error .idempotency
        else
          .ok { db with
            wallets := db.wallets.modify user (Wallet.debit amount) (Wallet.debit_userId amount)
            transactions := db.transactions ++
              [⟨user, .withdrawal, -amount, wallet.balance - amount, .withdrawal key⟩] }

theorem withdraw_ok {db after : Database} {user : UserId} {amount : ℚ} {key : Option String}
    (ran : withdraw db user amount key = .ok after) :
    ∃ wallet, db.wallets.find? user = some wallet ∧ 0 < amount ∧ amount ≤ wallet.available ∧
      after = { db with
        wallets := db.wallets.modify user (Wallet.debit amount)
        transactions := db.transactions ++
          [⟨user, .withdrawal, -amount, wallet.balance - amount, .withdrawal key⟩] } := by
  unfold withdraw at ran
  split at ran
  · contradiction
  rename_i positive
  split at ran
  · contradiction
  split at ran
  · contradiction
  rename_i wallet found
  split at ran
  · contradiction
  rename_i covered
  split at ran
  · contradiction
  cases ran
  exact ⟨wallet, found, not_le.mp positive, not_lt.mp covered, rfl⟩

end PredictX.WalletService
