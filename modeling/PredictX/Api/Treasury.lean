import PredictX.Data.Numeric
import PredictX.Data.Sessions
import PredictX.Data.Except
import PredictX.Models

namespace PredictX.Treasury

open PredictX.Data PredictX.Data.Protocol

/-! `distribute_fees` on the treasury's one row.

Requests get here after the admin check and the step-up.  The row is read by a plain SELECT
and a refresh, and nothing locks it before the UPDATE, which writes the new balance and not
the difference.  The audit row is what commits: `log_action` ends in `db.commit()`.
-/

/-- The amount of a request: `gt=0, le=100_000_000`, with any number of decimals. -/
structure Amount where
  value : ℚ
  pos : 0 < value
  bounded : value ≤ 100000000

structure TreasuryRow where
  balance : ℚ
  totalFeesCollected : ℚ
  totalFeesDistributed : ℚ
deriving DecidableEq, Repr

/-- The defaults of the columns. -/
def TreasuryRow.created : TreasuryRow := ⟨0, 0, 0⟩

structure TreasuryLog where
  amount : ℚ
deriving DecidableEq, Repr

structure Books where
  row : Option TreasuryRow
  logs : List TreasuryLog
deriving DecidableEq, Repr

/-- `_get_or_create_treasury`. -/
def getOrCreateTreasury (books : Books) : TreasuryRow := books.row.getD .created

/-- What the row becomes when `loaded` is what the session has read. -/
def TreasuryRow.distribute (loaded stored : TreasuryRow) (amount : ℚ) : TreasuryRow :=
  { stored with
    balance := toNumeric scale (loaded.balance - amount)
    totalFeesDistributed := toNumeric scale (loaded.totalFeesDistributed + amount) }

/-- The transaction's writes, for a row read earlier. -/
def write (loaded : TreasuryRow) (amount : ℚ) (books : Books) : Except Error Books :=
  if loaded.balance < amount then .error (.validation .validationError)
  else
    .ok { row := some (loaded.distribute (getOrCreateTreasury books) amount)
          logs := books.logs ++ [⟨toNumeric scale amount⟩] }

/-- `distribute_fees`, alone. -/
def distributeFees (amount : Amount) (books : Books) : Except Error Books :=
  write (getOrCreateTreasury books) amount.value books

/-- `seen` is the row of the refresh and the length of the log at that moment. -/
structure Request where
  amount : Amount
  seen : Option (TreasuryRow × ℕ)

def Reads (books : Books) (request next : Request) : Prop :=
  request.seen = none ∧
    next = { request with seen := some (getOrCreateTreasury books, books.logs.length) }

def Commits (books : Books) (request : Request) (after : Books) : Prop :=
  ∃ loaded mark, request.seen = some (loaded, mark) ∧
    write loaded request.amount.value books = .ok after

/-- The requests as sessions; none of them holds a lock when another one asks. -/
def withdrawals : Protocol Books where
  Session := Request
  Row := Empty
  fresh request := request.seen = none
  holds _ _ := False
  query := Reads
  commit := Commits
  holds_fresh _ _ _ := id

theorem write_ok {loaded : TreasuryRow} {amount : ℚ} {books after : Books}
    (written : write loaded amount books = .ok after) :
    amount ≤ loaded.balance ∧
      after = { row := some (loaded.distribute (getOrCreateTreasury books) amount)
                logs := books.logs ++ [⟨toNumeric scale amount⟩] } := by
  unfold write at written
  split at written
  · contradiction
  · rename_i covered
    exact ⟨not_lt.mp covered, (Except.ok.inj written).symm⟩

/-- A request that nobody disturbs is `distribute_fees`. -/
theorem distributeFees_alone {amount : Amount} {books after : Books}
    (distributed : distributeFees amount books = .ok after) :
    ∃ moves, Run withdrawals.Interleaves (fun _ _ => True) (State.idle books) moves
      (State.idle after) :=
  @run_alone _ withdrawals _ _ ⟨amount, none⟩
    ⟨amount, some (getOrCreateTreasury books, books.logs.length)⟩ rfl
    (.single ⟨rfl, rfl⟩) ⟨_, _, rfl, distributed⟩

end PredictX.Treasury
