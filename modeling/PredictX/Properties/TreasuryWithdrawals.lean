import PredictX.Api.Treasury

namespace PredictX.Treasury

open PredictX.Data PredictX.Data.Protocol

/-! What manual withdrawals leave in the treasury.

A request computes with the row it has read, so a withdrawal that commits in between is
written over.  The columns keep eight decimals, and the balance and the log round a half in
opposite directions.
-/

/-- A row as the columns and their constraint allow it. -/
structure TreasuryRow.Stored (row : TreasuryRow) : Prop where
  balanceGrid : OnGrid scale row.balance
  balanceNonneg : 0 ≤ row.balance
  distributedGrid : OnGrid scale row.totalFeesDistributed
  distributedNonneg : 0 ≤ row.totalFeesDistributed

def Books.Stored (books : Books) : Prop := (getOrCreateTreasury books).Stored

/-- What the log rows say was withdrawn. -/
def Books.withdrawn (books : Books) : ℚ := (books.logs.map TreasuryLog.amount).sum

/-- The row and the log agree on what has happened since `start`. -/
structure Accounts (start books : Books) : Prop where
  balance : (getOrCreateTreasury books).balance =
    (getOrCreateTreasury start).balance - (books.withdrawn - start.withdrawn)
  distributed : (getOrCreateTreasury books).totalFeesDistributed =
    (getOrCreateTreasury start).totalFeesDistributed + (books.withdrawn - start.withdrawn)
  nonneg : 0 ≤ (getOrCreateTreasury books).balance

/-- A request commits a withdrawal that is not half-way between two stored amounts, and none
has been committed since it read the row. -/
def Undisturbed (state : withdrawals.State) : Move → Prop
  | .commit id => ∀ request : Request, state.sessions id = some request →
      ¬ IsMidpoint scale request.amount.value ∧
        ∀ loaded mark, request.seen = some (loaded, mark) → state.shared.logs.length = mark
  | _ => True

/-- A request knows the row until the next withdrawal commits. -/
def informed : Serial withdrawals where
  Knows books request := ∀ loaded mark, Request.seen request = some (loaded, mark) →
    mark ≤ books.logs.length ∧ (mark = books.logs.length → loaded = getOrCreateTreasury books)
  fresh := by
    intro books request fresh loaded mark seen
    rw [show Request.seen request = none from fresh] at seen
    contradiction
  query := by
    rintro books request next _ ⟨_, rfl⟩ loaded mark ⟨⟩
    exact ⟨le_rfl, fun _ => rfl⟩
  stable := by
    rintro books request writer after knows _ _ ⟨theirs, _, _, written⟩ loaded mark seen
    obtain ⟨past, _⟩ := knows loaded mark seen
    obtain ⟨_, rfl⟩ := write_ok written
    simp only [List.length_append, List.length_singleton]
    exact ⟨by omega, by omega⟩

variable {start books after : Books} {request : Request}

/-- A withdrawal computed with the current row moves the row and the log alike. -/
theorem Accounts.write {amount : Amount} (accounts : Accounts start books) (stored : books.Stored)
    (between : ¬ IsMidpoint scale amount.value)
    (written : write (getOrCreateTreasury books) amount.value books = .ok after) :
    Accounts start after ∧ after.Stored := by
  obtain ⟨covered, rfl⟩ := write_ok written
  have paid := amount.pos.le
  have balance : toNumeric scale ((getOrCreateTreasury books).balance - amount.value) =
      (getOrCreateTreasury books).balance - toNumeric scale amount.value :=
    toNumeric_sub scale_pos stored.balanceGrid paid covered between
  have distributed : toNumeric scale
      ((getOrCreateTreasury books).totalFeesDistributed + amount.value) =
      (getOrCreateTreasury books).totalFeesDistributed + toNumeric scale amount.value :=
    toNumeric_add scale_pos stored.distributedGrid stored.distributedNonneg paid
  have logged : ∀ row, ({ row, logs := books.logs ++ [⟨toNumeric scale amount.value⟩] } :
      Books).withdrawn = books.withdrawn + toNumeric scale amount.value := by
    intro row
    simp [Books.withdrawn]
  have left : 0 ≤ (getOrCreateTreasury books).balance - amount.value := sub_nonneg.mpr covered
  have total : 0 ≤ (getOrCreateTreasury books).totalFeesDistributed + amount.value :=
    add_nonneg stored.distributedNonneg paid
  refine ⟨⟨?_, ?_, toNumeric_nonneg left⟩, ⟨onGrid_toNumeric scale_pos _, toNumeric_nonneg left,
    onGrid_toNumeric scale_pos _, toNumeric_nonneg total⟩⟩
  · rw [logged]
    change toNumeric scale ((getOrCreateTreasury books).balance - amount.value) = _
    rw [balance, accounts.balance]
    ring
  · rw [logged]
    change toNumeric scale ((getOrCreateTreasury books).totalFeesDistributed + amount.value) = _
    rw [distributed, accounts.distributed]
    ring

/-- When no request is disturbed between its read and its commit, the row is what the log
says in every state of every run. -/
theorem withdrawals_add_up {start : Books} {moves : List Move} {final : withdrawals.State}
    (stored : start.Stored)
    (run : Run withdrawals.Interleaves Undisturbed (State.idle start) moves final) :
    Accounts start final.shared := by
  have initial : Accounts start start :=
    ⟨by simp, by simp, stored.balanceNonneg⟩
  refine (run.invariant (fun state => informed.Sound state ∧ Accounts start state.shared ∧
    state.shared.Stored) ?_ ⟨informed.sound_idle _, initial, stored⟩).2.1
  intro state move next undisturbed moved holds
  refine ⟨holds.1.step _ moved, ?_⟩
  cases moved with
  | begin free fresh => exact holds.2
  | query running asked granted => exact holds.2
  | commit running written =>
      obtain ⟨loaded, mark, seen, writes⟩ := written
      obtain ⟨between, current⟩ := undisturbed _ running
      obtain rfl := (holds.1.knows _ _ running loaded mark seen).2 (current loaded mark seen).symm
      exact holds.2.1.write holds.2.2 between writes
  | abort => exact holds.2

def sixty : Amount := ⟨60, by norm_num, by norm_num⟩

/-- The treasury holds 100. -/
def hundred : Books := ⟨some ⟨100, 100, 0⟩, []⟩

theorem hundred_stored : hundred.Stored :=
  ⟨by decide +kernel, by decide +kernel, by decide +kernel, by decide +kernel⟩

def askSixty : Request := ⟨sixty, none⟩

def readHundred : Request := ⟨sixty, some (⟨100, 100, 0⟩, 0)⟩

/-- The first request reads the row. -/
theorem first_reads {guard : withdrawals.State → Move → Prop} {moves : List Move}
    {final : withdrawals.State} (free : ∀ state id, guard state (.begin id) ∧ guard state (.query id))
    (later : Run withdrawals.Interleaves guard (.pair hundred (some readHundred) none) moves final) :
    Run withdrawals.Interleaves guard (State.idle hundred) (.begin 0 :: .query 0 :: moves) final := by
  have begins : withdrawals.Interleaves (.pair hundred none none) (.begin 0)
      (.pair hundred (some askSixty) none) := .beginLeft rfl
  have reads : withdrawals.Interleaves (.pair hundred (some askSixty) none) (.query 0)
      (.pair hundred (some readHundred) none) :=
    .queryLeft ⟨rfl, rfl⟩ fun _ absent => by cases absent
  rw [State.idle_eq_pair]
  exact .act (free _ _).1 begins (.act (free _ _).2 reads later)

theorem sixty_written :
    write ⟨100, 100, 0⟩ 60 hundred = .ok ⟨some ⟨40, 100, 60⟩, [⟨60⟩]⟩ := by decide +kernel

theorem one_withdrawal_of_sixty :
    ∃ final : withdrawals.State,
      Run withdrawals.Interleaves Undisturbed (State.idle hundred)
        [.begin 0, .query 0, .commit 0] final ∧
      final.shared = ⟨some ⟨40, 100, 60⟩, [⟨60⟩]⟩ ∧ Accounts hundred final.shared := by
  have commits : withdrawals.Interleaves (.pair hundred (some readHundred) none) (.commit 0)
      (.pair ⟨some ⟨40, 100, 60⟩, [⟨60⟩]⟩ none none) := .commitLeft ⟨_, _, rfl, sixty_written⟩
  have undisturbed : Undisturbed (.pair hundred (some readHundred) none) (.commit 0) := by
    rintro request ⟨⟩
    exact ⟨by decide +kernel, fun loaded mark seen => by cases seen; rfl⟩
  have run := first_reads (fun _ _ => ⟨trivial, trivial⟩) (.act undisturbed commits (.stop _))
  exact ⟨_, run, rfl, withdrawals_add_up hundred_stored run⟩

/-- Two withdrawals of 60 from 100: both are logged, and 40 are left. -/
theorem second_withdrawal_overwrites_first :
    hundred.Stored ∧ ∃ final : withdrawals.State,
      Run withdrawals.Interleaves (fun _ _ => True) (State.idle hundred)
        [.begin 0, .query 0, .begin 1, .query 1, .commit 0, .commit 1] final ∧
      final.shared = ⟨some ⟨40, 100, 60⟩, [⟨60⟩, ⟨60⟩]⟩ ∧ ¬ Accounts hundred final.shared := by
  have begins : withdrawals.Interleaves (.pair hundred (some readHundred) none) (.begin 1)
      (.pair hundred (some readHundred) (some askSixty)) := .beginRight rfl
  have reads : withdrawals.Interleaves (.pair hundred (some readHundred) (some askSixty))
      (.query 1) (.pair hundred (some readHundred) (some readHundred)) :=
    .queryRight ⟨rfl, rfl⟩ fun _ _ _ held => held.elim
  have first : withdrawals.Interleaves (.pair hundred (some readHundred) (some readHundred))
      (.commit 0) (.pair ⟨some ⟨40, 100, 60⟩, [⟨60⟩]⟩ none (some readHundred)) :=
    .commitLeft ⟨_, _, rfl, sixty_written⟩
  have written : write ⟨100, 100, 0⟩ 60 ⟨some ⟨40, 100, 60⟩, [⟨60⟩]⟩ =
      .ok ⟨some ⟨40, 100, 60⟩, [⟨60⟩, ⟨60⟩]⟩ := by
    decide +kernel
  have second : withdrawals.Interleaves
      (.pair ⟨some ⟨40, 100, 60⟩, [⟨60⟩]⟩ none (some readHundred)) (.commit 1)
      (.pair ⟨some ⟨40, 100, 60⟩, [⟨60⟩, ⟨60⟩]⟩ none none) := .commitRight ⟨_, _, rfl, written⟩
  have later : Run withdrawals.Interleaves (fun _ _ => True)
      (.pair hundred (some readHundred) none) [.begin 1, .query 1, .commit 0, .commit 1]
      (.pair ⟨some ⟨40, 100, 60⟩, [⟨60⟩, ⟨60⟩]⟩ none none) :=
    .act trivial begins (.act trivial reads (.act trivial first (.act trivial second (.stop _))))
  have run := first_reads (fun _ _ => ⟨trivial, trivial⟩) later
  refine ⟨hundred_stored, _, run, rfl, fun accounts => ?_⟩
  exact absurd accounts.balance (by decide +kernel)

end PredictX.Treasury
