import PredictX.Models

namespace PredictX

open PredictX.Data

/-! Share movements.

A position gains shares through an update or, when the user has no row yet, an
upsert; it loses them by a plain subtraction.  The order service and the sweep
move shares the same way as the matching engine does.
-/

namespace Position

/-- `average` is the average price the caller writes into an existing row. -/
def gain (shares : ℚ) (average : Position → ℚ) (position : Position) : Position :=
  { position with
    sharesHeld := position.sharesHeld + shares, averagePrice := average position }

def lose (shares proceeds : ℚ) (position : Position) : Position :=
  { position with
    sharesHeld := position.sharesHeld - shares
    realizedPnl := position.realizedPnl + (proceeds - position.averagePrice * shares) }

/-- The row of a user who had none. -/
def fresh (key : PositionKey) (shares cost : ℚ) : Position where
  userId := key.userId
  marketId := key.marketId
  outcomeId := key.outcomeId
  sharesHeld := shares
  averagePrice := if 0 < shares then cost / shares else 0
  realizedPnl := 0
  settledAt := none

def acquire (positions : Table Position.key) (key : PositionKey) (shares cost : ℚ)
    (average : Position → ℚ) : Table Position.key :=
  match positions.find? key with
  | some _ => positions.modify key (gain shares average)
  | none => positions.insert (fresh key shares cost)

def dispose (positions : Table Position.key) (key : PositionKey) (shares proceeds : ℚ) :
    Table Position.key :=
  positions.modify key (lose shares proceeds)

/-- `position.shares_held if position else Decimal(0)`. -/
def held (positions : Table Position.key) (key : PositionKey) : ℚ :=
  ((positions.find? key).map Position.sharesHeld).getD 0

section Movements

variable {positions : Table Position.key} {key other : PositionKey} {shares cost : ℚ}
  {average : Position → ℚ}

theorem held_eq {position : Position} (found : positions.find? key = some position) :
    held positions key = position.sharesHeld := by
  simp [held, found]

theorem exists_of_held_pos (positive : 0 < held positions key) :
    ∃ position, positions.find? key = some position := by
  cases found : positions.find? key with
  | none => simp [held, found] at positive
  | some position => exact ⟨position, rfl⟩

theorem held_acquire :
    held (acquire positions key shares cost average) other =
      held positions other + if other = key then shares else 0 := by
  unfold acquire held
  cases found : positions.find? key with
  | some position =>
      dsimp only
      by_cases same : other = key
      · subst same
        rw [Table.find?_modify_self, found]
        simp [gain]
      · rw [Table.find?_modify_ne same, if_neg same, add_zero]
  | none =>
      dsimp only
      by_cases same : other = key
      · subst same
        have inserted : (positions.insert (fresh other shares cost)).find? other =
            some (fresh other shares cost) := Table.find?_insert_self _ found
        rw [inserted, found]
        simp [fresh]
      · rw [Table.find?_insert_ne (fresh key shares cost) same, if_neg same, add_zero]

/-- Gaining shares never removes a row. -/
theorem find?_acquire (key : PositionKey) (shares cost : ℚ) (average : Position → ℚ)
    {position : Position} (found : positions.find? other = some position) :
    ∃ after, (acquire positions key shares cost average).find? other = some after := by
  unfold acquire
  cases row : positions.find? key with
  | some _ =>
      by_cases same : other = key
      · subst same
        exact ⟨_, by rw [Table.find?_modify_self, found]; rfl⟩
      · exact ⟨position, by rw [Table.find?_modify_ne same, found]⟩
  | none =>
      have same : other ≠ key := by
        rintro rfl
        rw [row] at found
        contradiction
      exact ⟨position, by rw [Table.find?_insert_ne (fresh key shares cost) same, found]⟩

theorem find?_acquire_ne (different : other ≠ key) :
    (acquire positions key shares cost average).find? other = positions.find? other := by
  unfold acquire
  split
  · exact Table.find?_modify_ne different
  · exact Table.find?_insert_ne (fresh key shares cost) different

theorem find?_dispose_ne {proceeds : ℚ} (different : other ≠ key) :
    (dispose positions key shares proceeds).find? other = positions.find? other :=
  Table.find?_modify_ne different

theorem held_dispose {position : Position} {proceeds : ℚ}
    (found : positions.find? key = some position) :
    held (dispose positions key shares proceeds) other =
      held positions other - if other = key then shares else 0 := by
  unfold dispose held
  by_cases same : other = key
  · subst same
    rw [Table.find?_modify_self, found]
    simp [lose]
  · rw [Table.find?_modify_ne same, if_neg same, sub_zero]

end Movements

/-- No position of the market has been settled. -/
def AllOpen (positions : Table Position.key) (market : MarketId) : Prop :=
  ∀ row ∈ positions.rows, row.marketId = market → row.settledAt = none

namespace AllOpen

variable {positions : Table Position.key} {market : MarketId} {shares proceeds cost : ℚ}
  {average : Position → ℚ}

theorem modify {key : PositionKey} (update : Position → Position)
    (open_ : AllOpen positions market) (keeps : ∀ row, (update row).key = row.key)
    (unsettled : ∀ row, (update row).settledAt = row.settledAt) :
    AllOpen (positions.modify key update keeps) market := by
  intro row member ofMarket
  obtain ⟨old, oldMember, rfl⟩ := Table.mem_modify.mp member
  split at ofMarket
  · rename_i isKey
    have sameMarket : old.marketId = (update old).marketId :=
      (congrArg PositionKey.marketId (keeps old)).symm
    rw [if_pos isKey, unsettled]
    exact open_ old oldMember (sameMarket.trans ofMarket)
  · rename_i notKey
    rw [if_neg notKey]
    exact open_ old oldMember ofMarket

theorem acquire (open_ : AllOpen positions market) (key : PositionKey) :
    AllOpen (acquire positions key shares cost average) market := by
  unfold Position.acquire
  split
  · exact open_.modify (gain shares average) (fun _ => rfl) fun _ => rfl
  · intro row member ofMarket
    rcases Table.mem_insert member with old | rfl
    · exact open_ row old ofMarket
    · rfl

theorem dispose (open_ : AllOpen positions market) (key : PositionKey) :
    AllOpen (dispose positions key shares proceeds) market :=
  open_.modify (lose shares proceeds) (fun _ => rfl) fun _ => rfl

end AllOpen

/-- The shares of the outcomes that count. -/
def counted (positions : Table Position.key) (counts : MarketId → OutcomeId → Bool) : ℚ :=
  positions.sum fun position =>
    if counts position.marketId position.outcomeId then position.sharesHeld else 0

/-- The shares of one outcome over all positions. -/
def sharesOf (positions : Table Position.key) (outcome : OutcomeId) : ℚ :=
  positions.sum fun position => if position.outcomeId = outcome then position.sharesHeld else 0

/-- The shares of one outcome of a market. -/
def sharesIn (positions : Table Position.key) (market : MarketId) (outcome : OutcomeId) : ℚ :=
  counted positions fun ofMarket ofOutcome => ofMarket = market && ofOutcome = outcome

section Totals

variable {positions : Table Position.key} {key : PositionKey} {shares cost : ℚ}
  {average : Position → ℚ} {counts : MarketId → OutcomeId → Bool}

theorem sharesOf_eq_counted (positions : Table Position.key) (outcome : OutcomeId) :
    sharesOf positions outcome = counted positions fun _ other => other = outcome := by
  simp [sharesOf, counted]

theorem counted_acquire :
    counted (acquire positions key shares cost average) counts =
      counted positions counts + if counts key.marketId key.outcomeId then shares else 0 := by
  unfold acquire counted
  cases found : positions.find? key with
  | some position =>
      refine Table.sum_modify_add found ?_
      rw [← Table.key_of_find? found]
      cases member : counts position.marketId position.outcomeId with
      | false => simp [Position.key, gain, member]
      | true => simp [Position.key, gain, member]
  | none =>
      exact Table.sum_insert (fresh key shares cost) found

theorem counted_dispose {position : Position} {proceeds : ℚ}
    (found : positions.find? key = some position) :
    counted (dispose positions key shares proceeds) counts =
      counted positions counts - if counts key.marketId key.outcomeId then shares else 0 := by
  unfold dispose counted
  rw [sub_eq_add_neg]
  refine Table.sum_modify_add found ?_
  rw [← Table.key_of_find? found]
  cases member : counts position.marketId position.outcomeId with
  | false => simp [Position.key, lose, member]
  | true => simp [Position.key, lose, member, sub_eq_add_neg]

end Totals

end Position

end PredictX
