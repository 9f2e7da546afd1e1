import PredictX.Data.Table

namespace PredictX.Data

/-! Sorted sets: members, each with a score.

The scores are kept in the order in which the members came in; what is counted and what is
removed does not depend on it.
-/

abbrev SortedSet (μ : Type) := Table (Prod.fst : μ × ℚ → μ)

namespace SortedSet

variable {μ : Type}

/-- `ZCARD`. -/
def card (set : SortedSet μ) : ℕ := set.rows.length

def scores (set : SortedSet μ) : List ℚ := set.rows.map Prod.snd

/-- `ZREMRANGEBYSCORE key -inf top`: the bound itself goes too. -/
def removeUpTo (set : SortedSet μ) (top : ℚ) : SortedSet μ where
  rows := set.rows.filter fun entry => top < entry.2
  unique := set.unique.sublist (List.filter_sublist.map _)

theorem card_eq (set : SortedSet μ) : set.card = set.scores.length := by
  simp [card, scores]

theorem scores_removeUpTo (set : SortedSet μ) (top : ℚ) :
    (set.removeUpTo top).scores = set.scores.filter fun score => top < score := by
  unfold scores removeUpTo
  rw [List.filter_map]
  rfl

theorem mem_of_removeUpTo {set : SortedSet μ} {top : ℚ} {entry : μ × ℚ}
    (member : entry ∈ (set.removeUpTo top).rows) : entry ∈ set.rows :=
  List.mem_of_mem_filter member

variable [DecidableEq μ]

/-- `ZADD`: a member that is there already gets a new score. -/
def add (set : SortedSet μ) (member : μ) (score : ℚ) : SortedSet μ :=
  set.upsert (member, score) (fun entry => (entry.1, score)) (fun _ => rfl)

theorem rows_add {set : SortedSet μ} {member : μ} {score : ℚ}
    (fresh : ∀ entry ∈ set.rows, entry.1 ≠ member) :
    (set.add member score).rows = set.rows ++ [(member, score)] := by
  have absent : set.find? member = none := Table.find?_eq_none.mpr fresh
  unfold add
  rw [Table.upsert_of_none absent, Table.insert_rows _ absent]

theorem scores_add {set : SortedSet μ} {member : μ} {score : ℚ}
    (fresh : ∀ entry ∈ set.rows, entry.1 ≠ member) :
    (set.add member score).scores = set.scores ++ [score] := by
  unfold scores
  rw [rows_add fresh, List.map_append]
  rfl

end SortedSet

end PredictX.Data
