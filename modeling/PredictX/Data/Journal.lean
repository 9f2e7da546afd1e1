import Mathlib

namespace PredictX.Data

/-! Journals of balances.

A journal row belongs to an owner, says what has moved and records the balance it left.
Rows explain a change of balances when the movements add up to it and every recorded
balance is the running one.
-/

universe u v w

structure Journal (ρ : Type u) (ο : Type v) (G : Type w) where
  owner : ρ → ο
  moved : ρ → G
  recorded : ρ → G

namespace Journal

variable {ρ : Type u} {ο : Type v} {G : Type w} [DecidableEq ο] [AddCommGroup G]

/-- What the rows say has moved for one owner. -/
def movements (journal : Journal ρ ο G) (rows : List ρ) (who : ο) : G :=
  (rows.map fun row => if journal.owner row = who then journal.moved row else 0).sum

structure Explains (journal : Journal ρ ο G) (before : ο → G) (rows : List ρ) (after : ο → G) :
    Prop where
  balance : ∀ who, after who = before who + journal.movements rows who
  recorded : ∀ earlier row later, rows = earlier ++ row :: later →
    journal.recorded row =
      before (journal.owner row) + journal.movements (earlier ++ [row]) (journal.owner row)

variable {journal : Journal ρ ο G} {before middle after : ο → G} {first second : List ρ} {row : ρ}

theorem movements_append (first second : List ρ) (who : ο) :
    journal.movements (first ++ second) who =
      journal.movements first who + journal.movements second who := by
  simp [movements]

theorem movements_single (row : ρ) (who : ο) :
    journal.movements [row] who = if journal.owner row = who then journal.moved row else 0 := by
  simp [movements]

namespace Explains

theorem nil (same : ∀ who, after who = before who) : journal.Explains before [] after := by
  refine ⟨fun who => by simp [movements, same who], fun earlier row later isNil => ?_⟩
  simp at isNil

theorem single
    (balance : ∀ who, after who =
      before who + if journal.owner row = who then journal.moved row else 0)
    (recorded : journal.recorded row = before (journal.owner row) + journal.moved row) :
    journal.Explains before [row] after := by
  refine ⟨fun who => by rw [movements_single, balance who], fun earlier other later isRow => ?_⟩
  cases earlier with
  | nil =>
      obtain ⟨rfl, rfl⟩ : row = other ∧ later = [] := by simpa using isRow
      rw [List.nil_append, movements_single, if_pos rfl, recorded]
  | cons head tail => simp at isRow

/-- Explanations of consecutive changes explain both. -/
theorem append (left : journal.Explains before first middle)
    (right : journal.Explains middle second after) :
    journal.Explains before (first ++ second) after := by
  refine ⟨fun who => ?_, fun earlier row later isRow => ?_⟩
  · rw [right.balance, left.balance, movements_append, add_assoc]
  -- The row stands in the first part or in the second one.
  rcases List.append_eq_append_iff.mp isRow with ⟨more, isEarlier, isSecond⟩ |
    ⟨more, isFirst, isLater⟩
  · rw [right.recorded more row later isSecond, left.balance, isEarlier, List.append_assoc,
      movements_append first, add_assoc]
  · cases more with
    | nil =>
        rw [right.recorded [] row later isLater.symm, left.balance, isFirst, List.append_nil,
          List.nil_append, movements_append earlier, add_assoc]
    | cons head rest =>
        obtain ⟨rfl, rfl⟩ : row = head ∧ later = rest ++ second := by simpa using isLater
        exact left.recorded earlier row rest isFirst

end Explains

end Journal

end PredictX.Data
