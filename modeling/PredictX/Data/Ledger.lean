import Mathlib.Algebra.BigOperators.Group.Finset.Basic
import Mathlib.Algebra.Order.BigOperators.Group.Finset

namespace PredictX.Data

/-! Shared counters and who they are made up of.

Each party holds so much of every counter.  The counters are backed when they are the sums of what
the parties hold; a step of one party keeps them backed if it changes its own holdings by as much
as it changes the counters.
-/

section Ledger

variable {σ κ : Type} {parties : Finset σ} {held : σ → κ → ℕ}
  {counters after : κ → ℕ} {party : σ}

def Backed (parties : Finset σ) (held : σ → κ → ℕ) (counters : κ → ℕ) : Prop :=
  ∀ key, counters key = ∑ party ∈ parties, held party key

theorem Backed.le (backed : Backed parties held counters) (member : party ∈ parties) (key : κ) :
    held party key ≤ counters key := by
  rw [backed key]
  exact Finset.single_le_sum (fun other _ => Nat.zero_le (held other key)) member

/-- One party moves, and the counters move with it. -/
theorem Backed.step [DecidableEq σ] {held' : σ → κ → ℕ} (backed : Backed parties held counters)
    (member : party ∈ parties) (others : ∀ other, other ≠ party → held' other = held other)
    (moved : ∀ key, after key + held party key = counters key + held' party key) :
    Backed parties held' after := by
  intro key
  have rest : ∑ other ∈ parties.erase party, held' other key =
      ∑ other ∈ parties.erase party, held other key := by
    refine Finset.sum_congr rfl fun other isOther => ?_
    rw [others other (Finset.ne_of_mem_erase isOther)]
  have before := backed key
  rw [← Finset.add_sum_erase parties _ member] at before ⊢
  have move := moved key
  omega

/-- A party that holds nothing is counted in. -/
theorem Backed.enter [DecidableEq σ] (backed : Backed parties held counters)
    (nothing : ∀ key, held party key = 0) :
    Backed (insert party parties) held counters := by
  intro key
  by_cases member : party ∈ parties
  · rw [Finset.insert_eq_of_mem member]
    exact backed key
  · rw [Finset.sum_insert member, nothing key, zero_add]
    exact backed key

theorem Backed.congr {held' : σ → κ → ℕ} (backed : Backed parties held counters)
    (same : ∀ other key, held' other key = held other key) : Backed parties held' counters := by
  intro key
  simp only [same]
  exact backed key

end Ledger

end PredictX.Data
