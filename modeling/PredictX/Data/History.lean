import Mathlib.Data.List.Induction

namespace PredictX.Data.History

/-! Histories that grow at their end.

An entry is looked at together with what has followed it so far, or with what lies between it and
a later entry.
-/

section History

variable {ε : Type} {log between : List ε} {entry later new : ε}

/-- The entry stands in the log, and `between` has followed it. -/
def Since (log : List ε) (entry : ε) (between : List ε) : Prop :=
  ∃ before, log = before ++ entry :: between

/-- The two entries stand in the log with `between` between them. -/
def Between (log : List ε) (entry : ε) (between : List ε) (later : ε) : Prop :=
  ∃ before after, log = before ++ entry :: (between ++ later :: after)

theorem not_since_nil : ¬Since [] entry between := by
  rintro ⟨before, isNil⟩
  simp at isNil

theorem not_between_nil : ¬Between [] entry between later := by
  rintro ⟨before, after, isNil⟩
  simp at isNil

/-- A new entry follows everything, itself not included. -/
theorem Since.of_snoc (since : Since (log ++ [new]) entry between) :
    (entry = new ∧ between = []) ∨
      ∃ shorter, between = shorter ++ [new] ∧ Since log entry shorter := by
  obtain ⟨before, isLog⟩ := since
  cases between using List.reverseRecOn with
  | nil =>
      obtain ⟨-, same⟩ := List.append_inj' isLog rfl
      exact .inl ⟨(List.singleton_inj.mp same).symm, rfl⟩
  | append_singleton shorter last =>
      rw [← List.cons_append, ← List.append_assoc] at isLog
      obtain ⟨isBefore, same⟩ := List.append_inj' isLog rfl
      obtain rfl := List.singleton_inj.mp same
      exact .inr ⟨shorter, rfl, before, isBefore⟩

/-- A new entry closes what has followed the others. -/
theorem Between.of_snoc (stands : Between (log ++ [new]) entry between later) :
    Between log entry between later ∨ (later = new ∧ Since log entry between) := by
  obtain ⟨before, after, isLog⟩ := stands
  cases after using List.reverseRecOn with
  | nil =>
      rw [← List.cons_append, ← List.append_assoc] at isLog
      obtain ⟨isBefore, same⟩ := List.append_inj' isLog rfl
      exact .inr ⟨(List.singleton_inj.mp same).symm, before, isBefore⟩
  | append_singleton rest last =>
      have regrouped : log ++ [new] = (before ++ entry :: (between ++ later :: rest)) ++ [last] := by
        rw [isLog]
        simp
      obtain ⟨isBefore, -⟩ := List.append_inj' regrouped rfl
      exact .inl ⟨before, rest, isBefore⟩

end History

end PredictX.Data.History
