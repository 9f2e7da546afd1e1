import PredictX.Data.Rounding

namespace PredictX.Data

/-! Paying a fund out in proportion to weights.

The rate is fixed beforehand and every share and every difference is rounded, so whether
the last share still fits depends on what rounding did to the ones before it.
-/

section ProRata

/-- Pay each weight its rounded share; `none` when a share exceeds what is left. -/
def drain (round : ℚ → ℚ) (rate : ℚ) : List ℚ → ℚ → Option ℚ
  | [], fund => some fund
  | weight :: rest, fund =>
      let share := round (weight * rate)
      if share ≤ 0 then drain round rate rest fund
      else if fund < share then none
      else drain round rate rest (round (fund - share))

variable {round : ℚ → ℚ} {rate fund : ℚ} {weights : List ℚ}

/-- Without rounding the shares leave what they do not claim. -/
theorem drain_id (rateNonneg : 0 ≤ rate) (nonneg : ∀ weight ∈ weights, 0 ≤ weight)
    (enough : weights.sum * rate ≤ fund) :
    drain id rate weights fund = some (fund - weights.sum * rate) := by
  induction weights generalizing fund with
  | nil => simp [drain]
  | cons weight rest ih =>
      rw [List.forall_mem_cons] at nonneg
      have share : 0 ≤ weight * rate := mul_nonneg nonneg.1 rateNonneg
      have later : 0 ≤ rest.sum * rate := mul_nonneg (List.sum_nonneg nonneg.2) rateNonneg
      rw [List.sum_cons, add_mul] at enough ⊢
      unfold drain
      simp only [id_eq]
      split
      · rename_i nothing
        have zero : weight * rate = 0 := le_antisymm nothing share
        rw [ih nonneg.2 (by linarith), zero, zero_add]
      · rw [if_neg (by linarith), ih nonneg.2 (by linarith)]
        congr 1
        ring

/-- A rounding whose relative error is at most `error` empties no fund early, as long as
the weights leave a margin for the errors of all the steps. -/
theorem drain_of_margin (error : ℚ) (errorNonneg : 0 ≤ error) (errorLe : error ≤ 1)
    (close : ∀ x, 0 ≤ x → x * (1 - error) ≤ round x ∧ round x ≤ x * (1 + error))
    (rateNonneg : 0 ≤ rate) (nonneg : ∀ weight ∈ weights, 0 ≤ weight) (fundNonneg : 0 ≤ fund)
    (margin : weights.sum * rate * (1 + error) ≤ fund * (1 - error) ^ weights.length) :
    (drain round rate weights fund).isSome = true := by
  induction weights generalizing fund with
  | nil => rfl
  | cons weight rest ih =>
      rw [List.forall_mem_cons] at nonneg
      have keep : 0 ≤ 1 - error := sub_nonneg.mpr errorLe
      have keepPow : 0 ≤ (1 - error) ^ rest.length := pow_nonneg keep _
      have shrinks : (1 - error) ^ (rest.length + 1) ≤ 1 :=
        pow_le_one₀ keep (sub_le_self 1 errorNonneg)
      have atMostFund : fund * (1 - error) ^ (rest.length + 1) ≤ fund :=
        mul_le_of_le_one_right fundNonneg shrinks
      have exactShare : 0 ≤ weight * rate := mul_nonneg nonneg.1 rateNonneg
      have later : 0 ≤ rest.sum * rate * (1 + error) :=
        mul_nonneg (mul_nonneg (List.sum_nonneg nonneg.2) rateNonneg) (by linarith)
      rw [List.sum_cons, List.length_cons, add_mul, add_mul] at margin
      obtain ⟨_, shareLe⟩ := close _ exactShare
      unfold drain
      dsimp only
      split
      · refine ih nonneg.2 fundNonneg ?_
        have grows : fund * (1 - error) ^ (rest.length + 1) ≤ fund * (1 - error) ^ rest.length := by
          refine mul_le_mul_of_nonneg_left ?_ fundNonneg
          exact pow_le_pow_of_le_one keep (sub_le_self 1 errorNonneg) (Nat.le_succ _)
        have own : 0 ≤ weight * rate * (1 + error) := mul_nonneg exactShare (by linarith)
        linarith
      · rename_i positive
        have covered : round (weight * rate) ≤ fund := by linarith
        rw [if_neg (not_lt.mpr covered)]
        have leftNonneg : 0 ≤ fund - round (weight * rate) := sub_nonneg.mpr covered
        obtain ⟨leftLe, _⟩ := close _ leftNonneg
        have leftPow : (fund - round (weight * rate)) * (1 - error) ^ (rest.length + 1) ≤
            round (fund - round (weight * rate)) * (1 - error) ^ rest.length := by
          rw [pow_succ, mul_comm ((1 - error) ^ rest.length), ← mul_assoc]
          exact mul_le_mul_of_nonneg_right leftLe keepPow
        refine ih nonneg.2 ((mul_nonneg leftNonneg keep).trans leftLe) ?_
        have taken : round (weight * rate) * (1 - error) ^ (rest.length + 1) ≤
            round (weight * rate) :=
          mul_le_of_le_one_right (not_le.mp positive).le shrinks
        rw [sub_mul] at leftPow
        linarith

/-- Every share but the last, and what it leaves, is paid without rounding. -/
def PaidExactly (round : ℚ → ℚ) (rate : ℚ) (weights : List ℚ) (fund : ℚ) : Prop :=
  ∀ before weight after, weights = before ++ weight :: after → after ≠ [] →
    round (weight * rate) = weight * rate ∧
      round (fund - (before.sum + weight) * rate) = fund - (before.sum + weight) * rate

theorem paidExactly_singleton (round : ℚ → ℚ) (rate weight fund : ℚ) :
    PaidExactly round rate [weight] fund := by
  intro before other after only more
  cases before with
  | nil => exact absurd (List.cons.inj only).2.symm more
  | cons first rest => simp at only

/-- Only the last share may be rounded: it cannot pass the exact amount that is left. -/
theorem drain_of_paidExactly
    (stays : ∀ x y, 0 ≤ x → x ≤ y → round y = y → round x ≤ y)
    (rateNonneg : 0 ≤ rate) (nonneg : ∀ weight ∈ weights, 0 ≤ weight)
    (enough : weights.sum * rate ≤ fund) (fundExact : round fund = fund)
    (exactly : PaidExactly round rate weights fund) :
    (drain round rate weights fund).isSome = true := by
  induction weights generalizing fund with
  | nil => rfl
  | cons weight rest ih =>
      rw [List.forall_mem_cons] at nonneg
      have exactShare : 0 ≤ weight * rate := mul_nonneg nonneg.1 rateNonneg
      have later : 0 ≤ rest.sum * rate := mul_nonneg (List.sum_nonneg nonneg.2) rateNonneg
      rw [List.sum_cons, add_mul] at enough
      have covered : round (weight * rate) ≤ fund :=
        stays _ _ exactShare (by linarith) fundExact
      unfold drain
      dsimp only
      by_cases last : rest = []
      · subst last
        split
        · rfl
        · rw [if_neg (not_lt.mpr covered)]
          rfl
      obtain ⟨shareExact, leftExact⟩ := exactly [] weight rest rfl last
      rw [List.sum_nil, zero_add] at leftExact
      have next : PaidExactly round rate rest (fund - weight * rate) := by
        intro before other after split_ more
        obtain ⟨same, left⟩ := exactly (weight :: before) other after (by rw [split_]; rfl) more
        rw [List.sum_cons, add_assoc, add_mul, ← sub_sub] at left
        exact ⟨same, left⟩
      have done := ih nonneg.2 (by linarith) leftExact next
      rw [shareExact]
      split
      · rename_i nothing
        rwa [le_antisymm nothing exactShare, sub_zero] at done
      · rw [if_neg (by linarith), leftExact]
        exact done

end ProRata

end PredictX.Data
