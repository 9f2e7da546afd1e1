import PredictX.Data.Table

namespace PredictX.Data.Table

/-! Parts of a whole.

The rows of a table share the total of a column.  When one row's amount changes, its own part
moves the same way, every other part the other way, and the other parts stay in proportion.
-/

universe u v

variable {ρ : Type u} {κ : Type v} {key : ρ → κ}

/-- A row's part of the total of a column. -/
def proportion (table : Table key) (column : ρ → ℚ) (row : ρ) : ℚ := column row / table.sum column

variable {table : Table key} {column : ρ → ℚ} {row other : ρ}

theorem sum_proportion (funded : table.sum column ≠ 0) :
    table.sum (table.proportion column) = 1 := by
  have scaled : (table.rows.map fun row => column row * (table.sum column)⁻¹).sum =
      table.sum column * (table.sum column)⁻¹ := List.sum_map_mul_right ..
  have parts : table.proportion column = fun row => column row * (table.sum column)⁻¹ := by
    funext row
    exact div_eq_mul_inv ..
  rw [sum, parts, scaled, mul_inv_cancel₀ funded]

/-- A row holds less than the total when a different row holds something. -/
theorem lt_sum (nonneg : ∀ row ∈ table.rows, 0 ≤ column row) (member : row ∈ table.rows)
    (otherMember : other ∈ table.rows) (apart : key other ≠ key row)
    (positive : 0 < column other) : column row < table.sum column := by
  classical
  have rest : other ∈ table.rows.erase row := by
    refine (List.mem_erase_of_ne ?_).mpr otherMember
    rintro rfl
    exact apart rfl
  have others : 0 < ((table.rows.erase row).map column).sum := by
    refine lt_of_lt_of_le positive (List.single_le_sum ?_ _ (List.mem_map_of_mem rest))
    intro value valueMember
    obtain ⟨stored, storedMember, rfl⟩ := List.mem_map.mp valueMember
    exact nonneg stored (List.mem_of_mem_erase storedMember)
  have split : column row + ((table.rows.erase row).map column).sum = table.sum column :=
    List.sum_map_erase column member
  linarith

section Change

variable [DecidableEq κ] {k : κ} {update : ρ → ρ} {keeps : ∀ row, key (update row) = key row}

/-- The total moves by what the row does. -/
theorem sum_change (found : table.find? k = some row) :
    (table.modify k update keeps).sum column =
      table.sum column + (column (update row) - column row) := by
  have total : (table.modify k update keeps).sum column + column row =
      table.sum column + column (update row) := sum_modify found
  linarith

/-- A row's part rises with its amount when it does not hold everything. -/
theorem proportion_rises (found : table.find? k = some row) (nonneg : 0 ≤ column row)
    (shared : column row < table.sum column) (gained : column row < column (update row)) :
    table.proportion column row <
      (table.modify k update keeps).proportion column (update row) := by
  have total : (table.modify k update keeps).sum column =
      table.sum column + (column (update row) - column row) := sum_change found
  rw [proportion, proportion, total, div_lt_div_iff₀ (by linarith) (by linarith)]
  nlinarith

/-- It falls with it too, down to nothing. -/
theorem proportion_falls (found : table.find? k = some row)
    (shared : column row < table.sum column) (left : 0 ≤ column (update row))
    (lost : column (update row) < column row) :
    (table.modify k update keeps).proportion column (update row) <
      table.proportion column row := by
  have total : (table.modify k update keeps).sum column =
      table.sum column + (column (update row) - column row) := sum_change found
  rw [proportion, proportion, total, div_lt_div_iff₀ (by linarith) (by linarith)]
  nlinarith

/-- Every other part falls when the total rises. -/
theorem other_falls (found : table.find? k = some row) (total : 0 < table.sum column)
    (gained : column row < column (update row)) (positive : 0 < column other) :
    (table.modify k update keeps).proportion column other < table.proportion column other := by
  have more : (table.modify k update keeps).sum column =
      table.sum column + (column (update row) - column row) := sum_change found
  rw [proportion, proportion, more]
  exact div_lt_div_of_pos_left positive total (by linarith)

theorem other_rises (found : table.find? k = some row) (nonneg : 0 ≤ column (update row))
    (shared : column row < table.sum column) (lost : column (update row) < column row)
    (positive : 0 < column other) :
    table.proportion column other < (table.modify k update keeps).proportion column other := by
  have less : (table.modify k update keeps).sum column =
      table.sum column + (column (update row) - column row) := sum_change found
  rw [proportion, proportion, less]
  exact div_lt_div_of_pos_left positive (by linarith) (by linarith)

end Change

/-- Two rows whose amounts stay keep their ratio, whatever the totals. -/
theorem proportion_ratio {after : Table key} (first second : ρ) :
    table.proportion column first * after.proportion column second =
      table.proportion column second * after.proportion column first := by
  unfold proportion
  ring

end PredictX.Data.Table
