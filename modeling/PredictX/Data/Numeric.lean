import PredictX.Data.Rounding
import PredictX.Data.Table

namespace PredictX.Data

/-! `Numeric` columns: a stored number is rounded to the scale of its column, and a tie goes
away from zero.  What a column keeps of a movement depends on the row it is added to, so the
last section follows a column of a whole table. -/

variable {scale : ℕ} {x y : ℚ}

def toNumeric (scale : ℕ) (x : ℚ) : ℚ :=
  if 0 ≤ x then ⌊x * scale + 1 / 2⌋ / scale else -(⌊-x * scale + 1 / 2⌋ / scale)

/-- Half-way between two values of the column. -/
def IsMidpoint (scale : ℕ) (x : ℚ) : Prop := (⌊x * scale + 1 / 2⌋ : ℚ) = x * scale + 1 / 2

instance (scale : ℕ) (x : ℚ) : Decidable (IsMidpoint scale x) :=
  inferInstanceAs (Decidable (_ = _))

theorem toNumeric_of_nonneg (nonneg : 0 ≤ x) :
    toNumeric scale x = ⌊x * scale + 1 / 2⌋ / scale := if_pos nonneg

theorem toNumeric_nonneg (nonneg : 0 ≤ x) : 0 ≤ toNumeric scale x := by
  have scaled : 0 ≤ x * scale := mul_nonneg nonneg (Nat.cast_nonneg scale)
  have floor : 0 ≤ ⌊x * scale + 1 / 2⌋ := Int.floor_nonneg.mpr (by linarith)
  rw [toNumeric_of_nonneg nonneg]
  exact div_nonneg (by exact_mod_cast floor) (Nat.cast_nonneg scale)

theorem onGrid_toNumeric (positive : 0 < scale) (x : ℚ) : OnGrid scale (toNumeric scale x) := by
  rw [onGrid_iff positive]
  unfold toNumeric
  split
  · exact ⟨_, rfl⟩
  · exact ⟨-⌊-x * scale + 1 / 2⌋, by push_cast; ring⟩

/-- The column keeps exactly what has no more decimals than it. -/
theorem toNumeric_eq_self_iff (positive : 0 < scale) : toNumeric scale x = x ↔ OnGrid scale x := by
  constructor
  · intro kept
    rw [← kept]
    exact onGrid_toNumeric positive x
  · intro grid
    have scaleNonzero : (scale : ℚ) ≠ 0 := by positivity
    obtain ⟨units, rfl⟩ := (onGrid_iff positive).mp grid
    have whole : ∀ z : ℤ, ⌊(z : ℚ) + 1 / 2⌋ = z := by
      intro z
      rw [Int.floor_intCast_add]
      norm_num
    have scaled : (units / scale : ℚ) * scale = units := div_mul_cancel₀ _ scaleNonzero
    unfold toNumeric
    rw [neg_mul, scaled, whole, ← Int.cast_neg, whole]
    split
    · rfl
    · push_cast
      ring

/-- A number close to a value of the column is stored as that value. -/
theorem toNumeric_eq_of_near (positive : 0 < scale) (grid : OnGrid scale y) (nonneg : 0 ≤ x)
    (near : |x - y| * scale < 1 / 2) : toNumeric scale x = y := by
  have scalePositive : (0 : ℚ) < scale := by exact_mod_cast positive
  obtain ⟨units, rfl⟩ := (onGrid_iff positive).mp grid
  have scaled : (x - units / scale) * scale = x * scale - units := by field_simp
  rw [← abs_of_pos scalePositive, ← abs_mul, abs_of_pos scalePositive, scaled] at near
  obtain ⟨above, below⟩ := abs_lt.mp near
  have floor : ⌊x * scale + 1 / 2⌋ = units := by
    rw [Int.floor_eq_iff]
    constructor <;> linarith
  rw [toNumeric_of_nonneg nonneg, floor]

theorem toNumeric_mono (nonneg : 0 ≤ x) (le : x ≤ y) : toNumeric scale x ≤ toNumeric scale y := by
  have scaleNonneg : (0 : ℚ) ≤ scale := Nat.cast_nonneg scale
  rw [toNumeric_of_nonneg nonneg, toNumeric_of_nonneg (nonneg.trans le)]
  refine div_le_div_of_nonneg_right ?_ scaleNonneg
  exact_mod_cast Int.floor_mono (by linarith [mul_le_mul_of_nonneg_right le scaleNonneg])

/-- A stored value takes a rounded addend. -/
theorem toNumeric_add (positive : 0 < scale) (grid : OnGrid scale y) (nonneg : 0 ≤ y)
    (addend : 0 ≤ x) : toNumeric scale (y + x) = y + toNumeric scale x := by
  have scaleNonzero : (scale : ℚ) ≠ 0 := by positivity
  obtain ⟨units, rfl⟩ := (onGrid_iff positive).mp grid
  have shifted : (units / scale + x) * scale + 1 / 2 = x * scale + 1 / 2 + (units : ℤ) := by
    field_simp
    ring
  rw [toNumeric_of_nonneg (add_nonneg nonneg addend), toNumeric_of_nonneg addend, shifted,
    Int.floor_add_intCast]
  push_cast
  ring

/-- Off the midpoints, rounding down from above meets rounding up from below. -/
theorem toNumeric_sub (positive : 0 < scale) (grid : OnGrid scale y) (subtrahend : 0 ≤ x)
    (covered : x ≤ y) (between : ¬ IsMidpoint scale x) :
    toNumeric scale (y - x) = y - toNumeric scale x := by
  have scaleNonzero : (scale : ℚ) ≠ 0 := by positivity
  obtain ⟨units, rfl⟩ := (onGrid_iff positive).mp grid
  have floors : ⌊(units / scale - x) * scale + 1 / 2⌋ = units - ⌊x * scale + 1 / 2⌋ := by
    have below := Int.floor_le (x * scale + 1 / 2)
    have above := Int.lt_floor_add_one (x * scale + 1 / 2)
    have strict : (⌊x * scale + 1 / 2⌋ : ℚ) < x * scale + 1 / 2 := lt_of_le_of_ne below between
    have whole : (units / scale - x) * scale = units - x * scale := by field_simp
    rw [Int.floor_eq_iff, whole]
    push_cast
    constructor <;> linarith
  rw [toNumeric_of_nonneg (sub_nonneg.mpr covered), toNumeric_of_nonneg subtrahend, floors]
  push_cast
  ring

/-- What a stored value loses when `x` is taken from it: a tie goes back up, so it is not
lost. -/
def numericFall (scale : ℕ) (x : ℚ) : ℚ := ⌈x * scale - 1 / 2⌉ / scale

theorem toNumeric_sub_eq (positive : 0 < scale) (grid : OnGrid scale y) (covered : x ≤ y) :
    toNumeric scale (y - x) = y - numericFall scale x := by
  have scaleNonzero : (scale : ℚ) ≠ 0 := by positivity
  obtain ⟨units, rfl⟩ := (onGrid_iff positive).mp grid
  have floors : ⌊(units / scale - x) * scale + 1 / 2⌋ = units - ⌈x * scale - 1 / 2⌉ := by
    have whole : (units / scale - x) * scale + 1 / 2 = (units : ℤ) + -(x * scale - 1 / 2) := by
      field_simp
      ring
    rw [whole, Int.floor_intCast_add, Int.floor_neg, ← sub_eq_add_neg]
  rw [toNumeric_of_nonneg (sub_nonneg.mpr covered), floors, numericFall]
  push_cast
  ring

theorem onGrid_zero (positive : 0 < scale) : OnGrid scale (0 : ℚ) :=
  (onGrid_iff positive).mpr ⟨0, by simp⟩

theorem numericFall_of_onGrid (positive : 0 < scale) (grid : OnGrid scale x) :
    numericFall scale x = x := by
  have kept := toNumeric_sub_eq positive grid le_rfl
  rw [sub_self, (toNumeric_eq_self_iff positive).mpr (onGrid_zero positive)] at kept
  linarith

/-- Rounding up loses no less than rounding down. -/
theorem numericFall_le_toNumeric (nonneg : 0 ≤ x) : numericFall scale x ≤ toNumeric scale x := by
  rw [toNumeric_of_nonneg nonneg, numericFall]
  refine div_le_div_of_nonneg_right ?_ (Nat.cast_nonneg scale)
  have below := Int.ceil_lt_add_one (x * scale - 1 / 2)
  exact_mod_cast Int.le_floor.mpr (by linarith)

/-- When one amount alone has more decimals, the column loses no more than the rounded sum. -/
theorem sum_numericFall_le {ι : Type*} [DecidableEq ι] (positive : 0 < scale) {s : Finset ι}
    {amount : ι → ℚ} (last : ι) (grid : ∀ i ∈ s, i ≠ last → OnGrid scale (amount i))
    (nonneg : ∀ i ∈ s, 0 ≤ amount i) :
    ∑ i ∈ s, numericFall scale (amount i) ≤ toNumeric scale (∑ i ∈ s, amount i) := by
  have whole : ∀ t ⊆ s, last ∉ t → OnGrid scale (∑ i ∈ t, amount i) ∧
      ∑ i ∈ t, numericFall scale (amount i) = ∑ i ∈ t, amount i := by
    intro t within apart
    have kept : ∀ i ∈ t, OnGrid scale (amount i) := fun i member =>
      grid i (within member) fun same => apart (same ▸ member)
    exact ⟨Finset.sum_induction _ (OnGrid scale) (fun _ _ => OnGrid.add positive)
        (onGrid_zero positive) kept,
      Finset.sum_congr rfl fun i member => numericFall_of_onGrid positive (kept i member)⟩
  by_cases member : last ∈ s
  · obtain ⟨rest, same⟩ := whole (s.erase last) (Finset.erase_subset _ _) (Finset.notMem_erase _ _)
    have restNonneg : 0 ≤ ∑ i ∈ s.erase last, amount i :=
      Finset.sum_nonneg fun i inRest => nonneg i (Finset.mem_of_mem_erase inRest)
    rw [← Finset.sum_erase_add _ _ member, ← Finset.sum_erase_add _ _ member, same,
      toNumeric_add positive rest restNonneg (nonneg last member)]
    exact add_le_add_right (numericFall_le_toNumeric (nonneg last member)) _
  · obtain ⟨total, same⟩ := whole s subset_rfl member
    rw [same, (toNumeric_eq_self_iff positive).mpr total]

namespace Table

universe u v

variable {ρ : Type u} {κ : Type v} {key : ρ → κ} {column : ρ → ℚ} {move more : κ → ℚ}
  {before middle after table : Table key}

/-- The column moved by what `move` says of each row's key; no row came and none went. -/
def Shifted (column : ρ → ℚ) (move : κ → ℚ) (before after : Table key) : Prop :=
  after.rows.map (fun row => (key row, column row)) =
    before.rows.map fun row => (key row, column row + move (key row))

theorem Shifted.refl (column : ρ → ℚ) (table : Table key) : Shifted column 0 table table := by
  simp [Shifted]

theorem Shifted.trans (first : Shifted column move before middle)
    (second : Shifted column more middle after) :
    Shifted column (move + more) before after := by
  have moved := congrArg
    (List.map fun entry : κ × ℚ => (entry.1, entry.2 + more entry.1)) first
  rw [List.map_map, List.map_map] at moved
  refine Eq.trans second (Eq.trans moved ?_)
  refine List.map_congr_left fun row _ => ?_
  simp [add_assoc]

/-- A function of the column, summed up. -/
theorem Shifted.sum_eq (shifted : Shifted column move before after) (kept : ℚ → ℚ) :
    after.sum (fun row => kept (column row)) =
      before.sum fun row => kept (column row + move (key row)) := by
  have sums := congrArg (fun entries => (entries.map fun entry : κ × ℚ => kept entry.2).sum) shifted
  simpa [Table.sum, Function.comp_def] using sums

theorem sum_add (table : Table key) (left right : ρ → ℚ) :
    table.sum (fun row => left row + right row) = table.sum left + table.sum right :=
  List.sum_map_add

theorem sum_sub (table : Table key) (left right : ρ → ℚ) :
    table.sum (fun row => left row - right row) = table.sum left - table.sum right := by
  unfold Table.sum
  induction table.rows with
  | nil => simp
  | cons row rest ih =>
      simp only [List.map_cons, List.sum_cons, ih]
      ring

variable [DecidableEq κ] {k : κ} {delta : ℚ} {update : ρ → ρ}
  {keeps : ∀ row, key (update row) = key row}

theorem shifted_modify (moves : ∀ row, column (update row) = column row + delta) :
    Shifted column (Pi.single k delta) table (table.modify k update keeps) := by
  unfold Shifted Table.modify
  rw [List.map_map]
  refine List.map_congr_left fun row _ => ?_
  by_cases same : key row = k
  · simp [same, keeps, moves]
  · simp [same]

theorem shifted_modify_zero (same : ∀ row, column (update row) = column row) :
    Shifted column 0 table (table.modify k update keeps) := by
  rw [← Pi.single_zero k]
  exact shifted_modify fun row => (same row).trans (add_zero _).symm

theorem mem_keys : k ∈ (table.rows.map key).toFinset ↔ (table.find? k).isSome = true := by
  rw [List.mem_toFinset, List.mem_map, Option.isSome_iff_exists]
  simp only [find?_eq_some]

/-- What depends on the key alone is summed over the keys. -/
theorem sum_keys (table : Table key) (column : κ → ℚ) :
    table.sum (fun row => column (key row)) =
      ∑ k ∈ (table.rows.map key).toFinset, column k := by
  rw [List.sum_toFinset column table.unique, List.map_map]
  rfl

private theorem sum_map_single (rows : List ρ) (unique : (rows.map key).Nodup) {row : ρ}
    (member : row ∈ rows) :
    (rows.map fun other => (Pi.single (key row) delta : κ → ℚ) (key other)).sum = delta := by
  induction rows with
  | nil => cases member
  | cons head tail ih =>
      simp only [List.map_cons, List.nodup_cons, List.mem_map, not_exists, not_and] at unique
      rw [List.map_cons, List.sum_cons]
      rcases List.mem_cons.mp member with rfl | later
      · have rest : (tail.map fun other => (Pi.single (key row) delta : κ → ℚ) (key other)).sum =
            0 := by
          refine List.sum_eq_zero fun value inTail => ?_
          obtain ⟨other, isOther, rfl⟩ := List.mem_map.mp inTail
          exact Pi.single_eq_of_ne (unique.1 other isOther) _
        rw [rest, Pi.single_eq_same, add_zero]
      · have headOther : key head ≠ key row := fun same => unique.1 row later same.symm
        rw [Pi.single_eq_of_ne headOther, ih unique.2 later, zero_add]

/-- One row's movement counts if there is the row. -/
theorem sum_single (table : Table key) (k : κ) (delta : ℚ) :
    table.sum (fun row => (Pi.single k delta : κ → ℚ) (key row)) =
      if (table.find? k).isSome then delta else 0 := by
  cases found : table.find? k with
  | none =>
      have apart := find?_eq_none.mp found
      refine List.sum_eq_zero fun value member => ?_
      obtain ⟨row, isRow, rfl⟩ := List.mem_map.mp member
      exact Pi.single_eq_of_ne (apart row isRow) _
  | some row =>
      obtain ⟨member, rfl⟩ := find?_eq_some.mp found
      exact sum_map_single table.rows table.unique member

end Table

end PredictX.Data
