import Mathlib

namespace PredictX.Data

/-! Rounding of exact rationals.

Two kinds occur in decimal bookkeeping: a fixed grid (`scale` units to one),
reached by discarding digits, and a fixed number of significant digits in some
radix, reached by rounding half to even.  Both are functions of an exact rational,
so a program's arithmetic is the exact operation followed by one of them.
-/

section Grid

variable {scale : ℕ} {x y : ℚ}

/-- A multiple of `1 / scale`. -/
def OnGrid (scale : ℕ) (x : ℚ) : Prop := (⌊x * scale⌋ : ℚ) = x * scale

instance : Decidable (OnGrid scale x) := inferInstanceAs (Decidable (_ = _))

/-- Discard everything below the grid (toward zero). -/
def quantizeDown (scale : ℕ) (x : ℚ) : ℚ :=
  if 0 ≤ x then ⌊x * scale⌋ / scale else ⌈x * scale⌉ / scale

theorem onGrid_iff (positive : 0 < scale) : OnGrid scale x ↔ ∃ units : ℤ, x = units / scale := by
  have nonzero : (scale : ℚ) ≠ 0 := by positivity
  constructor
  · intro grid
    exact ⟨⌊x * scale⌋, by rw [grid]; field_simp⟩
  · rintro ⟨units, rfl⟩
    have cancel : (units : ℚ) / scale * scale = units := by field_simp
    rw [OnGrid, cancel, Int.floor_intCast]

theorem OnGrid.add (positive : 0 < scale) (left : OnGrid scale x) (right : OnGrid scale y) :
    OnGrid scale (x + y) := by
  obtain ⟨a, rfl⟩ := (onGrid_iff positive).mp left
  obtain ⟨b, rfl⟩ := (onGrid_iff positive).mp right
  exact (onGrid_iff positive).mpr ⟨a + b, by push_cast; ring⟩

theorem OnGrid.sub (positive : 0 < scale) (left : OnGrid scale x) (right : OnGrid scale y) :
    OnGrid scale (x - y) := by
  obtain ⟨a, rfl⟩ := (onGrid_iff positive).mp left
  obtain ⟨b, rfl⟩ := (onGrid_iff positive).mp right
  exact (onGrid_iff positive).mpr ⟨a - b, by push_cast; ring⟩

theorem OnGrid.quantizeDown_eq (positive : 0 < scale) (grid : OnGrid scale x) :
    quantizeDown scale x = x := by
  have nonzero : (scale : ℚ) ≠ 0 := by positivity
  obtain ⟨units, rfl⟩ := (onGrid_iff positive).mp grid
  have cancel : (units : ℚ) / scale * scale = units := by field_simp
  unfold quantizeDown
  rw [cancel, Int.floor_intCast, Int.ceil_intCast, ite_self]

theorem quantizeDown_of_nonneg (nonneg : 0 ≤ x) :
    quantizeDown scale x = ⌊x * scale⌋ / scale := if_pos nonneg

theorem quantizeDown_nonneg (nonneg : 0 ≤ x) : 0 ≤ quantizeDown scale x := by
  rw [quantizeDown_of_nonneg nonneg]
  have floor : (0 : ℚ) ≤ ⌊x * scale⌋ := by
    exact_mod_cast Int.floor_nonneg.mpr (by positivity)
  positivity

theorem quantizeDown_le (positive : 0 < scale) (nonneg : 0 ≤ x) : quantizeDown scale x ≤ x := by
  have scalePositive : (0 : ℚ) < scale := by exact_mod_cast positive
  rw [quantizeDown_of_nonneg nonneg, div_le_iff₀ scalePositive]
  exact Int.floor_le _

theorem onGrid_quantizeDown (positive : 0 < scale) (nonneg : 0 ≤ x) :
    OnGrid scale (quantizeDown scale x) := by
  rw [quantizeDown_of_nonneg nonneg]
  exact (onGrid_iff positive).mpr ⟨⌊x * scale⌋, rfl⟩

/-- A grid point is below `x` exactly when it is below the last one. -/
theorem le_quantizeDown_iff (positive : 0 < scale) (nonneg : 0 ≤ x) (grid : OnGrid scale y) :
    y ≤ quantizeDown scale x ↔ y ≤ x := by
  have scalePositive : (0 : ℚ) < scale := by exact_mod_cast positive
  obtain ⟨units, rfl⟩ := (onGrid_iff positive).mp grid
  rw [quantizeDown_of_nonneg nonneg, div_le_div_iff_of_pos_right scalePositive, Int.cast_le,
    Int.le_floor, div_le_iff₀ scalePositive]

theorem onGrid_unit (positive : 0 < scale) : OnGrid scale (1 / scale : ℚ) :=
  (onGrid_iff positive).mpr ⟨1, by simp⟩

/-- A positive grid amount is a unit at least. -/
theorem OnGrid.unit_le_iff (positive : 0 < scale) (grid : OnGrid scale x) :
    1 / (scale : ℚ) ≤ x ↔ 0 < x := by
  have scalePositive : (0 : ℚ) < scale := by exact_mod_cast positive
  obtain ⟨units, rfl⟩ := (onGrid_iff positive).mp grid
  rw [div_le_div_iff_of_pos_right scalePositive, div_pos_iff_of_pos_right scalePositive]
  norm_cast

/-- What is discarded is less than a unit. -/
theorem lt_quantizeDown_add_unit (positive : 0 < scale) (nonneg : 0 ≤ x) :
    x < quantizeDown scale x + 1 / scale := by
  have scalePositive : (0 : ℚ) < scale := by exact_mod_cast positive
  have next : OnGrid scale (quantizeDown scale x + 1 / scale) :=
    (onGrid_quantizeDown positive nonneg).add positive (onGrid_unit positive)
  by_contra! within
  have floor := (le_quantizeDown_iff positive nonneg next).mpr within
  have unit : (0 : ℚ) < 1 / scale := by positivity
  linarith

/-- The next grid point from below. -/
def quantizeUp (scale : ℕ) (x : ℚ) : ℚ := ⌈x * scale⌉ / scale

theorem onGrid_quantizeUp (positive : 0 < scale) (x : ℚ) : OnGrid scale (quantizeUp scale x) :=
  (onGrid_iff positive).mpr ⟨⌈x * scale⌉, rfl⟩

theorem quantizeUp_nonneg (nonneg : 0 ≤ x) : 0 ≤ quantizeUp scale x := by
  have ceil : (0 : ℚ) ≤ ⌈x * scale⌉ := by
    exact_mod_cast Int.ceil_nonneg (by positivity)
  exact div_nonneg ceil (Nat.cast_nonneg _)

/-- A grid point is above `x` exactly when it is above the next one. -/
theorem quantizeUp_le_iff (positive : 0 < scale) (grid : OnGrid scale y) :
    quantizeUp scale x ≤ y ↔ x ≤ y := by
  have scalePositive : (0 : ℚ) < scale := by exact_mod_cast positive
  obtain ⟨units, rfl⟩ := (onGrid_iff positive).mp grid
  rw [quantizeUp, div_le_div_iff_of_pos_right scalePositive, Int.cast_le, Int.ceil_le,
    le_div_iff₀ scalePositive]

end Grid

section HalfRoot

/-! The larger root of a monic quadratic is `(a + √d) / 2`.  Its floor on the grid
is computed with the integer square root, so no real number is ever approximated. -/

/-- `⌊scale * (a + √d) / 2⌋`. -/
def floorHalfRoot (scale : ℕ) (a d : ℚ) : ℤ :=
  (scale * a.num * d.den + Nat.sqrt ((scale * a.den) ^ 2 * (d.num.toNat * d.den)))
    / (2 * a.den * d.den : ℤ)

variable {scale : ℕ} {a d : ℚ} {z : ℤ}

private theorem le_intSqrt (t : ℤ) (n : ℕ) : t ≤ Nat.sqrt n ↔ t ≤ 0 ∨ t ^ 2 ≤ n := by
  rcases le_or_gt t 0 with small | large
  · exact ⟨fun _ => .inl small, fun _ => small.trans (Int.natCast_nonneg _)⟩
  · lift t to ℕ using large.le
    rw [Nat.cast_le, Nat.le_sqrt']
    constructor
    · intro square
      exact .inr (by exact_mod_cast square)
    · rintro (small | square)
      · omega
      · exact_mod_cast square

/-- The grid points below the root, in rational terms. -/
theorem le_floorHalfRoot (positive : 0 < scale) (nonneg : 0 ≤ d) :
    z ≤ floorHalfRoot scale a d ↔
      2 * (z / scale : ℚ) - a ≤ 0 ∨ (2 * (z / scale : ℚ) - a) ^ 2 ≤ d := by
  have aDen : (0 : ℚ) < a.den := by exact_mod_cast a.den_pos
  have dDen : (0 : ℚ) < d.den := by exact_mod_cast d.den_pos
  have scalePos : (0 : ℚ) < scale := by exact_mod_cast positive
  have factor : (0 : ℚ) < scale * a.den * d.den := by positivity
  have numNonneg : (0 : ℤ) ≤ d.num := Rat.num_nonneg.mpr nonneg
  have numCast : ((d.num.toNat : ℕ) : ℤ) = d.num := Int.toNat_of_nonneg numNonneg
  have dValue : (d.num : ℚ) = d * d.den := by
    rw [eq_comm, Rat.mul_den_eq_num]
  have aValue : (a.num : ℚ) = a * a.den := by
    rw [eq_comm, Rat.mul_den_eq_num]
  have divisor : (0 : ℤ) < 2 * a.den * d.den := by
    have := a.den_pos
    have := d.den_pos
    positivity
  have offset : ((z * (2 * a.den * d.den) - scale * a.num * d.den : ℤ) : ℚ) =
      (2 * (z / scale : ℚ) - a) * (scale * a.den * d.den) := by
    push_cast
    rw [aValue]
    field_simp
  have radicand : (((scale * a.den) ^ 2 * (d.num.toNat * d.den) : ℕ) : ℚ) =
      d * (scale * a.den * d.den) ^ 2 := by
    have cast : ((d.num.toNat : ℕ) : ℚ) = d.num := by exact_mod_cast numCast
    push_cast
    rw [cast, dValue]
    ring
  rw [floorHalfRoot, Int.le_ediv_iff_mul_le divisor, ← sub_le_iff_le_add', le_intSqrt]
  apply or_congr
  · rw [← Int.cast_nonpos (R := ℚ), offset]
    constructor
    · exact fun below => by
        by_contra above
        exact absurd below (not_le.mpr (mul_pos (not_le.mp above) factor))
    · exact fun below => mul_nonpos_of_nonpos_of_nonneg below factor.le
  · rw [← Int.cast_le (R := ℚ), Int.cast_pow, offset, Int.cast_natCast, radicand, mul_pow]
    exact mul_le_mul_iff_left₀ (by positivity)

theorem floorHalfRoot_nonneg (nonneg : 0 ≤ a) : 0 ≤ floorHalfRoot scale a d := by
  have numNonneg : 0 ≤ a.num := Rat.num_nonneg.mpr nonneg
  exact Int.ediv_nonneg (by positivity) (by positivity)

/-- Moving the root by a grid amount moves its floor by the same amount. -/
theorem floorHalfRoot_add_grid (positive : 0 < scale) (nonneg : 0 ≤ d) {offset : ℚ}
    (grid : OnGrid scale offset) :
    (floorHalfRoot scale (a + 2 * offset) d / scale : ℚ) =
      floorHalfRoot scale a d / scale + offset := by
  have scaleNonzero : (scale : ℚ) ≠ 0 := by positivity
  obtain ⟨units, rfl⟩ := (onGrid_iff positive).mp grid
  have floors : floorHalfRoot scale (a + 2 * (units / scale)) d =
      floorHalfRoot scale a d + units := by
    refine eq_of_forall_le_iff fun z => ?_
    have shift : 2 * (z / scale : ℚ) - (a + 2 * (units / scale)) =
        2 * ((z - units : ℤ) / scale : ℚ) - a := by
      push_cast
      ring
    rw [le_floorHalfRoot positive nonneg, ← sub_le_iff_le_add,
      le_floorHalfRoot positive nonneg, shift]
  rw [floors]
  push_cast
  field_simp

private theorem le_sqrt_iff {t d : ℝ} : t ≤ √d ↔ t ≤ 0 ∨ t ^ 2 ≤ d := by
  rcases le_or_gt t 0 with small | large
  · exact ⟨fun _ => .inl small, fun _ => small.trans (Real.sqrt_nonneg d)⟩
  · rw [Real.le_sqrt' large]
    exact ⟨.inr, fun either => either.resolve_left (not_le.mpr large)⟩

/-- The computed floor is the floor of the real root. -/
theorem floorHalfRoot_eq_floor (positive : 0 < scale) (nonneg : 0 ≤ d) :
    floorHalfRoot scale a d = ⌊(scale * ((a : ℝ) + √(d : ℝ)) / 2 : ℝ)⌋ := by
  have scalePos : (0 : ℝ) < scale := by exact_mod_cast positive
  refine eq_of_forall_le_iff fun z => ?_
  have shift : (z : ℝ) ≤ scale * ((a : ℝ) + √(d : ℝ)) / 2 ↔
      2 * ((z : ℝ) / scale) - a ≤ √(d : ℝ) := by
    rw [sub_le_iff_le_add', mul_div_assoc', div_le_iff₀ scalePos,
      le_div_iff₀ (by norm_num : (0 : ℝ) < 2)]
    constructor <;> intro bound <;> linarith
  rw [le_floorHalfRoot positive nonneg, Int.le_floor, shift, le_sqrt_iff]
  exact_mod_cast Iff.rfl

end HalfRoot

section Significand

/-! Significant digits.  `roundSig 10 28` is a decimal context of 28 digits and
`roundSig 2 53` a binary double away from its exponent limits. -/

/-- The nearest integer, a tie going to the even one. -/
def roundHalfEven (x : ℚ) : ℤ :=
  let below := ⌊x⌋
  let rest := x - below
  if rest < 1 / 2 then below
  else if 1 / 2 < rest then below + 1
  else if below % 2 = 0 then below else below + 1

/-- Round to `digits` significant digits in radix `radix`. -/
def roundSig (radix digits : ℕ) (x : ℚ) : ℚ :=
  if x = 0 then 0
  else
    let unit : ℚ := (radix : ℚ) ^ (Int.log radix |x| - (digits - 1))
    roundHalfEven (x / unit) * unit

variable {radix digits : ℕ} {x : ℚ}

theorem roundHalfEven_intCast (z : ℤ) : roundHalfEven z = z := by
  simp [roundHalfEven]

@[simp] theorem roundSig_zero : roundSig radix digits 0 = 0 := if_pos rfl

/-- A number with at most `digits` digits is not changed. -/
theorem roundSig_of_digits (base : 1 < radix) (mantissa exponent : ℤ)
    (value : x = mantissa * (radix : ℚ) ^ exponent)
    (fits : |mantissa| < (radix : ℤ) ^ digits) : roundSig radix digits x = x := by
  rcases eq_or_ne x 0 with rfl | nonzero
  · exact roundSig_zero
  have radixPos : (0 : ℚ) < radix := by exact_mod_cast (zero_lt_one.trans base)
  have unitPos (e : ℤ) : (0 : ℚ) < (radix : ℚ) ^ e := zpow_pos radixPos e
  set unit := (radix : ℚ) ^ (Int.log radix |x| - (digits - 1)) with unitDef
  have exponentBound : Int.log radix |x| - (digits - 1) ≤ exponent := by
    have magnitude : |x| < (radix : ℚ) ^ ((digits : ℤ) + exponent) := by
      rw [value, abs_mul, abs_of_pos (unitPos exponent), zpow_add₀ radixPos.ne']
      refine mul_lt_mul_of_pos_right ?_ (unitPos exponent)
      rw [zpow_natCast]
      exact_mod_cast fits
    have log := (Int.lt_zpow_iff_log_lt base (abs_pos.mpr nonzero)).mp magnitude
    omega
  obtain ⟨shift, shifted⟩ := Int.eq_ofNat_of_zero_le (sub_nonneg.mpr exponentBound)
  have whole : x / unit = ((mantissa * (radix : ℤ) ^ shift : ℤ) : ℚ) := by
    have split : (radix : ℚ) ^ exponent = (radix : ℚ) ^ shift * unit := by
      rw [unitDef, ← zpow_natCast, ← zpow_add₀ radixPos.ne']
      congr 1
      omega
    rw [value, split, ← mul_assoc, mul_div_assoc, div_self (unitPos _).ne', mul_one]
    push_cast
    rfl
  have unfolded : roundSig radix digits x = roundHalfEven (x / unit) * unit := if_neg nonzero
  rw [unfolded, whole, roundHalfEven_intCast, ← whole]
  exact div_mul_cancel₀ x (unitPos _).ne'

/-- The nearest integer is at most half away. -/
theorem abs_roundHalfEven_sub_le (x : ℚ) : |(roundHalfEven x : ℚ) - x| ≤ 1 / 2 := by
  have below := Int.floor_le x
  have above := Int.lt_floor_add_one x
  unfold roundHalfEven
  dsimp only
  rw [abs_le]
  split
  · constructor <;> linarith
  split
  · push_cast
    constructor <;> linarith
  split
  · constructor <;> linarith
  · push_cast
    constructor <;> linarith

/-- Rounding does not pass an integer. -/
theorem roundHalfEven_le {z : ℤ} (bound : x ≤ z) : roundHalfEven x ≤ z := by
  have error := abs_le.mp (abs_roundHalfEven_sub_le x)
  have close : (roundHalfEven x : ℚ) < z + 1 := by linarith [error.2]
  exact Int.lt_add_one_iff.mp (by exact_mod_cast close)

theorem roundHalfEven_nonneg (nonneg : 0 ≤ x) : 0 ≤ roundHalfEven x := by
  have error := abs_le.mp (abs_roundHalfEven_sub_le x)
  have close : (-1 : ℚ) < roundHalfEven x := by linarith [error.1]
  have whole : -1 < roundHalfEven x := by exact_mod_cast close
  omega

theorem roundSig_nonneg (nonneg : 0 ≤ x) : 0 ≤ roundSig radix digits x := by
  unfold roundSig
  split
  · exact le_rfl
  · have unit : (0 : ℚ) ≤ (radix : ℚ) ^ (Int.log radix |x| - (digits - 1)) :=
      zpow_nonneg (Nat.cast_nonneg _) _
    have quotient : 0 ≤ roundHalfEven (x / (radix : ℚ) ^ (Int.log radix |x| - (digits - 1))) :=
      roundHalfEven_nonneg (div_nonneg nonneg unit)
    exact mul_nonneg (by exact_mod_cast quotient) unit

/-- The relative error is at most half a unit in the last place. -/
theorem abs_roundSig_sub_le (base : 1 < radix) (nonneg : 0 ≤ x) :
    |roundSig radix digits x - x| ≤ x * ((radix : ℚ) ^ (1 - digits : ℤ) / 2) := by
  rcases eq_or_lt_of_le nonneg with rfl | positive
  · simp
  have radixPos : (0 : ℚ) < radix := by exact_mod_cast (zero_lt_one.trans base)
  set unit := (radix : ℚ) ^ (Int.log radix |x| - (digits - 1)) with unitDef
  have unitPos : 0 < unit := zpow_pos radixPos _
  have unfolded : roundSig radix digits x = roundHalfEven (x / unit) * unit :=
    if_neg positive.ne'
  have split : roundSig radix digits x - x = (roundHalfEven (x / unit) - x / unit) * unit := by
    rw [unfolded, sub_mul, div_mul_cancel₀ x unitPos.ne']
  have magnitude : (radix : ℚ) ^ Int.log radix |x| ≤ x := by
    rw [abs_of_pos positive]
    exact Int.zpow_log_le_self base positive
  have unitBound : unit ≤ x * (radix : ℚ) ^ (1 - digits : ℤ) := by
    rw [unitDef, show Int.log radix |x| - ((digits : ℤ) - 1) =
      Int.log radix |x| + (1 - digits) by ring, zpow_add₀ radixPos.ne']
    exact mul_le_mul_of_nonneg_right magnitude (zpow_nonneg radixPos.le _)
  rw [split, abs_mul, abs_of_pos unitPos]
  calc |(roundHalfEven (x / unit) : ℚ) - x / unit| * unit
      ≤ 1 / 2 * unit :=
        mul_le_mul_of_nonneg_right (abs_roundHalfEven_sub_le _) unitPos.le
    _ ≤ 1 / 2 * (x * (radix : ℚ) ^ (1 - digits : ℤ)) :=
        mul_le_mul_of_nonneg_left unitBound (by norm_num)
    _ = x * ((radix : ℚ) ^ (1 - digits : ℤ) / 2) := by ring

/-- Rounding does not pass a number that needs no rounding. -/
theorem roundSig_le {y : ℚ} (base : 1 < radix) (nonneg : 0 ≤ x) (bound : x ≤ y)
    (exact_ : roundSig radix digits y = y) : roundSig radix digits x ≤ y := by
  rcases eq_or_lt_of_le nonneg with rfl | positive
  · simpa using bound
  have yPos : 0 < y := positive.trans_le bound
  have radixPos : (0 : ℚ) < radix := by exact_mod_cast (zero_lt_one.trans base)
  set unit := (radix : ℚ) ^ (Int.log radix |x| - (digits - 1)) with unitDef
  set wide := (radix : ℚ) ^ (Int.log radix |y| - (digits - 1)) with wideDef
  have unitPos : 0 < unit := zpow_pos radixPos _
  have logs : Int.log radix |x| ≤ Int.log radix |y| := by
    rw [abs_of_pos positive, abs_of_pos yPos]
    exact Int.log_mono_right positive bound
  -- The coarser unit of the larger number is a whole multiple of the finer one.
  obtain ⟨shift, shifted⟩ := Int.eq_ofNat_of_zero_le (sub_nonneg.mpr logs)
  have multiple : wide = ((radix : ℤ) ^ shift : ℤ) * unit := by
    push_cast
    rw [wideDef, unitDef, ← zpow_natCast, ← zpow_add₀ radixPos.ne']
    congr 1
    omega
  have whole : y = ((roundHalfEven (y / wide) * (radix : ℤ) ^ shift : ℤ) : ℚ) * unit := by
    have unfolded : roundSig radix digits y = roundHalfEven (y / wide) * wide := if_neg yPos.ne'
    calc y = roundHalfEven (y / wide) * wide := exact_.symm.trans unfolded
      _ = roundHalfEven (y / wide) * (((radix : ℤ) ^ shift : ℤ) * unit) := by rw [← multiple]
      _ = _ := by push_cast; ring
  have unfolded : roundSig radix digits x = roundHalfEven (x / unit) * unit :=
    if_neg positive.ne'
  rw [unfolded, whole]
  refine mul_le_mul_of_nonneg_right ?_ unitPos.le
  have below : x / unit ≤ ((roundHalfEven (y / wide) * (radix : ℤ) ^ shift : ℤ) : ℚ) := by
    rw [div_le_iff₀ unitPos, ← whole]
    exact bound
  exact_mod_cast roundHalfEven_le below

end Significand

section Exact

/-- Sums and differences of amounts stay among them, and rounding leaves those within the
bound alone. -/
structure ExactOn (round : ℚ → ℚ) (amount : ℚ → Prop) (bound : ℚ) : Prop where
  zero : amount 0
  add : ∀ {x y}, amount x → amount y → amount (x + y)
  sub : ∀ {x y}, amount x → amount y → amount (x - y)
  round_eq : ∀ {x}, amount x → 0 ≤ x → x ≤ bound → round x = x

theorem ExactOn.sum {round : ℚ → ℚ} {amount : ℚ → Prop} {bound : ℚ}
    (exact_ : ExactOn round amount bound) {amounts : List ℚ} (all : ∀ x ∈ amounts, amount x) :
    amount amounts.sum := by
  induction amounts with
  | nil => exact exact_.zero
  | cons x rest ih =>
      rw [List.forall_mem_cons] at all
      rw [List.sum_cons]
      exact exact_.add all.1 (ih all.2)

theorem exactOn_id (bound : ℚ) : ExactOn id (fun _ => True) bound :=
  ⟨trivial, fun _ _ => trivial, fun _ _ => trivial, fun _ _ _ => rfl⟩

/-- Grid amounts below the precision of the significand are exact. -/
theorem exactOn_grid {radix digits places : ℕ} (base : 1 < radix) {bound : ℚ}
    (fits : bound * (radix : ℚ) ^ places < (radix : ℚ) ^ digits) :
    ExactOn (roundSig radix digits) (OnGrid (radix ^ places)) bound := by
  have radixPos : 0 < radix := zero_lt_one.trans base
  have scalePos : 0 < radix ^ places := pow_pos radixPos places
  refine ⟨?_, OnGrid.add scalePos, OnGrid.sub scalePos, ?_⟩
  · exact (onGrid_iff scalePos).mpr ⟨0, by simp⟩
  · intro x grid nonneg atMost
    obtain ⟨units, rfl⟩ := (onGrid_iff scalePos).mp grid
    have castPos : (0 : ℚ) < (radix : ℚ) := by exact_mod_cast radixPos
    have powPos : (0 : ℚ) < (radix : ℚ) ^ places := pow_pos castPos places
    push_cast at nonneg atMost ⊢
    refine roundSig_of_digits base units (-(places : ℤ)) ?_ ?_
    · rw [zpow_neg, zpow_natCast, div_eq_mul_inv]
    · have unitsNonneg : 0 ≤ units := by
        have scaled : (0 : ℚ) ≤ units := by
          simpa [div_mul_cancel₀ _ powPos.ne'] using mul_nonneg nonneg powPos.le
        exact_mod_cast scaled
      rw [abs_of_nonneg unitsNonneg]
      have below : (units : ℚ) < (radix : ℚ) ^ digits :=
        ((div_le_iff₀ powPos).mp atMost).trans_lt fits
      exact_mod_cast below

end Exact

end PredictX.Data
