import PredictX.Client.Decimal

namespace PredictX.DecimalText

/-! Sums and differences of decimal strings are exact, whatever the strings.

A number that is written is read back as it was, its scale included.  So a sum is decided by what
its parts stand for, and a figure can be taken apart and put together without a change.
-/

/-- The number that the string stands for. -/
def Scaled.value (scaled : Scaled) : ℚ := scaled.units / 10 ^ scaled.scale

section Characters

variable {char : Char} {text whole fraction : Text}

theorem solid_of_isDigit (digit : char.isDigit = true) : isSpace char = false := by
  have bounds := Char.isDigit_iff_toNat.mp digit
  have zero : '0'.toNat = 48 := rfl
  have nine : '9'.toNat = 57 := rfl
  simp only [isSpace, List.mem_cons, List.not_mem_nil, or_false, Bool.or_eq_false_iff,
    decide_eq_false_iff_not, Bool.and_eq_false_iff]
  omega

theorem ne_dot_of_isDigit (digit : char.isDigit = true) : char ≠ '.' := by
  rintro rfl
  contradiction

theorem ne_minus_of_isDigit (digit : char.isDigit = true) : char ≠ '-' := by
  rintro rfl
  contradiction

theorem dropWhile_solid (solid : ∀ char ∈ text, isSpace char = false) :
    text.dropWhile isSpace = text := by
  cases text with
  | nil => rfl
  | cons char rest => simp [solid char List.mem_cons_self]

theorem trim_solid (solid : ∀ char ∈ text, isSpace char = false) : trim text = text := by
  unfold trim
  rw [dropWhile_solid solid, dropWhile_solid (by simpa using solid), List.reverse_reverse]

theorem wholeOf_digits (fraction : Text) (digits : ∀ char ∈ whole, char.isDigit = true) :
    wholeOf whole = whole ∧ wholeOf (whole ++ '.' :: fraction) = whole := by
  have undotted : ∀ char ∈ whole, decide (char ≠ '.') = true := fun char member =>
    decide_eq_true (ne_dot_of_isDigit (digits char member))
  constructor
  · exact List.takeWhile_eq_self_iff.mpr undotted
  · rw [wholeOf, List.takeWhile_append_of_pos undotted]
    simp

theorem fractionOf_digits (digits : ∀ char ∈ whole, char.isDigit = true)
    (more : ∀ char ∈ fraction, char.isDigit = true) :
    fractionOf whole = [] ∧ fractionOf (whole ++ '.' :: fraction) = fraction := by
  have undotted : ∀ char ∈ whole, decide (char ≠ '.') = true := fun char member =>
    decide_eq_true (ne_dot_of_isDigit (digits char member))
  constructor
  · rw [fractionOf, List.dropWhile_eq_nil_iff.mpr undotted]
    rfl
  · rw [fractionOf, List.dropWhile_append_of_pos undotted]
    simp only [ne_eq, decide_not, List.dropWhile_cons, decide_true, Bool.not_true,
      Bool.false_eq_true, if_false, List.tail_cons]
    refine List.takeWhile_eq_self_iff.mpr fun char member => ?_
    simp [ne_dot_of_isDigit (more char member)]

end Characters

/-! # What is written is read back -/

section Written

variable {negative : Bool} {whole fraction : Text}

/-- A numeral as `format` writes it. -/
def written (negative : Bool) (whole fraction : Text) : Text :=
  (if negative then ['-'] else []) ++ whole ++ (if fraction = [] then [] else '.' :: fraction)

theorem written_solid (digits : ∀ char ∈ whole, char.isDigit = true)
    (more : ∀ char ∈ fraction, char.isDigit = true) :
    ∀ char ∈ written negative whole fraction, isSpace char = false := by
  intro char member
  simp only [written, List.mem_append] at member
  rcases member with (sign | inWhole) | rest
  · cases negative with
    | false => simp at sign
    | true =>
        obtain rfl : char = '-' := by simpa using sign
        decide
  · exact solid_of_isDigit (digits char inWhole)
  · by_cases bare : fraction = []
    · simp [bare] at rest
    · simp only [if_neg bare, List.mem_cons] at rest
      obtain rfl | inFraction := rest
      · decide
      · exact solid_of_isDigit (more char inFraction)

theorem parse_written (digits : ∀ char ∈ whole, char.isDigit = true)
    (more : ∀ char ∈ fraction, char.isDigit = true) (some_ : whole ≠ []) :
    parse (written negative whole fraction) =
      ⟨Nat.ofDigitChars 10 (whole ++ fraction) 0 * (if negative then -1 else 1),
        fraction.length⟩ := by
  have trimmed : trim (written negative whole fraction) = written negative whole fraction :=
    trim_solid (written_solid digits more)
  obtain ⟨first, rest, rfl⟩ := List.exists_cons_of_ne_nil some_
  have firstDigit := digits first List.mem_cons_self
  have parts : wholeOf (first :: rest ++ (if fraction = [] then [] else '.' :: fraction)) =
        first :: rest ∧
      fractionOf (first :: rest ++ (if fraction = [] then [] else '.' :: fraction)) =
        fraction := by
    split
    · rename_i bare
      rw [List.append_nil, bare]
      exact ⟨(wholeOf_digits fraction digits).1, (fractionOf_digits digits more).1⟩
    · exact ⟨(wholeOf_digits fraction digits).2, (fractionOf_digits digits more).2⟩
  have allDigits : (first :: rest ++ fraction).all Char.isDigit = true := by
    rw [List.all_eq_true]
    intro char member
    obtain inWhole | inFraction := List.mem_append.mp member
    · exact digits char inWhole
    · exact more char inFraction
  unfold parse
  rw [trimmed]
  cases negative with
  | false =>
      have notDot : ¬(written false (first :: rest) fraction = [] ∨
          written false (first :: rest) fraction = ['.']) := by
        simp [written, ne_dot_of_isDigit firstDigit]
      have positive : (written false (first :: rest) fraction).head? ≠ some '-' := by
        simp [written, ne_minus_of_isDigit firstDigit]
      have unsigned : written false (first :: rest) fraction =
          first :: rest ++ (if fraction = [] then [] else '.' :: fraction) := rfl
      dsimp only
      rw [if_neg notDot, if_neg positive, if_neg positive, unsigned, parts.1, parts.2,
        if_neg (List.cons_ne_nil first rest), if_pos allDigits]
      rfl
  | true =>
      have notDot : ¬(written true (first :: rest) fraction = [] ∨
          written true (first :: rest) fraction = ['.']) := by
        simp [written]
      have minus : (written true (first :: rest) fraction).head? = some '-' := rfl
      have unsigned : (written true (first :: rest) fraction).tail =
          first :: rest ++ (if fraction = [] then [] else '.' :: fraction) := rfl
      dsimp only
      rw [if_neg notDot, if_pos minus, if_pos minus, unsigned, parts.1, parts.2,
        if_neg (List.cons_ne_nil first rest), if_pos allDigits]
      rfl

end Written

section Format

variable {value : Scaled}

/-- The digits that `format` cuts in two. -/
def paddedDigits (value : Scaled) : Text :=
  padStart (Nat.toDigits 10 value.units.natAbs) (value.scale + 1)

theorem paddedDigits_isDigit (value : Scaled) :
    ∀ char ∈ paddedDigits value, char.isDigit = true := by
  intro char member
  simp only [paddedDigits, padStart, List.mem_append, List.mem_replicate] at member
  obtain ⟨-, rfl⟩ | digit := member
  · decide
  · exact Nat.isDigit_of_mem_toDigits (by decide) (by decide) digit

theorem ofDigitChars_paddedDigits (value : Scaled) :
    Nat.ofDigitChars 10 (paddedDigits value) 0 = value.units.natAbs := by
  rw [paddedDigits, padStart, Nat.ofDigitChars_append, Nat.ofDigitChars_replicate_zero, mul_zero,
    Nat.ofDigitChars_ten_toDigits]

theorem lt_length_paddedDigits (value : Scaled) : value.scale < (paddedDigits value).length := by
  simp only [paddedDigits, padStart, List.length_append, List.length_replicate]
  omega

theorem format_eq (value : Scaled) :
    format value = written (decide (value.units < 0))
      ((paddedDigits value).take ((paddedDigits value).length - value.scale))
      ((paddedDigits value).drop ((paddedDigits value).length - value.scale)) := by
  have long := lt_length_paddedDigits value
  unfold format written
  change (if value.scale = 0 then _ ++ paddedDigits value else _) = _
  by_cases integral : value.scale = 0
  · simp [integral]
  · have cut : (paddedDigits value).drop ((paddedDigits value).length - value.scale) ≠ [] := by
      rw [← List.length_pos_iff, List.length_drop]
      omega
    rw [if_neg integral, if_neg cut]
    simp [paddedDigits]

/-- What is written is read back, the trailing zeros of its scale included. -/
theorem parse_format (value : Scaled) : parse (format value) = value := by
  have long := lt_length_paddedDigits value
  have digits := paddedDigits_isDigit value
  have cut : (paddedDigits value).take ((paddedDigits value).length - value.scale) ≠ [] := by
    rw [← List.length_pos_iff, List.length_take]
    omega
  have fractionLength :
      ((paddedDigits value).drop ((paddedDigits value).length - value.scale)).length =
        value.scale := by
    rw [List.length_drop]
    omega
  have sign : (value.units.natAbs : ℤ) * (if decide (value.units < 0) then -1 else 1) =
      value.units := by
    by_cases below : value.units < 0
    · simp only [below, decide_true, if_true]
      omega
    · simp only [below, decide_false, Bool.false_eq_true, if_false]
      omega
  rw [format_eq, parse_written (fun char member => digits char (List.mem_of_mem_take member))
    (fun char member => digits char (List.mem_of_mem_drop member)) cut, List.take_append_drop,
    ofDigitChars_paddedDigits, fractionLength, sign]

end Format

/-! # Sums and differences -/

section Arithmetic

variable {a b c start : Text} {scale : ℕ} {scaled : Scaled}

theorem rescale_units (scaled : Scaled) (scale : ℕ) :
    (rescale scaled scale).units = scaled.units * 10 ^ (scale - scaled.scale) := by
  unfold rescale
  split
  · rename_i same
    simp [same]
  · rfl

/-- Units at a finer scale stand for the same number. -/
theorem value_rescale (scaled : Scaled) (le : scaled.scale ≤ scale) :
    ((rescale scaled scale).units : ℚ) / 10 ^ scale = scaled.value := by
  have split_ : (10 : ℚ) ^ scale = 10 ^ (scale - scaled.scale) * 10 ^ scaled.scale := by
    rw [← pow_add, Nat.sub_add_cancel le]
  rw [rescale_units scaled scale, Scaled.value, split_]
  push_cast
  rw [mul_comm (scaled.units : ℚ), mul_div_mul_left _ _ (by positivity)]

theorem parse_add (a b : Text) :
    (parse (add a b)).value = (parse a).value + (parse b).value ∧
      (parse (add a b)).scale = max (parse a).scale (parse b).scale := by
  unfold add
  rw [parse_format]
  refine ⟨?_, rfl⟩
  rw [← value_rescale (parse a) (le_max_left _ _), ← value_rescale (parse b) (le_max_right _ _),
    ← add_div, Scaled.value]
  push_cast
  rfl

theorem parse_subtract (a b : Text) :
    (parse (subtract a b)).value = (parse a).value - (parse b).value ∧
      (parse (subtract a b)).scale = max (parse a).scale (parse b).scale := by
  unfold subtract
  rw [parse_format]
  refine ⟨?_, rfl⟩
  rw [← value_rescale (parse a) (le_max_left _ _), ← value_rescale (parse b) (le_max_right _ _),
    ← sub_div, Scaled.value]
  push_cast
  rfl

/-- Value and scale say how a number is written. -/
theorem Scaled.ext_value {left right : Scaled} (value : left.value = right.value)
    (scale : left.scale = right.scale) : left = right := by
  obtain ⟨leftUnits, leftScale⟩ := left
  obtain ⟨rightUnits, rightScale⟩ := right
  dsimp only at scale
  subst scale
  have units : (leftUnits : ℚ) = rightUnits := by
    have positive : (10 : ℚ) ^ leftScale ≠ 0 := by positivity
    exact (div_left_inj' positive).mp value
  rw [Int.cast_inj.mp units]

theorem add_eq_format (a b : Text) : add a b = format (parse (add a b)) := by
  unfold add
  rw [parse_format]

/-- A sum depends on the values and the scales of its parts only. -/
theorem add_congr {a' b' : Text} (value : (parse a).value + (parse b).value =
      (parse a').value + (parse b').value)
    (scale : max (parse a).scale (parse b).scale = max (parse a').scale (parse b').scale) :
    add a b = add a' b' := by
  rw [add_eq_format a b, add_eq_format a' b']
  refine congrArg format (Scaled.ext_value ?_ ?_)
  · rw [(parse_add a b).1, (parse_add a' b').1, value]
  · rw [(parse_add a b).2, (parse_add a' b').2, scale]

theorem add_right_comm_text (a b c : Text) : add (add a b) c = add (add a c) b := by
  refine add_congr ?_ ?_
  · rw [(parse_add a b).1, (parse_add a c).1]
    ring
  · rw [(parse_add a b).2, (parse_add a c).2]
    exact max_right_comm _ _ _

/-- Amounts added up one after the other. -/
def total (start : Text) (amounts : List Text) : Text := amounts.foldl add start

theorem parse_total (start : Text) (amounts : List Text) :
    (parse (total start amounts)).value =
      (parse start).value + (amounts.map fun amount => (parse amount).value).sum := by
  induction amounts generalizing start with
  | nil => simp [total]
  | cons amount rest ih =>
      rw [total, List.foldl_cons, ← total, ih, (parse_add start amount).1, List.map_cons,
        List.sum_cons, add_assoc]

theorem total_perm {amounts others : List Text} (same : amounts.Perm others) :
    total start amounts = total start others := by
  have commutes : RightCommutative add := ⟨add_right_comm_text⟩
  exact same.foldl_eq start

/-- Whatever the strings are, a sum of them stands for the exact sum and is written the same way in
whichever order it is taken, and what is subtracted can be added back. -/
theorem decimal_sums_are_exact (start : Text) {amounts others : List Text}
    (same : amounts.Perm others) (a b : Text) :
    (parse (total start amounts)).value =
        (parse start).value + (amounts.map fun amount => (parse amount).value).sum ∧
      total start amounts = total start others ∧
      (parse (subtract a b)).value = (parse a).value - (parse b).value ∧
      (parse (add (subtract a b) b)).value = (parse a).value ∧
      (parse (subtract a b)).scale = max (parse a).scale (parse b).scale := by
  refine ⟨parse_total start amounts, total_perm same, (parse_subtract a b).1, ?_,
    (parse_subtract a b).2⟩
  rw [(parse_add _ _).1, (parse_subtract a b).1, sub_add_cancel]

theorem decimal_sums_are_exact_in_tenths :
    [['0', '.', '3'], ['1', '.', '2', '0']].Perm [['1', '.', '2', '0'], ['0', '.', '3']] ∧
      total ['0'] [['0', '.', '3'], ['1', '.', '2', '0']] =
        total ['0'] [['1', '.', '2', '0'], ['0', '.', '3']] ∧
      (parse (subtract ['0', '.', '3'] ['0', '.', '1'])).value = 2 / 10 := by
  have swapped : [['0', '.', '3'], ['1', '.', '2', '0']].Perm
      [['1', '.', '2', '0'], ['0', '.', '3']] := .swap _ _ _
  obtain ⟨-, same, difference, -⟩ :=
    decimal_sums_are_exact ['0'] swapped ['0', '.', '3'] ['0', '.', '1']
  refine ⟨swapped, same, difference.trans ?_⟩
  have left : parse ['0', '.', '3'] = ⟨3, 1⟩ := by decide
  have right : parse ['0', '.', '1'] = ⟨1, 1⟩ := by decide
  rw [left, right]
  norm_num [Scaled.value]

end Arithmetic

/-! # Grouped digits -/

section Grouped

variable {text whole : Text}

/-- The groups of a grouped number: up to three digits, then three each. -/
theorem commas_groups (some_ : whole ≠ []) :
    ∃ first rest, commas whole = List.intercalate [','] (first :: rest) ∧
      (first :: rest).flatten = whole ∧ first ≠ [] ∧ first.length ≤ 3 ∧
      ∀ group ∈ rest, group.length = 3 := by
  induction whole with
  | nil => contradiction
  | cons digit more ih =>
      by_cases last : more = []
      · subst last
        exact ⟨[digit], [], by simp [commas, List.intercalate], by simp, by simp, by simp, by simp⟩
      obtain ⟨first, rest, grouped, whole_, _, short, threes⟩ := ih last
      have length : more.length = first.length + 3 * rest.length := by
        rw [← whole_, List.flatten_cons, List.length_append, List.length_flatten]
        have each : rest.map List.length = List.replicate rest.length 3 := by
          rw [List.eq_replicate_iff]
          refine ⟨by simp, fun size member => ?_⟩
          obtain ⟨group, inRest, rfl⟩ := List.mem_map.mp member
          exact threes group inRest
        rw [each, List.sum_replicate, smul_eq_mul, mul_comm]
      by_cases full : 3 ∣ more.length
      · have three : first.length = 3 := by
          have positive := List.length_pos_iff.mpr ‹first ≠ []›
          omega
        refine ⟨[digit], first :: rest, ?_, by simpa using whole_, by simp, by simp, ?_⟩
        · rw [commas, if_pos ⟨last, full⟩, grouped]
          simp [List.intercalate]
        · simpa [three] using threes
      · refine ⟨digit :: first, rest, ?_, by simpa using whole_, by simp, ?_, threes⟩
        · rw [commas, if_neg (by simp [full]), grouped]
          cases rest with
          | nil => simp [List.intercalate]
          | cons group others => simp [List.intercalate]
        · rw [List.length_cons]
          omega

theorem commas_without (whole : Text) (bare : ',' ∉ whole) :
    (commas whole).filter (· ≠ ',') = whole := by
  induction whole with
  | nil => rfl
  | cons digit rest ih =>
      rw [List.mem_cons, not_or] at bare
      have digitKept : digit ≠ ',' := Ne.symm bare.1
      unfold commas
      split <;> simp [digitKept] <;> simpa using ih bare.2

theorem numeral?_eq_some {found : Numeral} (is : numeral? text = some found) :
    text = found.sign ++ found.whole ++ found.suffix ∧
    (found.sign = [] ∨ found.sign = ['-']) ∧ found.whole ≠ [] ∧
    (∀ char ∈ found.whole, char.isDigit = true) ∧
    ∀ fraction ∈ found.fraction, ∀ char ∈ fraction, char.isDigit = true := by
  have signed : text = (if text.head? = some '-' then ['-'] else []) ++
      (if text.head? = some '-' then text.tail else text) := by
    split
    · rename_i minus
      obtain ⟨rest, rfl⟩ := List.head?_eq_some_iff.mp minus
      rfl
    · rfl
  unfold numeral? at is
  dsimp only at is
  generalize (if text.head? = some '-' then text.tail else text) = unsigned at is signed
  have signs : (if text.head? = some '-' then ['-'] else []) = [] ∨
      (if text.head? = some '-' then ['-'] else []) = ['-'] := by
    split <;> simp
  split at is
  · contradiction
  rename_i some_
  have digits : ∀ char ∈ unsigned.takeWhile Char.isDigit, char.isDigit = true := fun _ member =>
    List.mem_takeWhile_imp member
  have rejoined := List.takeWhile_append_dropWhile (p := Char.isDigit) (l := unsigned)
  split at is
  · rename_i ends
    cases is
    rw [ends, List.append_nil] at rejoined
    exact ⟨by simpa [rejoined, Numeral.suffix] using signed, signs, some_, digits, by simp⟩
  · rename_i separator fraction ends
    split at is
    · rename_i dotted
      obtain ⟨rfl, _, more⟩ := dotted
      cases is
      rw [ends] at rejoined
      refine ⟨?_, signs, some_, digits, ?_⟩
      · dsimp only [Numeral.suffix]
        rw [List.append_assoc, rejoined]
        exact signed
      · rintro _ ⟨⟩
        exact List.all_eq_true.mp more
    · contradiction

/-- Grouping only puts commas in, and none into what is no numeral; without them the figure is the
one that was given, and what they separate are groups of three digits from the right. -/
theorem grouping_changes_no_figure (value : Text) :
    (group value).filter (· ≠ ',') = (trim value).filter (· ≠ ',') ∧
      (numeral? (trim value) = none → group value = trim value) ∧
      (',' ∉ trim value → parse ((group value).filter (· ≠ ',')) = parse (trim value)) ∧
      ∀ found, numeral? (trim value) = some found →
        ∃ first rest,
          group value = found.sign ++ List.intercalate [','] (first :: rest) ++ found.suffix ∧
          (first :: rest).flatten = found.whole ∧ first ≠ [] ∧ first.length ≤ 3 ∧
          ∀ group ∈ rest, group.length = 3 := by
  have same : (group value).filter (· ≠ ',') = (trim value).filter (· ≠ ',') := by
    unfold group
    dsimp only
    split
    · rfl
    · rename_i found is
      obtain ⟨isText, _, _, digits, _⟩ := numeral?_eq_some is
      have bare : ',' ∉ found.whole := fun member => by simpa using digits _ member
      rw [isText, List.filter_append, List.filter_append, commas_without _ bare,
        List.filter_append, List.filter_append]
      congr 2
      exact (List.filter_eq_self.mpr fun char member => by
        have digit := digits char member
        refine decide_eq_true ?_
        rintro rfl
        contradiction).symm
  refine ⟨same, fun noNumeral => ?_, fun bare => ?_, fun found is => ?_⟩
  · simp only [group, noNumeral]
  · rw [same, List.filter_eq_self.mpr]
    intro char member
    refine decide_eq_true ?_
    rintro rfl
    exact bare member
  · obtain ⟨_, _, some_, _, _⟩ := numeral?_eq_some is
    obtain ⟨first, rest, grouped, shape⟩ := commas_groups some_
    refine ⟨first, rest, ?_, shape⟩
    simp only [group, is, grouped]

end Grouped

end PredictX.DecimalText
