import PredictX.Client.Chart

namespace PredictX.Chart

open PredictX.Data

/-! Candles point by point and candles of the whole batch.

The batch groups by the bucket.  A point goes into the last candle if that candle's date is its own
bucket, and a date has lost the fraction of a millisecond of the bucket it was made from.
-/

variable {interval : ℚ} {history : List LinePoint}

def LinePoint.bucket (interval : ℚ) (point : LinePoint) : ℚ := bucketAt interval point.time

/-! # The batch -/

/-- The buckets of some points, ascending. -/
def bucketsOf (interval : ℚ) (history : List LinePoint) : List ℚ :=
  (history.map (LinePoint.bucket interval)).dedup.insertionSort (· ≤ ·)

def valuesIn (interval : ℚ) (history : List LinePoint) (bucket : ℚ) : List ℚ :=
  (history.filter fun point => point.bucket interval = bucket).map LinePoint.value

theorem mem_bucketsOf {bucket : ℚ} :
    bucket ∈ bucketsOf interval history ↔ ∃ point ∈ history, point.bucket interval = bucket := by
  simp [bucketsOf]

theorem pairwise_lt_of_sorted {keys : List ℚ} (unique : keys.Nodup)
    (sorted : keys.Pairwise (· ≤ ·)) : keys.Pairwise (· < ·) :=
  (sorted.and unique).imp fun both => lt_of_le_of_ne both.1 both.2

theorem bucketsOf_sorted : (bucketsOf interval history).Pairwise (· < ·) := by
  refine pairwise_lt_of_sorted ?_ (List.pairwise_insertionSort _ _)
  exact (List.perm_insertionSort _ _).nodup_iff.mpr (List.nodup_dedup _)

/-- Ascending lists of the same numbers are the same. -/
theorem eq_of_sorted {left right : List ℚ} (leftSorted : left.Pairwise (· < ·))
    (rightSorted : right.Pairwise (· < ·)) (same : ∀ key, key ∈ left ↔ key ∈ right) :
    left = right := by
  have perm : left.Perm right :=
    (List.perm_ext_iff_of_nodup (leftSorted.imp ne_of_lt) (rightSorted.imp ne_of_lt)).mpr same
  exact perm.eq_of_pairwise (fun _ _ _ _ below above => absurd above (lt_asymm below))
    leftSorted rightSorted

/-- One candle for each bucket that has points, in the order of time. -/
theorem priceToOHLC_eq (history : List LinePoint) (interval : ℚ) :
    priceToOHLC history interval =
      (bucketsOf interval history).map fun bucket =>
        candleOf bucket (valuesIn interval history bucket) := by
  let buckets := Dict.group (LinePoint.bucket interval) LinePoint.value history
  let entries := buckets.rows.insertionSort fun left right => left.1 ≤ right.1
  have perm : entries.Perm buckets.rows := List.perm_insertionSort _ _
  have sorted : entries.Pairwise fun left right => left.1 ≤ right.1 := by
    have : IsTrans (ℚ × List ℚ) fun left right => left.1 ≤ right.1 :=
      ⟨fun _ _ _ first second => first.trans second⟩
    have : Std.Total fun left right : ℚ × List ℚ => left.1 ≤ right.1 :=
      ⟨fun _ _ => le_total _ _⟩
    exact List.pairwise_insertionSort _ _
  have keys : entries.map Prod.fst = bucketsOf interval history := by
    refine eq_of_sorted (pairwise_lt_of_sorted ?_ ?_) bucketsOf_sorted fun bucket => ?_
    · exact (perm.map Prod.fst).nodup_iff.mpr buckets.unique
    · exact List.pairwise_map.mpr sorted
    · rw [(perm.map Prod.fst).mem_iff, mem_bucketsOf]
      exact Dict.mem_keys_group _ _ _
  have values : ∀ entry ∈ entries,
      candleOf entry.1 entry.2 = candleOf entry.1 (valuesIn interval history entry.1) := by
    intro entry member
    have found : buckets.get? entry.1 = some entry.2 := by
      rw [Dict.get?, Table.find?_key_of_mem (perm.subset member)]
      rfl
    rw [Dict.get?_group] at found
    split at found
    · cases found
    · rw [← Option.some.inj found]
      rfl
  calc priceToOHLC history interval
      = entries.map fun entry => candleOf entry.1 entry.2 := rfl
    _ = entries.map fun entry => candleOf entry.1 (valuesIn interval history entry.1) :=
        List.map_congr_left values
    _ = _ := by rw [← keys, List.map_map]; rfl

/-! # One more point -/

def updated (candle : Candle) (price : ℚ) : Candle :=
  { candle with high := max candle.high price, low := min candle.low price, close := price }

theorem candleOf_snoc {bucket price : ℚ} {values : List ℚ} (stocked : values ≠ []) :
    candleOf bucket (values ++ [price]) = updated (candleOf bucket values) price := by
  cases values with
  | nil => exact absurd rfl stocked
  | cons first rest =>
      rw [candleOf, List.getLastD_concat]
      simp [candleOf, updated]

theorem bucket_mono (positive : 0 < interval) {earlier later : LinePoint}
    (ordered : earlier.time ≤ later.time) : earlier.bucket interval ≤ later.bucket interval := by
  have quotient : earlier.time / interval ≤ later.time / interval :=
    div_le_div_of_nonneg_right ordered positive.le
  have floors : (⌊earlier.time / interval⌋ : ℚ) ≤ ⌊later.time / interval⌋ :=
    Int.cast_le.mpr (Int.floor_le_floor quotient)
  exact mul_le_mul_of_nonneg_right floors positive.le

section Snoc

variable {front : List LinePoint} {last point : LinePoint}

/-- The last of the ascending buckets is the last point's. -/
theorem bucketsOf_last (positive : 0 < interval)
    (ordered : (front ++ [last]).Pairwise fun earlier later => earlier.time ≤ later.time) :
    ∃ earlier, bucketsOf interval (front ++ [last]) = earlier ++ [last.bucket interval] ∧
      ∀ bucket ∈ earlier, bucket < last.bucket interval := by
  have member : last.bucket interval ∈ bucketsOf interval (front ++ [last]) :=
    mem_bucketsOf.mpr ⟨last, by simp, rfl⟩
  obtain ⟨earlier, later, split⟩ := List.append_of_mem member
  have sorted : (earlier ++ last.bucket interval :: later).Pairwise (· < ·) :=
    split ▸ bucketsOf_sorted
  obtain ⟨_, tail, below⟩ := List.pairwise_append.mp sorted
  have none : later = [] := by
    refine List.eq_nil_iff_forall_not_mem.mpr fun bucket inLater => ?_
    have above : last.bucket interval < bucket := List.rel_of_pairwise_cons tail inLater
    have listed : bucket ∈ bucketsOf interval (front ++ [last]) := by
      rw [split]
      exact List.mem_append_right _ (List.mem_cons_of_mem _ inLater)
    obtain ⟨other, isOther, rfl⟩ := mem_bucketsOf.mp listed
    have atMost : other.bucket interval ≤ last.bucket interval := by
      rcases List.mem_append.mp isOther with inFront | isLast
      · exact bucket_mono positive
          ((List.pairwise_append.mp ordered).2.2 other inFront last List.mem_cons_self)
      · rw [List.mem_singleton.mp isLast]
    exact absurd above (not_lt.mpr atMost)
  subst none
  exact ⟨earlier, split, fun bucket inEarlier => below bucket inEarlier _ List.mem_cons_self⟩

theorem valuesIn_snoc_self : valuesIn interval (history ++ [point]) (point.bucket interval) =
    valuesIn interval history (point.bucket interval) ++ [point.value] := by
  simp [valuesIn]

theorem valuesIn_snoc_ne {bucket : ℚ} (other : point.bucket interval ≠ bucket) :
    valuesIn interval (history ++ [point]) bucket = valuesIn interval history bucket := by
  simp [valuesIn, other]

theorem valuesIn_ne_nil (member : point ∈ history) :
    valuesIn interval history (point.bucket interval) ≠ [] := by
  simp only [valuesIn, ne_eq, List.map_eq_nil_iff, List.filter_eq_nil_iff, decide_eq_true_eq]
  exact fun none => none point member rfl

/-- A point in the bucket of the last one changes the last candle of the batch. -/
theorem priceToOHLC_same (positive : 0 < interval)
    (ordered : (front ++ [last]).Pairwise fun earlier later => earlier.time ≤ later.time)
    (same : last.bucket interval = point.bucket interval) :
    ∃ candles candle, priceToOHLC (front ++ [last]) interval = candles ++ [candle] ∧
      candle.date = newDate (last.bucket interval * 1000) ∧
      priceToOHLC (front ++ [last] ++ [point]) interval =
        candles ++ [updated candle point.value] := by
  obtain ⟨earlier, buckets, below⟩ := bucketsOf_last positive ordered
  have again : bucketsOf interval (front ++ [last] ++ [point]) =
      bucketsOf interval (front ++ [last]) := by
    refine eq_of_sorted bucketsOf_sorted bucketsOf_sorted fun bucket => ?_
    rw [mem_bucketsOf, mem_bucketsOf]
    constructor
    · rintro ⟨other, isOther, rfl⟩
      rcases List.mem_append.mp isOther with before | isPoint
      · exact ⟨other, before, rfl⟩
      · rw [List.mem_singleton.mp isPoint, ← same]
        exact ⟨last, by simp, rfl⟩
    · rintro ⟨other, isOther, rfl⟩
      exact ⟨other, List.mem_append_left _ isOther, rfl⟩
  rw [priceToOHLC_eq, priceToOHLC_eq, again, buckets, List.map_append, List.map_append]
  refine ⟨_, _, rfl, rfl, ?_⟩
  congr 1
  · refine List.map_congr_left fun bucket inEarlier => ?_
    rw [valuesIn_snoc_ne (same ▸ (below bucket inEarlier).ne')]
  · rw [List.map_singleton, same, valuesIn_snoc_self, candleOf_snoc]
    rw [← same]
    exact valuesIn_ne_nil (by simp)

/-- A point in a later bucket starts a candle. -/
theorem priceToOHLC_later (positive : 0 < interval)
    (ordered : (front ++ [last] ++ [point]).Pairwise fun earlier later =>
      earlier.time ≤ later.time)
    (later : last.bucket interval ≠ point.bucket interval) :
    priceToOHLC (front ++ [last] ++ [point]) interval =
      priceToOHLC (front ++ [last]) interval ++
        [candleOf (point.bucket interval) [point.value]] := by
  have before := List.pairwise_append.mp ordered
  have beyond : ∀ other ∈ front ++ [last], other.bucket interval < point.bucket interval := by
    intro other member
    have lastBelow : last.bucket interval < point.bucket interval :=
      lt_of_le_of_ne
        (bucket_mono positive (before.2.2 last (by simp) point List.mem_cons_self)) later
    rcases List.mem_append.mp member with inFront | isLast
    · refine lt_of_le_of_lt (bucket_mono positive ?_) lastBelow
      exact (List.pairwise_append.mp before.1).2.2 other inFront last List.mem_cons_self
    · rw [List.mem_singleton.mp isLast]
      exact lastBelow
  have unmet : ∀ bucket ∈ bucketsOf interval (front ++ [last]),
      bucket < point.bucket interval := by
    intro bucket listed
    obtain ⟨other, isOther, rfl⟩ := mem_bucketsOf.mp listed
    exact beyond other isOther
  have buckets : bucketsOf interval (front ++ [last] ++ [point]) =
      bucketsOf interval (front ++ [last]) ++ [point.bucket interval] := by
    refine eq_of_sorted bucketsOf_sorted ?_ fun bucket => ?_
    · refine List.pairwise_append.mpr ⟨bucketsOf_sorted, List.pairwise_singleton _ _, ?_⟩
      intro bucket listed other isOther
      rw [List.mem_singleton.mp isOther]
      exact unmet bucket listed
    · rw [mem_bucketsOf, List.mem_append, mem_bucketsOf, List.mem_singleton]
      constructor
      · rintro ⟨other, isOther, rfl⟩
        rcases List.mem_append.mp isOther with inFront | isPoint
        · exact .inl ⟨other, inFront, rfl⟩
        · exact .inr (by rw [List.mem_singleton.mp isPoint])
      · rintro (⟨other, isOther, rfl⟩ | rfl)
        · exact ⟨other, List.mem_append_left _ isOther, rfl⟩
        · exact ⟨point, by simp, rfl⟩
  have none : valuesIn interval (front ++ [last]) (point.bucket interval) = [] := by
    simp only [valuesIn, List.map_eq_nil_iff, List.filter_eq_nil_iff, decide_eq_true_eq]
    exact fun other member => (beyond other member).ne
  rw [priceToOHLC_eq, priceToOHLC_eq, buckets, List.map_append, List.map_singleton,
    valuesIn_snoc_self, none, List.nil_append]
  congr 1
  exact List.map_congr_left fun bucket listed => by rw [valuesIn_snoc_ne (unmet bucket listed).ne']

end Snoc

/-! # Point by point -/

/-- The points added one after another to no candles. -/
def addedOneByOne (interval : ℚ) (history : List LinePoint) : List Candle :=
  history.foldl (fun candles point => addPriceToOHLC candles point.value point.time interval) []

/-- A whole number of milliseconds that a `Date` can hold. -/
def IsDate (ms : ℚ) : Prop := ms.den = 1 ∧ |ms| ≤ dateRange

/-- The date made from the one bucket equals the other if and only if the buckets are equal: a
bucket met twice in a row is a date, and a later one is no date that is made from an earlier one. -/
def DatesTellApart (interval : ℚ) (earlier later : LinePoint) : Prop :=
  if earlier.bucket interval = later.bucket interval then IsDate (later.bucket interval * 1000)
  else ¬ hasTime (newDate (earlier.bucket interval * 1000)) (later.bucket interval * 1000)

theorem hasTime_self_iff {ms : ℚ} : hasTime (newDate ms) ms = true ↔ IsDate ms := by
  unfold newDate IsDate
  by_cases inRange : |ms| ≤ dateRange
  · rw [if_pos inRange, and_iff_left inRange, hasTime, Option.any_some, decide_eq_true_iff]
    constructor
    · intro whole
      rw [← whole]
      exact Rat.den_intCast _
    · intro whole
      have integer : ((ms.num : ℤ) : ℚ) = ms := Rat.coe_int_num_of_den_eq_one whole
      rw [← integer, Int.floor_intCast, Int.ceil_intCast, ite_self]
  · rw [if_neg inRange]
    exact iff_of_false nofun fun date => inRange date.2

theorem datesTellApart_iff {earlier later : LinePoint} :
    DatesTellApart interval earlier later ↔
      (hasTime (newDate (earlier.bucket interval * 1000)) (later.bucket interval * 1000) = true ↔
        earlier.bucket interval = later.bucket interval) := by
  unfold DatesTellApart
  by_cases same : earlier.bucket interval = later.bucket interval
  · rw [if_pos same, same, hasTime_self_iff, iff_true_right rfl]
  · rw [if_neg same, iff_false_right same]

theorem addPriceToOHLC_concat (candles : List Candle) (candle : Candle) (point : LinePoint) :
    addPriceToOHLC (candles ++ [candle]) point.value point.time interval =
      if hasTime candle.date (point.bucket interval * 1000) then
        candles ++ [updated candle point.value]
      else candles ++ [candle] ++ [candleOf (point.bucket interval) [point.value]] := by
  have started : candleOf (point.bucket interval) [point.value] =
      ⟨newDate (point.bucket interval * 1000), point.value, point.value, point.value,
        point.value⟩ := by
    simp [candleOf]
  rw [started]
  simp only [addPriceToOHLC, List.getLast?_concat, List.dropLast_concat]
  rfl

/-- Adding a point to the batch of the points before it. -/
theorem add_to_batch_iff (positive : 0 < interval) {front : List LinePoint}
    {last point : LinePoint}
    (ordered : (front ++ [last] ++ [point]).Pairwise fun earlier later =>
      earlier.time ≤ later.time) :
    addPriceToOHLC (priceToOHLC (front ++ [last]) interval) point.value point.time interval =
        priceToOHLC (front ++ [last] ++ [point]) interval ↔
      DatesTellApart interval last point := by
  have before := (List.pairwise_append.mp ordered).1
  rw [datesTellApart_iff]
  by_cases same : last.bucket interval = point.bucket interval
  · obtain ⟨candles, candle, batch, date, after⟩ := priceToOHLC_same positive before same
    rw [batch, after, iff_true_right same, addPriceToOHLC_concat, date]
    by_cases meets : hasTime (newDate (last.bucket interval * 1000)) (point.bucket interval * 1000)
    · rw [if_pos meets]
      exact iff_of_true rfl meets
    · rw [if_neg meets]
      refine iff_of_false (fun equal => ?_) meets
      have length := congrArg List.length equal
      simp at length
  · obtain ⟨earlier, buckets, _⟩ := bucketsOf_last positive before
    have batch := priceToOHLC_eq (front ++ [last]) interval
    rw [buckets, List.map_append, List.map_singleton] at batch
    rw [priceToOHLC_later positive ordered same, iff_false_right same, batch,
      addPriceToOHLC_concat]
    change (if hasTime (newDate (last.bucket interval * 1000)) (point.bucket interval * 1000) = true
      then _ else _) = _ ↔ _
    by_cases meets : hasTime (newDate (last.bucket interval * 1000)) (point.bucket interval * 1000)
    · rw [if_pos meets]
      refine iff_of_false (fun equal => ?_) (not_not_intro meets)
      have length := congrArg List.length equal
      simp at length
    · rw [if_neg meets]
      exact iff_of_true rfl meets

theorem addedOneByOne_snoc (history : List LinePoint) (point : LinePoint) :
    addedOneByOne interval (history ++ [point]) =
      addPriceToOHLC (addedOneByOne interval history) point.value point.time interval := by
  simp [addedOneByOne]

theorem added_first (point : LinePoint) :
    addPriceToOHLC [] point.value point.time interval = priceToOHLC [point] interval := by
  rw [priceToOHLC_eq]
  simp [bucketsOf, valuesIn, candleOf, addPriceToOHLC, LinePoint.bucket]

/-- The points give the same candles, as many of them as have come. -/
def InStep (interval : ℚ) (history : List LinePoint) : Prop :=
  ∀ front, front <+: history → addedOneByOne interval front = priceToOHLC front interval

theorem inStep_snoc (history : List LinePoint) (point : LinePoint) :
    InStep interval (history ++ [point]) ↔ InStep interval history ∧
      addPriceToOHLC (priceToOHLC history interval) point.value point.time interval =
        priceToOHLC (history ++ [point]) interval := by
  constructor
  · intro inStep
    have whole := inStep _ (List.prefix_refl _)
    rw [addedOneByOne_snoc, inStep history (List.prefix_append _ _)] at whole
    exact ⟨fun front isPrefix => inStep front (isPrefix.trans (List.prefix_append _ _)), whole⟩
  · rintro ⟨inStep, added⟩ front isPrefix
    rcases List.prefix_concat_iff.mp isPrefix with rfl | shorter
    · rw [addedOneByOne_snoc, inStep history (List.prefix_refl _), added]
    · exact inStep front shorter

theorem inStep_iff (positive : 0 < interval)
    (ordered : history.Pairwise fun earlier later => earlier.time ≤ later.time) :
    InStep interval history ↔ history.IsChain (DatesTellApart interval) := by
  induction history using List.reverseRecOn with
  | nil =>
      refine iff_of_true (fun front isPrefix => ?_) List.IsChain.nil
      rw [List.prefix_nil.mp isPrefix]
      rfl
  | append_singleton history point ih =>
      rw [inStep_snoc, ih (List.pairwise_append.mp ordered).1, List.isChain_append]
      refine and_congr_right fun _ => ?_
      rcases List.eq_nil_or_concat' history with rfl | ⟨front, last, rfl⟩
      · refine iff_of_true (added_first point) ?_
        simp
      · rw [add_to_batch_iff positive ordered]
        simp

/-- The batch has one candle for each bucket with points, in the order of time; the candles added
one by one are those of the batch all the way if and only if the dates tell buckets apart. -/
theorem incremental_candles_iff (interval : ℚ) (positive : 0 < interval)
    (history : List LinePoint)
    (ordered : history.Pairwise fun earlier later => earlier.time ≤ later.time) :
    (InStep interval history ↔ history.IsChain (DatesTellApart interval)) ∧
      (priceToOHLC history interval =
        (bucketsOf interval history).map fun bucket =>
          candleOf bucket (valuesIn interval history bucket)) ∧
      (bucketsOf interval history).Pairwise (· < ·) ∧
      ∀ bucket, bucket ∈ bucketsOf interval history ↔
        ∃ point ∈ history, point.bucket interval = bucket :=
  ⟨inStep_iff positive ordered, priceToOHLC_eq history interval, bucketsOf_sorted,
    fun _ => mem_bucketsOf⟩

/-! Two points of one bucket that begins at a third of a second. -/

theorem third_of_second_split :
    addedOneByOne (1 / 3) [⟨2 / 5, 1 / 2⟩, ⟨1 / 2, 3 / 5⟩] ≠
      priceToOHLC [⟨2 / 5, 1 / 2⟩, ⟨1 / 2, 3 / 5⟩] (1 / 3) := by
  decide +kernel

theorem minute_candles :
    (InStep 60 [⟨5, 1 / 2⟩, ⟨30, 3 / 5⟩, ⟨70, 2 / 5⟩] ↔
        List.IsChain (DatesTellApart 60) [⟨5, 1 / 2⟩, ⟨30, 3 / 5⟩, ⟨70, 2 / 5⟩]) ∧
      (priceToOHLC [⟨5, 1 / 2⟩, ⟨30, 3 / 5⟩, ⟨70, 2 / 5⟩] 60 =
        (bucketsOf 60 [⟨5, 1 / 2⟩, ⟨30, 3 / 5⟩, ⟨70, 2 / 5⟩]).map fun bucket =>
          candleOf bucket (valuesIn 60 [⟨5, 1 / 2⟩, ⟨30, 3 / 5⟩, ⟨70, 2 / 5⟩] bucket)) ∧
      (bucketsOf 60 [⟨5, 1 / 2⟩, ⟨30, 3 / 5⟩, ⟨70, 2 / 5⟩]).Pairwise (· < ·) ∧
      ∀ bucket, bucket ∈ bucketsOf 60 [⟨5, 1 / 2⟩, ⟨30, 3 / 5⟩, ⟨70, 2 / 5⟩] ↔
        ∃ point ∈ ([⟨5, 1 / 2⟩, ⟨30, 3 / 5⟩, ⟨70, 2 / 5⟩] : List LinePoint),
          point.bucket 60 = bucket :=
  incremental_candles_iff 60 (by norm_num) [⟨5, 1 / 2⟩, ⟨30, 3 / 5⟩, ⟨70, 2 / 5⟩]
    (by simp only [List.pairwise_cons, List.mem_cons]; norm_num)

end PredictX.Chart
