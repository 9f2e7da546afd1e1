import PredictX.Api.PriceChart

namespace PredictX.PriceChart

open PredictX.Data

/-! What a price chart shows.

The dict of last prices knows, once a bucket is done, the latest price of every outcome in all the
buckets done so far; the rows are sorted, so these are the rows before the end of the bucket.
-/

/-- The price of an outcome's last row. -/
def latestPrice (rows : List PriceHistory) (outcome : OutcomeId) : Option ℚ :=
  ((rows.filter fun row => row.outcomeId = outcome).getLast?).map PriceHistory.price

def Sample.priceOf (sample : Sample) (outcome : OutcomeId) : Option ℚ :=
  (sample.outcomes.find? fun shown => shown.id = outcome).map OutcomePrice.price

/-- The samples chart the rows: one for each bucket that has rows, with what was known at its
end, and the last one with what is known at all. -/
structure Charted (interval : ℕ) (rows : List PriceHistory) (samples : List Sample) : Prop where
  ordered : samples.Pairwise fun left right => left.timestamp < right.timestamp
  buckets : ∀ bucket, (∃ sample ∈ samples, sample.timestamp = bucket) ↔
    ∃ row ∈ rows, bucketOf interval row = bucket
  carried : ∀ sample ∈ samples, ∀ outcome, sample.priceOf outcome =
    latestPrice (rows.filter fun row => row.snapshotAt < sample.timestamp + interval) outcome
  present : ∀ sample ∈ samples.getLast?, ∀ outcome,
    sample.priceOf outcome = latestPrice rows outcome

section Prices

variable {last : Dict OutcomeId ℚ} {rows more : List PriceHistory} {outcome : OutcomeId}

theorem latestPrice_append :
    latestPrice (rows ++ more) outcome = (latestPrice more outcome).or (latestPrice rows outcome) := by
  unfold latestPrice
  rw [List.filter_append, List.getLast?_append, Option.map_or]

theorem get?_takePrices :
    (takePrices last rows).get? outcome = (latestPrice rows outcome).or (last.get? outcome) := by
  unfold takePrices latestPrice
  rw [Dict.get?_setItems, List.filter_map, List.getLast?_map, Option.map_map]
  rfl

/-- A bucket shows what is known when it is done. -/
theorem get?_shownPrices (known : Dict OutcomeId ℚ)
    (own : ∀ price, latestPrice rows outcome = some price → known.get? outcome = some price) :
    (shownPrices known rows).get? outcome = known.get? outcome := by
  unfold shownPrices
  rw [Dict.get?_setDefaults, get?_takePrices, Dict.get?_empty, Option.or_none]
  cases latest : latestPrice rows outcome with
  | none => rfl
  | some price => exact (own price latest).symm

theorem sampleOf_priceOf (names : Dict OutcomeId String) (bucket : Timestamp) :
    (sampleOf names bucket last rows).priceOf outcome = (shownPrices last rows).get? outcome := by
  unfold sampleOf Sample.priceOf Dict.get?
  dsimp only
  rw [List.find?_map, Option.map_map]
  exact Dict.get?_of_perm (List.perm_insertionSort _ _)

end Prices

section Buckets

variable {interval : ℕ} {rows : List PriceHistory} {bucket : Timestamp}

theorem get?_grouped :
    (grouped interval rows).get? bucket =
      if rows.filter (fun row => bucketOf interval row = bucket) = [] then none
      else some (rows.filter fun row => bucketOf interval row = bucket) := by
  have listed : (grouped interval rows).get? bucket = _ :=
    Dict.get?_group (bucketOf interval) id rows
  rwa [List.map_id] at listed

/-- The rows of a bucket that has some. -/
theorem rows_grouped :
    ((grouped interval rows).get? bucket).getD [] =
      rows.filter fun row => bucketOf interval row = bucket := by
  rw [get?_grouped]
  split
  · rename_i empty
    exact empty.symm
  · rfl

theorem mem_keys_grouped :
    bucket ∈ (grouped interval rows).rows.map Prod.fst ↔
      ∃ row ∈ rows, bucketOf interval row = bucket :=
  Dict.mem_keys_group (bucketOf interval) id rows

theorem bucketOf_eq (row : PriceHistory) :
    bucketOf interval row = interval * (row.snapshotAt / interval) := by
  have floor : ∀ time : ℕ, time - time % interval = interval * (time / interval) := by
    intro time
    have whole := Nat.div_add_mod time interval
    omega
  exact floor _

theorem bucketOf_mono {row later : PriceHistory} (ordered : row.snapshotAt ≤ later.snapshotAt) :
    bucketOf interval row ≤ bucketOf interval later := by
  rw [bucketOf_eq, bucketOf_eq]
  exact Nat.mul_le_mul_left _ (Nat.div_le_div_right ordered)

/-- A row is before the end of a bucket when its own bucket is not a later one. -/
theorem before_end_iff (positive : 0 < interval) {row other : PriceHistory}
    (isBucket : bucketOf interval other = bucket) :
    row.snapshotAt < bucket + interval ↔ bucketOf interval row ≤ bucket := by
  rw [bucketOf_eq] at isBucket ⊢
  rw [← isBucket, ← Nat.mul_succ, Nat.mul_le_mul_left_iff positive, ← Nat.lt_succ_iff,
    Nat.div_lt_iff_lt_mul positive, Nat.mul_comm]

/-- Rows in order, up to a bucket and in it. -/
theorem filter_upTo (sorted : rows.Pairwise fun row later => row.snapshotAt ≤ later.snapshotAt) :
    (rows.filter fun row => bucketOf interval row ≤ bucket) =
      (rows.filter fun row => bucketOf interval row < bucket) ++
        rows.filter fun row => bucketOf interval row = bucket := by
  induction rows with
  | nil => rfl
  | cons row rest ih =>
      obtain ⟨first, sorted⟩ := List.pairwise_cons.mp sorted
      rcases lt_trichotomy (bucketOf interval row) bucket with before | here | after
      · rw [List.filter_cons_of_pos (by simpa using before.le),
          List.filter_cons_of_pos (by simpa using before),
          List.filter_cons_of_neg (by simpa using before.ne), ih sorted]
        rfl
      · have none_ : rest.filter (fun later => bucketOf interval later < bucket) = [] := by
          refine List.filter_eq_nil_iff.mpr fun later member => ?_
          have ordered := @bucketOf_mono interval row later (first later member)
          rw [here] at ordered
          simpa using ordered
        rw [List.filter_cons_of_pos (by simpa using here.le),
          List.filter_cons_of_neg (by simpa using here.ge),
          List.filter_cons_of_pos (by simpa using here), ih sorted, none_]
        rfl
      · rw [List.filter_cons_of_neg (by simpa using after),
          List.filter_cons_of_neg (by simpa using after.le),
          List.filter_cons_of_neg (by simpa using after.ne'), ih sorted]

end Buckets

/-! # The loop -/

section Loop

variable {interval : ℕ} {rows : List PriceHistory} {names : Dict OutcomeId String}
  {buckets : List Timestamp} {last : Dict OutcomeId ℚ}

/-- The rows of the buckets that are done when `buckets` are left. -/
def rowsBefore (interval : ℕ) (buckets : List Timestamp) (rows : List PriceHistory) :
    List PriceHistory :=
  rows.filter fun row => buckets.all fun bucket => bucketOf interval row < bucket

theorem samplesFrom_timestamps :
    (samplesFrom names (grouped interval rows) buckets last).map Sample.timestamp = buckets := by
  induction buckets generalizing last with
  | nil => rfl
  | cons bucket rest ih =>
      unfold samplesFrom
      rw [List.map_cons, ih]
      rfl

/-- Every sample shows what is known at the end of its bucket. -/
theorem samplesFrom_known
    (sorted : rows.Pairwise fun row later => row.snapshotAt ≤ later.snapshotAt)
    (ascending : buckets.Pairwise fun bucket later => bucket < later)
    (complete : ∀ row ∈ rows, bucketOf interval row ∈ buckets ∨
      ∀ bucket ∈ buckets, bucketOf interval row < bucket)
    (known : ∀ outcome, last.get? outcome = latestPrice (rowsBefore interval buckets rows) outcome) :
    ∀ sample ∈ samplesFrom names (grouped interval rows) buckets last, ∀ outcome,
      sample.priceOf outcome =
        latestPrice (rows.filter fun row => bucketOf interval row ≤ sample.timestamp) outcome := by
  induction buckets generalizing last with
  | nil =>
      intro sample member
      exact absurd member List.not_mem_nil
  | cons bucket rest ih =>
      obtain ⟨first, ascending⟩ := List.pairwise_cons.mp ascending
      have before : rowsBefore interval (bucket :: rest) rows =
          rows.filter fun row => bucketOf interval row < bucket := by
        refine List.filter_congr fun row _ => ?_
        have implied : bucketOf interval row < bucket →
            ∀ later ∈ rest, bucketOf interval row < later :=
          fun isBefore later member => isBefore.trans (first later member)
        simpa using implied
      have after : rowsBefore interval rest rows =
          rows.filter fun row => bucketOf interval row ≤ bucket := by
        refine List.filter_congr fun row member => ?_
        rw [Bool.eq_iff_iff, List.all_eq_true, decide_eq_true_eq]
        constructor
        · intro isBefore
          rcases complete row member with listed | done
          · rcases List.mem_cons.mp listed with here | later
            · exact here.le
            · have below := isBefore _ later
              simp at below
          · exact (done bucket List.mem_cons_self).le
        · intro upTo later isLater
          simpa using upTo.trans_lt (first later isLater)
      have isKnown : ∀ outcome, (takePrices last
          (((grouped interval rows).get? bucket).getD [])).get? outcome =
            latestPrice (rowsBefore interval rest rows) outcome := by
        intro outcome
        rw [get?_takePrices, rows_grouped, known, before, after, filter_upTo sorted,
          latestPrice_append]
      intro sample member outcome
      unfold samplesFrom at member
      rcases List.mem_cons.mp member with rfl | later
      · rw [sampleOf_priceOf, get?_shownPrices, isKnown, after]
        · rfl
        · intro price latest
          rw [get?_takePrices, latest, Option.some_or]
      · refine ih ascending (fun row isRow => ?_) isKnown sample later outcome
        rcases complete row isRow with listed | done
        · rcases List.mem_cons.mp listed with here | isLater
          · exact .inr fun next isNext => here ▸ first next isNext
          · exact .inl isLater
        · exact .inr fun next isNext => done next (List.mem_cons_of_mem _ isNext)

/-- Without a limit the samples chart the rows. -/
theorem chart_charted (positive : 0 < interval)
    (sorted : rows.Pairwise fun row later => row.snapshotAt ≤ later.snapshotAt) :
    Charted interval rows (chart interval names rows) := by
  set buckets := ((grouped interval rows).rows.map Prod.fst).insertionSort (· ≤ ·) with isBuckets
  have perm : buckets.Perm ((grouped interval rows).rows.map Prod.fst) :=
    List.perm_insertionSort _ _
  have listed : ∀ bucket, bucket ∈ buckets ↔ ∃ row ∈ rows, bucketOf interval row = bucket :=
    fun bucket => perm.mem_iff.trans mem_keys_grouped
  have ascending : buckets.Pairwise fun bucket later => bucket < later := by
    have distinct : buckets.Nodup := perm.nodup_iff.mpr (grouped interval rows).unique
    have weak : buckets.Pairwise (· ≤ ·) := List.pairwise_insertionSort _ _
    exact (weak.and distinct).imp fun both => lt_of_le_of_ne both.1 both.2
  have timestamps : (chart interval names rows).map Sample.timestamp = buckets :=
    samplesFrom_timestamps
  have unseen : rowsBefore interval buckets rows = [] := by
    refine List.filter_eq_nil_iff.mpr fun row member before => ?_
    have below := List.all_eq_true.mp before _ ((listed _).mpr ⟨row, member, rfl⟩)
    simp at below
  have known := @samplesFrom_known interval rows names buckets .empty sorted ascending
    (fun row member => .inl ((listed _).mpr ⟨row, member, rfl⟩))
    (fun outcome => by rw [unseen]; rfl)
  have charted : ∀ bucket, (∃ sample ∈ chart interval names rows, sample.timestamp = bucket) ↔
      ∃ row ∈ rows, bucketOf interval row = bucket := by
    intro bucket
    rw [← listed bucket, ← timestamps, List.mem_map]
  refine ⟨?_, charted, fun sample member outcome => ?_, fun sample isLast outcome => ?_⟩
  · rw [← timestamps, List.pairwise_map] at ascending
    exact ascending
  · obtain ⟨other, -, isBucket⟩ := (charted sample.timestamp).mp ⟨sample, member, rfl⟩
    rw [known sample member outcome]
    congr 1
    refine List.filter_congr fun row _ => ?_
    rw [Bool.eq_iff_iff, decide_eq_true_eq, decide_eq_true_eq]
    exact (before_end_iff positive isBucket).symm
  · obtain ⟨earlier, isSamples⟩ := List.getLast?_eq_some_iff.mp isLast
    have isList : buckets = earlier.map Sample.timestamp ++ [sample.timestamp] := by
      rw [← timestamps, isSamples, List.map_append]
      rfl
    rw [known sample (List.mem_of_getLast? isLast) outcome]
    congr 1
    refine List.filter_eq_self.mpr fun row member => ?_
    have isListed := (listed _).mpr ⟨row, member, rfl⟩
    rw [isList] at isListed ascending
    rw [decide_eq_true_eq]
    rcases List.mem_append.mp isListed with before | here
    · exact ((List.pairwise_append.mp ascending).2.2 _ before _ (List.mem_singleton_self _)).le
    · exact (List.mem_singleton.mp here).le

end Loop

/-! # The limit -/

section Limit

variable {interval : ℕ} {rows kept dropped : List PriceHistory} {samples : List Sample}

/-- What the limit cuts off changes nothing that a chart shows: it is in buckets that are shown,
and no outcome's last price is in it that is not its last price without it. -/
def Reaches (interval : ℕ) (kept dropped : List PriceHistory) : Prop :=
  ∀ row ∈ dropped, (∃ other ∈ kept, bucketOf interval other = bucketOf interval row) ∧
    latestPrice (kept ++ dropped) row.outcomeId = latestPrice kept row.outcomeId

theorem latestPrice_reaches (reaches : Reaches interval kept dropped) (outcome : OutcomeId) :
    latestPrice (kept ++ dropped) outcome = latestPrice kept outcome := by
  by_cases traded : ∃ row ∈ dropped, row.outcomeId = outcome
  · obtain ⟨row, member, rfl⟩ := traded
    exact (reaches row member).2
  · have none_ : latestPrice dropped outcome = none := by
      unfold latestPrice
      rw [List.filter_eq_nil_iff.mpr]
      · rfl
      · intro row member isOutcome
        exact traded ⟨row, member, by simpa using isOutcome⟩
    rw [latestPrice_append, none_, Option.none_or]

/-- A chart of what the limit keeps charts it all exactly when the rest changes nothing. -/
theorem charted_iff (positive : 0 < interval)
    (sorted : (kept ++ dropped).Pairwise fun row later => row.snapshotAt ≤ later.snapshotAt)
    (stocked : dropped ≠ [] → kept ≠ [])
    (charted : Charted interval kept samples) :
    Charted interval (kept ++ dropped) samples ↔ Reaches interval kept dropped := by
  obtain ⟨-, -, across⟩ := List.pairwise_append.mp sorted
  constructor
  · intro whole row member
    have shown := (whole.buckets _).mpr ⟨row, List.mem_append_right _ member, rfl⟩
    refine ⟨(charted.buckets _).mp shown, ?_⟩
    obtain ⟨other, isKept⟩ := List.exists_mem_of_ne_nil _ (stocked (List.ne_nil_of_mem member))
    obtain ⟨sample, isSample, -⟩ := (charted.buckets _).mpr ⟨other, isKept, rfl⟩
    have isLast := List.getLast?_eq_some_getLast (List.ne_nil_of_mem isSample)
    rw [← whole.present _ isLast, ← charted.present _ isLast]
  · intro reaches
    refine ⟨charted.ordered, fun bucket => ?_, fun sample member outcome => ?_,
      fun sample isLast outcome => ?_⟩
    · rw [charted.buckets bucket]
      constructor
      · rintro ⟨row, member, isBucket⟩
        exact ⟨row, List.mem_append_left _ member, isBucket⟩
      · rintro ⟨row, member, rfl⟩
        rcases List.mem_append.mp member with isKept | isDropped
        · exact ⟨row, isKept, rfl⟩
        · exact (reaches row isDropped).1
    · obtain ⟨inside, -, isBucket⟩ := (charted.buckets sample.timestamp).mp ⟨sample, member, rfl⟩
      rw [charted.carried sample member, List.filter_append]
      by_cases early : ∃ row ∈ dropped, row.snapshotAt < sample.timestamp + interval
      · -- a row past the limit is in the bucket, so that the bucket is the last one
        obtain ⟨row, isDropped, before⟩ := early
        have keptBefore : ∀ other ∈ kept, other.snapshotAt < sample.timestamp + interval :=
          fun other isKept => (across other isKept row isDropped).trans_lt before
        have droppedBefore : ∀ other ∈ dropped,
            other.snapshotAt < sample.timestamp + interval := by
          intro other isOther
          obtain ⟨⟨same, isKept, isSame⟩, -⟩ := reaches other isOther
          have below := (before_end_iff positive isBucket).mp (keptBefore same isKept)
          rw [isSame] at below
          exact (before_end_iff positive isBucket).mpr below
        rw [List.filter_eq_self.mpr fun other isKept => decide_eq_true (keptBefore other isKept),
          List.filter_eq_self.mpr fun other isOther =>
            decide_eq_true (droppedBefore other isOther)]
        exact (latestPrice_reaches reaches outcome).symm
      · have later : dropped.filter (fun row => row.snapshotAt < sample.timestamp + interval) = [] :=
          List.filter_eq_nil_iff.mpr fun row isDropped before =>
            early ⟨row, isDropped, of_decide_eq_true before⟩
        rw [later, List.append_nil]
    · rw [charted.present sample isLast, latestPrice_reaches reaches]

end Limit

theorem intervalSeconds_pos (interval : String) : 0 < intervalSeconds interval := by
  unfold intervalSeconds
  split <;> decide

/-- The history is charted exactly when the rows past the limit change nothing. -/
theorem history_charted_iff (interval : String) (names : Dict OutcomeId String)
    (rows : List PriceHistory)
    (sorted : rows.Pairwise fun row later => row.snapshotAt ≤ later.snapshotAt) :
    Charted (intervalSeconds interval) rows (getPriceHistory interval names rows) ↔
      Reaches (intervalSeconds interval) (rows.take rowLimit) (rows.drop rowLimit) := by
  have whole := List.take_append_drop rowLimit rows
  have stocked : rows.drop rowLimit ≠ [] → rows.take rowLimit ≠ [] := by
    intro rest none_
    rcases List.take_eq_nil_iff.mp none_ with zero | empty
    · exact absurd zero (by decide)
    · rw [empty, List.drop_nil] at rest
      exact rest rfl
  have charted := @chart_charted (intervalSeconds interval) (rows.take rowLimit) names
    (intervalSeconds_pos interval) (sorted.sublist (List.take_sublist _ _))
  have limit := @charted_iff (intervalSeconds interval) (rows.take rowLimit) (rows.drop rowLimit)
    (getPriceHistory interval names rows) (intervalSeconds_pos interval)
    (by rw [whole]; exact sorted) stocked charted
  rwa [whole] at limit

/-- A price every minute. -/
def everyMinute (minutes : ℕ) : List PriceHistory :=
  (List.range minutes).map fun minute => ⟨1, 1, 1 / 2, 0, 60 * minute⟩

theorem history_charted_of_two :
    Charted 60 (everyMinute 2) (getPriceHistory "1m" (.ofItems [(1, "Yes")]) (everyMinute 2)) ↔
      Reaches 60 ((everyMinute 2).take rowLimit) ((everyMinute 2).drop rowLimit) :=
  history_charted_iff "1m" (.ofItems [(1, "Yes")]) (everyMinute 2) (by decide)

/-- After `rowLimit` minutes the history no longer reaches the present. -/
theorem history_cut :
    ¬ Charted 60 (everyMinute 5001) (getPriceHistory "1m" (.ofItems [(1, "Yes")])
      (everyMinute 5001)) := by
  intro charted
  have kept : (everyMinute 5001).take rowLimit = everyMinute 5000 := by
    unfold everyMinute rowLimit
    rw [← List.map_take, List.take_range]
    rfl
  have sorted : (everyMinute 5000).Pairwise fun row later => row.snapshotAt ≤ later.snapshotAt := by
    unfold everyMinute
    rw [List.pairwise_map]
    exact List.pairwise_lt_range.imp fun {_ _} below => Nat.mul_le_mul_left 60 below.le
  have lastRow : (⟨1, 1, 1 / 2, 0, 60 * 5000⟩ : PriceHistory) ∈ everyMinute 5001 :=
    List.mem_map.mpr ⟨5000, List.mem_range.mpr (by decide), rfl⟩
  have shown := (charted.buckets _).mpr ⟨_, lastRow, rfl⟩
  unfold getPriceHistory at shown
  rw [kept] at shown
  obtain ⟨row, member, isBucket⟩ :=
    ((chart_charted (by decide) sorted).buckets _).mp shown
  obtain ⟨minute, inRange, rfl⟩ := List.mem_map.mp member
  have below := List.mem_range.mp inRange
  rw [bucketOf_eq, bucketOf_eq] at isBucket
  change 60 * (60 * minute / 60) = 60 * 5000 at isBucket
  rw [Nat.mul_div_cancel_left _ (by decide)] at isBucket
  exact below.ne (Nat.eq_of_mul_eq_mul_left (by decide) isBucket)

end PredictX.PriceChart
