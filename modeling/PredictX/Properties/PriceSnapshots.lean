import PredictX.Properties.BatchPrices
import PredictX.Workers.PriceTasks

namespace PredictX.PriceTasks

open PredictX.Data PredictX.MarketService PredictX.PriceCache

/-! Snapshots of one minute.

A run that finds a row of its minute raises: it takes the first column of each row for the whole
row.  So the runs of a minute succeed as long as none of them has anything to find.
-/

/-- The outcomes of a market. -/
def outcomesIn (db : Database) (market : MarketId) : List Outcome :=
  db.outcomes.rows.filter fun outcome => outcome.marketId = market

/-- An outcome of an active market that has a price. -/
def IsPriced (db : Database) (pair : MarketId × OutcomeId) : Prop :=
  ∃ market ∈ activeMarkets db, ∃ outcome ∈ outcomesIn db market.id,
    pair = (market.id, outcome.id) ∧
      ((snapshotPrices db market.id (outcomesIn db market.id)).get? outcome.id).isSome

/-- No row is of the minute of `now`. -/
def Clear (now : Timestamp) (history : List PriceHistory) : Prop :=
  ∀ row ∈ history, row.inMinute now = false

/-- Some runs of the task, each with the time and the database it runs on. -/
def runAll (runs : List (Timestamp × Database)) (history : List PriceHistory) :
    Except Failure (List PriceHistory) :=
  runs.foldlM (fun history run => snapshotPriceHistory run.1 run.2 history) history

section Run

variable {now later : Timestamp} {db : Database} {history after : List PriceHistory}

private theorem floor_bounds (time : ℕ) : time - time % 60 ≤ time ∧ time < time - time % 60 + 60 := by
  have small : time % 60 < 60 := Nat.mod_lt _ (by decide)
  omega

theorem inMinute_self (now : Timestamp) {row : PriceHistory} (isNow : row.snapshotAt = now) :
    row.inMinute now = true := by
  unfold PriceHistory.inMinute PriceHistory.minuteFloor
  rw [isNow, Bool.and_eq_true, decide_eq_true_eq, decide_eq_true_eq]
  exact floor_bounds now

theorem clear_congr (same : PriceHistory.minuteFloor later = PriceHistory.minuteFloor now) :
    Clear later history ↔ Clear now history := by
  unfold Clear PriceHistory.inMinute
  rw [same]

theorem existingPairs_cons (id : MarketId) (rest : List MarketId) :
    existingPairs (id :: rest) = .error .typeError := by
  simp only [existingPairs, List.mapM_cons, subscript]
  rfl

theorem existingRows_eq_nil : existingRows now history = [] ↔ Clear now history := by
  unfold existingRows Clear
  rw [List.map_eq_nil_iff, List.dedup_eq_nil, List.map_eq_nil_iff, List.filter_eq_nil_iff]
  simp only [Bool.not_eq_true]

/-- The rows that a run adds. -/
def newRows (now : Timestamp) (db : Database) : List PriceHistory :=
  (activeMarkets db).flatMap (marketSnapshots now db [])

/-- What a run does. -/
theorem snapshot_cases (now : Timestamp) (db : Database) (history : List PriceHistory) :
    (activeMarkets db = [] ∧ snapshotPriceHistory now db history = .ok history) ∨
    (activeMarkets db ≠ [] ∧ Clear now history ∧
      snapshotPriceHistory now db history = .ok (history ++ newRows now db)) ∨
    (activeMarkets db ≠ [] ∧ ¬ Clear now history ∧
      snapshotPriceHistory now db history = .error .typeError) := by
  unfold snapshotPriceHistory newRows
  cases isActive : activeMarkets db with
  | nil => exact .inl ⟨rfl, rfl⟩
  | cons market rest =>
      refine .inr ?_
      rw [← existingRows_eq_nil]
      cases isExisting : existingRows now history with
      | nil => exact .inl ⟨List.cons_ne_nil _ _, rfl, rfl⟩
      | cons id others =>
          refine .inr ⟨List.cons_ne_nil _ _, List.cons_ne_nil _ _, ?_⟩
          dsimp only
          rw [existingPairs_cons]
          rfl

theorem mem_newRows {row : PriceHistory} :
    row ∈ newRows now db ↔ ∃ market ∈ activeMarkets db, ∃ outcome ∈ outcomesIn db market.id,
      ∃ price, (snapshotPrices db market.id (outcomesIn db market.id)).get? outcome.id = some price ∧
        row = ⟨market.id, outcome.id, price, market.totalVolume, now⟩ := by
  unfold newRows marketSnapshots
  simp only [List.mem_flatMap, List.mem_filterMap, List.not_mem_nil, if_false,
    Option.map_eq_some_iff]
  constructor
  · rintro ⟨market, active, outcome, isOutcome, price, isPrice, rfl⟩
    exact ⟨market, active, outcome, isOutcome, price, isPrice, rfl⟩
  · rintro ⟨market, active, outcome, isOutcome, price, isPrice, rfl⟩
    exact ⟨market, active, outcome, isOutcome, price, isPrice, rfl⟩

theorem pair_mem_newRows {pair : MarketId × OutcomeId} :
    pair ∈ (newRows now db).map PriceHistory.pair ↔ IsPriced db pair := by
  unfold IsPriced
  simp only [List.mem_map, mem_newRows, Option.isSome_iff_exists]
  constructor
  · rintro ⟨_, ⟨market, active, outcome, isOutcome, price, isPrice, rfl⟩, rfl⟩
    exact ⟨market, active, outcome, isOutcome, rfl, price, isPrice⟩
  · rintro ⟨market, active, outcome, isOutcome, rfl, price, isPrice⟩
    exact ⟨_, ⟨market, active, outcome, isOutcome, price, isPrice, rfl⟩, rfl⟩

theorem pairs_marketSnapshots (market : Market) :
    ((marketSnapshots now db [] market).map PriceHistory.pair).Sublist
      ((outcomesIn db market.id).map fun outcome => (market.id, outcome.id)) := by
  unfold marketSnapshots outcomesIn
  refine filterMap_keys_sublist _ _ _ _ fun outcome row isRow => ?_
  rw [if_neg List.not_mem_nil] at isRow
  obtain ⟨price, -, rfl⟩ := Option.map_eq_some_iff.mp isRow
  rfl

/-- No pair is recorded twice by a run. -/
theorem pairs_newRows_nodup : ((newRows now db).map PriceHistory.pair).Nodup := by
  unfold newRows
  rw [List.map_flatMap, List.nodup_flatMap]
  refine ⟨fun market _ => ?_, ?_⟩
  · have ids : ((outcomesIn db market.id).map Outcome.id).Nodup :=
      db.outcomes.unique.sublist (List.filter_sublist.map _)
    have pairs : ((outcomesIn db market.id).map fun outcome => (market.id, outcome.id)).Nodup := by
      have paired := ids.map (Prod.mk_right_injective market.id)
      rwa [List.map_map] at paired
    exact (pairs_marketSnapshots market).nodup pairs
  · have ids : ((activeMarkets db).map Market.id).Nodup :=
      db.markets.unique.sublist (List.filter_sublist.map _)
    refine (List.pairwise_map.mp ids).imp fun {market other} apart => ?_
    intro pair here there
    obtain ⟨outcome, -, isPair⟩ := List.mem_map.mp ((pairs_marketSnapshots market).subset here)
    obtain ⟨otherOutcome, -, isOther⟩ := List.mem_map.mp ((pairs_marketSnapshots other).subset there)
    exact apart (congrArg Prod.fst (isPair.trans isOther.symm))

/-- The rows of a run that finds nothing are the only ones of their minute. -/
theorem count_newRows (clear : Clear now history) {pair : MarketId × OutcomeId}
    (priced : IsPriced db pair) :
    (((history ++ newRows now db).filter (PriceHistory.inMinute now)).map PriceHistory.pair).count
      pair = 1 := by
  have old : history.filter (PriceHistory.inMinute now) = [] :=
    List.filter_eq_nil_iff.mpr fun row member => by simp [clear row member]
  have new : (newRows now db).filter (PriceHistory.inMinute now) = newRows now db := by
    refine List.filter_eq_self.mpr fun row member => ?_
    obtain ⟨market, -, outcome, -, price, -, rfl⟩ := mem_newRows.mp member
    exact inMinute_self now rfl
  rw [List.filter_append, old, new, List.nil_append]
  exact List.count_eq_one_of_mem pairs_newRows_nodup (pair_mem_newRows.mpr priced)

/-- A run leaves the minute clear when it found it so and had nothing to record. -/
theorem clear_after (ran : snapshotPriceHistory now db history = .ok after) :
    Clear now after ↔ Clear now history ∧ ∀ pair, ¬ IsPriced db pair := by
  rcases snapshot_cases now db history with ⟨idle, ok⟩ | ⟨-, clear, ok⟩ | ⟨-, -, failed⟩
  · cases ok.symm.trans ran
    refine ⟨fun clear => ⟨clear, ?_⟩, And.left⟩
    rintro pair ⟨market, active, -⟩
    rw [idle] at active
    exact absurd active List.not_mem_nil
  · cases ok.symm.trans ran
    constructor
    · intro clearAfter
      refine ⟨clear, fun pair priced => ?_⟩
      obtain ⟨row, member, -⟩ := List.mem_map.mp (pair_mem_newRows.mpr priced)
      have inside := clearAfter row (List.mem_append_right _ member)
      obtain ⟨market, -, outcome, -, price, -, rfl⟩ := mem_newRows.mp member
      rw [inMinute_self now rfl] at inside
      contradiction
    · rintro ⟨-, unpriced⟩ row member
      rcases List.mem_append.mp member with old | new
      · exact clear row old
      · exact absurd (pair_mem_newRows.mp (List.mem_map_of_mem new)) (unpriced _)
  · rw [ran] at failed
    contradiction

end Run

/-! # The runs of a minute -/

section Runs

variable {now : Timestamp} {runs : List (Timestamp × Database)} {history after : List PriceHistory}

/-- No run with an active market finds a row of the minute: there were none, and no run before it
has recorded any. -/
def FindsNothing (now : Timestamp) (runs : List (Timestamp × Database))
    (history : List PriceHistory) : Prop :=
  ∀ before run rest, runs = before ++ run :: rest → activeMarkets run.2 ≠ [] →
    Clear now history ∧ ∀ earlier ∈ before, ∀ pair, ¬ IsPriced earlier.2 pair

theorem findsNothing_cons {run : Timestamp × Database}
    (same : PriceHistory.minuteFloor run.1 = PriceHistory.minuteFloor now)
    (ran : snapshotPriceHistory run.1 run.2 history = .ok after) :
    FindsNothing now (run :: runs) history ↔ FindsNothing now runs after := by
  have clear : Clear now after ↔ Clear now history ∧ ∀ pair, ¬ IsPriced run.2 pair := by
    rw [← clear_congr same, clear_after ran, clear_congr same]
  constructor
  · rintro finds before next rest rfl active
    obtain ⟨isClear, unpriced⟩ := finds (run :: before) next rest rfl active
    exact ⟨clear.mpr ⟨isClear, unpriced run List.mem_cons_self⟩,
      fun earlier member => unpriced earlier (List.mem_cons_of_mem _ member)⟩
  · intro finds before next rest isRuns active
    cases before with
    | nil =>
        obtain ⟨rfl, rfl⟩ := List.cons.inj isRuns
        refine ⟨?_, fun _ member => absurd member List.not_mem_nil⟩
        rcases snapshot_cases run.1 run.2 history with ⟨idle, -⟩ | ⟨-, isClear, -⟩ | ⟨-, -, failed⟩
        · exact absurd idle active
        · exact (clear_congr same).mp isClear
        · rw [ran] at failed
          contradiction
    | cons first before =>
        obtain ⟨rfl, rfl⟩ := List.cons.inj isRuns
        obtain ⟨isClear, unpriced⟩ := finds before next rest rfl active
        obtain ⟨clearBefore, firstUnpriced⟩ := clear.mp isClear
        refine ⟨clearBefore, fun earlier member => ?_⟩
        rcases List.mem_cons.mp member with rfl | later
        · exact firstUnpriced
        · exact unpriced earlier later

/-- The runs all succeed when none of them finds anything. -/
theorem completes_iff
    (same : ∀ run ∈ runs, PriceHistory.minuteFloor run.1 = PriceHistory.minuteFloor now) :
    (∃ after, runAll runs history = .ok after) ↔ FindsNothing now runs history := by
  induction runs generalizing history with
  | nil =>
      refine iff_of_true ⟨history, rfl⟩ ?_
      intro before run rest isRuns
      simp at isRuns
  | cons run rest ih =>
      have here := same run List.mem_cons_self
      have later := fun next member => same next (List.mem_cons_of_mem run member)
      have unfolded : runAll (run :: rest) history =
          snapshotPriceHistory run.1 run.2 history >>= runAll rest := rfl
      rw [unfolded]
      cases ran : snapshotPriceHistory run.1 run.2 history with
      | ok middle =>
          rw [findsNothing_cons here ran]
          exact ih later
      | error failure =>
          refine iff_of_false (by rintro ⟨after, isOk⟩; cases isOk) fun finds => ?_
          rcases snapshot_cases run.1 run.2 history with ⟨-, ok⟩ | ⟨-, -, ok⟩ | ⟨active, unclear, -⟩
          · cases ok.symm.trans ran
          · cases ok.symm.trans ran
          · exact unclear ((clear_congr here).mpr (finds [] run rest rfl active).1)

/-- After the last run every priced pair has one row. -/
theorem recorded_once {run : Timestamp × Database} (isLast : run ∈ runs.getLast?)
    (same : ∀ run ∈ runs, PriceHistory.minuteFloor run.1 = PriceHistory.minuteFloor now)
    (ran : runAll runs history = .ok after) {pair : MarketId × OutcomeId}
    (priced : IsPriced run.2 pair) :
    ((after.filter (PriceHistory.inMinute now)).map PriceHistory.pair).count pair = 1 := by
  obtain ⟨before, rfl⟩ := List.getLast?_eq_some_iff.mp isLast
  have here := same run (by simp)
  have sameMinute : PriceHistory.inMinute now = PriceHistory.inMinute run.1 := by
    funext row
    unfold PriceHistory.inMinute
    rw [here]
  unfold runAll at ran
  rw [List.foldlM_append] at ran
  obtain ⟨middle, -, lastRan⟩ := bind_eq_ok.mp ran
  obtain ⟨final, lastRan, isFinal⟩ := bind_eq_ok.mp lastRan
  cases isFinal
  obtain ⟨market, active, -⟩ := id priced
  rcases snapshot_cases run.1 run.2 middle with ⟨idle, -⟩ | ⟨-, clear, ok⟩ | ⟨-, -, failed⟩
  · rw [idle] at active
    exact absurd active List.not_mem_nil
  · cases ok.symm.trans lastRan
    rw [sameMinute]
    exact count_newRows clear priced
  · cases failed.symm.trans lastRan

/-- The runs of a minute succeed and record every priced pair once exactly when none of them finds
anything. -/
theorem snapshots_once_iff
    (same : ∀ run ∈ runs, PriceHistory.minuteFloor run.1 = PriceHistory.minuteFloor now) :
    (∃ after, runAll runs history = .ok after ∧
      ∀ run ∈ runs.getLast?, ∀ pair, IsPriced run.2 pair →
        ((after.filter (PriceHistory.inMinute now)).map PriceHistory.pair).count pair = 1) ↔
    FindsNothing now runs history := by
  rw [← completes_iff same]
  constructor
  · rintro ⟨after, ran, -⟩
    exact ⟨after, ran⟩
  · rintro ⟨after, ran⟩
    exact ⟨after, ran, fun run isLast pair priced => recorded_once isLast same ran priced⟩

end Runs

/-- One run of a fresh minute records both horses. -/
theorem snapshots_once_iff_first :
    (∃ after, runAll [(60, raceMarket)] [] = .ok after ∧
      ∀ run ∈ [(60, raceMarket)].getLast?, ∀ pair, IsPriced run.2 pair →
        ((after.filter (PriceHistory.inMinute 61)).map PriceHistory.pair).count pair = 1) ↔
    FindsNothing 61 [(60, raceMarket)] [] :=
  snapshots_once_iff (by decide)

/-- A retry in the same minute raises. -/
theorem retry_raises :
    runAll [(60, raceMarket), (90, raceMarket)] [] = .error .typeError := by
  decide +kernel

end PredictX.PriceTasks
