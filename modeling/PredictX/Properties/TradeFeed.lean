import PredictX.Api.Trades

namespace PredictX.Trades

open PredictX.Data

/-! Both feeds show every trade once.

Behind the last row of a page lie exactly the trades that the keyset filter keeps, wherever the
page ends; trades that are newer than that row stay above the filter.
-/

variable {codec : CursorCodec}

/-! # The cursor -/

theorem rsplitBar_plain {text : List Char} (plain : '|' ∉ text) : rsplitBar text = none := by
  induction text with
  | nil => rfl
  | cons char rest ih =>
      obtain ⟨notBar, plainRest⟩ := not_or.mp (mt List.mem_cons.mpr plain)
      rw [rsplitBar, ih plainRest, if_neg (Ne.symm notBar)]

theorem rsplitBar_append {back : List Char} (front : List Char) (plain : '|' ∉ back) :
    rsplitBar (front ++ '|' :: back) = some (front, back) := by
  induction front with
  | nil => rw [List.nil_append, rsplitBar, rsplitBar_plain plain, if_pos rfl]
  | cons char front ih => rw [List.cons_append, rsplitBar, ih]

theorem decodeCursor_encodeCursor (codec : CursorCodec) (time : Timestamp) (tradeId : ℕ) :
    decodeCursor codec (encodeCursor codec time tradeId) = .ok (time, tradeId) := by
  simp only [decodeCursor, encodeCursor, codec.b64decode_b64encode,
    rsplitBar_append _ (codec.uuidText_plain tradeId), codec.fromIsoformat_isoformat,
    codec.parseUuid_uuidText]

theorem encodeCursor_ne_nil (codec : CursorCodec) (time : Timestamp) (tradeId : ℕ) :
    encodeCursor codec time tradeId ≠ [] := by
  intro empty
  simpa using codec.b64encode_nil _ empty

theorem isBelow_iff {time : Timestamp} {tradeId : ℕ} {trade : FeedTrade} :
    isBelow time tradeId trade = true ↔ trade.key < toLex (time, tradeId) := by
  simp [isBelow, FeedTrade.key, Prod.Lex.toLex_lt_toLex]

theorem isBelow_key (last : FeedTrade) :
    isBelow last.executedAt last.id = fun trade => decide (trade.key < last.key) := by
  funext trade
  rw [Bool.eq_iff_iff, isBelow_iff, decide_eq_true_iff]
  rfl

theorem cursorFilter_encodeCursor (codec : CursorCodec) (rows : List FeedTrade)
    (time : Timestamp) (tradeId : ℕ) :
    cursorFilter codec rows (encodeCursor codec time tradeId) =
      .ok (rows.filter (isBelow time tradeId)) := by
  rw [cursorFilter, if_neg (encodeCursor_ne_nil codec time tradeId), decodeCursor_encodeCursor]
  rfl

/-! # One request -/

section Request

variable {item : FeedTrade → TradeItem} {pageSize : ℕ} {rows rest : List FeedTrade}

theorem newestFirst_listed (rows : List FeedTrade) :
    Listed FeedTrade.key rows (newestFirst rows) :=
  Listed.insertionSort FeedTrade.key rows

theorem keys_nodup (distinct : (rows.map FeedTrade.id).Nodup) :
    (rows.map FeedTrade.key).Nodup := by
  refine List.Nodup.of_map (fun key => (ofLex key).2) ?_
  rwa [List.map_map]

/-- What is left at a cursor, newest first. -/
def LeftAt (codec : CursorCodec) (rows : List FeedTrade) (cursor : Option (List Char))
    (rest : List FeedTrade) : Prop :=
  (cursor = none ∧ Listed FeedTrade.key rows rest) ∨
    ∃ time tradeId, cursor = some (encodeCursor codec time tradeId) ∧
      Listed FeedTrade.key (rows.filter (isBelow time tradeId)) rest

theorem LeftAt.sorted {cursor : Option (List Char)} (left : LeftAt codec rows cursor rest) :
    rest.Pairwise fun newer older => older.key ≤ newer.key := by
  obtain ⟨_, listed⟩ | ⟨_, _, _, listed⟩ := left <;> exact listed.sorted

theorem LeftAt.keys {cursor : Option (List Char)} (left : LeftAt codec rows cursor rest)
    (distinct : (rows.map FeedTrade.id).Nodup) : (rest.map FeedTrade.key).Nodup := by
  have nodup := keys_nodup distinct
  obtain ⟨_, listed⟩ | ⟨_, _, _, listed⟩ := left
  · exact (listed.perm.map _).nodup_iff.mpr nodup
  · exact (listed.perm.map _).nodup_iff.mpr (nodup.sublist (List.filter_sublist.map _))

/-- Behind a row that is left lies what the filter keeps of all rows. -/
theorem LeftAt.below {cursor : Option (List Char)} {front later : List FeedTrade}
    {last : FeedTrade} (left : LeftAt codec rows cursor (front ++ last :: later)) :
    ((front ++ last :: later).filter (isBelow last.executedAt last.id)).Perm
      (rows.filter (isBelow last.executedAt last.id)) := by
  obtain ⟨_, listed⟩ | ⟨time, tradeId, _, listed⟩ := left
  · exact listed.perm.filter _
  · refine (listed.perm.filter _).trans (List.Perm.of_eq ?_)
    have member := listed.perm.subset (List.mem_append_right front List.mem_cons_self)
    have lastBelow : last.key < toLex (time, tradeId) :=
      isBelow_iff.mp (List.mem_filter.mp member).2
    rw [List.filter_filter]
    refine List.filter_congr fun trade _ => ?_
    rw [Bool.and_eq_left_iff_imp]
    intro below
    exact isBelow_iff.mpr ((isBelow_iff.mp below).trans lastBelow)

theorem LeftAt.next {cursor : Option (List Char)} {front later inserted current : List FeedTrade}
    {last : FeedTrade} (left : LeftAt codec rows cursor (front ++ last :: later))
    (distinct : (rows.map FeedTrade.id).Nodup) (same : current.Perm (rows ++ inserted))
    (newer : ∀ trade ∈ inserted, last.key < trade.key) :
    LeftAt codec current (some (encodeCursor codec last.executedAt last.id)) later := by
  refine .inr ⟨_, _, rfl, ?_, (List.pairwise_append.mp left.sorted).2.1.tail⟩
  have none : inserted.filter (isBelow last.executedAt last.id) = [] := by
    rw [List.filter_eq_nil_iff]
    intro trade member below
    exact lt_asymm (newer trade member) (isBelow_iff.mp below)
  have apart : ∀ row ∈ later.head?, row.key < last.key := by
    intro row isHead
    cases later with
    | nil => cases isHead
    | cons head later =>
        obtain rfl : head = row := by simpa using isHead
        have nodup := left.keys distinct
        rw [List.map_append, List.map_cons, List.map_cons] at nodup
        have differ : last.key ≠ head.key := fun equal =>
          (List.nodup_cons.mp nodup.of_append_right).1 (by rw [equal]; exact List.mem_cons_self)
        have sorted := (List.pairwise_append.mp left.sorted).2.1
        exact lt_of_le_of_ne (List.rel_of_pairwise_cons sorted List.mem_cons_self) differ.symm
  have kept : (front ++ last :: later).filter (isBelow last.executedAt last.id) = later := by
    rw [isBelow_key]
    exact Listed.filter_below_of_apart left.sorted apart
  have all := same.filter (isBelow last.executedAt last.id)
  rw [List.filter_append, none, List.append_nil] at all
  rw [← kept]
  exact left.below.trans all.symm

theorem pageOf_trades (rest : List FeedTrade) :
    (pageOf codec item 1 pageSize (rest.take (pageSize + 1))).trades =
      (rest.take pageSize).map item := by
  rw [pageOf, List.take_take, Nat.min_eq_left (Nat.le_succ pageSize)]

theorem pageOf_hasMore (rest : List FeedTrade) :
    (pageOf codec item 1 pageSize (rest.take (pageSize + 1))).hasMore =
      decide (pageSize < rest.length) := by
  rw [pageOf, List.length_take, decide_eq_decide]
  omega

theorem pageOf_nextCursor {rest front : List FeedTrade} {last : FeedTrade}
    (more : pageSize < rest.length) (ends : rest.take pageSize = front ++ [last]) :
    (pageOf codec item 1 pageSize (rest.take (pageSize + 1))).nextCursor =
      some (encodeCursor codec last.executedAt last.id) := by
  have probed : pageSize < (rest.take (pageSize + 1)).length := by
    rw [List.length_take]
    omega
  simp only [pageOf, if_pos probed, List.take_take, Nat.min_eq_left (Nat.le_succ pageSize), ends,
    List.getLast?_concat, Option.map_some]

theorem pageOf_last {rest : List FeedTrade} (ended : ¬ pageSize < rest.length) :
    (pageOf codec item 1 pageSize (rest.take (pageSize + 1))).nextCursor = none := by
  have probed : ¬ pageSize < (rest.take (pageSize + 1)).length := by
    rw [List.length_take]
    omega
  rw [pageOf, if_neg probed]

/-- A page that is not the last one ends with a row. -/
theorem exists_last (positive : 0 < pageSize) (more : pageSize < rest.length) :
    ∃ front last, rest.take pageSize = front ++ [last] := by
  have nonempty : rest.take pageSize ≠ [] := by
    intro empty
    have length := congrArg List.length empty
    rw [List.length_take, Nat.min_eq_left more.le, List.length_nil] at length
    exact positive.ne' length
  exact ⟨_, _, (List.dropLast_append_getLast nonempty).symm⟩

end Request

/-! # The walk -/

def TradeItem.key (item : TradeItem) : Timestamp ×ₗ ℕ := toLex (item.executedAt, item.id)

/-- Between two requests only trades are inserted that are newer than the last one shown.  What
the table holds may depend on all that has been answered. -/
def Undisturbed (tables : List TradePage → List FeedTrade) : Prop :=
  ∀ history page, ∀ last ∈ page.trades.getLast?, ∃ inserted,
    (tables (history ++ [page])).Perm (tables history ++ inserted) ∧
      ∀ trade ∈ inserted, last.key < trade.key

theorem Undisturbed.filter {tables : List TradePage → List FeedTrade}
    (undisturbed : Undisturbed tables) (keeps : FeedTrade → Bool) :
    Undisturbed fun history => (tables history).filter keeps := by
  intro history page last isLast
  obtain ⟨inserted, same, newer⟩ := undisturbed history page last isLast
  refine ⟨inserted.filter keeps, ?_, fun trade member => newer trade (List.mem_filter.mp member).1⟩
  rw [← List.filter_append]
  exact same.filter keeps

theorem ids_filter {rows : List FeedTrade} (distinct : (rows.map FeedTrade.id).Nodup)
    (keeps : FeedTrade → Bool) : ((rows.filter keeps).map FeedTrade.id).Nodup :=
  distinct.sublist (List.filter_sublist.map FeedTrade.id)

section Walk

variable {item : FeedTrade → TradeItem} {pageSize : ℕ}
  {request : List TradePage → Option (List Char) → Except Refusal TradePage}
  {matching : List TradePage → List FeedTrade}

/-- Following `next_cursor` until `has_more` is false shows these rows once each, newest first, and
there is a cursor exactly where there is more. -/
def ShowsAll (request : List TradePage → Option (List Char) → Except Refusal TradePage)
    (item : FeedTrade → TradeItem) (rows : List FeedTrade) : Prop :=
  ∃ pages shown,
    follow TradePage.hasMore TradePage.nextCursor request (rows.length + 1) [] none = some pages ∧
      Listed FeedTrade.key rows shown ∧ pages.flatMap TradePage.trades = shown.map item ∧
      ∀ page ∈ pages, page.nextCursor.isSome = page.hasMore

theorem walk_shows (codec : CursorCodec) (positive : 0 < pageSize)
    (keyed : ∀ trade, (item trade).key = trade.key)
    (distinct : ∀ history, ((matching history).map FeedTrade.id).Nodup)
    (undisturbed : Undisturbed matching)
    (answers : ∀ history cursor rest, LeftAt codec (matching history) cursor rest →
      request history cursor = .ok (pageOf codec item 1 pageSize (rest.take (pageSize + 1)))) :
    ShowsAll request item (matching []) := by
  let left := fun history cursor items => ∃ rest, items = rest.map item ∧
    LeftAt codec (matching history) cursor rest
  have listed := newestFirst_listed (matching [])
  have begins : left [] none ((newestFirst (matching [])).map item) :=
    ⟨_, rfl, .inl ⟨rfl, listed⟩⟩
  have enough : ((newestFirst (matching [])).map item).length < (matching []).length + 1 := by
    rw [List.length_map, listed.perm.length_eq]
    exact Nat.lt_succ_self _
  have serves : ∀ history cursor items, left history cursor items →
      ∃ page, request history cursor = .ok page ∧ page.nextCursor.isSome = page.hasMore ∧
        (page.hasMore = false → page.trades = items) ∧
        (page.hasMore = true → page.trades ≠ [] ∧ ∃ later, items = page.trades ++ later ∧
          left (history ++ [page]) page.nextCursor later) := by
    rintro history cursor _ ⟨rest, rfl, isLeft⟩
    refine ⟨_, answers history cursor rest isLeft, ?_⟩
    rw [pageOf_trades, pageOf_hasMore]
    by_cases more : pageSize < rest.length
    · obtain ⟨front, last, ends⟩ := exists_last positive more
      have split : rest = front ++ last :: rest.drop pageSize := by
        rw [← List.singleton_append, ← List.append_assoc, ← ends, List.take_append_drop]
      rw [pageOf_nextCursor more ends, decide_eq_true more]
      refine ⟨rfl, nofun, fun _ => ⟨by simp [ends], (rest.drop pageSize).map item, ?_, _, rfl, ?_⟩⟩
      · rw [← List.map_append, List.take_append_drop]
      · rw [split] at isLeft
        obtain ⟨inserted, same, newer⟩ := undisturbed history
          (pageOf codec item 1 pageSize (rest.take (pageSize + 1))) (item last)
          (by simp [pageOf_trades, ends])
        rw [keyed] at newer
        exact isLeft.next (distinct history) same newer
    · rw [pageOf_last more, decide_eq_false more, List.take_of_length_le (not_lt.mp more)]
      exact ⟨rfl, fun _ => rfl, nofun⟩
  obtain ⟨pages, followed, shown, good⟩ :=
    follow_shows TradePage.trades _ left serves begins enough
  exact ⟨pages, _, followed, listed, shown, good⟩

theorem newestFirst_eq {rows rest : List FeedTrade}
    (distinct : (rows.map FeedTrade.id).Nodup) (listed : Listed FeedTrade.key rows rest) :
    newestFirst rows = rest :=
  Listed.unique (keys_nodup distinct) (newestFirst_listed rows) listed

theorem listTrades_answers {trades rest : List FeedTrade} {marketSlug : Option String}
    {cursor : Option (List Char)} (distinct : (trades.map FeedTrade.id).Nodup)
    (left : LeftAt codec (trades.filter (inFeed marketSlug)) cursor rest) :
    listTrades codec trades 1 pageSize marketSlug cursor =
      .ok (pageOf codec feedItem 1 pageSize (rest.take (pageSize + 1))) := by
  have ids := ids_filter distinct (inFeed marketSlug)
  obtain ⟨rfl, listed⟩ | ⟨time, tradeId, rfl, listed⟩ := left
  · rw [← newestFirst_eq ids listed]
    simp [listTrades]
  · rw [← newestFirst_eq (ids_filter ids _) listed]
    simp only [listTrades, cursorFilter_encodeCursor]
    rfl

theorem listMarketTrades_answers {trades rest : List FeedTrade} {markets : List FeedMarket}
    {slug : String} {market : FeedMarket} {cursor : Option (List Char)}
    (found : markets.find? (fun market => market.slug = slug) = some market)
    (distinct : (trades.map FeedTrade.id).Nodup)
    (left : LeftAt codec (trades.filter fun trade => trade.market.id = market.id) cursor rest) :
    listMarketTrades codec markets trades slug 1 pageSize cursor =
      .ok (pageOf codec (itemOf market slug) 1 pageSize (rest.take (pageSize + 1))) := by
  have ids := ids_filter distinct fun trade => trade.market.id = market.id
  obtain ⟨rfl, listed⟩ | ⟨time, tradeId, rfl, listed⟩ := left
  · rw [← newestFirst_eq ids listed]
    simp [listMarketTrades, found]
  · rw [← newestFirst_eq (ids_filter ids _) listed]
    have filtered := cursorFilter_encodeCursor codec
      (trades.filter fun trade => trade.market.id = market.id) time tradeId
    have nonempty := encodeCursor_ne_nil codec time tradeId
    cases text : encodeCursor codec time tradeId with
    | nil => exact absurd text nonempty
    | cons char tail =>
        rw [text] at filtered
        simp only [listMarketTrades, found, filtered]
        rfl

/-- For every market filter and every size of a page, whatever newer trades arrive on the way. -/
theorem trade_feed_partitions (codec : CursorCodec) (markets : List FeedMarket)
    (tables : List TradePage → List FeedTrade) (pageSize : ℕ) (positive : 0 < pageSize)
    (distinct : ∀ history, ((tables history).map FeedTrade.id).Nodup)
    (undisturbed : Undisturbed tables) :
    (∀ marketSlug, ShowsAll
      (fun history cursor => listTrades codec (tables history) 1 pageSize marketSlug cursor)
      feedItem ((tables []).filter (inFeed marketSlug))) ∧
    (∀ slug market, markets.find? (fun market => market.slug = slug) = some market → ShowsAll
      (fun history cursor => listMarketTrades codec markets (tables history) slug 1 pageSize cursor)
      (itemOf market slug) ((tables []).filter fun trade => trade.market.id = market.id)) ∧
    ∀ time tradeId, decodeCursor codec (encodeCursor codec time tradeId) = .ok (time, tradeId) := by
  refine ⟨fun marketSlug => ?_, fun slug market found => ?_, decodeCursor_encodeCursor codec⟩
  · refine walk_shows codec positive (fun _ => rfl)
      (fun history => ids_filter (distinct history) _) (undisturbed.filter (inFeed marketSlug)) ?_
    exact fun history cursor rest left => listTrades_answers (distinct history) left
  · refine walk_shows codec positive (fun _ => rfl)
      (fun history => ids_filter (distinct history) _)
      (undisturbed.filter fun trade => trade.market.id = market.id) ?_
    exact fun history cursor rest left => listMarketTrades_answers found (distinct history) left

end Walk

/-! A page of one trade ends between two trades of one second, and a newer one arrives behind it. -/

def exampleTimes : CursorText Timestamp :=
  .unaryBut 1 "1970-01-01T00:00:01+00:00".toList '*' (by decide) (by decide)

def exampleIds : CursorText ℕ :=
  .unaryBut 2 "00000000-0000-0000-0000-000000000002".toList '*' (by decide) (by decide)

def rawText : List Char :=
  "1970-01-01T00:00:01+00:00|00000000-0000-0000-0000-000000000002".toList

def encodedText : List Char :=
  "MTk3MC0wMS0wMVQwMDowMDowMSswMDowMHwwMDAwMDAwMC0wMDAwLTAwMDAtMDAwMC0wMDAwMDAwMDAwMDI=".toList

/-- Base64 on the one text of the walk, any injection elsewhere. -/
def exampleCodec : CursorCodec where
  isoformat := exampleTimes.write
  fromIsoformat := exampleTimes.read
  uuidText := exampleIds.write
  parseUuid := exampleIds.read
  b64encode := fun text => if text = rawText then encodedText else '*' :: text
  b64decode := fun text => if text = encodedText then some rawText else some text.tail
  fromIsoformat_isoformat := exampleTimes.read_write
  parseUuid_uuidText := exampleIds.read_write
  uuidText_plain := by
    intro id
    change '|' ∉ if id = 2 then _ else _
    split
    · decide
    · exact fun member => absurd (List.eq_of_mem_replicate member) (by decide)
  b64decode_b64encode := by
    intro text
    by_cases raw : text = rawText
    · rw [if_pos raw, if_pos rfl, raw]
    · have other : '*' :: text ≠ encodedText := fun equal => by
        cases List.head_eq_of_cons_eq equal
      rw [if_neg raw, if_neg other, List.tail_cons]
  b64encode_nil := by
    intro text empty
    split at empty
    · cases empty
    · cases empty

def exampleMarket : FeedMarket := ⟨4, "rain", "Will it rain?"⟩

def exampleTrade (id : ℕ) (executedAt : Timestamp) : FeedTrade :=
  { id := id
    market := exampleMarket
    outcome := "Yes"
    side := "buy"
    price := 1 / 2
    amount := 10
    executedAt := executedAt
    username := "ada" }

/-- The third trade is there once a first page has ended with an older one. -/
def exampleTables : List TradePage → List FeedTrade
  | [] => [exampleTrade 1 1, exampleTrade 2 1]
  | first :: _ =>
      if first.trades.getLast?.any fun last => decide (last.key < (exampleTrade 3 5).key) then
        [exampleTrade 1 1, exampleTrade 2 1, exampleTrade 3 5]
      else [exampleTrade 1 1, exampleTrade 2 1]

theorem exampleTables_cases (history : List TradePage) :
    exampleTables history = [exampleTrade 1 1, exampleTrade 2 1] ∨
      exampleTables history = [exampleTrade 1 1, exampleTrade 2 1, exampleTrade 3 5] := by
  cases history with
  | nil => exact .inl rfl
  | cons first later => exact (ite_eq_or_eq _ _ _).symm

theorem exampleTables_distinct (history : List TradePage) :
    ((exampleTables history).map FeedTrade.id).Nodup := by
  obtain holds | holds := exampleTables_cases history
  · rw [holds]
    decide
  · rw [holds]
    decide

theorem exampleTables_undisturbed : Undisturbed exampleTables := by
  intro history page last isLast
  cases history with
  | nil =>
      by_cases older : last.key < (exampleTrade 3 5).key
      · refine ⟨[exampleTrade 3 5], ?_, by simpa using older⟩
        have counted : page.trades.getLast?.any
            (fun last => decide (last.key < (exampleTrade 3 5).key)) = true := by
          rw [Option.mem_def.mp isLast]
          simpa using older
        simp [exampleTables, counted]
      · refine ⟨[], ?_, by simp⟩
        have counted : page.trades.getLast?.any
            (fun last => decide (last.key < (exampleTrade 3 5).key)) = false := by
          rw [Option.mem_def.mp isLast]
          simpa using older
        simp [exampleTables, counted]
  | cons first later => exact ⟨[], by simp [exampleTables], by simp⟩

theorem tied_trades_shown :
    (∀ marketSlug, ShowsAll
      (fun history cursor => listTrades exampleCodec (exampleTables history) 1 1 marketSlug cursor)
      feedItem ((exampleTables []).filter (inFeed marketSlug))) ∧
    (∀ slug market, [exampleMarket].find? (fun market => market.slug = slug) = some market →
      ShowsAll (fun history cursor =>
          listMarketTrades exampleCodec [exampleMarket] (exampleTables history) slug 1 1 cursor)
        (itemOf market slug) ((exampleTables []).filter fun trade => trade.market.id = market.id)) ∧
    ∀ time tradeId,
      decodeCursor exampleCodec (encodeCursor exampleCodec time tradeId) = .ok (time, tradeId) :=
  trade_feed_partitions exampleCodec [exampleMarket] exampleTables 1 one_pos
    exampleTables_distinct exampleTables_undisturbed

end PredictX.Trades
