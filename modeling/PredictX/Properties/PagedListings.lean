import PredictX.Api.OrderList
import PredictX.Api.PositionList
import PredictX.Properties.TradeFeed

namespace PredictX

open PredictX.Data

/-! Walks through a user's orders and positions.

The cursor of the orders is the creation time alone, so a walk loses the orders that tie with the
last one of a page.  The pages of the positions go by a count, which the prices overwrite where a
position is in a binary market.
-/

/-! # Orders -/

namespace OrderList

variable {times : CursorText Timestamp} {rows : List OrderRow} {user : UserId}
  {filters : Filters} {dateFrom dateTo : Option Timestamp} {pageSize : ℕ}

/-- The requests of a walk; ties may come in another order each time. -/
def asked (times : CursorText Timestamp) (ordered : List OrderPage → List OrderRow → List OrderRow)
    (rows : List OrderRow) (user : UserId) (filters : Filters) (pageSize : ℕ)
    (history : List OrderPage) (cursor : Option (List Char)) : Except Refusal OrderPage :=
  listOrders times (ordered history) rows user filters pageSize cursor

def matchingRows (rows : List OrderRow) (user : UserId) (filters : Filters)
    (dateFrom dateTo : Option Timestamp) : List OrderRow :=
  rows.filter fun row => isMatching user filters dateFrom dateTo row.order

/-- Following `next_cursor` until it is absent shows these orders once each. -/
def ShowsAll (request : List OrderPage → Option (List Char) → Except Refusal OrderPage)
    (matching : List OrderRow) : Prop :=
  ∃ fuel pages,
    follow (fun page => page.nextCursor.isSome) OrderPage.nextCursor request fuel [] none =
      some pages ∧ (pages.flatMap OrderPage.orders).Perm (matching.map orderItem)

def createdAt (row : OrderRow) : Timestamp := row.order.createdAt

/-- Newest first. -/
def creationTimes (rows : List OrderRow) : List Timestamp :=
  (rows.map createdAt).insertionSort (· ≥ ·)

theorem creationTimes_eq {list : List OrderRow} (listed : Listed createdAt rows list) :
    list.map createdAt = creationTimes rows := by
  have keys : Listed id (rows.map createdAt) (list.map createdAt) :=
    ⟨listed.perm.map createdAt, List.pairwise_map.mpr listed.sorted⟩
  have same := keys.map_key (Listed.insertionSort id (rows.map createdAt))
  rwa [List.map_id, List.map_id] at same

theorem parseTime_write (refusal : List Char → Refusal) (bound : Option Timestamp) :
    parseTime times refusal ((bound.map times.write).getD []) = .ok bound := by
  cases bound with
  | none => simp [parseTime]
  | some time => simp [parseTime, times.write_ne_nil, times.read_write]

/-- The cursor's filter, on the rows and on their entries. -/
theorem below_orderItem (bound : Option Timestamp) :
    below OrderItem.createdAt ((matchingRows rows user filters dateFrom dateTo).map orderItem)
        bound =
      (rows.filter fun row => isMatching user filters dateFrom dateTo row.order &&
        bound.all fun before => row.order.createdAt < before).map orderItem := by
  cases bound with
  | none => simp [below, matchingRows]
  | some before =>
      rw [below, List.filter_map, matchingRows, List.filter_filter]
      refine congrArg (List.map orderItem) (List.filter_congr fun row _ => ?_)
      exact Bool.and_comm _ _

theorem listOrders_page {ordered : List OrderRow → List OrderRow}
    (positive : 0 < pageSize) (listed : ∀ rows, Listed createdAt rows (ordered rows))
    (readFrom : parseTime times .invalidDateFrom filters.dateFrom = .ok dateFrom)
    (readTo : parseTime times .invalidDateTo filters.dateTo = .ok dateTo)
    (bound : Option Timestamp) :
    IsPage OrderItem.createdAt times pageSize OrderPage.orders
      (fun page => page.nextCursor.isSome) OrderPage.nextCursor
      (below OrderItem.createdAt
        ((matchingRows rows user filters dateFrom dateTo).map orderItem) bound)
      (listOrders times ordered rows user filters pageSize (bound.map times.write)) := by
  rw [below_orderItem]
  generalize isMatched : (rows.filter fun row =>
    isMatching user filters dateFrom dateTo row.order &&
      bound.all fun before => row.order.createdAt < before) = matching
  have answer : listOrders times ordered rows user filters pageSize (bound.map times.write) =
      .ok {
        orders := (((ordered matching).take (pageSize + 1)).take pageSize).map orderItem
        total := matching.length
        pageSize := pageSize
        hasMore := pageSize < ((ordered matching).take (pageSize + 1)).length
        nextCursor :=
          if pageSize < ((ordered matching).take (pageSize + 1)).length then
            (((ordered matching).take (pageSize + 1)).take pageSize).getLast?.map fun last =>
              times.write last.order.createdAt
          else none } := by
    rw [← isMatched]
    simp only [listOrders, readFrom, readTo, parseTime_write]
    rfl
  have more : pageSize < ((ordered matching).take (pageSize + 1)).length ↔
      pageSize < (ordered matching).length := by
    rw [List.length_take]
    omega
  simp only [more, List.take_take, Nat.min_eq_left (Nat.le_succ pageSize)] at answer
  have page := listed matching
  refine ⟨(ordered matching).map orderItem, _, ⟨page.perm.map _, ?_⟩, answer, ?_, ?_, ?_⟩
  · exact List.pairwise_map.mpr page.sorted
  · exact List.map_take
  · rw [List.length_map]
    by_cases long : pageSize < (ordered matching).length
    · have nonempty : (ordered matching).take pageSize ≠ [] := by
        rw [Ne, List.take_eq_nil_iff]
        rintro (zero | empty)
        · exact positive.ne' zero
        · rw [empty] at long
          exact absurd long (Nat.not_lt_zero _)
      rw [if_pos long, decide_eq_true long]
      exact Option.isSome_map.trans (List.getLast?_isSome.mpr nonempty)
    · rw [if_neg long, decide_eq_false long]
      rfl
  · rw [List.length_map, ← List.map_take, List.getLast?_map, Option.map_map]
    rfl

theorem showsAll_iff {ordered : List OrderPage → List OrderRow → List OrderRow}
    (positive : 0 < pageSize)
    (listed : ∀ history rows, Listed createdAt rows (ordered history rows))
    (readFrom : parseTime times .invalidDateFrom filters.dateFrom = .ok dateFrom)
    (readTo : parseTime times .invalidDateTo filters.dateTo = .ok dateTo) :
    ShowsAll (asked times ordered rows user filters pageSize)
        (matchingRows rows user filters dateFrom dateTo) ↔
      Aligned pageSize (creationTimes (matchingRows rows user filters dateFrom dateTo)) := by
  let items := (matchingRows rows user filters dateFrom dateTo).map orderItem
  have answers : ∀ history bound, IsPage OrderItem.createdAt times pageSize OrderPage.orders
      (fun page => page.nextCursor.isSome) OrderPage.nextCursor
      (below OrderItem.createdAt items bound)
      (asked times ordered rows user filters pageSize history (bound.map times.write)) :=
    fun history bound => listOrders_page positive (listed history) readFrom readTo bound
  have begins : (below OrderItem.createdAt items none).length < items.length + 1 :=
    Nat.lt_succ_self _
  obtain ⟨pages, walked, _, complete⟩ := follow_keyset_iff positive answers begins
  have newest := Listed.insertionSort createdAt (matchingRows rows user filters dateFrom dateTo)
  have whole := complete _ ⟨newest.perm.map orderItem, List.pairwise_map.mpr newest.sorted⟩
  rw [List.map_map] at whole
  rw [← creationTimes_eq newest]
  refine Iff.trans ⟨?_, fun all => ⟨_, pages, walked, all⟩⟩ whole
  rintro ⟨fuel, others, walkedAgain, all⟩
  rwa [follow_unique walked walkedAgain]

end OrderList

/-! # Positions -/

namespace PositionList

open PredictX.MarketService

variable {float : ℚ → ℚ} {related : Related} {ordered : ℕ → List PositionRow → List PositionRow}
  {visited : ℕ → List MarketId → List MarketId} {rows : List PositionRow} {user : UserId}
  {pageSize : ℕ}

/-- The answer to each page number of a walk. -/
def answered (float : ℚ → ℚ) (related : Related)
    (ordered : ℕ → List PositionRow → List PositionRow)
    (visited : ℕ → List MarketId → List MarketId) (rows : List PositionRow) (user : UserId)
    (pageSize page : ℕ) : PositionPage :=
  listPositions float related (ordered page) (visited page) rows user page pageSize

/-- What a walk asks for: the page behind the last one, the first one to begin with. -/
def askedPage (answer : ℕ → PositionPage) (_ : List PositionPage) (page : Option ℕ) :
    Except Empty PositionPage :=
  .ok (answer (page.getD 1))

/-- Asking for pages 1, 2, ... until `has_more` is false shows these positions once each, with
their number as the total of every page. -/
def ShowsAll (answer : ℕ → PositionPage) (item : PositionRow → PositionResponse)
    (openRows : List PositionRow) : Prop :=
  ∃ fuel pages,
    follow PositionPage.hasMore (fun page => some (page.page + 1)) (askedPage answer) fuel [] none =
        some pages ∧
      (pages.flatMap PositionPage.positions).Perm (openRows.map item) ∧
      ∀ page ∈ pages, page.total = openRows.length

/-- The binary pools of the markets on a page, in the order in which they are priced. -/
def pricedPools (related : Related) (ordered : ℕ → List PositionRow → List PositionRow)
    (visited : ℕ → List MarketId → List MarketId) (openRows : List PositionRow)
    (pageSize page : ℕ) : List LiquidityPool :=
  let positions := ((ordered page openRows).drop ((page - 1) * pageSize)).take pageSize
  (visited page (positions.map fun row => row.position.marketId).dedup).filterMap fun market =>
    binaryPool (related.pools market)

/-- On every page the last binary pool that is priced holds as many shares as there are open
positions. -/
def ReservesMatchCount (float : ℚ → ℚ) (related : Related)
    (ordered : ℕ → List PositionRow → List PositionRow)
    (visited : ℕ → List MarketId → List MarketId) (openRows : List PositionRow)
    (pageSize : ℕ) : Prop :=
  ∀ page, 0 < page → (page - 1) * pageSize < openRows.length →
    ∀ pool ∈ (pricedPools related ordered visited openRows pageSize page).getLast?,
      reserves float pool = openRows.length

theorem totalAfter_eq (markets : List MarketId) (total : ℚ) :
    totalAfter float related markets total =
      (((markets.filterMap fun market => binaryPool (related.pools market)).getLast?).map
        (reserves float)).getD total := by
  induction markets using List.reverseRecOn with
  | nil => rfl
  | append_singleton markets market ih =>
      unfold totalAfter at ih ⊢
      rw [List.foldl_append, List.foldl_cons, List.foldl_nil, List.filterMap_append]
      cases found : binaryPool (related.pools market) with
      | none => simpa [found] using ih
      | some pool => simp [found]

section Answers

variable {page : ℕ} {list : List PositionRow}

theorem slice_ne_nil {α : Type} {list : List α} (positive : 0 < pageSize)
    (inside : (page - 1) * pageSize < list.length) :
    (list.drop ((page - 1) * pageSize)).take pageSize ≠ [] := by
  rw [Ne, List.take_eq_nil_iff, List.drop_eq_nil_iff]
  rintro (zero | outside)
  · exact positive.ne' zero
  · exact absurd inside (not_lt.mpr outside)

/-- A page that shows something, with the rows in the order of `list`. -/
theorem answered_of_inside (positive : 0 < pageSize)
    (order : ordered page (rows.filter (isOpen user)) = list)
    (inside : (page - 1) * pageSize < list.length) :
    answered float related ordered visited rows user pageSize page =
      { positions :=
          ((list.drop ((page - 1) * pageSize)).take pageSize).map (positionResponse float related)
        total :=
          ((pricedPools related ordered visited (rows.filter (isOpen user)) pageSize
            page).getLast?.map (reserves float)).getD (rows.filter (isOpen user)).length
        page := page
        pageSize := pageSize
        hasMore := ((page * pageSize : ℕ) : ℚ) <
          ((pricedPools related ordered visited (rows.filter (isOpen user)) pageSize
            page).getLast?.map (reserves float)).getD ((rows.filter (isOpen user)).length : ℚ) } := by
  simp only [answered, listPositions, order, if_neg (slice_ne_nil positive inside),
    totalAfter_eq, pricedPools]

theorem answered_of_outside
    (order : ordered page (rows.filter (isOpen user)) = list)
    (outside : list.length ≤ (page - 1) * pageSize) :
    answered float related ordered visited rows user pageSize page =
      { positions := []
        total := (rows.filter (isOpen user)).length
        page := page
        pageSize := pageSize
        hasMore := false } := by
  have empty : (list.drop ((page - 1) * pageSize)).take pageSize = [] := by
    rw [List.drop_eq_nil_of_le outside, List.take_nil]
  simp only [answered, listPositions, order, empty, if_true]

end Answers

/-! # Walks by page number -/

/-- Pages of these entries; where the total is right, there is more as long as entries are left. -/
structure Paged (answer : ℕ → PositionPage) (pageSize : ℕ) (items : List PositionResponse) :
    Prop where
  numbered : ∀ page, (answer page).page = page
  shown : ∀ page, (answer page).positions = (items.drop ((page - 1) * pageSize)).take pageSize
  more : ∀ page, (page - 1) * pageSize < items.length → (answer page).total = items.length →
    (answer page).hasMore = decide (page * pageSize < items.length)
  beyond : ∀ page, items.length ≤ (page - 1) * pageSize →
    (answer page).total = items.length ∧ (answer page).hasMore = false

namespace Paged

variable {answer : ℕ → PositionPage} {items : List PositionResponse}

/-- A walk that is told the right total on every page asks for all of them. -/
theorem total_of_walk (paged : Paged answer pageSize items)
    {fuel : ℕ} {history pages : List PositionPage} {cursor : Option ℕ}
    (walked : follow PositionPage.hasMore (fun page => some (page.page + 1)) (askedPage answer)
      fuel history cursor = some pages)
    (totals : ∀ page ∈ pages, page.total = items.length) {page : ℕ} (later : cursor.getD 1 ≤ page)
    (inside : (page - 1) * pageSize < items.length) : (answer page).total = items.length := by
  induction fuel generalizing history cursor pages with
  | zero => cases walked
  | succ fuel ih =>
      have served : askedPage answer history cursor = .ok (answer (cursor.getD 1)) := rfl
      rw [follow] at walked
      simp only [served] at walked
      by_cases goesOn : (answer (cursor.getD 1)).hasMore = true
      · rw [if_pos goesOn] at walked
        obtain ⟨rest, followed, rfl⟩ := Option.map_eq_some_iff.mp walked
        obtain here | further := later.eq_or_lt
        · rw [← here]
          exact totals _ List.mem_cons_self
        · refine ih followed (fun other member => totals other (List.mem_cons_of_mem _ member)) ?_
          rw [paged.numbered, Option.getD_some]
          exact further
      · rw [if_neg goesOn] at walked
        cases walked
        have total := totals _ List.mem_cons_self
        obtain here | further := later.eq_or_lt
        · rwa [← here]
        · -- The last page of the walk would lie before a page that shows something.
          have before : cursor.getD 1 * pageSize ≤ (page - 1) * pageSize :=
            Nat.mul_le_mul_right _ (Nat.le_sub_one_of_lt further)
          have insideHere : (cursor.getD 1 - 1) * pageSize < items.length :=
            (Nat.mul_le_mul_right _ (Nat.sub_le _ _)).trans_lt (before.trans_lt inside)
          rw [paged.more _ insideHere total] at goesOn
          exact absurd (before.trans_lt inside) (by simpa using goesOn)

/-- Right totals lead a walk through all entries. -/
theorem walk_of_totals (paged : Paged answer pageSize items) (positive : 0 < pageSize)
    (totals : ∀ page, 0 < page → (page - 1) * pageSize < items.length →
      (answer page).total = items.length) :
    ∃ pages, follow PositionPage.hasMore (fun page => some (page.page + 1)) (askedPage answer)
        (items.length + 1) [] none = some pages ∧
      pages.flatMap PositionPage.positions = items ∧
      ∀ page ∈ pages, page.total = items.length := by
  let left : List PositionPage → Option ℕ → List PositionResponse → Prop :=
    fun _ cursor rest => 0 < cursor.getD 1 ∧ rest = items.drop ((cursor.getD 1 - 1) * pageSize)
  refine follow_shows PositionPage.positions _ left ?_ (⟨one_pos, by simp⟩ : left [] none items)
    (Nat.lt_succ_self _)
  rintro history cursor _ ⟨isPage, rfl⟩
  refine ⟨_, rfl, ?_⟩
  generalize cursor.getD 1 = number at isPage ⊢
  rw [paged.shown, paged.numbered]
  by_cases inside : (number - 1) * pageSize < items.length
  · have total := totals number isPage inside
    have next : (number - 1) * pageSize + pageSize = number * pageSize := by
      rw [← Nat.succ_mul, Nat.succ_eq_add_one, Nat.sub_add_cancel isPage]
    rw [paged.more number inside total]
    refine ⟨total, fun last => List.take_of_length_le ?_, fun _ => ?_⟩
    · have ended := not_lt.mp (of_decide_eq_false last)
      rw [List.length_drop]
      omega
    · refine ⟨slice_ne_nil positive inside, items.drop (number * pageSize), ?_, Nat.succ_pos _, rfl⟩
      rw [← next, ← List.drop_drop, List.take_append_drop]
  · obtain ⟨total, ended⟩ := paged.beyond number (not_lt.mp inside)
    rw [ended]
    refine ⟨total, fun _ => ?_, nofun⟩
    rw [List.drop_eq_nil_of_le (not_lt.mp inside), List.take_nil]

end Paged

theorem getD_map_eq_iff {α : Type} {read : α → ℚ} {value : Option α} {count : ℚ} :
    (value.map read).getD count = count ↔ ∀ held ∈ value, read held = count := by
  cases value with
  | none => simp
  | some held => simp

theorem answered_paged {list : List PositionRow} (positive : 0 < pageSize)
    (order : ∀ page, ordered page (rows.filter (isOpen user)) = list)
    (count : list.length = (rows.filter (isOpen user)).length) :
    Paged (answered float related ordered visited rows user pageSize) pageSize
      (list.map (positionResponse float related)) := by
  refine ⟨fun page => ?_, fun page => ?_, fun page inside total => ?_, fun page outside => ?_⟩
  · by_cases inside : (page - 1) * pageSize < list.length
    · rw [answered_of_inside positive (order page) inside]
    · rw [answered_of_outside (order page) (not_lt.mp inside)]
  · rw [← List.map_drop, ← List.map_take]
    by_cases inside : (page - 1) * pageSize < list.length
    · rw [answered_of_inside positive (order page) inside]
    · rw [answered_of_outside (order page) (not_lt.mp inside),
        List.drop_eq_nil_of_le (not_lt.mp inside), List.take_nil, List.map_nil]
  · rw [List.length_map] at inside total ⊢
    rw [answered_of_inside positive (order page) inside] at total ⊢
    simp only at total
    rw [total, decide_eq_decide]
    exact Nat.cast_lt
  · rw [List.length_map] at outside ⊢
    rw [answered_of_outside (order page) outside, count]
    exact ⟨rfl, rfl⟩

theorem showsAll_iff (positive : 0 < pageSize)
    (listed : ∀ page rows, Listed PositionRow.createdAt rows (ordered page rows))
    (distinct : ((rows.filter (isOpen user)).map PositionRow.createdAt).Nodup) :
    ShowsAll (answered float related ordered visited rows user pageSize)
        (positionResponse float related) (rows.filter (isOpen user)) ↔
      ReservesMatchCount float related ordered visited (rows.filter (isOpen user)) pageSize := by
  have newest := listed 1 (rows.filter (isOpen user))
  have order := fun page => Listed.unique distinct (listed page _) newest
  have count := newest.perm.length_eq
  generalize ordered 1 (rows.filter (isOpen user)) = list at newest order count
  have paged : Paged (answered float related ordered visited rows user pageSize) pageSize
      (list.map (positionResponse float related)) := answered_paged positive order count
  have length : (list.map (positionResponse float related)).length =
      (rows.filter (isOpen user)).length := by rw [List.length_map, count]
  -- Where a page shows something, the reserves decide its total.
  have right : ∀ page, (page - 1) * pageSize < (rows.filter (isOpen user)).length →
      ((answered float related ordered visited rows user pageSize page).total =
          (rows.filter (isOpen user)).length ↔
        ∀ pool ∈ (pricedPools related ordered visited (rows.filter (isOpen user))
          pageSize page).getLast?, reserves float pool = (rows.filter (isOpen user)).length) := by
    intro page inside
    rw [← count] at inside
    rw [answered_of_inside positive (order page) inside]
    exact getD_map_eq_iff
  constructor
  · rintro ⟨fuel, pages, walked, _, totals⟩ page isPage inside
    rw [← length] at totals
    rw [← right page inside, ← length]
    rw [← length] at inside
    exact paged.total_of_walk walked totals isPage inside
  · intro matched
    obtain ⟨pages, walked, shown, totals⟩ := paged.walk_of_totals positive
        fun page isPage inside => by
      rw [length] at inside ⊢
      exact (right page inside).mpr (matched page isPage inside)
    rw [length] at totals
    refine ⟨_, pages, walked, ?_, totals⟩
    rw [shown]
    exact newest.perm.map _

end PositionList

/-- The orders' walk is complete if and only if no page ends between two orders of one creation
time, and the positions' if and only if no page's total is overwritten by another number. -/
theorem listings_complete_iff (times : CursorText Timestamp)
    (ordered : List OrderList.OrderPage → List OrderList.OrderRow → List OrderList.OrderRow)
    (orders : List OrderList.OrderRow) (filters : OrderList.Filters)
    (dateFrom dateTo : Option Timestamp) (float : ℚ → ℚ) (related : PositionList.Related)
    (orderedPositions : ℕ → List PositionList.PositionRow → List PositionList.PositionRow)
    (visited : ℕ → List MarketId → List MarketId) (positions : List PositionList.PositionRow)
    (user : UserId) (pageSize : ℕ) (positive : 0 < pageSize)
    (listed : ∀ history rows, Listed OrderList.createdAt rows (ordered history rows))
    (readFrom : OrderList.parseTime times .invalidDateFrom filters.dateFrom = .ok dateFrom)
    (readTo : OrderList.parseTime times .invalidDateTo filters.dateTo = .ok dateTo)
    (listedPositions : ∀ page rows,
      Listed PositionList.PositionRow.createdAt rows (orderedPositions page rows))
    (distinct : ((positions.filter (PositionList.isOpen user)).map
      PositionList.PositionRow.createdAt).Nodup) :
    (OrderList.ShowsAll (OrderList.asked times ordered orders user filters pageSize)
        (OrderList.matchingRows orders user filters dateFrom dateTo) ↔
      Aligned pageSize (OrderList.creationTimes
        (OrderList.matchingRows orders user filters dateFrom dateTo))) ∧
    (PositionList.ShowsAll
        (PositionList.answered float related orderedPositions visited positions user pageSize)
        (PositionList.positionResponse float related)
        (positions.filter (PositionList.isOpen user)) ↔
      PositionList.ReservesMatchCount float related orderedPositions visited
        (positions.filter (PositionList.isOpen user)) pageSize) :=
  ⟨OrderList.showsAll_iff positive listed readFrom readTo,
    PositionList.showsAll_iff positive listedPositions distinct⟩

/-! A page of one row.  Two orders of one second, of which the second is never shown; and two
positions in a market with half a share on each side, where the first page says that it is all. -/

def exampleOrder (id : OrderId) : OrderList.OrderRow where
  order :=
    { id := id
      userId := 7
      marketId := 4
      outcomeId := 1
      side := .buy
      orderType := .limit
      amount := 10
      price := 1 / 2
      remainingAmount := 10
      status := .pending
      expiresAt := none
      sharesBought := none
      sharesSold := none
      feesPaid := none
      clientOrderId := none
      createdAt := 1
      executedAt := none }
  outcome := .yes
  marketSlug := "rain"
  marketQuestion := "Will it rain?"

def examplePosition (id outcome createdAt : ℕ) : PositionList.PositionRow where
  id := id
  position :=
    { userId := 7
      marketId := 4
      outcomeId := outcome
      sharesHeld := 1
      averagePrice := 1 / 2
      realizedPnl := 0
      settledAt := none }
  createdAt := createdAt

def exampleRelated : PositionList.Related where
  markets := fun _ => some ⟨"rain", "Will it rain?"⟩
  outcomes := fun outcome =>
    if outcome = 1 then some ⟨1, 4, .yes, 0⟩ else some ⟨2, 4, .no, 1⟩
  pools := fun _ =>
    [{ marketId := 4
       outcomeId := none
       yesShares := 1 / 2
       noShares := 1 / 2
       collateral := 1
       feeRate := tradingFeeRate
       lpTokenSupply := 1
       protocolFees := 0 }]

def noFilters : OrderList.Filters := ⟨"", "", "", none, [], []⟩

def newestOrders (_ : List OrderList.OrderPage) (rows : List OrderList.OrderRow) :
    List OrderList.OrderRow :=
  rows.insertionSort fun left right => OrderList.createdAt right ≤ OrderList.createdAt left

def newestPositions (_ : ℕ) (rows : List PositionList.PositionRow) :
    List PositionList.PositionRow :=
  rows.insertionSort fun left right => right.createdAt ≤ left.createdAt

theorem newestOrders_listed (history : List OrderList.OrderPage)
    (rows : List OrderList.OrderRow) :
    Listed OrderList.createdAt rows (newestOrders history rows) :=
  Listed.insertionSort _ rows

theorem newestPositions_listed (page : ℕ) (rows : List PositionList.PositionRow) :
    Listed PositionList.PositionRow.createdAt rows (newestPositions page rows) :=
  Listed.insertionSort _ rows

theorem listings_lose_rows :
    ¬ OrderList.ShowsAll
        (OrderList.asked Trades.exampleTimes newestOrders [exampleOrder 1, exampleOrder 2] 7
          noFilters 1)
        (OrderList.matchingRows [exampleOrder 1, exampleOrder 2] 7 noFilters none none) ∧
      ¬ PositionList.ShowsAll
        (PositionList.answered id exampleRelated newestPositions (fun _ markets => markets)
          [examplePosition 1 1 10, examplePosition 2 2 20] 7 1)
        (PositionList.positionResponse id exampleRelated)
        ([examplePosition 1 1 10, examplePosition 2 2 20].filter (PositionList.isOpen 7)) := by
  constructor
  · intro complete
    have aligned := (OrderList.showsAll_iff one_pos newestOrders_listed rfl rfl).mp complete
    exact aligned 1 one_pos (by decide) rfl
  · intro complete
    have matched :=
      (PositionList.showsAll_iff one_pos newestPositions_listed (by decide)).mp complete
    have reserves := matched 1 one_pos (by decide) _ rfl
    exact absurd reserves (by decide +kernel)

theorem example_listings_iff :
    (OrderList.ShowsAll
        (OrderList.asked Trades.exampleTimes newestOrders [exampleOrder 1, exampleOrder 2] 7
          noFilters 1)
        (OrderList.matchingRows [exampleOrder 1, exampleOrder 2] 7 noFilters none none) ↔
      Aligned 1 (OrderList.creationTimes
        (OrderList.matchingRows [exampleOrder 1, exampleOrder 2] 7 noFilters none none))) ∧
    (PositionList.ShowsAll
        (PositionList.answered id exampleRelated newestPositions (fun _ markets => markets)
          [examplePosition 1 1 10, examplePosition 2 2 20] 7 1)
        (PositionList.positionResponse id exampleRelated)
        ([examplePosition 1 1 10, examplePosition 2 2 20].filter (PositionList.isOpen 7)) ↔
      PositionList.ReservesMatchCount id exampleRelated newestPositions (fun _ markets => markets)
        ([examplePosition 1 1 10, examplePosition 2 2 20].filter (PositionList.isOpen 7)) 1) :=
  listings_complete_iff Trades.exampleTimes newestOrders [exampleOrder 1, exampleOrder 2]
    noFilters none none id exampleRelated newestPositions (fun _ markets => markets)
    [examplePosition 1 1 10, examplePosition 2 2 20] 7 1 one_pos
    newestOrders_listed rfl rfl newestPositions_listed (by decide)

end PredictX
