import PredictX.Services.CacheService
import PredictX.Properties.OrderLifeCycle

namespace PredictX.CacheService

open PredictX.Data PredictX.MarketService PredictX.MatchingEngine PredictX.LimitSweep

/-! The book that is shown and the book that is matched.

Both are the price levels of a set of orders.  The matching engine takes an order as long as it has
something left, the book shows it until its first partial fill.
-/

/-! # Price levels -/

/-- What an order has left, in shares. -/
def shares (side : Side) (order : Order) : ℚ :=
  match side with
  | .buy => order.remainingAmount / order.price
  | .sell => order.remainingAmount

/-- The orders of one side, by price. -/
def levels (side : Side) (orders : List Order) : List Level :=
  ((orders.map Order.price).dedup.insertionSort (· ≥ ·)).map fun price =>
    ⟨price, ((orders.filter fun order => order.price = price).map (shares side)).sum⟩

section Levels

variable {side : Side} {orders : List Order} {level : Level}

theorem mem_levels : level ∈ levels side orders ↔
    (∃ order ∈ orders, order.price = level.price) ∧
      level.size =
        ((orders.filter fun order => order.price = level.price).map (shares side)).sum := by
  simp only [levels, List.mem_map, List.mem_insertionSort, List.mem_dedup]
  constructor
  · rintro ⟨price, ⟨order, member, rfl⟩, rfl⟩
    exact ⟨⟨order, member, rfl⟩, rfl⟩
  · rintro ⟨⟨order, member, same⟩, size⟩
    refine ⟨level.price, ⟨order, member, same⟩, ?_⟩
    rw [← size]

/-- Leaving out some of the orders of a list makes its sum smaller. -/
theorem sum_filter_lt {kept : Order → Bool} {order : Order} (member : order ∈ orders)
    (dropped : kept order = false) (positive : ∀ order ∈ orders, 0 < shares side order) :
    ((orders.filter kept).map (shares side)).sum < (orders.map (shares side)).sum := by
  have split := (List.filter_append_perm kept orders).map (shares side)
  rw [List.map_append] at split
  rw [← split.sum_eq, List.sum_append, lt_add_iff_pos_right]
  apply List.sum_pos
  · intro size isSize
    obtain ⟨other, isOther, rfl⟩ := List.mem_map.mp isSize
    exact positive other (List.mem_of_mem_filter isOther)
  · refine List.ne_nil_of_mem (List.mem_map_of_mem (List.mem_filter.mpr ⟨member, ?_⟩))
    simp [dropped]

/-- An order that is left out is missing at its price. -/
theorem levels_filter_iff {kept : Order → Bool}
    (positive : ∀ order ∈ orders, 0 < shares side order) :
    levels side (orders.filter kept) = levels side orders ↔
      ∀ order ∈ orders, kept order = true := by
  constructor
  · intro same order member
    by_contra dropped
    let atPrice := orders.filter fun other => other.price = order.price
    have level : (⟨order.price, (atPrice.map (shares side)).sum⟩ : Level) ∈ levels side orders :=
      mem_levels.mpr ⟨⟨order, member, rfl⟩, rfl⟩
    rw [← same] at level
    have size := (mem_levels.mp level).2
    have filters : (orders.filter kept).filter (fun other => other.price = order.price) =
        atPrice.filter kept := by
      simp only [atPrice, List.filter_filter, Bool.and_comm]
    rw [filters] at size
    have smaller : ((atPrice.filter kept).map (shares side)).sum <
        (atPrice.map (shares side)).sum := by
      apply sum_filter_lt (List.mem_filter.mpr ⟨member, by simp⟩) (by simpa using dropped)
      intro other isOther
      exact positive other (List.mem_of_mem_filter isOther)
    exact smaller.ne size.symm
  · intro all
    rw [List.filter_eq_self.mpr all]

end Levels

/-! # The groups of the query -/

section Groups

variable {rows : List Order} {outcome : OutcomeId} {side : Side}

instance : IsTrans GroupKey GroupKey.Precedes where
  trans first second third left right := by
    unfold GroupKey.Precedes at left right ⊢
    rcases left with less | ⟨same, left⟩
    · rcases right with less' | ⟨same', _⟩
      · exact .inl (less.trans less')
      · exact .inl (same' ▸ less)
    · rcases right with less' | ⟨same', right⟩
      · exact .inl (same ▸ less')
      · refine .inr ⟨same.trans same', ?_⟩
        rcases left with ⟨buy, sell⟩ | ⟨sameSide, price⟩
        · rcases right with ⟨buy', _⟩ | ⟨sameSide', _⟩
          · rw [sell] at buy'
            contradiction
          · exact .inl ⟨buy, sameSide' ▸ sell⟩
        · rcases right with ⟨buy', sell'⟩ | ⟨sameSide', price'⟩
          · exact .inl ⟨sameSide ▸ buy', sell'⟩
          · exact .inr ⟨sameSide.trans sameSide', price'.trans price⟩

instance : Std.Total GroupKey.Precedes where
  total left right := by
    unfold GroupKey.Precedes
    rcases lt_trichotomy left.outcomeId right.outcomeId with less | same | more
    · exact .inl (.inl less)
    · cases leftSide : left.side <;> cases rightSide : right.side <;>
        rcases le_total left.price right.price with le | le <;> simp [same, le]
    · exact .inr (.inl more)

/-- The orders of one outcome and one side. -/
def ofSide (outcome : OutcomeId) (side : Side) (rows : List Order) : List Order :=
  rows.filter fun order => order.outcomeId = outcome ∧ order.side = side

/-- The keys of the groups, as the query lists them. -/
def groupKeys (rows : List Order) : List GroupKey :=
  (rows.map groupKey).dedup.insertionSort GroupKey.Precedes

theorem mem_groupKeys {key : GroupKey} :
    key ∈ groupKeys rows ↔ ∃ order ∈ rows, groupKey order = key := by
  simp [groupKeys, List.mem_insertionSort]

theorem groupKeys_sorted (rows : List Order) :
    (groupKeys rows).Pairwise fun left right => left.Precedes right ∧ left ≠ right := by
  have distinct : (groupKeys rows).Nodup :=
    (List.perm_insertionSort _ _).nodup_iff.mpr (List.nodup_dedup _)
  exact (List.pairwise_insertionSort _ _).and distinct

/-- Within an outcome and a side the keys differ in the price only. -/
theorem groupKeys_prices (rows : List Order) (outcome : OutcomeId) (side : Side) :
    ((groupKeys rows).filter fun key => key.outcomeId = outcome ∧ key.side = side).map
        GroupKey.price =
      ((ofSide outcome side rows).map Order.price).dedup.insertionSort (· ≥ ·) := by
  apply List.Pairwise.eq_of_mem_iff (r := (· > ·))
  · rw [List.pairwise_map, List.pairwise_filter]
    refine (groupKeys_sorted rows).imp ?_
    rintro left right ⟨precedes, apart⟩ isLeft isRight
    obtain ⟨leftOutcome, leftSide⟩ : left.outcomeId = outcome ∧ left.side = side := by
      simpa using isLeft
    obtain ⟨rightOutcome, rightSide⟩ : right.outcomeId = outcome ∧ right.side = side := by
      simpa using isRight
    have price : right.price ≤ left.price := by
      rcases precedes with less | ⟨_, ⟨buy, sell⟩ | ⟨_, price⟩⟩
      · rw [leftOutcome, rightOutcome] at less
        exact absurd less (lt_irrefl _)
      · rw [leftSide, ← rightSide, sell] at buy
        contradiction
      · exact price
    refine lt_of_le_of_ne price fun same => apart ?_
    obtain ⟨_, _, _⟩ := left
    obtain ⟨_, _, _⟩ := right
    simp_all
  · have sorted := List.pairwise_insertionSort (· ≥ ·)
      ((ofSide outcome side rows).map Order.price).dedup
    have distinct : (((ofSide outcome side rows).map Order.price).dedup.insertionSort
        (· ≥ ·)).Nodup :=
      (List.perm_insertionSort _ _).nodup_iff.mpr (List.nodup_dedup _)
    exact (sorted.and distinct).imp fun both => lt_of_le_of_ne both.1 (Ne.symm both.2)
  · intro price
    simp only [List.mem_map, List.mem_filter, mem_groupKeys, List.mem_insertionSort,
      List.mem_dedup, ofSide]
    constructor
    · rintro ⟨_, ⟨⟨order, member, rfl⟩, own⟩, rfl⟩
      exact ⟨order, ⟨member, own⟩, rfl⟩
    · rintro ⟨order, ⟨member, own⟩, rfl⟩
      exact ⟨groupKey order, ⟨⟨order, member, rfl⟩, own⟩, rfl⟩

/-- The sum of a group, in shares. -/
theorem level_size (priced : ∀ order ∈ rows, order.price ≠ 0) {key : GroupKey}
    (member : key ∈ groupKeys rows) :
    GroupRow.level
        ⟨key, ((rows.filter fun order => groupKey order = key).map Order.remainingAmount).sum⟩ =
      ⟨key.price, (((ofSide key.outcomeId key.side rows).filter fun order =>
        order.price = key.price).map (shares key.side)).sum⟩ := by
  have group : (rows.filter fun order => groupKey order = key) =
      (ofSide key.outcomeId key.side rows).filter fun order => order.price = key.price := by
    rw [ofSide, List.filter_filter]
    apply List.filter_congr
    intro order _
    rw [Bool.eq_iff_iff]
    obtain ⟨_, _, _⟩ := key
    simp only [groupKey, GroupKey.mk.injEq, decide_eq_true_eq, Bool.and_eq_true]
    tauto
  have nonzero : key.price ≠ 0 := by
    obtain ⟨order, isOrder, rfl⟩ := mem_groupKeys.mp member
    exact priced order isOrder
  rw [group, GroupRow.level]
  dsimp only
  cases side : key.side with
  | sell =>
      have whole : shares .sell = Order.remainingAmount := rfl
      simp [whole]
  | buy =>
      rw [if_pos ⟨rfl, nonzero⟩, div_eq_mul_inv, ← List.sum_map_mul_right]
      congr 2
      apply List.map_congr_left
      intro order isOrder
      have price : order.price = key.price := by simpa using (List.mem_filter.mp isOrder).2
      rw [shares, price, div_eq_mul_inv]

/-- The rows of an outcome's side are the price levels of its orders. -/
theorem groupRows_levels (priced : ∀ order ∈ rows, order.price ≠ 0) (outcome : OutcomeId)
    (side : Side) :
    ((groupRows rows).filter fun row => row.key.outcomeId = outcome ∧ row.key.side = side).map
        GroupRow.level =
      levels side (ofSide outcome side rows) := by
  rw [levels, ← groupKeys_prices, List.map_map, groupRows, List.filter_map, List.map_map]
  apply List.map_congr_left
  intro key isKey
  rw [List.mem_filter] at isKey
  obtain ⟨member, own⟩ := isKey
  obtain ⟨rfl, rfl⟩ : key.outcomeId = outcome ∧ key.side = side := by simpa using own
  exact level_size priced member

end Groups

/-! # The books of the outcomes -/

section Books

variable {outcomes : List Outcome} {outcome : Outcome}

/-- The loop adds to each book the rows of its name. -/
theorem foldl_add (rows : List GroupRow) (orderbook : Orderbook) (name : OutcomeName) :
    rows.foldl (Orderbook.add outcomes) orderbook name =
      (orderbook name).map fun book =>
        { bids := book.bids ++ (rows.filter fun row =>
            outcomeName outcomes row.key.outcomeId = name ∧ row.key.side = .buy).map
              GroupRow.level
          asks := book.asks ++ (rows.filter fun row =>
            outcomeName outcomes row.key.outcomeId = name ∧ row.key.side = .sell).map
              GroupRow.level } := by
  induction rows generalizing orderbook with
  | nil =>
      cases held : orderbook name with
      | none => simp [held]
      | some book => simp [held]
  | cons row rest ih =>
      rw [List.foldl_cons, ih]
      by_cases own : outcomeName outcomes row.key.outcomeId = name
      · subst own
        cases held : orderbook (outcomeName outcomes row.key.outcomeId) with
        | none => simp [Orderbook.add, held]
        | some book =>
            cases side : row.key.side with
            | buy => simp [Orderbook.add, held, Book.add, side]
            | sell => simp [Orderbook.add, held, Book.add, side]
      · have elsewhere : Orderbook.add outcomes orderbook row name = orderbook name := by
          cases held : orderbook (outcomeName outcomes row.key.outcomeId) with
          | none => simp [Orderbook.add, held]
          | some book => simp [Orderbook.add, held, Ne.symm own]
        rw [elsewhere]
        simp [own]

/-- The outcomes of a market have ids and names of their own. -/
theorem outcomeName_iff (ids : (outcomes.map Outcome.id).Nodup)
    (names : (outcomes.map Outcome.name).Nodup) (member : outcome ∈ outcomes) {id : OutcomeId}
    (listed : ∃ other ∈ outcomes, other.id = id) :
    outcomeName outcomes id = outcome.name ↔ id = outcome.id := by
  cases found : outcomes.find? fun other => other.id = id with
  | none =>
      obtain ⟨other, isOther, same⟩ := listed
      exact absurd same (by simpa using List.find?_eq_none.mp found other isOther)
  | some other =>
      have isOther := List.mem_of_find?_eq_some found
      have hasId : other.id = id := by simpa using List.find?_some found
      rw [outcomeName, found, ← hasId]
      constructor
      · intro same
        exact congrArg Outcome.id (List.inj_on_of_nodup_map names isOther member same)
      · intro same
        exact congrArg Outcome.name (List.inj_on_of_nodup_map ids isOther member same)

/-- What creating a market and placing orders keep to. -/
structure WellListed (db : Database) (market : MarketId) : Prop where
  names : ((outcomesOf db market).map Outcome.name).Nodup
  placed : ∀ order ∈ db.orders.rows, order.marketId = market →
    ∃ outcome ∈ outcomesOf db market, outcome.id = order.outcomeId
  lives : Orderly db.orders

theorem outcomesOf_ids (db : Database) (market : MarketId) :
    ((outcomesOf db market).map Outcome.id).Nodup := by
  have distinct := ((List.filter_sublist (p := fun outcome => outcome.marketId = market)).map
    Outcome.id).nodup db.outcomes.unique
  exact ((List.perm_insertionSort _ _).map Outcome.id).nodup_iff.mpr distinct

variable {db : Database} {market : MarketId}

theorem isShown_open {order : Order} (shown : isShown market order = true) :
    order.marketId = market ∧ order.status.isOpen = true := by
  simp only [isShown, Bool.and_eq_true, decide_eq_true_eq] at shown
  rw [shown.1.2]
  exact ⟨shown.1.1, rfl⟩

/-- Among the rows of the query an outcome's name stands for its id. -/
theorem groupRows_named (listed : WellListed db market) (member : outcome ∈ outcomesOf db market)
    (side : Side) :
    ((groupRows (db.orders.rows.filter (isShown market))).filter fun row =>
        outcomeName (outcomesOf db market) row.key.outcomeId = outcome.name ∧
          row.key.side = side) =
      (groupRows (db.orders.rows.filter (isShown market))).filter fun row =>
        row.key.outcomeId = outcome.id ∧ row.key.side = side := by
  apply List.filter_congr
  intro row isRow
  obtain ⟨key, isKey, rfl⟩ := List.mem_map.mp isRow
  obtain ⟨order, isOrder, rfl⟩ := mem_groupKeys.mp isKey
  obtain ⟨isOrder, shown⟩ := List.mem_filter.mp isOrder
  have named := outcomeName_iff (outcomesOf_ids db market) listed.names member
    (listed.placed order isOrder (isShown_open shown).1)
  rw [Bool.eq_iff_iff, decide_eq_true_iff, decide_eq_true_iff]
  simp only [groupKey, named]

theorem WellListed.orderLives (listed : WellListed db market) {order : Order}
    (member : order ∈ db.orders.rows) : order.LifeCycle :=
  listed.lives order.id order (Table.find?_key_of_mem member)

/-- An outcome's book: the levels of its pending orders. -/
theorem buildOrderbook_eq (listed : WellListed db market)
    (member : outcome ∈ outcomesOf db market) :
    buildOrderbook db market outcome.name = some
      { bids := levels .buy (ofSide outcome.id .buy (db.orders.rows.filter (isShown market)))
        asks := levels .sell (ofSide outcome.id .sell (db.orders.rows.filter (isShown market))) } := by
  have priced : ∀ order ∈ db.orders.rows.filter (isShown market), order.price ≠ 0 := by
    intro order isOrder
    obtain ⟨isOrder, shown⟩ := List.mem_filter.mp isOrder
    exact ((listed.orderLives isOrder).priced (isShown_open shown).2).1.ne'
  have present : ((outcomesOf db market).any fun other => other.name = outcome.name) = true := by
    rw [List.any_eq_true]
    exact ⟨outcome, member, by simp⟩
  unfold buildOrderbook
  rw [foldl_add]
  simp only [present, if_true, Option.map_some, List.nil_append]
  rw [groupRows_named listed member, groupRows_named listed member,
    groupRows_levels priced, groupRows_levels priced]

/-! # The orders on offer -/

open Classical in
/-- The orders of a side that `find_matches` offers to some taker. -/
noncomputable def offered (db : Database) (market : MarketId) (outcome : OutcomeId) (side : Side) :
    List Order :=
  db.orders.rows.filter fun order => ∃ limitPrice taker,
    order ∈ findMatches db.orders db.orders market outcome side.opposite limitPrice taker

theorem mem_findMatches {orders : Table Order.id} {outcome : OutcomeId} {side : Side}
    {limitPrice : Option ℚ} {taker : UserId} {order : Order} :
    order ∈ findMatches orders orders market outcome side limitPrice taker ↔
      order ∈ orders.rows ∧ isMatch market outcome side limitPrice taker order = true := by
  simp only [findMatches, List.mem_filterMap, List.mem_insertionSort, List.mem_filter]
  constructor
  · rintro ⟨row, ⟨isRow, isMatch⟩, found⟩
    rw [Table.find?_key_of_mem isRow] at found
    cases found
    exact ⟨isRow, isMatch⟩
  · rintro ⟨isRow, isMatch⟩
    exact ⟨order, ⟨isRow, isMatch⟩, Table.find?_key_of_mem isRow⟩

theorem opposite_opposite (side : Side) : side.opposite.opposite = side := by
  cases side <;> rfl

/-- Any other user may come with a market order. -/
theorem offered_eq (listed : WellListed db market) (outcome : OutcomeId) (side : Side) :
    offered db market outcome side =
      ofSide outcome side
        (db.orders.rows.filter fun order => order.marketId = market ∧ order.status.isOpen) := by
  rw [offered, ofSide, List.filter_filter]
  apply List.filter_congr
  intro order isOrder
  rw [Bool.eq_iff_iff]
  simp only [mem_findMatches, decide_eq_true_eq, Bool.and_eq_true]
  constructor
  · rintro ⟨limitPrice, taker, _, isMatch⟩
    simp only [MatchingEngine.isMatch, Bool.and_eq_true, decide_eq_true_eq] at isMatch
    obtain ⟨⟨⟨⟨⟨⟨market, outcome⟩, side⟩, opened⟩, _⟩, _⟩, _⟩ := isMatch
    rw [opposite_opposite] at side
    exact ⟨⟨outcome, side⟩, market, opened⟩
  · rintro ⟨⟨outcome, side⟩, market, opened⟩
    have left := ((listed.orderLives isOrder).left opened).1
    refine ⟨none, order.userId + 1, isOrder, ?_⟩
    simp [isMatch, market, outcome, side, opened, left, priceCrosses, opposite_opposite]

theorem mem_offered (listed : WellListed db market) {outcome : OutcomeId} {side : Side}
    {order : Order} :
    order ∈ offered db market outcome side ↔
      order ∈ db.orders.rows ∧ order.marketId = market ∧ order.outcomeId = outcome ∧
        order.side = side ∧ order.status.isOpen = true := by
  rw [offered_eq listed]
  simp only [ofSide, List.mem_filter, decide_eq_true_eq]
  tauto

theorem shares_pos (listed : WellListed db market) {outcome : OutcomeId} {side : Side}
    {order : Order} (isOffered : order ∈ offered db market outcome side) :
    0 < shares side order := by
  obtain ⟨member, _, _, _, opened⟩ := (mem_offered listed).mp isOffered
  have lives := listed.orderLives member
  have left := (lives.left opened).1
  cases side with
  | buy => exact div_pos left (lives.priced opened).1
  | sell => exact left

/-- The levels shown for an outcome's side are those on offer if every order on offer is shown. -/
theorem shown_levels_iff (listed : WellListed db market) {outcome : OutcomeId} {side : Side} :
    levels side (ofSide outcome side (db.orders.rows.filter (isShown market))) =
        levels side (offered db market outcome side) ↔
      ∀ order ∈ offered db market outcome side, isShown market order = true := by
  have shown : ofSide outcome side (db.orders.rows.filter (isShown market)) =
      (offered db market outcome side).filter (isShown market) := by
    rw [offered_eq listed, ofSide, ofSide, List.filter_filter, List.filter_filter,
      List.filter_filter]
    apply List.filter_congr
    intro order _
    by_cases shown : isShown market order = true
    · simp [shown, isShown_open shown]
    · simp [shown]
  rw [shown]
  exact levels_filter_iff fun order isOffered => shares_pos listed isOffered

/-- Every open order of the market is a pending limit or fill-or-kill order. -/
def NonePartial (db : Database) (market : MarketId) : Prop :=
  ∀ order ∈ db.orders.rows, order.marketId = market → order.status.isOpen = true →
    order.status = .pending ∧ order.orderType ≠ .market

/-- The book that is shown is the one that is matched if and only if no order of the market has
been filled in part. -/
theorem book_shows_offers_iff (listed : WellListed db market) :
    (∀ outcome ∈ outcomesOf db market, buildOrderbook db market outcome.name = some
      { bids := levels .buy (offered db market outcome.id .buy)
        asks := levels .sell (offered db market outcome.id .sell) }) ↔
      NonePartial db market := by
  constructor
  · intro books order member own opened
    obtain ⟨outcome, isOutcome, sameId⟩ := listed.placed order member own
    have books := (buildOrderbook_eq listed isOutcome).symm.trans (books outcome isOutcome)
    rw [Option.some.injEq, Book.mk.injEq] at books
    have isOffered : order ∈ offered db market outcome.id order.side :=
      (mem_offered listed).mpr ⟨member, own, sameId.symm, rfl, opened⟩
    have shown : isShown market order = true := by
      cases side : order.side with
      | buy =>
          rw [side] at isOffered
          exact (shown_levels_iff listed).mp books.1 order isOffered
      | sell =>
          rw [side] at isOffered
          exact (shown_levels_iff listed).mp books.2 order isOffered
    simp only [isShown, Bool.and_eq_true, Bool.or_eq_true, decide_eq_true_eq] at shown
    refine ⟨shown.1.2, ?_⟩
    rcases shown.2 with limit | fillOrKill
    · simp [limit]
    · simp [fillOrKill]
  · intro nonePartial outcome isOutcome
    have same : ∀ side,
        levels side (ofSide outcome.id side (db.orders.rows.filter (isShown market))) =
          levels side (offered db market outcome.id side) := by
      intro side
      rw [shown_levels_iff listed]
      intro order isOffered
      obtain ⟨member, own, _, _, opened⟩ := (mem_offered listed).mp isOffered
      obtain ⟨pending, resting⟩ := nonePartial order member own opened
      cases kind : order.orderType with
      | market => contradiction
      | limit => simp [isShown, own, pending, kind]
      | fillOrKill => simp [isShown, own, pending, kind]
    rw [buildOrderbook_eq listed isOutcome, same, same]

end Books

open OrderService

/-- Half of the resting sell has been taken. -/
def halfTaken : Database :=
  { quotedMarket with
    orders := ⟨[{ restingSell with remainingAmount := 5, status := .partiallyFilled }], by decide⟩ }

theorem wellListed_quoted : WellListed quotedMarket 1 := by
  refine ⟨by decide, by decide, ?_⟩
  intro id row found
  obtain rfl : row = restingSell := by simpa [quotedMarket] using Table.mem_of_find? found
  constructor <;> simp [restingSell, OrderStatus.isOpen]
  norm_num

theorem wellListed_halfTaken : WellListed halfTaken 1 := by
  refine ⟨by decide, by decide, ?_⟩
  intro id row found
  obtain rfl : row = { restingSell with remainingAmount := 5, status := .partiallyFilled } := by
    simpa [halfTaken] using Table.mem_of_find? found
  constructor <;> simp [restingSell, OrderStatus.isOpen]
  all_goals norm_num

/-- Five shares are on offer at 0.50, and the book is empty. -/
theorem half_taken_order_not_shown :
    WellListed halfTaken 1 ∧
      buildOrderbook halfTaken 1 .yes = some ⟨[], []⟩ ∧
      levels .sell (offered halfTaken 1 1 .sell) = [⟨1 / 2, 5⟩] := by
  refine ⟨wellListed_halfTaken, by decide +kernel, ?_⟩
  rw [offered_eq wellListed_halfTaken]
  decide +kernel

/-- The untouched order is shown with all that is on offer. -/
theorem untouched_order_shown :
    buildOrderbook quotedMarket 1 .yes = some
      { bids := levels .buy (offered quotedMarket 1 1 .buy)
        asks := levels .sell (offered quotedMarket 1 1 .sell) } := by
  have nonePartial : NonePartial quotedMarket 1 := by
    unfold NonePartial
    decide
  exact (book_shows_offers_iff wellListed_quoted).mpr nonePartial ⟨1, 1, .yes, 0⟩ (by decide)

end PredictX.CacheService
