import PredictX.Properties.DisplayedBook

namespace PredictX.MatchingEngine

open PredictX.Data

/-! Price-time priority and maximal fill.

The loop goes down the sorted book.  It takes all a maker has or all the taker wants, so it stops
at the end of the book or with nothing left to fill; only a price of zero ends a sell before that.
-/

/-! # The sorted book -/

section Sorted

variable {market : MarketId} {outcome : OutcomeId} {side : Side} {limitPrice : Option ℚ}
  {user : UserId}

instance (side : Side) : Std.Total (Precedes side) where
  total left right := by
    unfold Precedes
    rcases lt_trichotomy left.price right.price with below | same | above
    · cases side with
      | buy => exact .inl (.inl below)
      | sell => exact .inr (.inl below)
    · rcases le_total left.createdAt right.createdAt with older | younger
      · exact .inl (.inr ⟨same, older⟩)
      · exact .inr (.inr ⟨same.symm, younger⟩)
    · cases side with
      | buy => exact .inr (.inl above)
      | sell => exact .inl (.inl above)

instance (side : Side) : IsTrans Order (Precedes side) where
  trans first second third left right := by
    unfold Precedes at left right ⊢
    cases side with
    | buy =>
        rcases left with below | ⟨same, older⟩
        · rcases right with below' | ⟨same', _⟩
          · exact .inl (below.trans below')
          · exact .inl (same' ▸ below)
        · rcases right with below | ⟨same', older'⟩
          · exact .inl (same ▸ below)
          · exact .inr ⟨same.trans same', older.trans older'⟩
    | sell =>
        rcases left with above | ⟨same, older⟩
        · rcases right with above' | ⟨same', _⟩
          · exact .inl (above'.trans above)
          · exact .inl (same' ▸ above)
        · rcases right with above | ⟨same', older'⟩
          · exact .inl (same ▸ above)
          · exact .inr ⟨same.trans same', older.trans older'⟩

/-- With nothing unflushed the book is the sorted list of the rows that match. -/
theorem findMatches_eq_sorted (orders : Table Order.id) :
    findMatches orders orders market outcome side limitPrice user =
      (orders.rows.filter (isMatch market outcome side limitPrice user)).insertionSort
        (Precedes side) := by
  have same : ∀ row ∈ (orders.rows.filter
      (isMatch market outcome side limitPrice user)).insertionSort (Precedes side),
      orders.find? row.id = some row := by
    intro row member
    rw [List.mem_insertionSort] at member
    exact Table.find?_key_of_mem (List.mem_filter.mp member).1
  unfold findMatches
  rw [List.filterMap_congr same, List.filterMap_some]

theorem findMatches_sorted (orders : Table Order.id) :
    (findMatches orders orders market outcome side limitPrice user).Pairwise (Precedes side) := by
  rw [findMatches_eq_sorted]
  exact List.pairwise_insertionSort _ _

end Sorted

/-! # Where a loop ends -/

section Ends

variable {σ : Type} {now : Timestamp} {taker : Taker σ} {makers : List Order}
  {db after : Database} {fill final : σ}

/-- A loop that returns has gone through all makers or stopped at one it wanted nothing of. -/
theorem offer_ends
    (positive : ∀ fill, ∀ maker ∈ makers, ∀ quantity,
      taker.quantity fill maker = .ok (some quantity) → 0 < quantity)
    (ran : offer now taker makers db fill = .ok (after, final)) :
    ∃ rest, makers =
        (plan db.outcomes taker makers (Position.held db.positions) fill).map Offer.maker ++ rest ∧
      ∀ maker ∈ rest.head?, taker.quantity final maker = .ok none := by
  induction makers generalizing db fill with
  | nil =>
      cases ran
      exact ⟨[], rfl, by simp⟩
  | cons maker makers ih =>
      have later := fun fill other member => positive fill other (List.mem_cons_of_mem _ member)
      unfold offer at ran
      split at ran
      · contradiction
      · rename_i ended
        cases ran
        unfold plan
        simp only [ended]
        exact ⟨maker :: makers, rfl, by simpa using ended⟩
      rename_i quantity asked
      unfold plan
      simp only [asked]
      split at ran
      · contradiction
      rename_i matched details executed
      rcases executeMatch_ok executed with
        ⟨short, isSkipped, rfl⟩ | ⟨holds, funded, rfl, delivered⟩
      · rw [if_pos isSkipped] at ran
        rw [if_pos short]
        obtain ⟨rest, isMakers, ends⟩ := ih later ran
        exact ⟨rest, congrArg (maker :: ·) isMakers, ends⟩
      · rw [if_neg (by simp [executedDetails]), delivered taker rfl] at ran
        rw [if_neg (not_lt.mpr holds)]
        obtain ⟨rest, isMakers, ends⟩ := ih later ran
        have moves := held_moveShares (quantity * maker.price)
          (positive fill maker List.mem_cons_self quantity asked) holds
        rw [show (deliver now taker db maker quantity).outcomes = db.outcomes from rfl,
          show (deliver now taker db maker quantity).positions =
            moveShares db.positions maker taker.userId quantity (quantity * maker.price) from rfl,
          moves] at isMakers
        exact ⟨rest, congrArg (maker :: ·) isMakers, ends⟩

end Ends

/-! # An incoming order -/

/-- The fill in the order's own unit: USDC of a buy, shares of a sell. -/
def BookFill.amount (side : Side) (fill : BookFill) : ℚ :=
  match side with
  | .buy => fill.matchedUsdc
  | .sell => fill.matchedShares

/-- The offer takes all that its maker has left. -/
def Offer.UsesUp (offer : Offer) : Prop :=
  makerSpent offer.maker offer.quantity offer.usdc = offer.maker.remainingAmount

section Book

variable {now : Timestamp} {side : Side} {amount quantity : ℚ} {user : UserId}
  {db after : Database} {fill final : BookFill} {offers : List Offer} {maker : Order}

/-- An order that is filled wants nothing more. -/
theorem bookQuantity_filled (filled : fill.amount side = amount) :
    bookQuantity side amount fill maker ≠ .ok (some quantity) := by
  intro asked
  cases side with
  | buy =>
      have nothing : amount - fill.matchedUsdc = 0 := sub_eq_zero.mpr filled.symm
      simp only [bookQuantity, nothing, zero_div, le_refl, if_true] at asked
      split at asked <;> cases asked
  | sell =>
      have nothing : amount - fill.matchedShares = 0 := sub_eq_zero.mpr filled.symm
      simp [bookQuantity, nothing] at asked

/-- What is taken is all the maker has or all the taker still wants. -/
theorem bookQuantity_takes (opposite : maker.side = side.opposite)
    (within : fill.amount side ≤ amount)
    (asked : bookQuantity side amount fill maker = .ok (some quantity)) (outcomes : Table Outcome.id) :
    let added := fill.add (executedDetails outcomes maker quantity)
    makerSpent maker quantity (quantity * maker.price) ≤ maker.remainingAmount ∧
      added.amount side ≤ amount ∧
      (makerSpent maker quantity (quantity * maker.price) = maker.remainingAmount ∨
        added.amount side = amount) := by
  have bought : side = .buy → fill.matchedUsdc ≤ amount := by
    rintro rfl
    exact within
  obtain ⟨price, fits⟩ := bookQuantity_fits bought asked
  cases side with
  | buy =>
      simp only [bookQuantity, if_neg price.ne'] at asked
      split at asked
      · cases asked
      split at asked
      · cases asked
      cases asked
      simp only [makerSpent, opposite, Side.opposite, BookFill.amount, BookFill.add,
        executedDetails]
      refine ⟨min_le_left _ _, by linarith [fits.2], ?_⟩
      rcases min_choice maker.remainingAmount ((amount - fill.matchedUsdc) / maker.price) with
        all | rest
      · exact .inl all
      · refine .inr ?_
        rw [rest, div_mul_cancel₀ _ price.ne']
        ring
  | sell =>
      simp only [bookQuantity, if_pos price] at asked
      split at asked
      · cases asked
      split at asked
      · cases asked
      cases asked
      simp only [makerSpent, opposite, Side.opposite, BookFill.amount, BookFill.add,
        executedDetails]
      refine ⟨fits.1, by linarith [fits.2], ?_⟩
      rcases min_choice (maker.remainingAmount / maker.price) (amount - fill.matchedShares) with
        all | rest
      · refine .inl ?_
        rw [all, div_mul_cancel₀ _ price.ne']
      · refine .inr ?_
        rw [rest]
        ring

/-- Only the last offer can leave its maker with something. -/
theorem Trace.book_fill
    (trace : Trace now (bookTaker side amount user) db fill offers after final)
    (opposite : ∀ offer ∈ offers, offer.maker.side = side.opposite)
    (within : fill.amount side ≤ amount) :
    final.amount side ≤ amount ∧
      (∀ offer ∈ offers, offer.delivered = true →
        makerSpent offer.maker offer.quantity offer.usdc ≤ offer.maker.remainingAmount ∧
          (offer.UsesUp ∨ final.amount side = amount)) ∧
      offers.Pairwise fun first _ => first.delivered = true → first.UsesUp := by
  induction trace with
  | done => exact ⟨within, by simp, .nil⟩
  | skip asked _ _ ih =>
      rw [List.forall_mem_cons] at opposite
      obtain ⟨total, each, last⟩ := ih opposite.2 within
      exact ⟨total, List.forall_mem_cons.mpr ⟨by simp, each⟩, .cons (by simp) last⟩
  | @deliver db _ fill _ maker quantity offers asked _ _ trace ih =>
      rw [List.forall_mem_cons] at opposite
      obtain ⟨covered, within', ends⟩ :=
        bookQuantity_takes opposite.1 within asked db.outcomes
      obtain ⟨total, each, last⟩ := ih opposite.2 within'
      rcases ends with all | filled
      · exact ⟨total, List.forall_mem_cons.mpr ⟨fun _ => ⟨covered, .inl all⟩, each⟩,
          .cons (fun _ _ _ => all) last⟩
      · -- The order is filled, so this was the last offer.
        cases trace with
        | done =>
            exact ⟨total, List.forall_mem_cons.mpr ⟨fun _ => ⟨covered, .inr filled⟩, each⟩,
              .cons (by simp) .nil⟩
        | skip again => exact absurd again (bookQuantity_filled filled)
        | deliver again => exact absurd again (bookQuantity_filled filled)

/-- The loop stops early for an order that is filled or at a sell's unpriced maker. -/
theorem bookQuantity_none (opened : 0 < maker.remainingAmount) (priced : 0 ≤ maker.price)
    (within : fill.amount side ≤ amount)
    (nothing : bookQuantity side amount fill maker = .ok none) :
    fill.amount side = amount ∨ side = .sell ∧ maker.price = 0 := by
  cases side with
  | buy =>
      simp only [bookQuantity] at nothing
      split at nothing
      · contradiction
      rename_i priceNe
      have price : 0 < maker.price := lt_of_le_of_ne priced (Ne.symm priceNe)
      split at nothing
      · rename_i spent
        refine .inl (le_antisymm within ?_)
        have left : (amount - fill.matchedUsdc) / maker.price * maker.price ≤ 0 :=
          mul_nonpos_of_nonpos_of_nonneg spent priced
        rw [div_mul_cancel₀ _ priceNe] at left
        exact sub_nonpos.mp left
      · rename_i buyable
        have positive := lt_min opened (not_le.mp buyable)
        rw [if_neg positive.ne'] at nothing
        cases nothing
  | sell =>
      simp only [bookQuantity] at nothing
      split at nothing
      · exact .inl (le_antisymm within (sub_nonpos.mp ‹_›))
      · rename_i wanted
        refine .inr ⟨rfl, ?_⟩
        rcases priced.lt_or_eq with price | zero
        · have positive := lt_min (div_pos opened price) (not_le.mp wanted)
          rw [if_pos price, if_neg positive.ne'] at nothing
          cases nothing
        · exact zero.symm

/-- The makers' rows: one fill for each that delivered, the others as they were. -/
theorem Trace.book_rows
    (trace : Trace now (bookTaker side amount user) db fill offers after final)
    (distinct : (offers.map fun offer => offer.maker.id).Nodup)
    (current : ∀ offer ∈ offers, db.orders.find? offer.maker.id = some offer.maker) :
    (∀ offer ∈ offers, offer.delivered = true → after.orders.find? offer.maker.id =
        some (fillMaker now (makerSpent offer.maker offer.quantity offer.usdc) offer.maker)) ∧
      ∀ id, (∀ offer ∈ offers, offer.delivered = true → offer.maker.id ≠ id) →
        after.orders.find? id = db.orders.find? id := by
  induction trace with
  | done => simp
  | skip _ _ _ ih =>
      rw [List.map_cons, List.nodup_cons] at distinct
      rw [List.forall_mem_cons] at current
      obtain ⟨rows, others⟩ := ih distinct.2 current.2
      exact ⟨List.forall_mem_cons.mpr ⟨by simp, rows⟩,
        fun id apart => others id (List.forall_mem_cons.mp apart).2⟩
  | @deliver db _ fill _ maker quantity offers _ _ _ _ ih =>
      rw [List.map_cons, List.nodup_cons] at distinct
      rw [List.forall_mem_cons] at current
      have apart : ∀ offer ∈ offers, offer.maker.id ≠ maker.id := by
        intro offer member same
        exact distinct.1 (List.mem_map.mpr ⟨offer, member, same⟩)
      have written : ∀ id, (MatchingEngine.deliver now (bookTaker side amount user) db maker
          quantity).orders.find? id =
            if id = maker.id then
              some (fillMaker now (makerSpent maker quantity (quantity * maker.price)) maker)
            else db.orders.find? id := by
        intro id
        change (db.orders.modify maker.id _ (fillMaker_id now _)).find? id = _
        split
        · rename_i here
          rw [here, Table.find?_modify_self, current.1]
          rfl
        · exact Table.find?_modify_ne ‹_›
      obtain ⟨rows, others⟩ := ih distinct.2 fun offer member => by
        rw [written, if_neg (apart offer member)]
        exact current.2 offer member
      refine ⟨List.forall_mem_cons.mpr ⟨fun _ => ?_, rows⟩, fun id other => ?_⟩
      · rw [others maker.id fun offer member _ => apart offer member, written, if_pos rfl]
        rfl
      · rw [List.forall_mem_cons] at other
        rw [others id other.2, written, if_neg (Ne.symm (other.1 rfl))]

theorem fillMaker_remaining (spent : ℚ) (order : Order) :
    (fillMaker now spent order).remainingAmount = order.remainingAmount - spent := by
  unfold fillMaker
  dsimp only
  split <;> rfl

end Book

/-! # The whole call -/

/-- What a maker has left, nothing once its row is gone. -/
def leftOf (db : Database) (maker : Order) : ℚ :=
  ((db.orders.find? maker.id).map Order.remainingAmount).getD 0

/-- A call that makes these offers fills the book by price and time, and as much as it can. -/
structure PriceTimeFill (db after : Database) (market : MarketId) (outcome : OutcomeId)
    (side : Side) (amount : ℚ) (limitPrice : Option ℚ) (user : UserId) (fill : BookFill)
    (offers : List Offer) : Prop where
  crossing : ∀ offer ∈ offers, offer.maker ∈ db.orders.rows ∧
    isMatch market outcome side limitPrice user offer.maker = true
  priority : offers.map Offer.maker <+:
    findMatches db.orders db.orders market outcome side limitPrice user
  sorted : (findMatches db.orders db.orders market outcome side limitPrice user).Pairwise
    (Precedes side)
  ownPrice : ∀ details ∈ fill.matchDetails, ∃ offer ∈ offers, offer.delivered = true ∧
    details.makerOrderId = offer.maker.id ∧ details.matchPrice = offer.maker.price ∧
      details.matchUsdc = details.matchShares * offer.maker.price
  totals : fill.matchedShares = (fill.matchDetails.map MatchDetails.matchShares).sum ∧
    fill.matchedUsdc = (fill.matchDetails.map MatchDetails.matchUsdc).sum
  budget : fill.amount side ≤ amount
  covered : ∀ offer ∈ offers, 0 ≤ leftOf after offer.maker
  untouched : ∀ id, (∀ offer ∈ offers, offer.delivered = true → offer.maker.id ≠ id) →
    after.orders.find? id = db.orders.find? id
  maximal : ∀ maker ∈ db.orders.rows, isMatch market outcome side limitPrice user maker = true →
    0 < maker.price → (∀ offer ∈ offers, offer.maker = maker → offer.delivered = true) →
      0 < leftOf after maker → fill.amount side = amount
  onePartial : ∀ first ∈ offers, ∀ second ∈ offers, first.delivered = true →
    second.delivered = true → 0 < leftOf after first.maker → 0 < leftOf after second.maker →
      first = second

section Call

variable {now : Timestamp} {db after : Database} {market : MarketId} {outcome : OutcomeId}
  {side : Side} {amount : ℚ} {limitPrice : Option ℚ} {user : UserId} {fill : BookFill}
  {offers : List Offer}

theorem deliveredSum_eq (outcomes : Table Outcome.id) (offers : List Offer) :
    deliveredSum offers Offer.quantity =
        ((deliveredDetails outcomes offers).map MatchDetails.matchShares).sum ∧
      deliveredSum offers Offer.usdc =
        ((deliveredDetails outcomes offers).map MatchDetails.matchUsdc).sum := by
  induction offers with
  | nil => exact ⟨rfl, rfl⟩
  | cons offer offers ih =>
      rw [deliveredSum_cons, deliveredSum_cons, ih.1, ih.2]
      unfold deliveredDetails
      cases delivered : offer.delivered with
      | false => simp [delivered]
      | true => simp [delivered, executedDetails, Offer.usdc]

/-- Two offers of which neither comes before the other are one. -/
theorem eq_of_pairwise {first second : Offer} {related : Offer → Prop}
    (ordered : offers.Pairwise fun before _ => related before) (isFirst : first ∈ offers)
    (isSecond : second ∈ offers) (notFirst : ¬ related first) (notSecond : ¬ related second) :
    first = second := by
  induction ordered with
  | nil => cases isFirst
  | cons heads _ ih =>
      rcases List.mem_cons.mp isFirst with rfl | laterFirst
      · rcases List.mem_cons.mp isSecond with rfl | laterSecond
        · rfl
        · exact absurd (heads _ laterSecond) notFirst
      · rcases List.mem_cons.mp isSecond with rfl | laterSecond
        · exact absurd (heads _ laterFirst) notSecond
        · exact ih laterFirst laterSecond

/-- Incoming orders fill the book by price and time.  Prices are not negative, as the table's
check constraint says. -/
theorem price_time_priority (positive : 0 < amount)
    (priced : ∀ order ∈ db.orders.rows, 0 ≤ order.price)
    (ran : matchOrderAgainstBook now db market outcome side amount limitPrice user =
      .ok (after, fill)) :
    ∃ offers, Trace now (bookTaker side amount user) db .empty offers after fill ∧
      PriceTimeFill db after market outcome side amount limitPrice user fill offers := by
  let book := findMatches db.orders db.orders market outcome side limitPrice user
  have isMaker : ∀ maker, maker ∈ book ↔
      maker ∈ db.orders.rows ∧ isMatch market outcome side limitPrice user maker = true :=
    fun maker => CacheService.mem_findMatches
  have opened : ∀ maker ∈ book, 0 < maker.remainingAmount := fun maker member =>
    (isMatch_iff.mp ((isMaker maker).mp member).2).2.2.2.2.1
  have asks : ∀ fill, ∀ maker ∈ book, ∀ quantity,
      bookQuantity side amount fill maker = .ok (some quantity) → 0 < quantity :=
    fun _ maker member _ asked => bookQuantity_pos (opened maker member) asked
  have trace := offer_trace asks ran
  obtain ⟨rest, isBook, ends⟩ := offer_ends asks ran
  set offers := plan db.outcomes (bookTaker side amount user) book (Position.held db.positions)
    .empty
  have isBook : book = offers.map Offer.maker ++ rest := isBook
  have inBook : ∀ offer ∈ offers, offer.maker ∈ book := by
    intro offer member
    rw [isBook]
    exact List.mem_append_left _ (List.mem_map_of_mem member)
  have crossing := fun offer member => (isMaker _).mp (inBook offer member)
  have sorted : book.Pairwise (Precedes side) := findMatches_sorted db.orders
  have distinct : (offers.map fun offer => offer.maker.id).Nodup := by
    have ids : (book.map Order.id).Nodup := findMatches_nodup db.orders db.orders
    rw [isBook, List.map_append, List.map_map] at ids
    exact ids.of_append_left
  obtain ⟨total, each, last⟩ := trace.book_fill
    (fun offer member => (isMatch_iff.mp (crossing offer member).2).2.2.1)
    (by cases side <;> exact positive.le)
  obtain ⟨rows, others⟩ := trace.book_rows distinct
    fun offer member => Table.find?_key_of_mem (crossing offer member).1
  have left : ∀ offer ∈ offers, offer.delivered = true → leftOf after offer.maker =
      offer.maker.remainingAmount - makerSpent offer.maker offer.quantity offer.usdc := by
    intro offer member delivered
    rw [leftOf, rows offer member delivered, Option.map_some, Option.getD_some,
      fillMaker_remaining]
  have partly : ∀ offer ∈ offers, offer.delivered = true → 0 < leftOf after offer.maker →
      ¬ offer.UsesUp := by
    intro offer member delivered something all
    rw [left offer member delivered, all, sub_self] at something
    exact lt_irrefl _ something
  obtain ⟨shares, usdc, details⟩ := trace.bookFill
  have isDetails : fill.matchDetails = deliveredDetails db.outcomes offers := details
  obtain ⟨sumShares, sumUsdc⟩ := deliveredSum_eq db.outcomes offers
  refine ⟨offers, trace, crossing, ⟨rest, isBook.symm⟩, sorted, ?ownPrice, ?totals, total, ?covered,
    others, ?maximal, ?onePartial⟩
  case ownPrice =>
    intro entry member
    rw [isDetails, deliveredDetails, List.mem_map] at member
    obtain ⟨offer, kept, rfl⟩ := member
    rw [List.mem_filter] at kept
    exact ⟨offer, kept.1, kept.2, rfl, rfl, rfl⟩
  case totals =>
    rw [isDetails, ← sumShares, ← sumUsdc]
    exact ⟨by simpa [BookFill.empty] using shares, by simpa [BookFill.empty] using usdc⟩
  case covered =>
    intro offer member
    cases delivered : offer.delivered with
    | true =>
        rw [left offer member delivered, sub_nonneg]
        exact (each offer member delivered).1
    | false =>
        have untouched := others offer.maker.id fun other otherMember isDelivered same => by
          rw [List.inj_on_of_nodup_map distinct otherMember member same, delivered] at isDelivered
          cases isDelivered
        rw [leftOf, untouched, Table.find?_key_of_mem (crossing offer member).1]
        exact (opened _ (inBook offer member)).le
  case maximal =>
    intro maker isRow matches_ price unskipped something
    have listed : maker ∈ book := (isMaker maker).mpr ⟨isRow, matches_⟩
    rw [isBook, List.mem_append] at listed
    rcases listed with reached | beyond
    · obtain ⟨offer, member, rfl⟩ := List.mem_map.mp reached
      have delivered := unskipped offer member rfl
      rcases (each offer member delivered).2 with all | filled
      · exact absurd all (partly offer member delivered something)
      · exact filled
    · -- The loop stopped at a maker that comes before this one or is it.
      cases rest with
      | nil => cases beyond
      | cons stop rest =>
          have stopMember : stop ∈ book := by
            rw [isBook]
            exact List.mem_append_right _ List.mem_cons_self
          rcases bookQuantity_none (opened stop stopMember)
            (priced stop ((isMaker stop).mp stopMember).1) total (ends stop rfl) with
              filled | ⟨rfl, unpriced⟩
          · exact filled
          · rcases List.mem_cons.mp beyond with rfl | later
            · exact absurd unpriced price.ne'
            · rw [isBook, List.pairwise_append] at sorted
              have before : Precedes .sell stop maker := (List.pairwise_cons.mp sorted.2.1).1 _ later
              rcases before with below | ⟨same, _⟩ <;> linarith
  case onePartial =>
    intro first isFirst second isSecond firstDelivered secondDelivered firstLeft secondLeft
    exact eq_of_pairwise last isFirst isSecond
      (fun all => partly first isFirst firstDelivered firstLeft (all firstDelivered))
      (fun all => partly second isSecond secondDelivered secondLeft (all secondDelivered))

end Call

/-- A buy of five USDC takes the ten shares resting at one half. -/
theorem resting_sell_is_taken :
    ∃ after fill offers, Trace 1 (bookTaker .buy 5 1) OrderService.quotedMarket .empty offers after
        fill ∧
      PriceTimeFill OrderService.quotedMarket after 1 1 .buy 5 none 1 fill offers ∧
      fill.amount .buy = 5 := by
  have traded : succeedsWith (matchOrderAgainstBook 1 OrderService.quotedMarket 1 1 .buy 5 none 1)
      (fun result => decide (result.2.amount .buy = 5)) = true := by
    decide +kernel
  obtain ⟨⟨after, fill⟩, ran, filled⟩ := succeedsWith_iff.mp traded
  obtain ⟨offers, trace, best⟩ := price_time_priority (by norm_num) (by decide +kernel) ran
  exact ⟨after, fill, offers, trace, best, of_decide_eq_true filled⟩

/-- An open buy of five USDC at a price of zero. -/
def unpricedBuy : Order :=
  { OrderService.restingSell with side := .buy, price := 0, amount := 5, remainingAmount := 5 }

def unpricedMarket : Database :=
  { OrderService.quotedMarket with orders := ⟨[unpricedBuy], by decide⟩ }

/-- A sell of ten shares makes it no offer, and ends with both unfilled. -/
theorem unpriced_buy_is_left :
    matchOrderAgainstBook 1 unpricedMarket 1 1 .sell 10 none 1 = .ok (unpricedMarket, .empty) ∧
      unpricedBuy ∈ unpricedMarket.orders.rows ∧
      isMatch 1 1 .sell none 1 unpricedBuy = true ∧
      0 < leftOf unpricedMarket unpricedBuy ∧ BookFill.empty.amount .sell ≠ 10 := by
  have book : findMatches unpricedMarket.orders unpricedMarket.orders 1 1 .sell none 1 =
      [unpricedBuy] := by decide +kernel
  have nothing : bookQuantity .sell 10 .empty unpricedBuy = .ok none := by
    norm_num [bookQuantity, BookFill.empty, unpricedBuy]
  refine ⟨?_, by decide +kernel, by decide +kernel, by decide +kernel, by decide +kernel⟩
  rw [matchOrderAgainstBook, book]
  simp only [offer, bookTaker, nothing]

end PredictX.MatchingEngine
