import PredictX.Properties.PriceTimePriority

namespace PredictX.MatchingEngine

open PredictX.Data

/-! The sweep's matcher against the taker's matcher.

The two loops ask a sell for the same number of shares.  A resting buy is asked within its budget
by one and by the other, but a resting sell takes a maker's budget of USDC for a number of shares,
which is right at a price of one and wherever the maker covers the rest of the order anyway.
-/

/-- The pair the source returns: nothing is ever appended to its list. -/
def PendingFill.returned (fill : PendingFill) : ℚ × List MatchDetails := (fill.remaining, [])

/-- The offers of each loop, to makers the call found. -/
def takerOffers (db : Database) (side : Side) (amount : ℚ) (user : UserId) (makers : List Order) :
    List Offer :=
  plan db.outcomes (bookTaker side amount user) makers (Position.held db.positions) .empty

def pendingOffers (now : Timestamp) (db : Database) (order : Order) (makers : List Order) :
    List Offer :=
  plan db.outcomes (pendingTaker now order) makers (Position.held db.positions)
    ⟨order.remainingAmount, []⟩

/-- Every maker down to the one that covers the rest of the order has a price of one. -/
def CapsAgree : List Order → ℚ → Prop
  | [], _ => True
  | maker :: makers, left =>
      left ≤ min maker.remainingAmount (maker.remainingAmount / maker.price) ∨
        maker.price = 1 ∧ CapsAgree makers (left - maker.remainingAmount)

/-- The same makers at the same quantities and prices, and what is left of the order. -/
structure SameFills (order : Order) (pending : PendingFill) (book : BookFill) : Prop where
  executed : pending.executed = book.matchDetails
  remaining : pending.remaining = order.remainingAmount - book.amount order.side

section Plan

variable {σ : Type} {outcomes : Table Outcome.id} {taker : Taker σ} {maker : Order}
  {makers : List Order} {holdings : PositionKey → ℚ} {fill : σ} {quantity : ℚ}

theorem plan_of_unasked (unasked : ∀ quantity, taker.quantity fill maker ≠ .ok (some quantity)) :
    plan outcomes taker (maker :: makers) holdings fill = [] := by
  unfold plan
  split
  · rfl
  · rfl
  · rename_i quantity asked
    exact absurd asked (unasked quantity)

theorem plan_of_asked (asked : taker.quantity fill maker = .ok (some quantity)) :
    plan outcomes taker (maker :: makers) holdings fill =
      if holdings (positionKey maker (sellerOf maker taker.userId)) < quantity then
        ⟨maker, quantity, false⟩ :: plan outcomes taker makers holdings fill
      else
        ⟨maker, quantity, true⟩ :: plan outcomes taker makers
          (moved taker.userId maker quantity holdings)
          (taker.record fill (executedDetails outcomes maker quantity)) := by
  rw [plan, asked]

/-- The plan goes on after a match that succeeds. -/
theorem plan_of_delivered (asked : taker.quantity fill maker = .ok (some quantity))
    (succeed : ∀ offer ∈ plan outcomes taker (maker :: makers) holdings fill,
      offer.delivered = true) :
    plan outcomes taker (maker :: makers) holdings fill =
      ⟨maker, quantity, true⟩ :: plan outcomes taker makers
        (moved taker.userId maker quantity holdings)
        (taker.record fill (executedDetails outcomes maker quantity)) := by
  rw [plan_of_asked asked] at succeed ⊢
  split at succeed
  · have delivered := succeed _ List.mem_cons_self
    cases delivered
  · rw [if_neg ‹_›]

end Plan

section Quantities

variable {now : Timestamp} {outcomes : Table Outcome.id} {order maker : Order}
  {makers : List Order} {holdings : PositionKey → ℚ} {amount : ℚ} {book : BookFill}
  {pending : PendingFill}

/-- Both loops ask a sell for the same shares, or neither asks. -/
theorem buy_quantities (opened : 0 < maker.remainingAmount) (left : 0 ≤ pending.remaining)
    (same : pending.remaining = amount - book.matchedUsdc) :
    (∃ quantity, bookQuantity .buy amount book maker = .ok (some quantity) ∧
        pendingQuantity .buy pending maker = some quantity ∧
        quantity * maker.price ≤ pending.remaining) ∨
      (∀ quantity, bookQuantity .buy amount book maker ≠ .ok (some quantity)) ∧
        pendingQuantity .buy pending maker = none := by
  simp only [bookQuantity, pendingQuantity, ← same]
  rcases lt_trichotomy maker.price 0 with below | unpriced | price
  · have buyable : pending.remaining / maker.price ≤ 0 := div_nonpos_of_nonneg_of_nonpos left below.le
    rw [if_neg below.ne, if_pos buyable, if_neg below.not_gt, min_eq_right opened.le]
    simp
  · rw [if_pos unpriced, unpriced, if_neg (lt_irrefl _), min_eq_right opened.le]
    simp
  · rw [if_neg price.ne', if_pos price]
    rcases left.lt_or_eq with some_ | nothing
    · have buyable := div_pos some_ price
      have positive := lt_min opened buyable
      rw [if_neg (not_le.mpr buyable), if_neg positive.ne', if_neg (not_le.mpr some_),
        if_neg (not_le.mpr positive)]
      exact .inl ⟨_, rfl, rfl, (le_div_iff₀ price).mp (min_le_right _ _)⟩
    · simp [← nothing]

/-- A resting buy goes down the book as an incoming one does. -/
theorem plan_of_buy (buying : order.side = .buy) (opened : ∀ maker ∈ makers, 0 < maker.remainingAmount)
    (left : 0 ≤ pending.remaining) (same : pending.remaining = amount - book.matchedUsdc) :
    plan outcomes (pendingTaker now order) makers holdings pending =
      plan outcomes (bookTaker .buy amount order.userId) makers holdings book := by
  induction makers generalizing holdings book pending with
  | nil => rfl
  | cons maker makers ih =>
      rw [List.forall_mem_cons] at opened
      rcases buy_quantities opened.1 left same with
        ⟨quantity, asked, pendingAsked, paid⟩ | ⟨none_, stop⟩
      · have here : (pendingTaker now order).quantity pending maker = .ok (some quantity) := by
          simp only [pendingTaker, buying, pendingAsked]
        have there : (bookTaker .buy amount order.userId).quantity book maker =
          .ok (some quantity) := asked
        have recorded : (pendingTaker now order).record pending
            (executedDetails outcomes maker quantity) =
              ⟨pending.remaining - quantity * maker.price,
                pending.executed ++ [executedDetails outcomes maker quantity]⟩ := by
          simp only [pendingTaker, buying, takerSpent, executedDetails]
        have delivered := @ih (moved order.userId maker quantity holdings)
          (book.add (executedDetails outcomes maker quantity))
          ⟨pending.remaining - quantity * maker.price,
            pending.executed ++ [executedDetails outcomes maker quantity]⟩ opened.2
          (sub_nonneg.mpr paid) (by simp only [BookFill.add, executedDetails]; linarith)
        have skipped := @ih holdings book pending opened.2 left same
        rw [← recorded] at delivered
        rw [plan_of_asked here, plan_of_asked there, skipped]
        exact congrArg (ite _ _) (congrArg (List.cons _) delivered)
      · have stops : ∀ quantity,
            (pendingTaker now order).quantity pending maker ≠ .ok (some quantity) := by
          intro quantity asked
          simp only [pendingTaker, buying, stop] at asked
          cases asked
        rw [plan_of_unasked stops]
        exact (plan_of_unasked none_).symm

theorem sell_quantities (opened : 0 < maker.remainingAmount) (price : 0 < maker.price)
    (left : 0 < pending.remaining) (same : pending.remaining = amount - book.matchedShares) :
    bookQuantity .sell amount book maker =
        .ok (some (min (maker.remainingAmount / maker.price) pending.remaining)) ∧
      pendingQuantity .sell pending maker =
        some (min maker.remainingAmount pending.remaining) := by
  have affordable := div_pos opened price
  simp only [bookQuantity, pendingQuantity, ← same]
  rw [if_neg (not_le.mpr left), if_neg (not_le.mpr left), if_pos price,
    if_neg (lt_min affordable left).ne', if_neg (not_le.mpr (lt_min opened left))]
  exact ⟨rfl, rfl⟩

theorem sell_done (left : pending.remaining ≤ 0)
    (same : pending.remaining = amount - book.matchedShares) :
    bookQuantity .sell amount book maker = .ok none ∧
      pendingQuantity .sell pending maker = none := by
  simp only [bookQuantity, pendingQuantity, ← same]
  rw [if_pos left, if_pos left]
  exact ⟨rfl, rfl⟩

/-- The two caps of one maker are equal at a price of one and where the maker covers the rest. -/
theorem caps_eq_iff {remaining price left : ℚ} (opened : 0 < remaining) (priced : 0 < price) :
    min (remaining / price) left = min remaining left ↔
      left ≤ min remaining (remaining / price) ∨ price = 1 := by
  constructor
  · intro same
    by_cases covers : left ≤ min remaining (remaining / price)
    · exact .inl covers
    · refine .inr ?_
      have equal : remaining / price = remaining := by
        rcases le_total (remaining / price) left with shares | shares
        · rw [min_eq_left shares] at same
          rcases le_total remaining left with budget | budget
          · rwa [min_eq_left budget] at same
          · rw [min_eq_right budget] at same
            exact absurd (le_min budget same.ge) covers
        · rw [min_eq_right shares] at same
          exact absurd (le_min (same.le.trans (min_le_left _ _)) shares) covers
      rw [div_eq_iff priced.ne'] at equal
      have scaled : remaining * (price - 1) = 0 := by linarith
      rcases mul_eq_zero.mp scaled with none_ | one
      · exact absurd none_ opened.ne'
      · linarith
  · rintro (covers | rfl)
    · rw [min_eq_right (covers.trans (min_le_right _ _)),
        min_eq_right (covers.trans (min_le_left _ _))]
    · rw [div_one]

theorem capsAgree_filled (opened : ∀ maker ∈ makers, 0 < maker.remainingAmount)
    (priced : ∀ maker ∈ makers, 0 < maker.price) {left : ℚ} (nothing : left ≤ 0) :
    CapsAgree makers left := by
  cases makers with
  | nil => trivial
  | cons maker makers =>
      rw [List.forall_mem_cons] at opened priced
      exact .inl (nothing.trans (le_min opened.1.le (div_nonneg opened.1.le priced.1.le)))

/-- A resting sell goes down the book as an incoming one does as long as the caps agree. -/
theorem plan_of_sell_iff (selling : order.side = .sell)
    (opened : ∀ maker ∈ makers, 0 < maker.remainingAmount)
    (priced : ∀ maker ∈ makers, 0 < maker.price)
    (same : pending.remaining = amount - book.matchedShares)
    (succeed : ∀ offer ∈ plan outcomes (pendingTaker now order) makers holdings pending,
      offer.delivered = true)
    (bookSucceeds : ∀ offer ∈ plan outcomes (bookTaker .sell amount order.userId) makers holdings
      book, offer.delivered = true) :
    plan outcomes (pendingTaker now order) makers holdings pending =
        plan outcomes (bookTaker .sell amount order.userId) makers holdings book ↔
      CapsAgree makers pending.remaining := by
  induction makers generalizing holdings book pending with
  | nil => exact iff_of_true rfl trivial
  | cons maker makers ih =>
      have openedAll := opened
      have pricedAll := priced
      rw [List.forall_mem_cons] at opened priced
      rcases le_or_gt pending.remaining 0 with nothing | left
      · have both : bookQuantity .sell amount book maker = .ok none ∧
            pendingQuantity .sell pending maker = none := sell_done nothing same
        obtain ⟨done, pendingDone⟩ := both
        have stops : ∀ quantity,
            (pendingTaker now order).quantity pending maker ≠ .ok (some quantity) := by
          simp [pendingTaker, selling, pendingDone]
        have bookStops : ∀ quantity, (bookTaker .sell amount order.userId).quantity book maker ≠
            .ok (some quantity) := by
          simp [bookTaker, done]
        rw [plan_of_unasked stops, plan_of_unasked bookStops]
        exact iff_of_true rfl (capsAgree_filled openedAll pricedAll nothing)
      · obtain ⟨asked, pendingAsked⟩ := sell_quantities opened.1 priced.1 left same
        have here : (pendingTaker now order).quantity pending maker =
            .ok (some (min maker.remainingAmount pending.remaining)) := by
          simp only [pendingTaker, selling, pendingAsked]
        have there : (bookTaker .sell amount order.userId).quantity book maker =
          .ok (some (min (maker.remainingAmount / maker.price) pending.remaining)) := asked
        have pendingPlan := plan_of_delivered here succeed
        have bookPlan := plan_of_delivered there bookSucceeds
        rw [pendingPlan, List.forall_mem_cons] at succeed
        rw [bookPlan, List.forall_mem_cons] at bookSucceeds
        rw [pendingPlan, bookPlan, CapsAgree]
        by_cases caps : min (maker.remainingAmount / maker.price) pending.remaining =
            min maker.remainingAmount pending.remaining
        · rw [caps] at bookSucceeds ⊢
          set quantity := min maker.remainingAmount pending.remaining
          have recorded : (pendingTaker now order).record pending
              (executedDetails outcomes maker quantity) =
                ⟨pending.remaining - quantity,
                  pending.executed ++ [executedDetails outcomes maker quantity]⟩ := by
            simp only [pendingTaker, selling, takerSpent, executedDetails]
          rw [recorded] at succeed ⊢
          have tails := @ih (moved order.userId maker quantity holdings)
            (book.add (executedDetails outcomes maker quantity))
            ⟨pending.remaining - quantity,
              pending.executed ++ [executedDetails outcomes maker quantity]⟩ opened.2 priced.2
            (by simp only [BookFill.add, executedDetails]; linarith) succeed.2 bookSucceeds.2
          rw [List.cons.injEq, and_iff_right rfl]
          refine tails.trans ?_
          dsimp only
          by_cases covers : pending.remaining ≤
              min maker.remainingAmount (maker.remainingAmount / maker.price)
          · have all : quantity = pending.remaining :=
              min_eq_right (covers.trans (min_le_left _ _))
            rw [all, sub_self]
            exact iff_of_true (capsAgree_filled opened.2 priced.2 le_rfl) (.inl covers)
          · have one : maker.price = 1 :=
              ((caps_eq_iff opened.1 priced.1).mp caps).resolve_left covers
            have budget : quantity = maker.remainingAmount := by
              rw [one, div_one, min_self, not_le] at covers
              exact min_eq_left covers.le
            rw [budget, or_iff_right covers, and_iff_right one]
        · refine iff_of_false (fun equal => ?_) ?_
          · have heads := (List.cons.inj equal).1
            exact caps (congrArg Offer.quantity heads).symm
          · rintro (covers | ⟨one, _⟩)
            · exact caps ((caps_eq_iff opened.1 priced.1).mpr (.inl covers))
            · exact caps ((caps_eq_iff opened.1 priced.1).mpr (.inr one))

end Quantities

/-! # The fills -/

section Fills

variable {now : Timestamp} {db after taken : Database} {order : Order} {market : MarketId}
  {outcome : OutcomeId} {offers others : List Offer}

theorem deliveredDetails_of_succeed (outcomes : Table Outcome.id)
    (succeed : ∀ offer ∈ offers, offer.delivered = true) :
    deliveredDetails outcomes offers =
      offers.map fun offer => executedDetails outcomes offer.maker offer.quantity := by
  rw [deliveredDetails, List.filter_eq_self.mpr succeed]

/-- The reports of two lists of matches with one book tell the matches. -/
theorem offers_of_details {outcomes : Table Outcome.id} {makers : List Order}
    (distinct : (makers.map Order.id).Nodup)
    (within : ∀ offer ∈ offers, offer.maker ∈ makers ∧ offer.delivered = true)
    (othersWithin : ∀ offer ∈ others, offer.maker ∈ makers ∧ offer.delivered = true)
    (same : (offers.map fun offer => executedDetails outcomes offer.maker offer.quantity) =
      others.map fun offer => executedDetails outcomes offer.maker offer.quantity) :
    offers = others := by
  induction offers generalizing others with
  | nil => exact (List.map_eq_nil_iff.mp same.symm).symm
  | cons offer offers ih =>
      cases others with
      | nil => cases same
      | cons other others =>
          rw [List.forall_mem_cons] at within othersWithin
          obtain ⟨head, tail⟩ := List.cons.inj same
          have maker : offer.maker = other.maker :=
            List.inj_on_of_nodup_map distinct within.1.1 othersWithin.1.1
              (congrArg MatchDetails.makerOrderId head)
          have quantity : offer.quantity = other.quantity :=
            congrArg MatchDetails.matchShares head
          have delivered : offer.delivered = other.delivered :=
            within.1.2.trans othersWithin.1.2.symm
          rw [ih within.2 othersWithin.2 tail]
          cases offer
          cases other
          simp only [Offer.mk.injEq, List.cons.injEq, and_true] at maker quantity delivered ⊢
          exact ⟨maker, quantity, delivered⟩

end Fills

/-- An open buy of two USDC at one half, next to the resting sell. -/
def crossedBuy : Order :=
  { OrderService.restingSell with
    id := 2, userId := 1, side := .buy, amount := 2, remainingAmount := 2 }

def crossedMarket : Database :=
  { OrderService.quotedMarket with
    orders := ⟨[OrderService.restingSell, crossedBuy], by decide⟩ }

end PredictX.MatchingEngine
