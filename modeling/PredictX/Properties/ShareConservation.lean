import PredictX.Services.StoredShares

namespace PredictX.OrderService

open PredictX.Data PredictX.Amm PredictX.MatchingEngine

/-! Shares across one order.

Book matches move shares, and only the AMM mints or burns them.  Step 7 credits a
buyer with the whole fill, although the matching engine has already handed over the
matched part; so a buy that took shares from the book and went on to the fill path
leaves those shares in circulation twice.

The shares are counted as the columns keep them.  A seller asks each buyer for a quotient,
and every position is rounded by itself.
-/

/-- A quantity that counts for buys only. -/
def ofBuy (side : Side) (quantity : ℚ) : ℚ :=
  match side with
  | .buy => quantity
  | .sell => 0

@[simp] theorem ofBuy_buy (quantity : ℚ) : ofBuy .buy quantity = quantity := rfl

@[simp] theorem ofBuy_sell (quantity : ℚ) : ofBuy .sell quantity = 0 := rfl

/-- What the AMM leg may add to the traded outcome. -/
def mintedShares : Option AmmLeg → ℚ
  | none => 0
  | some leg =>
      match leg.side with
      | .buy => leg.quote.sharesOut
      | .sell => -leg.quantity

/-- The traded outcome's stored total moves by the AMM leg and no other outcome moves. -/
def SharesConserved (db : Database) (user : UserId) (outcome : OutcomeId)
    (execution : Execution) : Prop :=
  storedSharesOf db.positions (firstShares user execution) execution.db.positions outcome =
      Position.sharesOf db.positions outcome + mintedShares execution.ammLeg ∧
    ∀ key : PositionKey, key.outcomeId ≠ outcome →
      execution.db.positions.find? key = db.positions.find? key

/-- The order is a repeat or a sell, or none of the makers it reaches can deliver, or
what the book leaves of it rests. -/
def CreditedOnce (db : Database) (user : UserId) (venue : Venue) (data : OrderRequest) : Prop :=
  (duplicateOf db user data).isSome ∨ data.side = .sell ∨
    (∀ offer ∈ bookPlan db user venue data, offer.delivered = false) ∨
    (0 < plannedRemainder db user venue data ∧ route venue data = .ok .rest)

/-- What she trades first. -/
def tradedFirst (offers : List Offer) (maker : UserId) : ℚ :=
  (((offers.filter Offer.delivered).find? fun offer => offer.maker.userId = maker).map
    Offer.quantity).getD 0

/-- What the column keeps of the shares that a maker buys: all of them are added to a row that
is there, and a row that is not is inserted with the first. -/
def keptGain (positions : Table Position.key) (venue : Venue) (offers : List Offer)
    (maker : UserId) : ℚ :=
  if (positions.find? (venue.positionKey maker)).isSome then
    toNumeric scale (tradedBy offers maker)
  else
    toNumeric scale (tradedFirst offers maker) +
      toNumeric scale (tradedBy offers maker - tradedFirst offers maker)

/-- The makers' columns keep together what the seller's gives up: if the rest of her order waits,
that is rounded too, and if it is sold, her column is left with a stored amount. -/
def GainsAddUp (db : Database) (user : UserId) (venue : Venue) (data : OrderRequest) : Prop :=
  let offers := bookPlan db user venue data
  ∑ maker ∈ makersOf offers, keptGain db.positions venue offers maker =
    match route venue data with
    | .ok .rest => numericFall scale (deliveredSum offers Offer.quantity)
    | _ => deliveredSum offers Offer.quantity

/-- Two buyers with a dollar each at 0.37: their columns keep a unit less than is given up. -/
example : 2 * toNumeric scale (100 / 37) ≠ numericFall scale (2 * (100 / 37)) := by decide +kernel

/-- The order is a repeat; or it is a sell whose buyers' roundings cancel; or it is a buy, and
none of the makers it reaches can deliver, or what the book leaves of it rests. -/
def SharesAddUp (db : Database) (user : UserId) (venue : Venue) (data : OrderRequest) : Prop :=
  (duplicateOf db user data).isSome ∨
    match data.side with
    | .buy =>
        (∀ offer ∈ bookPlan db user venue data, offer.delivered = false) ∨
          (0 < plannedRemainder db user venue data ∧ route venue data = .ok .rest)
    | .sell => GainsAddUp db user venue data

/-- The tables hold what their columns and checks let in. -/
structure Columns (db : Database) : Prop where
  shares : ∀ row ∈ db.positions.rows, OnGrid scale row.sharesHeld ∧ 0 ≤ row.sharesHeld
  remaining : ∀ order ∈ db.orders.rows, OnGrid scale order.remainingAmount
  price : ∀ order ∈ db.orders.rows, order.price ≤ 1

variable {env : Env} {db : Database} {user : UserId} {venue : Venue} {data : OrderRequest}
  {execution : Execution}

/-- The positions after a fill: a buy is credited all of it, matched part included. -/
theorem finish_positions {fill : Fill}
    (finished : finish env db user venue data fill = .ok execution) :
    execution.db.positions =
      creditFill db.positions user venue data.side fill.totalShares fill.spent := by
  rw [(finish_ok finished).1, creditReferral_positions]
  rfl

theorem creditFill_counted (positions : Table Position.key) (side : Side) (shares cost : ℚ)
    (counts : MarketId → OutcomeId → Bool) :
    Position.counted (creditFill positions user venue side shares cost) counts =
      Position.counted positions counts +
        if counts venue.market.id venue.outcome.id then ofBuy side shares else 0 := by
  cases side with
  | sell => simp [creditFill]
  | buy => exact Position.counted_acquire

theorem creditFill_find? {positions : Table Position.key} {side : Side} {shares cost : ℚ}
    {key : PositionKey} (other : key.outcomeId ≠ venue.outcome.id) :
    (creditFill positions user venue side shares cost).find? key = positions.find? key := by
  cases side with
  | sell => rfl
  | buy =>
      refine Position.find?_acquire_ne ?_
      rintro rfl
      exact other rfl

/-- An AMM leg burns what a seller hands in; what it mints is credited by step 7. -/
theorem runAmmLeg_counted {matched traded : Database} {leg : AmmLeg} {remaining : ℚ} {side : Side}
    (positive : 0 < remaining)
    (ran : runAmmLeg matched user venue side remaining = .ok (traded, leg))
    (counts : MarketId → OutcomeId → Bool) :
    leg.side = side ∧
      (Position.counted traded.positions counts +
          (if counts venue.market.id venue.outcome.id then ofBuy side leg.quote.sharesOut else 0) =
        Position.counted matched.positions counts +
          if counts venue.market.id venue.outcome.id then mintedShares (some leg) else 0) ∧
      ∀ key : PositionKey, key.outcomeId ≠ venue.outcome.id →
        traded.positions.find? key = matched.positions.find? key := by
  cases side with
  | buy =>
      obtain ⟨_, _, _, _, isBuy, _, rfl⟩ := ammBuy_ok ran
      exact ⟨isBuy, by simp [mintedShares, isBuy], fun _ _ => rfl⟩
  | sell =>
      obtain ⟨holds, _, isSell, quantity, _, rfl⟩ := ammSell_ok ran
      obtain ⟨position, found⟩ := Position.exists_of_held_pos (positive.trans_le holds)
      refine ⟨isSell, ?_, ?_⟩
      · dsimp only
        rw [Position.counted_dispose found]
        cases member : counts venue.market.id venue.outcome.id <;>
          simp [Venue.positionKey, mintedShares, isSell, quantity, member, sub_eq_add_neg]
      · intro key other
        refine Position.find?_dispose_ne ?_
        rintro rfl
        exact other rfl

/-- On the fill path the traded outcome gains the AMM's shares and, for a buy, the
matched shares a second time. -/
theorem fill_counted {matched : Database} {book : BookFill} {leg : Option AmmLeg}
    {traded : Database}
    (moved : (leg = none ∧ traded = matched) ∨ ∃ amm remaining, leg = some amm ∧ 0 < remaining ∧
      runAmmLeg matched user venue data.side remaining = .ok (traded, amm))
    (finished : finish env traded user venue data ⟨book, leg⟩ = .ok execution)
    (counts : MarketId → OutcomeId → Bool) :
    Position.counted execution.db.positions counts =
        Position.counted matched.positions counts +
          (if counts venue.market.id venue.outcome.id then
            mintedShares execution.ammLeg + ofBuy data.side book.matchedShares else 0) ∧
      ∀ key : PositionKey, key.outcomeId ≠ venue.outcome.id →
        execution.db.positions.find? key = matched.positions.find? key := by
  rw [finish_positions finished, (finish_ok finished).2.2.1, creditFill_counted]
  rcases moved with ⟨rfl, rfl⟩ | ⟨amm, remaining, rfl, positive, ran⟩
  · refine ⟨?_, fun key other => creditFill_find? other⟩
    cases data.side <;> simp [mintedShares, Fill.totalShares, AmmLeg.total]
  · obtain ⟨side, total, others⟩ := runAmmLeg_counted positive ran counts
    refine ⟨?_, fun key other => (creditFill_find? other).trans (others key other)⟩
    cases taken : data.side with
    | buy =>
        rw [taken] at side total
        simp only [ofBuy_buy, Fill.totalShares, AmmLeg.total, Option.map_some, Option.getD_some,
          AmmLeg.shares, side] at total ⊢
        by_cases counted : counts venue.market.id venue.outcome.id = true
        · simp only [counted, if_true] at total ⊢
          linarith
        · simpa [counted] using total
    | sell =>
        rw [taken] at total
        simpa using total

/-! # Sells -/

section Sells

variable {now : Timestamp} {amount : ℚ} {matched after : Database} {book fill final : BookFill}
  {offers whole last : List Offer} {market : MarketId} {outcome : OutcomeId}
  {positions : Table Position.key} {legShares : ℚ}

/-- The book takes no more shares than are offered. -/
theorem trace_sold (trace : Trace now (bookTaker .sell amount user) db fill offers after final)
    (within : fill.matchedShares ≤ amount) : final.matchedShares ≤ amount := by
  induction trace with
  | done => exact within
  | skip _ _ _ ih => exact ih within
  | @deliver _ _ fill _ maker quantity _ asked _ _ _ ih =>
      have taken : bookQuantity .sell amount fill maker = .ok (some quantity) := asked
      have fits := (bookQuantity_fits (by simp) taken).2
      refine ih ?_
      simp only [bookTaker, BookFill.add, executedDetails]
      linarith [fits.2]

theorem held_columns (columns : Columns db) (key : PositionKey) :
    OnGrid scale (Position.held db.positions key) ∧ 0 ≤ Position.held db.positions key := by
  cases found : db.positions.find? key with
  | none =>
      have zero : Position.held db.positions key = 0 := by simp [Position.held, found]
      rw [zero]
      exact ⟨(onGrid_iff scale_pos).mpr ⟨0, by simp⟩, le_rfl⟩
  | some row =>
      rw [Position.held_eq found]
      exact columns.shares row (Table.mem_of_find? found)

theorem tradedFirst_le (positive : ∀ offer ∈ offers, 0 < offer.quantity) (maker : UserId) :
    0 ≤ tradedFirst offers maker ∧ tradedFirst offers maker ≤ tradedBy offers maker := by
  unfold tradedFirst
  cases found : (offers.filter Offer.delivered).find? fun offer => offer.maker.userId = maker with
  | none => exact ⟨le_rfl, tradedBy_nonneg positive maker⟩
  | some offer =>
      obtain ⟨member, delivered⟩ := List.mem_filter.mp (List.mem_of_find?_eq_some found)
      have isMaker : offer.maker.userId = maker := by simpa using List.find?_some found
      exact ⟨(positive offer member).le, isMaker ▸ quantity_le_tradedBy positive member delivered⟩

/-- A maker who buys is inserted with her first match. -/
theorem firstShares_maker (makers : AreMakers market outcome .sell user offers)
    (details : execution.matchDetails = deliveredDetails db.outcomes offers) {maker : UserId}
    (member : maker ∈ makersOf offers) :
    firstShares user execution maker = tradedFirst offers maker := by
  obtain ⟨offer, isOffer, delivered, isMaker⟩ := mem_makersOf.mp member
  have same : ∀ some_ : List Offer, (∀ offer ∈ some_, offer ∈ offers) →
      (some_.map fun offer => executedDetails db.outcomes offer.maker offer.quantity).find?
        (fun details => buyerIn user details = maker) =
      (some_.find? fun offer => offer.maker.userId = maker).map fun offer =>
        executedDetails db.outcomes offer.maker offer.quantity := by
    intro some_
    induction some_ with
    | nil => intro _; rfl
    | cons head rest ih =>
        intro within
        have buys : head.maker.side = .buy := (makers head (within head List.mem_cons_self)).2.2.1
        have later := ih fun other member => within other (List.mem_cons_of_mem _ member)
        rw [List.map_cons, List.find?_cons, List.find?_cons]
        have buyer : buyerIn user (executedDetails db.outcomes head.maker head.quantity) =
            head.maker.userId := by
          simp only [buyerIn, executedDetails, buys]
        rw [buyer]
        split
        · rfl
        · exact later
  have present : ((offers.filter Offer.delivered).find? fun offer =>
      offer.maker.userId = maker).isSome = true := by
    rw [List.find?_isSome]
    exact ⟨offer, List.mem_filter.mpr ⟨isOffer, delivered⟩, by simpa using isMaker⟩
  obtain ⟨first, isFirst⟩ := Option.isSome_iff_exists.mp present
  unfold firstShares tradedFirst
  rw [details, deliveredDetails, same _ fun offer inFilter => List.mem_of_mem_filter inFilter,
    isFirst]
  rfl

theorem storedAt_gain (columns : Columns db) (positive : ∀ offer ∈ offers, 0 < offer.quantity)
    {first : UserId → ℚ} {maker : UserId} (isFirst : first maker = tradedFirst offers maker)
    (held : Position.held positions (venue.positionKey maker) =
      Position.held db.positions (venue.positionKey maker) + tradedBy offers maker) :
    storedAt db.positions positions first (venue.positionKey maker) -
      Position.held db.positions (venue.positionKey maker) =
        keptGain db.positions venue offers maker := by
  obtain ⟨firstNonneg, firstLe⟩ := tradedFirst_le positive maker
  obtain ⟨grid, nonneg⟩ := held_columns columns (venue.positionKey maker)
  unfold storedAt keptGain
  rw [held, show (venue.positionKey maker).userId = maker from rfl, isFirst]
  split
  · rw [toNumeric_add scale_pos grid nonneg (firstNonneg.trans firstLe)]
    ring
  · rename_i absent
    have none_ : db.positions.find? (venue.positionKey maker) = none := by simpa using absent
    have zero : Position.held db.positions (venue.positionKey maker) = 0 := by
      simp [Position.held, none_]
    rw [zero, zero_add, sub_zero, toNumeric_add scale_pos (onGrid_toNumeric scale_pos _)
      (toNumeric_nonneg firstNonneg) (sub_nonneg.mpr firstLe)]

/-- A row that gives shares up loses what its column does not keep of the rest. -/
theorem storedAt_loss (columns : Columns db) (first : UserId → ℚ) {key : PositionKey} {sold : ℚ}
    (row : (db.positions.find? key).isSome = true)
    (enough : sold ≤ Position.held db.positions key)
    (left : Position.held positions key = Position.held db.positions key - sold) :
    storedAt db.positions positions first key - Position.held db.positions key =
      -numericFall scale sold := by
  rw [storedAt, if_pos row, left, toNumeric_sub_eq scale_pos (held_columns columns key).1 enough]
  ring

/-- A maker's position stays as the loop left it. -/
theorem held_maker {σ : Type} {taker : Taker σ} {fill final : σ} {side : Side}
    (trace : Trace now taker db fill offers matched final)
    (positive : ∀ offer ∈ offers, 0 < offer.quantity)
    (makers : AreMakers venue.market.id venue.outcome.id side taker.userId offers)
    (others : ∀ key, key ≠ venue.positionKey taker.userId →
      positions.find? key = matched.positions.find? key)
    {maker : UserId} (member : maker ∈ makersOf offers) :
    Position.held positions (venue.positionKey maker) =
      Position.held db.positions (venue.positionKey maker) +
        shareSign side * -tradedBy offers maker := by
  have other : maker ≠ taker.userId := by
    rintro rfl
    exact taker_notMem_makersOf makers member
  have notTaker : venue.positionKey maker ≠ venue.positionKey taker.userId :=
    fun same => other (congrArg PositionKey.userId same)
  have moved := trace_held trace positive makers maker
  rw [if_neg other] at moved
  rw [Position.held, others _ notTaker, ← Position.held]
  exact moved

/-- The stored total after a sell. -/
theorem sell_total (columns : Columns db) (selling : data.side = .sell)
    (trace : Trace env.now (bookTaker data.side data.amount user) db .empty
      (bookPlan db user venue data) matched book)
    (details : execution.matchDetails = deliveredDetails db.outcomes (bookPlan db user venue data))
    (keys : ∀ key, (positions.find? key).isSome = (matched.positions.find? key).isSome)
    (others : ∀ key, key ≠ venue.positionKey user →
      positions.find? key = matched.positions.find? key)
    (left : Position.held positions (venue.positionKey user) =
      Position.held matched.positions (venue.positionKey user) - legShares)
    (holds : data.amount ≤ Position.held db.positions (venue.positionKey user))
    (covered : deliveredSum (bookPlan db user venue data) Offer.quantity + legShares ≤
      data.amount) :
    storedSharesOf db.positions (firstShares user execution) positions venue.outcome.id =
      Position.sharesOf db.positions venue.outcome.id -
        numericFall scale (deliveredSum (bookPlan db user venue data) Offer.quantity + legShares) +
        ∑ maker ∈ makersOf (bookPlan db user venue data),
          keptGain db.positions venue (bookPlan db user venue data) maker := by
  have makers := bookPlan_makers db user venue data
  have positive : ∀ offer ∈ bookPlan db user venue data, 0 < offer.quantity :=
    fun offer member => (bookPlan_positive trace offer member).1
  rw [selling] at makers
  have held := trace_held trace positive makers
  set offers := bookPlan db user venue data
  have buyerKey : ∀ offer ∈ offers,
      positionKey offer.maker (buyerOf offer.maker user) =
        venue.positionKey offer.maker.userId := by
    intro offer member
    obtain ⟨market, outcome, side, _⟩ := makers offer member
    have buys : offer.maker.side = .buy := side
    simp only [positionKey, buyerOf, buys, market, outcome, Venue.positionKey]
  have takerRow : (db.positions.find? (venue.positionKey user)).isSome = true := by
    obtain ⟨row, found⟩ := Position.exists_of_held_pos (data.amount_pos.trans_le holds)
    simp [found]
  have present : ∀ maker ∈ makersOf offers,
      (matched.positions.find? (venue.positionKey maker)).isSome = true := by
    intro maker member
    obtain ⟨offer, isOffer, delivered, rfl⟩ := mem_makersOf.mp member
    rw [trace_isSome_position trace]
    exact .inr ⟨offer, isOffer, delivered, (buyerKey offer isOffer).symm⟩
  have rows : ∀ key, (positions.find? key).isSome = true ↔
      (matched.positions.find? key).isSome = true ∨ key = venue.positionKey user := by
    intro key
    rw [keys]
    refine ⟨.inl, fun either => either.elim id ?_⟩
    rintro rfl
    exact (trace_isSome_position trace _).mpr (.inl takerRow)
  rw [stored_order_total _ trace makers (fun row member => (columns.shares row member).1) rows
    others present]
  change _ + (storedAt _ _ _ (venue.positionKey user) - Position.held _ (venue.positionKey user) +
    ∑ maker ∈ makersOf offers, (storedAt _ _ _ (venue.positionKey maker) -
      Position.held _ (venue.positionKey maker))) = _
  have takerTerm : storedAt db.positions positions (firstShares user execution)
      (venue.positionKey user) - Position.held db.positions (venue.positionKey user) =
      -numericFall scale (deliveredSum offers Offer.quantity + legShares) := by
    have here : Position.held positions (venue.positionKey user) =
        Position.held db.positions (venue.positionKey user) -
          (deliveredSum offers Offer.quantity + legShares) := by
      rw [left, show Position.held matched.positions (venue.positionKey user) = _ from held user]
      simp only [bookTaker, if_true, shareSign, Venue.positionKey]
      ring
    exact storedAt_loss columns _ takerRow (covered.trans holds) here
  have makerTerms : ∑ maker ∈ makersOf offers,
      (storedAt db.positions positions (firstShares user execution) (venue.positionKey maker) -
        Position.held db.positions (venue.positionKey maker)) =
      ∑ maker ∈ makersOf offers, keptGain db.positions venue offers maker := by
    refine Finset.sum_congr rfl fun maker member => ?_
    refine storedAt_gain columns positive (firstShares_maker makers details member) ?_
    rw [held_maker trace positive makers others member, shareSign, neg_mul_neg, one_mul]
  rw [takerTerm, makerTerms]
  ring

theorem onGrid_tradedBy {maker : UserId} (split : offers.filter Offer.delivered = whole ++ last)
    (grid : ∀ offer ∈ whole, OnGrid scale offer.quantity)
    (apart : ∀ offer ∈ last, offer.maker.userId ≠ maker) :
    OnGrid scale (tradedBy offers maker) := by
  rw [tradedBy, deliveredSum_eq_filter, split]
  refine List.sum_induction (OnGrid scale) (fun _ _ => OnGrid.add scale_pos)
    (onGrid_zero scale_pos) fun number member => ?_
  obtain ⟨offer, isOffer, rfl⟩ := List.mem_map.mp member
  split
  · rename_i isMaker
    rcases List.mem_append.mp isOffer with inWhole | inLast
    · exact grid offer inWhole
    · exact absurd isMaker (apart offer inLast)
  · exact onGrid_zero scale_pos

/-- Without decimals beyond the eighth the columns keep the shares as they are. -/
theorem gainsAddUp_of_onGrid (grid : ∀ offer ∈ bookPlan db user venue data,
    offer.delivered = true → OnGrid scale offer.quantity) : GainsAddUp db user venue data := by
  unfold GainsAddUp
  set offers := bookPlan db user venue data
  have filtered : ∀ offer ∈ offers.filter Offer.delivered, OnGrid scale offer.quantity := by
    intro offer member
    obtain ⟨isOffer, delivered⟩ := List.mem_filter.mp member
    exact grid offer isOffer delivered
  have traded : ∀ maker, OnGrid scale (tradedBy offers maker) := fun maker =>
    onGrid_tradedBy (List.append_nil _).symm filtered (by simp)
  have firsts : ∀ maker, OnGrid scale (tradedFirst offers maker) := by
    intro maker
    unfold tradedFirst
    cases found : (offers.filter Offer.delivered).find? fun offer => offer.maker.userId = maker with
    | none => exact onGrid_zero scale_pos
    | some offer => exact filtered offer (List.mem_of_find?_eq_some found)
  have kept : ∀ maker, keptGain db.positions venue offers maker = tradedBy offers maker := by
    intro maker
    have all := (toNumeric_eq_self_iff scale_pos).mpr (traded maker)
    have first := (toNumeric_eq_self_iff scale_pos).mpr (firsts maker)
    have rest := (toNumeric_eq_self_iff scale_pos).mpr ((traded maker).sub scale_pos (firsts maker))
    unfold keptGain
    rw [all, first, rest, add_sub_cancel, ite_self]
  have sold : OnGrid scale (deliveredSum offers Offer.quantity) := by
    rw [← sum_tradedBy]
    exact Finset.sum_induction _ (OnGrid scale) (fun _ _ => OnGrid.add scale_pos)
      (onGrid_zero scale_pos) fun maker _ => traded maker
  dsimp only
  rw [Finset.sum_congr rfl fun maker _ => kept maker, sum_tradedBy]
  split
  · exact (numericFall_of_onGrid scale_pos sold).symm
  · rfl

end Sells

/-! # Buys -/

section Buys

variable {now : Timestamp} {amount : ℚ} {matched after : Database} {book fill final : BookFill}
  {offers whole last : List Offer} {market : MarketId} {outcome : OutcomeId}
  {positions : Table Position.key} {legShares : ℚ}

theorem bookQuantity_buy {maker : Order} {quantity : ℚ}
    (asked : bookQuantity .buy amount fill maker = .ok (some quantity)) :
    fill.matchedUsdc ≠ amount ∧
      (quantity = maker.remainingAmount ∨
        quantity * maker.price = amount - fill.matchedUsdc) := by
  simp only [bookQuantity] at asked
  split at asked
  · contradiction
  rename_i priced
  split at asked
  · cases asked
  rename_i buyable
  split at asked
  · cases asked
  cases asked
  constructor
  · intro spent
    exact buyable (by rw [spent, sub_self, zero_div])
  · rcases min_choice maker.remainingAmount ((amount - fill.matchedUsdc) / maker.price) with
      all | rest
    · exact .inl all
    · exact .inr (by rw [rest, div_mul_cancel₀ _ priced])

/-- A buy takes whole rests from the book until one is more than its budget pays for. -/
theorem trace_buy_grid (trace : Trace now (bookTaker .buy amount user) db fill offers after final)
    (remaining : ∀ offer ∈ offers, OnGrid scale offer.maker.remainingAmount) :
    ∃ whole last, offers.filter Offer.delivered = whole ++ last ∧
      (∀ offer ∈ whole, OnGrid scale offer.quantity) ∧
      (last = [] ∨ ∃ offer, last = [offer] ∧ final.matchedUsdc = amount ∧
        (whole = [] → offer.usdc = amount - fill.matchedUsdc)) := by
  induction trace with
  | done => exact ⟨[], [], rfl, by simp, .inl rfl⟩
  | skip _ _ _ ih =>
      exact ih fun offer member => remaining offer (List.mem_cons_of_mem _ member)
  | @deliver db _ fill _ maker quantity offers asked _ _ rest ih =>
      rcases (bookQuantity_buy asked).2 with all | budget
      · obtain ⟨whole, last, split, grid, ends⟩ :=
          ih fun offer member => remaining offer (List.mem_cons_of_mem _ member)
        refine ⟨⟨maker, quantity, true⟩ :: whole, last, by simp [split],
          List.forall_mem_cons.mpr ⟨all ▸ remaining _ List.mem_cons_self, grid⟩, ?_⟩
        rcases ends with none_ | ⟨offer, isLast, spent, _⟩
        · exact .inl none_
        · exact .inr ⟨offer, isLast, spent, fun nil => absurd nil (List.cons_ne_nil _ _)⟩
      · have spent : (fill.add (executedDetails db.outcomes maker quantity)).matchedUsdc =
            amount := by
          simp only [BookFill.add, executedDetails]
          linarith
        cases rest with
        | done => exact ⟨[], [⟨maker, quantity, true⟩], rfl, by simp,
            .inr ⟨_, rfl, spent, fun _ => budget⟩⟩
        | skip again => exact absurd spent (bookQuantity_buy again).1
        | deliver again => exact absurd spent (bookQuantity_buy again).1

/-- A maker who sells has what she trades. -/
theorem tradedBy_le_held {σ : Type} {taker : Taker σ} {fill final : σ}
    (trace : Trace now taker db fill offers after final)
    (positive : ∀ offer ∈ offers, 0 < offer.quantity)
    (makers : AreMakers market outcome .buy taker.userId offers) {maker : UserId}
    (other : maker ≠ taker.userId)
    (nonneg : 0 ≤ Position.held db.positions ⟨maker, market, outcome⟩) :
    tradedBy offers maker ≤ Position.held db.positions ⟨maker, market, outcome⟩ := by
  induction trace with
  | done => exact nonneg
  | skip _ _ _ ih =>
      have later := ih (fun offer member => positive offer (List.mem_cons_of_mem _ member))
        (fun offer member => makers offer (List.mem_cons_of_mem _ member)) nonneg
      rw [tradedBy_cons, if_neg Bool.false_ne_true, zero_add]
      exact later
  | @deliver db _ _ _ seller quantity offers _ holds _ _ ih =>
      obtain ⟨rfl, rfl, side, _⟩ := makers _ List.mem_cons_self
      dsimp only at side nonneg ih ⊢
      have moves := congrFun (held_moveShares (quantity * seller.price)
        (positive _ List.mem_cons_self) holds) ⟨maker, seller.marketId, seller.outcomeId⟩
      simp only [moved, sellerOf, buyerOf, side, Side.opposite, positionKey,
        PositionKey.mk.injEq, and_true, if_neg other, add_zero] at moves holds
      have later := ih (fun offer member => positive offer (List.mem_cons_of_mem _ member))
        fun offer member => makers offer (List.mem_cons_of_mem _ member)
      change 0 ≤ Position.held (moveShares db.positions seller taker.userId quantity _) _ →
        _ ≤ Position.held (moveShares db.positions seller taker.userId quantity _) _ at later
      rw [moves] at later
      rw [tradedBy_cons, if_pos rfl]
      by_cases isSeller : maker = seller.userId
      · subst isSeller
        rw [if_pos rfl] at later ⊢
        linarith [later (sub_nonneg.mpr holds)]
      · rw [if_neg isSeller, sub_zero] at later
        rw [if_neg (Ne.symm isSeller), zero_add]
        exact later nonneg

/-- A buyer without a position is inserted with her first match. -/
theorem firstShares_taker (makers : AreMakers market outcome .buy user offers)
    (details : execution.matchDetails = deliveredDetails db.outcomes offers) {head : Offer}
    {tail : List Offer} (filter_ : offers.filter Offer.delivered = head :: tail) :
    firstShares user execution user = head.quantity := by
  have isOffer : head ∈ offers := List.mem_of_mem_filter (filter_ ▸ List.mem_cons_self)
  have sells : head.maker.side = .sell := (makers head isOffer).2.2.1
  have buyer : buyerIn user (executedDetails db.outcomes head.maker head.quantity) = user := by
    simp only [buyerIn, executedDetails, sells]
  unfold firstShares
  rw [details, deliveredDetails, filter_, List.map_cons, List.find?_cons, buyer]
  simp [executedDetails]

/-- What a buy takes from the book, and its first match, in a stored unit at least. -/
theorem buy_takes_unit (whole_grid : ∀ offer ∈ whole, OnGrid scale offer.quantity)
    (split : offers.filter Offer.delivered = whole ++ last)
    (positive : ∀ offer ∈ offers, 0 < offer.quantity)
    (ends : last = [] ∨ ∃ offer, last = [offer] ∧
      (whole = [] → 1 / (scale : ℚ) ≤ offer.quantity))
    (some_ : offers.filter Offer.delivered ≠ []) :
    1 / (scale : ℚ) ≤ deliveredSum offers Offer.quantity := by
  have nonneg : ∀ number ∈ (whole ++ last).map Offer.quantity, 0 ≤ number := by
    intro number member
    obtain ⟨offer, isOffer, rfl⟩ := List.mem_map.mp member
    exact (positive offer (List.mem_of_mem_filter (split ▸ isOffer))).le
  rw [deliveredSum_eq_filter, split]
  have single := fun offer (member : offer ∈ whole ++ last) =>
    List.single_le_sum nonneg offer.quantity (List.mem_map_of_mem member)
  cases whole with
  | cons head rest =>
      have isOffer : head ∈ offers :=
        List.mem_of_mem_filter (split ▸ List.mem_append_left _ List.mem_cons_self)
      exact ((whole_grid head List.mem_cons_self).unit_le_iff scale_pos |>.mpr
        (positive head isOffer)).trans (single head (List.mem_append_left _ List.mem_cons_self))
  | nil =>
      rcases ends with none_ | ⟨offer, rfl, unit⟩
      · exact absurd split (by simpa [none_] using some_)
      · exact (unit rfl).trans (single offer (by simp))

/-- A buyer who already has a match in her position is credited with it again. -/
theorem storedAt_buyer (columns : Columns db) {first : UserId → ℚ} {taken : ℚ}
    (unit : 1 / (scale : ℚ) ≤ taken) (legGrid : OnGrid scale legShares) (leg : 0 ≤ legShares)
    (firstOf : OnGrid scale (first user) ∨ first user = taken)
    (held : Position.held positions (venue.positionKey user) =
      Position.held db.positions (venue.positionKey user) + taken + (taken + legShares)) :
    legShares + toNumeric scale taken + 1 / (scale : ℚ) ≤
      storedAt db.positions positions first (venue.positionKey user) -
        Position.held db.positions (venue.positionKey user) := by
  have unitNonneg : 0 ≤ 1 / (scale : ℚ) := div_nonneg zero_le_one (Nat.cast_nonneg _)
  have nonneg : 0 ≤ taken := unitNonneg.trans unit
  obtain ⟨grid, heldNonneg⟩ := held_columns columns (venue.positionKey user)
  have twice : 1 / (scale : ℚ) + toNumeric scale taken ≤ toNumeric scale (taken + taken) := by
    rw [← toNumeric_add scale_pos (onGrid_unit scale_pos) unitNonneg nonneg]
    exact toNumeric_mono (add_nonneg unitNonneg nonneg) (by linarith)
  have atOnce : legShares + toNumeric scale taken + 1 / (scale : ℚ) ≤
      toNumeric scale (Position.held positions (venue.positionKey user)) -
        Position.held db.positions (venue.positionKey user) := by
    have sum : Position.held positions (venue.positionKey user) =
        Position.held db.positions (venue.positionKey user) + legShares + (taken + taken) := by
      rw [held]
      ring
    rw [sum, toNumeric_add scale_pos (grid.add scale_pos legGrid) (add_nonneg heldNonneg leg)
      (add_nonneg nonneg nonneg)]
    linarith
  unfold storedAt
  rw [show (venue.positionKey user).userId = user from rfl]
  split
  · exact atOnce
  rename_i absent
  have none_ : db.positions.find? (venue.positionKey user) = none := by simpa using absent
  have zero : Position.held db.positions (venue.positionKey user) = 0 := by
    simp [Position.held, none_]
  rcases firstOf with firstGrid | rfl
  · rw [(toNumeric_eq_self_iff scale_pos).mpr firstGrid, add_sub_cancel]
    exact atOnce
  · have kept : 1 / (scale : ℚ) ≤ toNumeric scale (first user) := by
      rw [← (toNumeric_eq_self_iff scale_pos).mpr (onGrid_unit scale_pos)]
      exact toNumeric_mono unitNonneg unit
    have sum : toNumeric scale (first user) +
        (Position.held positions (venue.positionKey user) - first user) =
          toNumeric scale (first user) + legShares + first user := by
      rw [held, zero]
      ring
    rw [sum, toNumeric_add scale_pos ((onGrid_toNumeric scale_pos _).add scale_pos legGrid)
      (add_nonneg (toNumeric_nonneg nonneg) leg) nonneg, zero]
    linarith

/-- A maker who sells has a row that covers what she trades. -/
theorem seller_covers {σ : Type} {taker : Taker σ} {fill final : σ} (columns : Columns db)
    (trace : Trace now taker db fill offers after final)
    (positive : ∀ offer ∈ offers, 0 < offer.quantity)
    (makers : AreMakers venue.market.id venue.outcome.id .buy taker.userId offers)
    {maker : UserId} (member : maker ∈ makersOf offers) :
    (db.positions.find? (venue.positionKey maker)).isSome = true ∧
      tradedBy offers maker ≤ Position.held db.positions (venue.positionKey maker) := by
  have other : maker ≠ taker.userId := by
    rintro rfl
    exact taker_notMem_makersOf makers member
  have enough := tradedBy_le_held trace positive makers other
    (held_columns columns (venue.positionKey maker)).2
  obtain ⟨offer, isOffer, delivered, rfl⟩ := mem_makersOf.mp member
  have taken := (positive offer isOffer).trans_le (quantity_le_tradedBy positive isOffer delivered)
  obtain ⟨row, found⟩ := Position.exists_of_held_pos (taken.trans_le enough)
  exact ⟨Option.isSome_iff_exists.mpr ⟨row, found⟩, enough⟩

/-- The sellers' columns give up no more than the rounded sum, for one quantity alone may have
more decimals. -/
theorem sellers_fall_le (split : offers.filter Offer.delivered = whole ++ last)
    (grid : ∀ offer ∈ whole, OnGrid scale offer.quantity)
    (ends : last = [] ∨ ∃ offer, last = [offer])
    (positive : ∀ offer ∈ offers, 0 < offer.quantity) :
    ∑ maker ∈ makersOf offers, numericFall scale (tradedBy offers maker) ≤
      toNumeric scale (deliveredSum offers Offer.quantity) := by
  rw [← sum_tradedBy]
  have nonneg := fun maker (_ : maker ∈ makersOf offers) => tradedBy_nonneg positive maker
  rcases ends with none_ | ⟨offer, isLast⟩
  · exact sum_numericFall_le scale_pos 0 (fun maker _ _ =>
      onGrid_tradedBy split grid (by simp [none_])) nonneg
  · refine sum_numericFall_le scale_pos offer.maker.userId (fun maker _ different =>
      onGrid_tradedBy split grid ?_) nonneg
    simpa [isLast] using different.symm

/-- A budget of a stored unit or more buys a unit, for no price is above one. -/
theorem unit_le_of_spent {offer : Offer} (positive : 0 < offer.quantity)
    (priced : offer.maker.price ≤ 1) (spent : offer.usdc = data.amount) :
    1 / (scale : ℚ) ≤ offer.quantity := by
  have unit := (data.amount_grid.unit_le_iff scale_pos).mpr data.amount_pos
  have cost : offer.quantity * offer.maker.price = data.amount := spent
  nlinarith

/-- The first match of a buy is a column value, or all that it takes from the book. -/
theorem firstShares_taker_or (makers : AreMakers market outcome .buy user offers)
    (details : execution.matchDetails = deliveredDetails db.outcomes offers)
    (split : offers.filter Offer.delivered = whole ++ last)
    (grid : ∀ offer ∈ whole, OnGrid scale offer.quantity)
    (ends : last = [] ∨ ∃ offer, last = [offer])
    (some_ : offers.filter Offer.delivered ≠ []) :
    OnGrid scale (firstShares user execution user) ∨
      firstShares user execution user = deliveredSum offers Offer.quantity := by
  cases whole with
  | cons head rest =>
      rw [firstShares_taker makers details split]
      exact .inl (grid head List.mem_cons_self)
  | nil =>
      rcases ends with none_ | ⟨offer, rfl⟩
      · exact absurd split (by simpa [none_] using some_)
      · rw [firstShares_taker makers details split, deliveredSum_eq_filter, split]
        simp

/-- A filled buy that took shares from the book leaves more shares than the AMM minted. -/
theorem buy_grows (columns : Columns db) (buying : data.side = .buy)
    (trace : Trace env.now (bookTaker data.side data.amount user) db .empty
      (bookPlan db user venue data) matched book)
    (details : execution.matchDetails = deliveredDetails db.outcomes (bookPlan db user venue data))
    (delivers : ∃ offer ∈ bookPlan db user venue data, offer.delivered = true)
    (legGrid : OnGrid scale legShares) (leg : 0 ≤ legShares)
    (acquired : ∃ cost average, positions = Position.acquire matched.positions
      (venue.positionKey user) (book.matchedShares + legShares) cost average) :
    Position.sharesOf db.positions venue.outcome.id + legShares <
      storedSharesOf db.positions (firstShares user execution) positions venue.outcome.id := by
  have makers := bookPlan_makers db user venue data
  have positive : ∀ offer ∈ bookPlan db user venue data, 0 < offer.quantity :=
    fun offer member => (bookPlan_positive trace offer member).1
  have priced : ∀ offer ∈ bookPlan db user venue data, offer.maker.price ≤ 1 :=
    fun offer member => columns.price _ (mem_bookPlan member).1
  have remaining : ∀ offer ∈ bookPlan db user venue data,
      OnGrid scale offer.maker.remainingAmount :=
    fun offer member => columns.remaining _ (mem_bookPlan member).1
  have sold := trace.bookFill.1
  rw [BookFill.empty, zero_add] at sold
  rw [buying] at makers
  have held := trace_held trace positive makers
  rw [buying] at trace
  obtain ⟨whole, last, split, wholeGrid, ends⟩ := trace_buy_grid trace remaining
  set offers := bookPlan db user venue data
  obtain ⟨cost, average, acquire_⟩ := acquired
  rw [sold] at acquire_
  have some_ : offers.filter Offer.delivered ≠ [] := by
    obtain ⟨offer, isOffer, delivered⟩ := delivers
    exact List.ne_nil_of_mem (List.mem_filter.mpr ⟨isOffer, delivered⟩)
  have unit : 1 / (scale : ℚ) ≤ deliveredSum offers Offer.quantity := by
    refine buy_takes_unit wholeGrid split positive (ends.imp id ?_) some_
    rintro ⟨offer, isLast, _, budget⟩
    refine ⟨offer, isLast, fun nil => ?_⟩
    have isOffer : offer ∈ offers := by
      refine List.mem_of_mem_filter (p := Offer.delivered) ?_
      rw [split, isLast]
      exact List.mem_append_right _ List.mem_cons_self
    exact unit_le_of_spent (positive offer isOffer) (priced offer isOffer)
      (by simpa [BookFill.empty] using budget nil)
  have single := ends.imp id (Exists.imp fun _ => And.left)
  have firstOf := firstShares_taker_or makers details split wholeGrid single some_
  have present : ∀ maker ∈ makersOf offers,
      (matched.positions.find? (venue.positionKey maker)).isSome = true := fun maker member =>
    (trace_isSome_position trace _).mpr (.inl (seller_covers columns trace positive makers member).1)
  have rows : ∀ key, (positions.find? key).isSome = true ↔
      (matched.positions.find? key).isSome = true ∨ key = venue.positionKey user := by
    intro key
    rw [acquire_, isSome_acquire]
  have others : ∀ key, key ≠ venue.positionKey user →
      positions.find? key = matched.positions.find? key := by
    intro key other
    rw [acquire_, Position.find?_acquire_ne other]
  have credited : Position.held positions (venue.positionKey user) =
      Position.held db.positions (venue.positionKey user) + deliveredSum offers Offer.quantity +
        (deliveredSum offers Offer.quantity + legShares) := by
    rw [acquire_, Position.held_acquire, if_pos rfl,
      show Position.held matched.positions (venue.positionKey user) = _ from held user]
    simp [bookTaker, shareSign, Venue.positionKey]
  have takerTerm := storedAt_buyer columns unit legGrid leg firstOf credited
  have sellerTerms : ∑ maker ∈ makersOf offers,
      (storedAt db.positions positions (firstShares user execution) (venue.positionKey maker) -
        Position.held db.positions (venue.positionKey maker)) =
      -∑ maker ∈ makersOf offers, numericFall scale (tradedBy offers maker) := by
    rw [← Finset.sum_neg_distrib]
    refine Finset.sum_congr rfl fun maker member => ?_
    obtain ⟨row, enough⟩ := seller_covers columns trace positive makers member
    refine storedAt_loss columns _ row enough ?_
    rw [held_maker trace positive makers others member, shareSign, one_mul, ← sub_eq_add_neg]
  have fall := sellers_fall_le split wholeGrid single positive
  have unitPos : 0 < 1 / (scale : ℚ) := div_pos one_pos (by exact_mod_cast scale_pos)
  rw [stored_order_total _ trace makers (fun row member => (columns.shares row member).1)
    rows others present]
  change _ + legShares < _ + (storedAt _ _ _ (venue.positionKey user) -
    Position.held _ (venue.positionKey user) +
      ∑ maker ∈ makersOf offers, (storedAt _ _ _ (venue.positionKey maker) -
        Position.held _ (venue.positionKey maker)))
  rw [sellerTerms]
  linarith

end Buys

/-! # A whole order -/

section Orders

variable {matched traded : Database} {book : BookFill} {leg : Option AmmLeg}

/-- An order leaves the positions of other outcomes alone. -/
theorem fillOrder_others (filled : fillOrder env db user venue data = .ok execution)
    (key : PositionKey) (other : key.outcomeId ≠ venue.outcome.id) :
    execution.db.positions.find? key = db.positions.find? key := by
  obtain ⟨matched, book, trace, ends⟩ := fillOrder_ok filled
  have same : matched.positions.find? key = db.positions.find? key := by
    refine trace.find?_position fun offer member => ?_
    rw [(isMatch_iff.mp (mem_bookPlan member).2).2.1]
    exact Ne.symm other
  rcases ends with ⟨_, _, rested⟩ | ⟨left, _, traded, leg, ran, finished⟩ | ⟨_, finished⟩
  · obtain ⟨_, _, _, _, database, _⟩ := restOrder_ok rested
    rw [database]
    exact same
  · have frame := fill_counted (.inr ⟨leg, _, rfl, left, ran⟩) finished fun _ _ => true
    exact (frame.2 key other).trans same
  · have frame := fill_counted (.inl ⟨rfl, rfl⟩) finished fun _ _ => true
    exact (frame.2 key other).trans same

theorem book_details (trace : Trace env.now (bookTaker data.side data.amount user) db .empty
    (bookPlan db user venue data) matched book) :
    book.matchDetails = deliveredDetails db.outcomes (bookPlan db user venue data) := by
  simpa [BookFill.empty] using trace.bookFill.2.2

/-- The AMM mints what a buy's leg reports, in whole units. -/
theorem buy_leg (buying : data.side = .buy)
    (moved : (leg = none ∧ traded = matched) ∨ ∃ amm remaining, leg = some amm ∧ 0 < remaining ∧
      runAmmLeg matched user venue data.side remaining = .ok (traded, amm)) :
    traded.positions = matched.positions ∧ mintedShares leg = AmmLeg.total leg AmmLeg.shares ∧
      OnGrid scale (mintedShares leg) ∧ 0 ≤ mintedShares leg := by
  rcases moved with ⟨rfl, rfl⟩ | ⟨amm, remaining, rfl, _, ran⟩
  · exact ⟨rfl, rfl, onGrid_zero scale_pos, le_rfl⟩
  · rw [buying] at ran
    obtain ⟨_, _, _, bought, isBuy, _, rfl⟩ := ammBuy_ok ran
    obtain ⟨_, _, _, shares, _⟩ := BinaryAMM.executeBuy_ok bought
    simp only [mintedShares, AmmLeg.total, Option.map_some, Option.getD_some, AmmLeg.shares,
      isBuy, shares]
    exact ⟨trivial, trivial, BinaryAMM.sharesFor_onGrid _ _ _, BinaryAMM.sharesFor_nonneg _ _ _⟩

/-- On the fill path a buy conserves shares when the book gave it nothing. -/
theorem buy_fill_iff (columns : Columns db) (buying : data.side = .buy)
    (trace : Trace env.now (bookTaker data.side data.amount user) db .empty
      (bookPlan db user venue data) matched book)
    (moved : (leg = none ∧ traded = matched) ∨ ∃ amm remaining, leg = some amm ∧ 0 < remaining ∧
      runAmmLeg matched user venue data.side remaining = .ok (traded, amm))
    (finished : finish env traded user venue data ⟨book, leg⟩ = .ok execution) :
    storedSharesOf db.positions (firstShares user execution) execution.db.positions
        venue.outcome.id =
        Position.sharesOf db.positions venue.outcome.id + mintedShares execution.ammLeg ↔
      ∀ offer ∈ bookPlan db user venue data, offer.delivered = false := by
  obtain ⟨same, minted, grid, nonneg⟩ := buy_leg buying moved
  obtain ⟨_, reported, isLeg, _⟩ := finish_ok finished
  have details := book_details trace
  have positions := finish_positions finished
  rw [buying, same, creditFill, Fill.totalShares, ← minted] at positions
  rw [isLeg]
  dsimp only at reported ⊢ positions
  by_cases idle : ∀ offer ∈ bookPlan db user venue data, offer.delivered = false
  · refine iff_of_true ?_ idle
    obtain ⟨database, rfl⟩ := trace.idle idle
    have unmoved : matched.positions = db.positions := by rw [database]
    have legTotal : OnGrid scale (AmmLeg.total execution.ammLeg AmmLeg.shares) := by
      rw [isLeg, ← minted]
      exact grid
    have noMatch : ∀ details ∈ execution.matchDetails, OnGrid scale details.matchShares := by
      rw [reported]
      simp [BookFill.empty]
    rw [unmoved] at positions
    have rows : ∀ row ∈ execution.db.positions.rows, OnGrid scale row.sharesHeld := by
      rw [positions]
      exact onGrid_acquire (fun row member => (columns.shares row member).1)
        ((onGrid_zero scale_pos).add scale_pos grid)
    rw [stored_exact rows (onGrid_firstShares noMatch legTotal), positions,
      Position.sharesOf_eq_counted, Position.sharesOf_eq_counted, Position.counted_acquire]
    simp [Venue.positionKey, BookFill.empty]
  · refine iff_of_false ?_ idle
    push Not at idle
    obtain ⟨offer, member, delivered⟩ := idle
    exact (buy_grows columns buying trace (reported.trans details)
      ⟨offer, member, by simpa using delivered⟩ grid nonneg ⟨_, _, positions⟩).ne'

theorem buy_conserves_iff (columns : Columns db) (buying : data.side = .buy)
    (filled : fillOrder env db user venue data = .ok execution) :
    SharesConserved db user venue.outcome.id execution ↔
      (∀ offer ∈ bookPlan db user venue data, offer.delivered = false) ∨
        (0 < plannedRemainder db user venue data ∧ route venue data = .ok .rest) := by
  have frame := fillOrder_others filled
  obtain ⟨matched, book, trace, ends⟩ := fillOrder_ok filled
  have positive := bookPlan_positive trace
  unfold SharesConserved
  rw [← remainder_eq_planned trace, and_iff_left frame]
  rcases ends with ⟨left, routed, rested⟩ | ⟨left, routed, traded, leg, ran, finished⟩ |
    ⟨nothing, finished⟩
  · refine iff_of_true ?_ (.inr ⟨left, routed⟩)
    obtain ⟨_, _, _, _, database, reported, noLeg, _⟩ := restOrder_ok rested
    have details := book_details trace
    have moved := trace.counted (fun offer member => (positive offer member).1)
      fun _ outcome => outcome = venue.outcome.id
    have rows := fun grid => trace_onGrid trace grid fun row member =>
      (columns.shares row member).1
    rw [buying] at trace
    -- The budget is not spent, so the last maker gave all she had left.
    have grid : ∀ offer ∈ bookPlan db user venue data, offer.delivered = true →
        OnGrid scale offer.quantity := by
      obtain ⟨whole, last, split, wholeGrid, ends⟩ := trace_buy_grid trace
        fun offer member => columns.remaining _ (mem_bookPlan member).1
      rcases ends with rfl | ⟨_, _, spent, _⟩
      · intro offer member delivered
        refine wholeGrid offer ?_
        rw [← List.append_nil whole, ← split]
        exact List.mem_filter.mpr ⟨member, delivered⟩
      · simp [remainder, buying, spent] at left
    have firsts : ∀ details ∈ execution.matchDetails, OnGrid scale details.matchShares := by
      rw [reported, details]
      intro details member
      obtain ⟨offer, isOffer, rfl⟩ := List.mem_map.mp member
      obtain ⟨isOffer, delivered⟩ := List.mem_filter.mp isOffer
      exact grid offer isOffer delivered
    have noShares : OnGrid scale (AmmLeg.total execution.ammLeg AmmLeg.shares) := by
      rw [noLeg]
      exact onGrid_zero scale_pos
    have positions : execution.db.positions = matched.positions := by rw [database]
    rw [positions, stored_exact (rows grid) (onGrid_firstShares firsts noShares), noLeg,
      Position.sharesOf_eq_counted, Position.sharesOf_eq_counted, moved]
    simp [mintedShares]
  · rw [buy_fill_iff columns buying trace (.inr ⟨leg, _, rfl, left, ran⟩) finished, routed]
    simp
  · rw [buy_fill_iff columns buying trace (.inl ⟨rfl, rfl⟩) finished]
    simp [not_lt.mpr nothing]

theorem sell_conserves_iff (columns : Columns db) (selling : data.side = .sell)
    (holds : data.amount ≤ Position.held db.positions (venue.positionKey user))
    (filled : fillOrder env db user venue data = .ok execution) :
    SharesConserved db user venue.outcome.id execution ↔ GainsAddUp db user venue data := by
  have frame := fillOrder_others filled
  obtain ⟨matched, book, trace, ends⟩ := fillOrder_ok filled
  have details := book_details trace
  have sold := trace.bookFill.1
  rw [BookFill.empty, zero_add] at sold
  have within : book.matchedShares ≤ data.amount := by
    rw [selling] at trace
    exact trace_sold trace data.amount_pos.le
  have left_ : remainder data book = data.amount - book.matchedShares := by
    rw [remainder, selling]
    exact max_eq_left (sub_nonneg.mpr within)
  have all := numericFall_of_onGrid scale_pos data.amount_grid
  unfold SharesConserved GainsAddUp
  rw [and_iff_left frame]
  dsimp only
  rcases ends with ⟨left, routed, rested⟩ | ⟨left, routed, traded, leg, ran, finished⟩ |
    ⟨nothing, finished⟩
  · obtain ⟨_, _, _, _, database, reported, noLeg, _⟩ := restOrder_ok rested
    have positions : execution.db.positions = matched.positions := by rw [database]
    have kept : Position.held execution.db.positions (venue.positionKey user) =
        Position.held matched.positions (venue.positionKey user) - 0 := by rw [positions, sub_zero]
    have total := sell_total columns selling trace (reported.trans details)
      (fun _ => by rw [positions]) (fun _ _ => by rw [positions]) kept holds (by linarith)
    rw [total, noLeg, routed, ← sold, add_zero]
    simp only [mintedShares]
    constructor <;> intro same <;> linarith
  · obtain ⟨_, reported, isLeg, _⟩ := finish_ok finished
    have positions := finish_positions finished
    rw [selling] at ran positions
    obtain ⟨enough, _, isSell, quantity, _, rfl⟩ := ammSell_ok ran
    obtain ⟨row, found⟩ := Position.exists_of_held_pos (left.trans_le enough)
    have kept : Position.held execution.db.positions (venue.positionKey user) =
        Position.held matched.positions (venue.positionKey user) - remainder data book := by
      rw [positions, creditFill, Position.held_dispose found, if_pos rfl]
    have total := sell_total columns selling trace (reported.trans details)
      (fun key => by simp only [positions, creditFill, Position.dispose, Table.isSome_find?_modify])
      (fun _ other => by rw [positions]; exact Position.find?_dispose_ne other) kept holds
      (by linarith)
    rw [total, isLeg, routed, ← sold, left_, add_sub_cancel, all]
    simp only [mintedShares, isSell, quantity, left_]
    constructor <;> intro same <;> linarith
  · obtain ⟨_, reported, isLeg, _⟩ := finish_ok finished
    have positions := finish_positions finished
    rw [selling, creditFill] at positions
    have kept : Position.held execution.db.positions (venue.positionKey user) =
        Position.held matched.positions (venue.positionKey user) - 0 := by rw [positions, sub_zero]
    have total := sell_total columns selling trace (reported.trans details)
      (fun _ => by rw [positions]) (fun _ _ => by rw [positions]) kept holds (by linarith)
    have whole : book.matchedShares = data.amount := by linarith
    rw [total, isLeg, ← sold, add_zero, whole, all]
    simp only [mintedShares]
    cases route venue data with
    | error _ => constructor <;> intro same <;> linarith
    | ok way => cases way <;> constructor <;> intro same <;> linarith

end Orders

def restingSell : Order where
  id := 1
  userId := 2
  marketId := 1
  outcomeId := 1
  side := .sell
  orderType := .limit
  amount := 10
  price := 1 / 2
  remainingAmount := 10
  status := .pending
  expiresAt := none
  sharesBought := none
  sharesSold := none
  feesPaid := none
  clientOrderId := none
  createdAt := 0
  executedAt := none

def quotedMarket : Database where
  wallets := ⟨[⟨1, 100, 0⟩, ⟨2, 0, 0⟩], by decide⟩
  positions := ⟨[⟨2, 1, 1, 10, 1 / 2, 0, none⟩], by decide⟩
  orders := ⟨[restingSell], by decide⟩
  pools := ⟨[⟨1, none, 100, 100, 100, 2 / 100, 100, 0⟩], by decide⟩
  lpShares := .empty
  markets := ⟨[⟨1, .active, 1000, none, none, none, none, 100, 0, 0⟩], by decide⟩
  outcomes := ⟨[⟨1, 1, .yes, 0⟩, ⟨2, 1, .no, 1⟩], by decide⟩
  disputes := .empty
  referrals := []
  trades := []
  transactions := []
  systemUser := none

def quietEnv : Env := ⟨1, fun _ _ => .missing⟩

/-- A market order on YES. -/
def marketOrder (side : Side) (amount : ℚ) (amount_pos : 0 < amount)
    (amount_grid : OnGrid scale amount) : OrderRequest where
  marketId := 1
  outcome := .yes
  side := side
  orderType := .market
  amount := amount
  price := none
  expiresAt := none
  postOnly := false
  clientOrderId := none
  maxSlippage := none
  minSharesOut := none
  expectedPrice := none
  quoteId := none
  amount_pos := amount_pos
  amount_grid := amount_grid
  price_bounds := by simp

end PredictX.OrderService
