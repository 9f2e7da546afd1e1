import PredictX.Data.Numeric
import PredictX.Services.OrderCases

namespace PredictX.OrderService

open PredictX.Data PredictX.Amm PredictX.MatchingEngine

/-! The `shares_held` column.

A match hands over a quotient, and every position is rounded by itself.  The positions are
followed along a matching loop exactly, and what the column keeps of them is read off at the end.
-/

variable {db : Database} {user : UserId} {venue : Venue} {data : OrderRequest}
  {execution : Execution}

/-! # Stored totals -/

/-- The user who bought in a match. -/
def buyerIn (taker : UserId) (details : MatchDetails) : UserId :=
  match details.side with
  | .buy => details.makerUserId
  | .sell => taker

/-- What a user without a position is inserted with: her first match, or the AMM's shares. -/
def firstShares (taker : UserId) (execution : Execution) (user : UserId) : ℚ :=
  match execution.matchDetails.find? fun details => buyerIn taker details = user with
  | some details => details.matchShares
  | none => AmmLeg.total execution.ammLeg AmmLeg.shares

/-- `shares_held` after the commit.  A row that the call inserted was rounded by the insert,
and is rounded again with what it gained since. -/
def storedShares (before : Table Position.key) (first : UserId → ℚ) (row : Position) : ℚ :=
  if (before.find? row.key).isSome then toNumeric scale row.sharesHeld
  else toNumeric scale (toNumeric scale (first row.userId) + (row.sharesHeld - first row.userId))

/-- The stored shares of one outcome over all positions. -/
def storedSharesOf (before : Table Position.key) (first : UserId → ℚ)
    (positions : Table Position.key) (outcome : OutcomeId) : ℚ :=
  positions.sum fun row => if row.outcomeId = outcome then storedShares before first row else 0

section Stored

variable {before after : Table Position.key} {first : UserId → ℚ} {market : MarketId}
  {outcome : OutcomeId}

/-- `storedShares` of the row under a key. -/
def storedAt (before after : Table Position.key) (first : UserId → ℚ) (key : PositionKey) : ℚ :=
  if (before.find? key).isSome then toNumeric scale (Position.held after key)
  else
    toNumeric scale (toNumeric scale (first key.userId) +
      (Position.held after key - first key.userId))

theorem sharesOf_eq_sum (positions : Table Position.key) (outcome : OutcomeId) :
    Position.sharesOf positions outcome = ∑ key ∈ (positions.rows.map Position.key).toFinset,
      if key.outcomeId = outcome then Position.held positions key else 0 := by
  rw [← Table.sum_keys positions fun key =>
    if key.outcomeId = outcome then Position.held positions key else 0]
  refine congrArg List.sum (List.map_congr_left fun row member => ?_)
  rw [Position.held_eq (Table.find?_key_of_mem member)]
  rfl

theorem storedSharesOf_eq_sum (before after : Table Position.key) (first : UserId → ℚ)
    (outcome : OutcomeId) :
    storedSharesOf before first after outcome = ∑ key ∈ (after.rows.map Position.key).toFinset,
      if key.outcomeId = outcome then storedAt before after first key else 0 := by
  rw [← Table.sum_keys after fun key =>
    if key.outcomeId = outcome then storedAt before after first key else 0]
  refine congrArg List.sum (List.map_congr_left fun row member => ?_)
  rw [storedAt, Position.held_eq (Table.find?_key_of_mem member)]
  rfl

/-- A stored total moves by what the columns keep of the positions that moved. -/
theorem stored_total (first : UserId → ℚ) {users : Finset UserId}
    (present : ∀ user ∈ users, (after.find? ⟨user, market, outcome⟩).isSome = true)
    (keeps : ∀ key, (before.find? key).isSome = true → (after.find? key).isSome = true)
    (others : ∀ key : PositionKey, (∀ user ∈ users, key ≠ ⟨user, market, outcome⟩) →
      after.find? key = before.find? key)
    (columns : ∀ row ∈ before.rows, OnGrid scale row.sharesHeld) :
    storedSharesOf before first after outcome = Position.sharesOf before outcome +
      ∑ user ∈ users, (storedAt before after first ⟨user, market, outcome⟩ -
        Position.held before ⟨user, market, outcome⟩) := by
  have beforeSum : Position.sharesOf before outcome =
      ∑ key ∈ (after.rows.map Position.key).toFinset,
        if key.outcomeId = outcome then Position.held before key else 0 := by
    rw [sharesOf_eq_sum]
    refine Finset.sum_subset (fun key member => ?_) fun key _ absent => ?_
    · exact Table.mem_keys.mpr (keeps key (Table.mem_keys.mp member))
    · have none_ : before.find? key = none := by
        rw [Table.mem_keys] at absent
        simpa using absent
      simp [Position.held, none_]
  set moved : PositionKey → ℚ := fun key =>
    (if key.outcomeId = outcome then storedAt before after first key else 0) -
      if key.outcomeId = outcome then Position.held before key else 0 with isMoved
  have touched : ∑ key ∈ (after.rows.map Position.key).toFinset, moved key =
      ∑ key ∈ users.image fun user => (⟨user, market, outcome⟩ : PositionKey), moved key := by
    refine (Finset.sum_subset (fun key member => ?_) fun key present_ untouched => ?_).symm
    · obtain ⟨user, isUser, rfl⟩ := Finset.mem_image.mp member
      exact Table.mem_keys.mpr (present user isUser)
    · have same := others key fun user isUser isKey =>
        untouched (Finset.mem_image.mpr ⟨user, isUser, isKey.symm⟩)
      obtain ⟨row, found⟩ := Option.isSome_iff_exists.mp (Table.mem_keys.mp present_)
      have foundBefore := same.symm.trans found
      have kept : storedAt before after first key = Position.held before key := by
        rw [storedAt, foundBefore, Option.isSome_some, if_pos rfl, Position.held_eq found,
          Position.held_eq foundBefore]
        exact (toNumeric_eq_self_iff scale_pos).mpr (columns row (Table.mem_of_find? foundBefore))
      rw [isMoved]
      dsimp only
      rw [kept, sub_self]
  have injective : Function.Injective fun user => (⟨user, market, outcome⟩ : PositionKey) :=
    fun left right same => congrArg PositionKey.userId same
  rw [storedSharesOf_eq_sum, beforeSum, ← sub_eq_iff_eq_add', ← Finset.sum_sub_distrib]
  refine touched.trans ?_
  rw [Finset.sum_image fun left _ right _ same => injective same]
  refine Finset.sum_congr rfl fun user _ => ?_
  simp [isMoved]

/-- Without decimals beyond the eighth nothing is rounded. -/
theorem stored_exact (grid : ∀ row ∈ after.rows, OnGrid scale row.sharesHeld)
    (firstGrid : ∀ user, OnGrid scale (first user)) :
    storedSharesOf before first after outcome = Position.sharesOf after outcome := by
  refine congrArg List.sum (List.map_congr_left fun row member => ?_)
  have held := (toNumeric_eq_self_iff scale_pos).mpr (grid row member)
  have inserted := (toNumeric_eq_self_iff scale_pos).mpr (firstGrid row.userId)
  have kept : storedShares before first row = row.sharesHeld := by
    unfold storedShares
    rw [inserted, add_sub_cancel, held, ite_self]
  rw [kept]

theorem onGrid_acquire {positions : Table Position.key} {key : PositionKey} {shares cost : ℚ}
    {average : Position → ℚ} (rows : ∀ row ∈ positions.rows, OnGrid scale row.sharesHeld)
    (grid : OnGrid scale shares) :
    ∀ row ∈ (Position.acquire positions key shares cost average).rows,
      OnGrid scale row.sharesHeld := by
  intro row member
  unfold Position.acquire at member
  split at member
  · obtain ⟨old, isOld, rfl⟩ := Table.mem_modify.mp member
    split
    · exact (rows old isOld).add scale_pos grid
    · exact rows old isOld
  · rcases Table.mem_insert member with old | rfl
    · exact rows row old
    · exact grid

theorem onGrid_dispose {positions : Table Position.key} {key : PositionKey} {shares proceeds : ℚ}
    (rows : ∀ row ∈ positions.rows, OnGrid scale row.sharesHeld) (grid : OnGrid scale shares) :
    ∀ row ∈ (Position.dispose positions key shares proceeds).rows, OnGrid scale row.sharesHeld := by
  intro row member
  obtain ⟨old, isOld, rfl⟩ := Table.mem_modify.mp member
  split
  · exact (rows old isOld).sub scale_pos grid
  · exact rows old isOld

theorem onGrid_firstShares {taker : UserId}
    (matches_ : ∀ details ∈ execution.matchDetails, OnGrid scale details.matchShares)
    (leg : OnGrid scale (AmmLeg.total execution.ammLeg AmmLeg.shares)) (user : UserId) :
    OnGrid scale (firstShares taker execution user) := by
  unfold firstShares
  split
  · rename_i details found
    exact matches_ details (List.mem_of_find?_eq_some found)
  · exact leg

end Stored

/-! # Shares along a trace -/

section Traces

variable {σ : Type} {now : Timestamp} {taker : Taker σ} {matched after : Database}
  {fill final : σ} {offers : List Offer} {market : MarketId} {outcome : OutcomeId} {side : Side}

/-- A taker who buys gains what the makers lose. -/
def shareSign : Side → ℚ
  | .buy => 1
  | .sell => -1

/-- The makers that a plan trades with. -/
def makersOf (offers : List Offer) : Finset UserId :=
  ((offers.filter Offer.delivered).map fun offer => offer.maker.userId).toFinset

/-- What a maker trades, over all her orders. -/
def tradedBy (offers : List Offer) (maker : UserId) : ℚ :=
  deliveredSum offers fun offer => if offer.maker.userId = maker then offer.quantity else 0

/-- The makers of an order on `side` of one outcome. -/
def AreMakers (market : MarketId) (outcome : OutcomeId) (side : Side) (taker : UserId)
    (offers : List Offer) : Prop :=
  ∀ offer ∈ offers, offer.maker.marketId = market ∧ offer.maker.outcomeId = outcome ∧
    offer.maker.side = side.opposite ∧ offer.maker.userId ≠ taker

theorem bookPlan_makers (db : Database) (user : UserId) (venue : Venue) (data : OrderRequest) :
    AreMakers venue.market.id venue.outcome.id data.side user (bookPlan db user venue data) := by
  intro offer member
  obtain ⟨market, outcome, side, _, _, _, other⟩ := isMatch_iff.mp (mem_bookPlan member).2
  exact ⟨market, outcome, side, other⟩

@[simp] theorem tradedBy_nil (maker : UserId) : tradedBy [] maker = 0 := rfl

@[simp] theorem tradedBy_cons (offer : Offer) (offers : List Offer) (maker : UserId) :
    tradedBy (offer :: offers) maker =
      (if offer.delivered then if offer.maker.userId = maker then offer.quantity else 0 else 0) +
        tradedBy offers maker :=
  deliveredSum_cons _ _ _

theorem deliveredSum_eq_filter (offers : List Offer) (column : Offer → ℚ) :
    deliveredSum offers column = ((offers.filter Offer.delivered).map column).sum := by
  induction offers with
  | nil => rfl
  | cons offer offers ih =>
      cases delivered : offer.delivered <;> simp [delivered, ih]

/-- The holdings a trace leaves on its outcome. -/
theorem trace_held (trace : Trace now taker db fill offers after final)
    (positive : ∀ offer ∈ offers, 0 < offer.quantity)
    (makers : AreMakers market outcome side taker.userId offers) (user : UserId) :
    Position.held after.positions ⟨user, market, outcome⟩ =
      Position.held db.positions ⟨user, market, outcome⟩ + shareSign side *
        if user = taker.userId then deliveredSum offers Offer.quantity
        else -tradedBy offers user := by
  induction trace with
  | done => simp
  | skip _ _ _ ih =>
      rw [ih (fun offer member => positive offer (List.mem_cons_of_mem _ member))
        fun offer member => makers offer (List.mem_cons_of_mem _ member)]
      simp [skipped]
  | @deliver db _ _ _ maker quantity offers _ holds _ _ ih =>
      obtain ⟨rfl, rfl, makerSide, other⟩ := makers _ List.mem_cons_self
      dsimp only at makerSide other ih
      rw [ih (fun offer member => positive offer (List.mem_cons_of_mem _ member))
        fun offer member => makers offer (List.mem_cons_of_mem _ member)]
      have moves := held_moveShares (quantity * maker.price) (positive _ List.mem_cons_self) holds
      change Position.held (moveShares db.positions maker taker.userId quantity _) _ + _ = _
      rw [moves]
      cases side <;>
        simp only [moved, sellerOf, buyerOf, makerSide, Side.opposite, positionKey,
          PositionKey.mk.injEq, and_true, tradedBy_cons, deliveredSum_cons, if_true, shareSign] <;>
        by_cases isTaker : user = taker.userId <;>
        by_cases isMaker : user = maker.userId <;>
        simp_all [eq_comm] <;> ring

theorem isSome_acquire {positions : Table Position.key} {key other : PositionKey}
    {shares cost : ℚ} {average : Position → ℚ} :
    ((Position.acquire positions key shares cost average).find? other).isSome = true ↔
      (positions.find? other).isSome = true ∨ other = key := by
  unfold Position.acquire
  cases found : positions.find? key with
  | some row =>
      dsimp only
      rw [Table.isSome_find?_modify]
      refine ⟨.inl, fun either => either.elim id ?_⟩
      rintro rfl
      simp [found]
  | none =>
      dsimp only
      by_cases same : other = key
      · subst same
        have inserted := Table.find?_insert_self (Position.fresh other shares cost) found
        exact iff_of_true (Option.isSome_iff_exists.mpr ⟨_, inserted⟩) (.inr rfl)
      · rw [Table.find?_insert_ne (Position.fresh key shares cost) same]
        simp [same]

/-- A match opens a position for its buyer and closes none. -/
theorem trace_isSome_position (trace : Trace now taker db fill offers after final)
    (key : PositionKey) :
    (after.positions.find? key).isSome = true ↔ (db.positions.find? key).isSome = true ∨
      ∃ offer ∈ offers, offer.delivered = true ∧
        key = positionKey offer.maker (buyerOf offer.maker taker.userId) := by
  induction trace with
  | done => simp
  | skip _ _ _ ih => simpa [skipped] using ih
  | @deliver db _ _ _ maker quantity offers _ _ _ _ ih =>
      have moves : ((moveShares db.positions maker taker.userId quantity
          (quantity * maker.price)).find? key).isSome = true ↔
            (db.positions.find? key).isSome = true ∨
              key = positionKey maker (buyerOf maker taker.userId) := by
        unfold moveShares buyerOf
        cases maker.side with
        | buy =>
            dsimp only
            rw [isSome_acquire, Position.dispose, Table.isSome_find?_modify]
        | sell =>
            dsimp only
            rw [Position.dispose, Table.isSome_find?_modify, isSome_acquire]
      rw [ih]
      change ((moveShares _ _ _ _ _).find? key).isSome = true ∨ _ ↔ _
      rw [moves]
      simp [or_assoc]

/-- A match leaves the positions of other users alone. -/
theorem trace_find?_apart (trace : Trace now taker db fill offers after final) {key : PositionKey}
    (apart : ∀ offer ∈ offers, offer.delivered = true →
      key ≠ positionKey offer.maker taker.userId ∧
        key ≠ positionKey offer.maker offer.maker.userId) :
    after.positions.find? key = db.positions.find? key := by
  induction trace with
  | done => rfl
  | skip _ _ _ ih => exact ih fun offer member => apart offer (List.mem_cons_of_mem _ member)
  | @deliver db _ _ _ maker quantity offers _ _ _ _ ih =>
      obtain ⟨notTaker, notMaker⟩ := apart _ List.mem_cons_self rfl
      rw [ih fun offer member => apart offer (List.mem_cons_of_mem _ member)]
      change (moveShares db.positions maker taker.userId quantity _).find? key = _
      unfold moveShares
      cases maker.side with
      | buy => exact (Position.find?_acquire_ne notMaker).trans (Table.find?_modify_ne notTaker)
      | sell => exact (Table.find?_modify_ne notMaker).trans (Position.find?_acquire_ne notTaker)

theorem trace_onGrid (trace : Trace now taker db fill offers after final)
    (grid : ∀ offer ∈ offers, offer.delivered = true → OnGrid scale offer.quantity)
    (rows : ∀ row ∈ db.positions.rows, OnGrid scale row.sharesHeld) :
    ∀ row ∈ after.positions.rows, OnGrid scale row.sharesHeld := by
  induction trace with
  | done => exact rows
  | skip _ _ _ ih => exact ih (fun offer member => grid offer (List.mem_cons_of_mem _ member)) rows
  | @deliver db _ _ _ maker quantity offers _ _ _ _ ih =>
      refine ih (fun offer member => grid offer (List.mem_cons_of_mem _ member)) ?_
      have quantityGrid := grid _ List.mem_cons_self rfl
      change ∀ row ∈ (moveShares db.positions maker taker.userId quantity _).rows, _
      unfold moveShares
      cases maker.side with
      | buy => exact onGrid_acquire (onGrid_dispose rows quantityGrid) quantityGrid
      | sell => exact onGrid_dispose (onGrid_acquire rows quantityGrid) quantityGrid

theorem mem_makersOf {maker : UserId} : maker ∈ makersOf offers ↔
    ∃ offer ∈ offers, offer.delivered = true ∧ offer.maker.userId = maker := by
  simp [makersOf, and_assoc]

/-- A maker trades each of her orders' quantities. -/
theorem quantity_le_tradedBy (positive : ∀ offer ∈ offers, 0 < offer.quantity) {offer : Offer}
    (member : offer ∈ offers) (delivered : offer.delivered = true) :
    offer.quantity ≤ tradedBy offers offer.maker.userId := by
  have nonneg : ∀ number ∈ (offers.filter Offer.delivered).map fun other =>
      if other.maker.userId = offer.maker.userId then other.quantity else 0, 0 ≤ number := by
    intro number inMap
    obtain ⟨other, isOther, rfl⟩ := List.mem_map.mp inMap
    split
    · exact (positive other (List.mem_of_mem_filter isOther)).le
    · exact le_rfl
  rw [tradedBy, deliveredSum_eq_filter]
  have single := List.single_le_sum nonneg _
    (List.mem_map_of_mem (List.mem_filter.mpr ⟨member, delivered⟩))
  rwa [if_pos rfl] at single

theorem tradedBy_nonneg (positive : ∀ offer ∈ offers, 0 < offer.quantity) (maker : UserId) :
    0 ≤ tradedBy offers maker := by
  refine deliveredSum_nonneg fun offer member => ?_
  split
  · exact (positive offer member).le
  · exact le_rfl

/-- The makers' shares are all the shares. -/
theorem sum_tradedBy (offers : List Offer) :
    ∑ maker ∈ makersOf offers, tradedBy offers maker = deliveredSum offers Offer.quantity := by
  have split : ∀ (makers : Finset UserId) (some_ : List Offer),
      (∀ offer ∈ some_, offer.delivered = true → offer.maker.userId ∈ makers) →
      ∑ maker ∈ makers, tradedBy some_ maker = deliveredSum some_ Offer.quantity := by
    intro makers some_
    induction some_ with
    | nil => intro _; simp
    | cons offer rest ih =>
        intro within
        have later := ih fun other member => within other (List.mem_cons_of_mem _ member)
        simp only [tradedBy_cons, deliveredSum_cons, Finset.sum_add_distrib, later]
        congr 1
        cases delivered : offer.delivered with
        | false => simp
        | true =>
            have isMaker := within offer List.mem_cons_self delivered
            simp [isMaker]
  exact split _ offers fun offer member delivered => mem_makersOf.mpr ⟨offer, member, delivered, rfl⟩

theorem taker_notMem_makersOf {user : UserId} (makers : AreMakers market outcome side user offers) :
    user ∉ makersOf offers := by
  intro member
  obtain ⟨offer, isOffer, _, isUser⟩ := mem_makersOf.mp member
  exact (makers offer isOffer).2.2.2 isUser

/-- After a loop that was followed by a write to the taker's position, the stored total has moved
by what the columns keep of hers and of the makers'. -/
theorem stored_order_total (first : UserId → ℚ)
    (trace : Trace now taker db fill offers matched final)
    (makers : AreMakers market outcome side taker.userId offers)
    (columns : ∀ row ∈ db.positions.rows, OnGrid scale row.sharesHeld)
    {positions : Table Position.key}
    (rows : ∀ key, (positions.find? key).isSome = true ↔
      (matched.positions.find? key).isSome = true ∨ key = ⟨taker.userId, market, outcome⟩)
    (others : ∀ key, key ≠ ⟨taker.userId, market, outcome⟩ →
      positions.find? key = matched.positions.find? key)
    (present : ∀ maker ∈ makersOf offers,
      (matched.positions.find? ⟨maker, market, outcome⟩).isSome = true) :
    storedSharesOf db.positions first positions outcome = Position.sharesOf db.positions outcome +
      ((storedAt db.positions positions first ⟨taker.userId, market, outcome⟩ -
          Position.held db.positions ⟨taker.userId, market, outcome⟩) +
        ∑ maker ∈ makersOf offers,
          (storedAt db.positions positions first ⟨maker, market, outcome⟩ -
            Position.held db.positions ⟨maker, market, outcome⟩)) := by
  have here : ∀ maker ∈ insert taker.userId (makersOf offers),
      (positions.find? ⟨maker, market, outcome⟩).isSome = true := by
    intro maker member
    rw [rows]
    rcases Finset.mem_insert.mp member with rfl | isMaker
    · exact .inr rfl
    · exact .inl (present maker isMaker)
  have keeps : ∀ key, (db.positions.find? key).isSome = true →
      (positions.find? key).isSome = true := fun key before =>
    (rows key).mpr (.inl ((trace_isSome_position trace key).mpr (.inl before)))
  have untouched : ∀ key : PositionKey, (∀ maker ∈ insert taker.userId (makersOf offers),
      key ≠ ⟨maker, market, outcome⟩) → positions.find? key = db.positions.find? key := by
    intro key other
    have notTaker := other taker.userId (Finset.mem_insert_self _ _)
    rw [others key notTaker]
    refine trace_find?_apart trace fun offer member delivered => ?_
    obtain ⟨isMarket, isOutcome, _⟩ := makers offer member
    rw [positionKey, positionKey, isMarket, isOutcome]
    exact ⟨notTaker, other _ (Finset.mem_insert_of_mem
      (mem_makersOf.mpr ⟨offer, member, delivered, rfl⟩))⟩
  rw [stored_total first here keeps untouched columns,
    Finset.sum_insert (taker_notMem_makersOf makers)]

end Traces

end PredictX.OrderService
