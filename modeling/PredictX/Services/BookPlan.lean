import PredictX.Services.MatchingEngine

namespace PredictX.MatchingEngine

open PredictX.Data

/-! The plan of a matching loop.

Which makers a loop reaches, what it offers each of them and whether the seller can
deliver follow from the order list and the holdings alone.  `plan` computes that
list, and `Trace` says what the loop does to the database along it: every claim about
a matched order is an induction over its trace.
-/

/-! # The makers -/

section Makers

variable {market : MarketId} {outcome : OutcomeId} {side : Side} {limitPrice : Option ℚ}
  {user : UserId} {maker : Order}

/-- What the `WHERE` clause says of a maker. -/
theorem isMatch_iff : isMatch market outcome side limitPrice user maker = true ↔
    maker.marketId = market ∧ maker.outcomeId = outcome ∧ maker.side = side.opposite ∧
      maker.status.isOpen = true ∧ 0 < maker.remainingAmount ∧
      priceCrosses side limitPrice maker.price = true ∧ maker.userId ≠ user := by
  simp [isMatch, and_assoc]

theorem mem_findMatches {flushed current : Table Order.id}
    (member : maker ∈ findMatches flushed current market outcome side limitPrice user) :
    current.find? maker.id = some maker ∧ ∃ row ∈ flushed.rows,
      row.id = maker.id ∧ isMatch market outcome side limitPrice user row = true := by
  unfold findMatches at member
  obtain ⟨row, sorted, found⟩ := List.mem_filterMap.mp member
  rw [List.mem_insertionSort, List.mem_filter] at sorted
  have sameId : maker.id = row.id := Table.key_of_find? found
  exact ⟨sameId ▸ found, row, sorted.1, sameId.symm, sorted.2⟩

/-- With nothing unflushed the makers are the rows that match. -/
theorem mem_findMatches_self {orders : Table Order.id}
    (member : maker ∈ findMatches orders orders market outcome side limitPrice user) :
    maker ∈ orders.rows ∧ isMatch market outcome side limitPrice user maker = true := by
  obtain ⟨found, row, rowMember, sameId, matches_⟩ := mem_findMatches member
  have same : row = maker := by
    have rowFound := Table.find?_key_of_mem rowMember
    rw [sameId, found] at rowFound
    exact (Option.some.inj rowFound).symm
  exact ⟨Table.mem_of_find? found, same ▸ matches_⟩

theorem findMatches_nodup (flushed current : Table Order.id) :
    ((findMatches flushed current market outcome side limitPrice user).map Order.id).Nodup := by
  unfold findMatches
  have rows : (((flushed.rows.filter (isMatch market outcome side limitPrice user)).insertionSort
      (Precedes side)).map Order.id).Nodup := by
    have sorted := List.perm_insertionSort (Precedes side)
      (flushed.rows.filter (isMatch market outcome side limitPrice user))
    rw [(sorted.map Order.id).nodup_iff]
    exact flushed.unique.sublist (List.filter_sublist.map Order.id)
  refine List.Nodup.sublist ?_ rows
  induction (flushed.rows.filter (isMatch market outcome side limitPrice user)).insertionSort
    (Precedes side) with
  | nil => exact List.Sublist.refl _
  | cons row rest ih =>
      cases found : current.find? row.id with
      | none =>
          simp only [List.filterMap_cons, found, List.map_cons]
          exact ih.cons _
      | some maker =>
          simp only [List.filterMap_cons, found, List.map_cons, Table.key_of_find? found]
          exact ih.cons_cons _

/-- A quantity within what the maker has left and what the taker still wants. -/
def Fits (side : Side) (amount : ℚ) (fill : BookFill) (maker : Order) (quantity : ℚ) : Prop :=
  match side with
  | .buy => quantity ≤ maker.remainingAmount ∧ quantity * maker.price ≤ amount - fill.matchedUsdc
  | .sell => quantity * maker.price ≤ maker.remainingAmount ∧ quantity ≤ amount - fill.matchedShares

theorem bookQuantity_pos {amount quantity : ℚ} {fill : BookFill}
    (opened : 0 < maker.remainingAmount)
    (asked : bookQuantity side amount fill maker = .ok (some quantity)) : 0 < quantity := by
  cases side with
  | buy =>
      simp only [bookQuantity] at asked
      split at asked
      · contradiction
      split at asked
      · cases asked
      rename_i buyable
      split at asked
      · cases asked
      cases asked
      exact lt_min opened (not_le.mp buyable)
  | sell =>
      simp only [bookQuantity] at asked
      split at asked
      · cases asked
      rename_i wanted
      have price : 0 < maker.price := by
        by_contra unpriced
        rw [if_neg unpriced, min_eq_left (not_le.mp wanted).le, if_pos rfl] at asked
        cases asked
      rw [if_pos price] at asked
      split at asked
      · cases asked
      cases asked
      exact lt_min (div_pos opened price) (not_le.mp wanted)

/-- While a buy stays within its budget, what it takes fits and has a price. -/
theorem bookQuantity_fits {amount quantity : ℚ} {fill : BookFill}
    (within : side = .buy → fill.matchedUsdc ≤ amount)
    (asked : bookQuantity side amount fill maker = .ok (some quantity)) :
    0 < maker.price ∧ Fits side amount fill maker quantity := by
  cases side with
  | buy =>
      simp only [bookQuantity] at asked
      split at asked
      · contradiction
      split at asked
      · cases asked
      rename_i buyable
      split at asked
      · cases asked
      cases asked
      have price : 0 < maker.price := by
        by_contra unpriced
        exact buyable (div_nonpos_of_nonneg_of_nonpos (sub_nonneg.mpr (within rfl))
          (not_lt.mp unpriced))
      exact ⟨price, min_le_left _ _, (le_div_iff₀ price).mp (min_le_right _ _)⟩
  | sell =>
      simp only [bookQuantity] at asked
      split at asked
      · cases asked
      rename_i wanted
      have price : 0 < maker.price := by
        by_contra unpriced
        rw [if_neg unpriced, min_eq_left (not_le.mp wanted).le, if_pos rfl] at asked
        cases asked
      rw [if_pos price] at asked
      split at asked
      · cases asked
      cases asked
      exact ⟨price, (le_div_iff₀ price).mp (min_le_left _ _), min_le_right _ _⟩

end Makers

/-! # The plan and its trace -/

/-- One maker reached by the loop. -/
structure Offer where
  maker : Order
  quantity : ℚ
  delivered : Bool
deriving DecidableEq, Repr

namespace Offer

def usdc (offer : Offer) : ℚ := offer.quantity * offer.maker.price

/-- The protocol fee withheld from the seller. -/
def fee (offer : Offer) : ℚ := offer.usdc * protocolFeeRate

end Offer

/-- What `execute_match` reports of a match it executed. -/
def executedDetails (outcomes : Table Outcome.id) (maker : Order) (quantity : ℚ) :
    MatchDetails where
  matchPrice := maker.price
  matchShares := quantity
  matchUsdc := quantity * maker.price
  makerOrderId := maker.id
  makerUserId := maker.userId
  side := maker.side
  outcome := (outcomes.find? maker.outcomeId).map Outcome.name
  skipped := false

/-- The holdings after a delivery. -/
def moved (taker : UserId) (maker : Order) (quantity : ℚ) (holdings : PositionKey → ℚ) :
    PositionKey → ℚ := fun key =>
  holdings key - (if key = positionKey maker (sellerOf maker taker) then quantity else 0) +
    (if key = positionKey maker (buyerOf maker taker) then quantity else 0)

variable {σ : Type}

/-- The offers a loop makes, from the holdings it starts with. -/
def plan (outcomes : Table Outcome.id) (taker : Taker σ) :
    List Order → (PositionKey → ℚ) → σ → List Offer
  | [], _, _ => []
  | maker :: makers, holdings, fill =>
      match taker.quantity fill maker with
      | .error _ | .ok none => []
      | .ok (some quantity) =>
          if holdings (positionKey maker (sellerOf maker taker.userId)) < quantity then
            ⟨maker, quantity, false⟩ :: plan outcomes taker makers holdings fill
          else
            ⟨maker, quantity, true⟩ :: plan outcomes taker makers
              (moved taker.userId maker quantity holdings)
              (taker.record fill (executedDetails outcomes maker quantity))

section Effects

variable (now : Timestamp) (taker : Taker σ) (db : Database) (maker : Order) (quantity : ℚ)

theorem fillMaker_id (spent : ℚ) (order : Order) : (fillMaker now spent order).id = order.id := by
  unfold fillMaker
  dsimp only
  split <;> rfl

/-- The database after a skipped offer: the fee is in the pool all the same. -/
def skipped : Database :=
  { db with pools := creditFee db.pools maker (quantity * maker.price * protocolFeeRate) }

/-- The database after a delivered offer. -/
def deliver : Database :=
  let usdc := quantity * maker.price
  { db with
    pools := creditFee db.pools maker (usdc * protocolFeeRate)
    wallets := payMatch db.wallets maker taker.userId quantity usdc (usdc * protocolFeeRate)
    orders := taker.store (executedDetails db.outcomes maker quantity)
      (db.orders.modify maker.id (fillMaker now (makerSpent maker quantity usdc))
        (fillMaker_id now _))
    positions := moveShares db.positions maker taker.userId quantity usdc
    trades := db.trades ++ matchTrades now
      ((db.outcomes.find? maker.outcomeId).map Outcome.name) maker taker.userId quantity
      maker.price }

end Effects

/-- A run of the loop along its offers. -/
inductive Trace (now : Timestamp) (taker : Taker σ) :
    Database → σ → List Offer → Database → σ → Prop
  | done (db : Database) (fill : σ) : Trace now taker db fill [] db fill
  | skip {db after : Database} {fill final : σ} {maker : Order} {quantity : ℚ}
      {offers : List Offer} (asked : taker.quantity fill maker = .ok (some quantity))
      (short : Position.held db.positions (positionKey maker (sellerOf maker taker.userId)) <
        quantity)
      (rest : Trace now taker (skipped db maker quantity) fill offers after final) :
      Trace now taker db fill (⟨maker, quantity, false⟩ :: offers) after final
  | deliver {db after : Database} {fill final : σ} {maker : Order} {quantity : ℚ}
      {offers : List Offer} (asked : taker.quantity fill maker = .ok (some quantity))
      (holds : quantity ≤
        Position.held db.positions (positionKey maker (sellerOf maker taker.userId)))
      (funded : ∀ wallet, db.wallets.find? (buyerOf maker taker.userId) = some wallet →
        quantity * maker.price ≤ wallet.available)
      (rest : Trace now taker (deliver now taker db maker quantity)
        (taker.record fill (executedDetails db.outcomes maker quantity)) offers after final) :
      Trace now taker db fill (⟨maker, quantity, true⟩ :: offers) after final

/-- What one match that does not fail did. -/
theorem executeMatch_ok {now : Timestamp} {db after : Database} {maker : Order} {user : UserId}
    {quantity : ℚ} {details : MatchDetails}
    (executed : executeMatch now db maker user quantity maker.price = .ok (after, details)) :
    (Position.held db.positions (positionKey maker (sellerOf maker user)) < quantity ∧
      details.skipped = true ∧ after = skipped db maker quantity) ∨
    (quantity ≤ Position.held db.positions (positionKey maker (sellerOf maker user)) ∧
      (∀ wallet, db.wallets.find? (buyerOf maker user) = some wallet →
        quantity * maker.price ≤ wallet.available) ∧
      details = executedDetails db.outcomes maker quantity ∧
      ∀ taker : Taker σ, taker.userId = user →
        { after with orders := taker.store details after.orders } =
          deliver now taker db maker quantity) := by
  unfold executeMatch at executed
  dsimp only at executed
  split at executed
  · contradiction
  rename_i checked
  have funded : ∀ wallet, db.wallets.find? (buyerOf maker user) = some wallet →
      quantity * maker.price ≤ wallet.available := by
    intro wallet found
    rw [found] at checked
    unfold checkBuyer at checked
    dsimp only at checked
    split at checked
    · contradiction
    · exact not_lt.mp ‹_›
  split at executed
  · rename_i short
    cases executed
    exact .inl ⟨short, rfl, rfl⟩
  · rename_i holds
    cases executed
    refine .inr ⟨not_lt.mp holds, funded, rfl, ?_⟩
    rintro taker rfl
    rfl

section Holdings

variable {positions : Table Position.key} {maker : Order} {user : UserId} {quantity : ℚ}

/-- The holdings a delivery leaves. -/
theorem held_moveShares (usdc : ℚ) (positive : 0 < quantity)
    (holds : quantity ≤ Position.held positions (positionKey maker (sellerOf maker user))) :
    Position.held (moveShares positions maker user quantity usdc) =
      moved user maker quantity (Position.held positions) := by
  obtain ⟨position, found⟩ := Position.exists_of_held_pos (positive.trans_le holds)
  funext key
  unfold moveShares moved
  cases side : maker.side with
  | buy =>
      simp only [sellerOf, buyerOf, side] at found ⊢
      rw [Position.held_acquire, Position.held_dispose found]
  | sell =>
      simp only [sellerOf, buyerOf, side] at found ⊢
      obtain ⟨after, stillFound⟩ := Position.find?_acquire (positionKey maker user) quantity usdc
        (buyerAverage quantity usdc) found
      rw [Position.held_dispose stillFound, Position.held_acquire]
      ring

/-- A delivery creates no shares and destroys none. -/
theorem counted_moveShares (usdc : ℚ) (positive : 0 < quantity)
    (holds : quantity ≤ Position.held positions (positionKey maker (sellerOf maker user)))
    (counts : MarketId → OutcomeId → Bool) :
    Position.counted (moveShares positions maker user quantity usdc) counts =
      Position.counted positions counts := by
  obtain ⟨position, found⟩ := Position.exists_of_held_pos (positive.trans_le holds)
  unfold moveShares
  cases side : maker.side with
  | buy =>
      simp only [sellerOf, side] at found ⊢
      rw [Position.counted_acquire, Position.counted_dispose found]
      exact sub_add_cancel _ _
  | sell =>
      simp only [sellerOf, side] at found ⊢
      obtain ⟨after, stillFound⟩ := Position.find?_acquire (positionKey maker user) quantity usdc
        (buyerAverage quantity usdc) found
      rw [Position.counted_dispose stillFound, Position.counted_acquire]
      exact add_sub_cancel_right _ _

end Holdings

/-- The loop follows its plan. -/
theorem offer_trace {now : Timestamp} {taker : Taker σ} {makers : List Order}
    {db after : Database} {fill final : σ}
    (positive : ∀ fill, ∀ maker ∈ makers, ∀ quantity,
      taker.quantity fill maker = .ok (some quantity) → 0 < quantity)
    (ran : offer now taker makers db fill = .ok (after, final)) :
    Trace now taker db fill
      (plan db.outcomes taker makers (Position.held db.positions) fill) after final := by
  induction makers generalizing db fill with
  | nil =>
      cases ran
      exact .done _ _
  | cons maker makers ih =>
      have later := fun fill other member => positive fill other (List.mem_cons_of_mem _ member)
      unfold offer at ran
      split at ran
      · contradiction
      · rename_i ended
        cases ran
        unfold plan
        simp only [ended]
        exact .done _ _
      rename_i quantity asked
      unfold plan
      simp only [asked]
      split at ran
      · contradiction
      rename_i matched details executed
      rcases executeMatch_ok (σ := σ) executed with
        ⟨short, isSkipped, rfl⟩ | ⟨holds, funded, rfl, delivered⟩
      · rw [if_pos isSkipped] at ran
        rw [if_pos short]
        exact .skip asked short (ih later ran)
      · rw [if_neg (by simp [executedDetails]), delivered taker rfl] at ran
        rw [if_neg (not_lt.mpr holds)]
        have moves := held_moveShares (quantity * maker.price)
          (positive fill maker List.mem_cons_self quantity asked) holds
        have rest := ih later ran
        rw [show (deliver now taker db maker quantity).outcomes = db.outcomes from rfl,
          show (deliver now taker db maker quantity).positions =
            moveShares db.positions maker taker.userId quantity (quantity * maker.price) from rfl,
          moves] at rest
        exact .deliver asked holds funded rest

theorem plan_sublist (outcomes : Table Outcome.id) (taker : Taker σ) (makers : List Order)
    (holdings : PositionKey → ℚ) (fill : σ) :
    ((plan outcomes taker makers holdings fill).map Offer.maker).Sublist makers := by
  induction makers generalizing holdings fill with
  | nil => exact List.Sublist.refl _
  | cons maker makers ih =>
      unfold plan
      split
      · exact List.nil_sublist _
      · exact List.nil_sublist _
      · split
        · exact (ih _ _).cons_cons _
        · exact (ih _ _).cons_cons _

theorem maker_mem_of_mem_plan {outcomes : Table Outcome.id} {taker : Taker σ}
    {makers : List Order} {holdings : PositionKey → ℚ} {fill : σ} {offer : Offer}
    (member : offer ∈ plan outcomes taker makers holdings fill) : offer.maker ∈ makers :=
  (plan_sublist outcomes taker makers holdings fill).subset (List.mem_map_of_mem member)

/-! # What a trace adds up to -/

/-- A column summed over the delivered offers. -/
def deliveredSum (offers : List Offer) (column : Offer → ℚ) : ℚ :=
  (offers.map fun offer => if offer.delivered then column offer else 0).sum

@[simp] theorem deliveredSum_nil (column : Offer → ℚ) : deliveredSum [] column = 0 := rfl

@[simp] theorem deliveredSum_cons (offer : Offer) (offers : List Offer) (column : Offer → ℚ) :
    deliveredSum (offer :: offers) column =
      (if offer.delivered then column offer else 0) + deliveredSum offers column := by
  simp [deliveredSum]

theorem deliveredSum_nonneg {offers : List Offer} {column : Offer → ℚ}
    (nonneg : ∀ offer ∈ offers, 0 ≤ column offer) : 0 ≤ deliveredSum offers column := by
  refine List.sum_nonneg ?_
  intro value member
  obtain ⟨offer, offerMember, rfl⟩ := List.mem_map.mp member
  split
  · exact nonneg offer offerMember
  · exact le_rfl

/-- Amounts of one sign add up to nothing only when each is nothing. -/
theorem sum_map_eq_zero_iff {offers : List Offer} {column : Offer → ℚ}
    (nonneg : ∀ offer ∈ offers, 0 ≤ column offer) :
    (offers.map column).sum = 0 ↔ ∀ offer ∈ offers, column offer = 0 := by
  constructor
  · intro zero offer member
    refine List.all_zero_of_le_zero_le_of_sum_eq_zero ?_ zero (List.mem_map_of_mem member)
    simpa using nonneg
  · intro zero
    exact List.sum_eq_zero (by simpa using zero)

/-- A positive column adds up to nothing only when nothing was delivered. -/
theorem deliveredSum_eq_zero_iff {offers : List Offer} (column : Offer → ℚ)
    (positive : ∀ offer ∈ offers, 0 < column offer) :
    deliveredSum offers column = 0 ↔ ∀ offer ∈ offers, offer.delivered = false := by
  unfold deliveredSum
  rw [sum_map_eq_zero_iff]
  · refine forall₂_congr fun offer member => ?_
    have nonzero := (positive offer member).ne'
    cases offer.delivered <;> simp [nonzero]
  · intro offer member
    split
    · exact (positive offer member).le
    · exact le_rfl

/-- What the executed matches report. -/
def deliveredDetails (outcomes : Table Outcome.id) (offers : List Offer) : List MatchDetails :=
  (offers.filter Offer.delivered).map fun offer =>
    executedDetails outcomes offer.maker offer.quantity

section TraceFacts

variable {now : Timestamp} {taker : Taker σ} {db after : Database} {fill final : σ}
  {offers : List Offer}

/-- Each offer was asked for at its turn. -/
theorem Trace.asked (trace : Trace now taker db fill offers after final) :
    ∀ offer ∈ offers, ∃ fill, taker.quantity fill offer.maker = .ok (some offer.quantity) := by
  induction trace with
  | done => simp
  | skip asked _ _ ih => exact List.forall_mem_cons.mpr ⟨⟨_, asked⟩, ih⟩
  | deliver asked _ _ _ ih => exact List.forall_mem_cons.mpr ⟨⟨_, asked⟩, ih⟩

/-- A loop that delivers nothing only leaves fees in the pools. -/
theorem Trace.idle (trace : Trace now taker db fill offers after final)
    (undelivered : ∀ offer ∈ offers, offer.delivered = false) :
    after = { db with pools := after.pools } ∧ final = fill := by
  induction trace with
  | done => exact ⟨rfl, rfl⟩
  | skip _ _ _ ih => exact ih fun offer member => undelivered offer (List.mem_cons_of_mem _ member)
  | deliver => exact absurd (undelivered _ List.mem_cons_self) (by simp)

/-- The tables a matching loop never writes. -/
structure SameElsewhere (before after : Database) : Prop where
  lpShares : after.lpShares = before.lpShares
  markets : after.markets = before.markets
  outcomes : after.outcomes = before.outcomes
  disputes : after.disputes = before.disputes
  referrals : after.referrals = before.referrals
  transactions : after.transactions = before.transactions
  systemUser : after.systemUser = before.systemUser

theorem Trace.sameElsewhere (trace : Trace now taker db fill offers after final) :
    SameElsewhere db after := by
  induction trace with
  | done => exact ⟨rfl, rfl, rfl, rfl, rfl, rfl, rfl⟩
  | skip _ _ _ ih => exact ⟨ih.1, ih.2, ih.3, ih.4, ih.5, ih.6, ih.7⟩
  | deliver _ _ _ _ ih => exact ⟨ih.1, ih.2, ih.3, ih.4, ih.5, ih.6, ih.7⟩

theorem isSome_payMatch (wallets : Table Wallet.userId) (maker : Order) (user other : UserId)
    (shares usdc fee : ℚ) :
    ((payMatch wallets maker user shares usdc fee).find? other).isSome =
      (wallets.find? other).isSome := by
  unfold payMatch
  dsimp only
  split <;> simp only [Table.isSome_find?_modify]

/-- Matching opens no wallet and closes none. -/
theorem Trace.isSome_wallet (trace : Trace now taker db fill offers after final) (user : UserId) :
    (after.wallets.find? user).isSome = (db.wallets.find? user).isSome := by
  induction trace with
  | done => rfl
  | skip _ _ _ ih => exact ih
  | deliver _ _ _ _ ih => exact ih.trans (isSome_payMatch _ _ _ _ _ _ _)

/-- Matching moves shares between users and creates none. -/
theorem Trace.counted (trace : Trace now taker db fill offers after final)
    (positive : ∀ offer ∈ offers, 0 < offer.quantity) (counts : MarketId → OutcomeId → Bool) :
    Position.counted after.positions counts = Position.counted db.positions counts := by
  induction trace with
  | done => rfl
  | skip _ _ _ ih => exact ih fun offer member => positive offer (List.mem_cons_of_mem _ member)
  | deliver _ holds _ _ ih =>
      rw [ih fun offer member => positive offer (List.mem_cons_of_mem _ member)]
      exact counted_moveShares _ (positive _ List.mem_cons_self) holds counts

/-- Matching on one outcome leaves the positions of the others alone. -/
theorem Trace.find?_position (trace : Trace now taker db fill offers after final)
    {key : PositionKey} (other : ∀ offer ∈ offers, offer.maker.outcomeId ≠ key.outcomeId) :
    after.positions.find? key = db.positions.find? key := by
  induction trace with
  | done => rfl
  | skip _ _ _ ih => exact ih fun offer member => other offer (List.mem_cons_of_mem _ member)
  | @deliver db _ _ _ maker quantity _ _ _ _ _ ih =>
      rw [ih fun offer member => other offer (List.mem_cons_of_mem _ member)]
      have different := other _ List.mem_cons_self
      have apart : ∀ user, key ≠ positionKey maker user := by
        rintro user rfl
        exact different rfl
      change (moveShares db.positions maker taker.userId quantity _).find? key = _
      unfold moveShares
      cases maker.side with
      | buy => exact (Position.find?_acquire_ne (apart _)).trans (Table.find?_modify_ne (apart _))
      | sell => exact (Table.find?_modify_ne (apart _)).trans (Position.find?_acquire_ne (apart _))

end TraceFacts

section Book

variable {now : Timestamp} {side : Side} {amount : ℚ} {user : UserId} {db after : Database}
  {fill final : BookFill} {offers : List Offer}

/-- The loop's totals are those of the delivered offers. -/
theorem Trace.bookFill (trace : Trace now (bookTaker side amount user) db fill offers after final) :
    final.matchedShares = fill.matchedShares + deliveredSum offers Offer.quantity ∧
      final.matchedUsdc = fill.matchedUsdc + deliveredSum offers Offer.usdc ∧
      final.matchDetails = fill.matchDetails ++ deliveredDetails db.outcomes offers := by
  induction trace with
  | done => simp [deliveredDetails]
  | skip _ _ _ ih =>
      obtain ⟨shares, usdc, details⟩ := ih
      refine ⟨by simpa using shares, by simpa using usdc, ?_⟩
      rw [details]
      simp [deliveredDetails, skipped]
  | @deliver db _ fill _ maker quantity offers _ _ _ _ ih =>
      obtain ⟨shares, usdc, details⟩ := ih
      refine ⟨?_, ?_, ?_⟩
      · rw [shares]
        simp [bookTaker, BookFill.add, executedDetails, add_assoc]
      · rw [usdc]
        simp [bookTaker, BookFill.add, executedDetails, Offer.usdc, add_assoc]
      · rw [details, show (MatchingEngine.deliver now (bookTaker side amount user) db maker
          quantity).outcomes = db.outcomes from rfl]
        simp [bookTaker, BookFill.add, deliveredDetails]

/-- An incoming order never asks for more than it and the maker have left. -/
theorem Trace.book_offers
    (trace : Trace now (bookTaker side amount user) db fill offers after final)
    (opened : ∀ offer ∈ offers, 0 < offer.maker.remainingAmount)
    (within : side = .buy → fill.matchedUsdc ≤ amount) :
    (side = .buy → final.matchedUsdc ≤ amount) ∧
      ∀ offer ∈ offers, 0 < offer.quantity ∧ 0 < offer.maker.price := by
  induction trace with
  | done => exact ⟨within, by simp⟩
  | skip asked _ _ ih =>
      obtain ⟨total, later⟩ :=
        ih (fun offer member => opened offer (List.mem_cons_of_mem _ member)) within
      rw [List.forall_mem_cons]
      exact ⟨total, ⟨bookQuantity_pos (opened _ List.mem_cons_self) asked,
        (bookQuantity_fits within asked).1⟩, later⟩
  | deliver asked _ _ _ ih =>
      obtain ⟨price, fits⟩ := bookQuantity_fits within asked
      obtain ⟨total, later⟩ :=
        ih (fun offer member => opened offer (List.mem_cons_of_mem _ member)) (by
          rintro rfl
          have spent := fits.2
          simp only [bookTaker, BookFill.add, executedDetails]
          linarith)
      rw [List.forall_mem_cons]
      exact ⟨total, ⟨bookQuantity_pos (opened _ List.mem_cons_self) asked, price⟩, later⟩

end Book

end PredictX.MatchingEngine
