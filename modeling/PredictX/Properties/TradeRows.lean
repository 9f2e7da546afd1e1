import PredictX.Data.Numeric
import PredictX.Properties.LimitPrice
import PredictX.Properties.WalletHistory

namespace PredictX

open PredictX.Data PredictX.Amm PredictX.MarketService PredictX.MatchingEngine PredictX.LimitSweep

/-! Trade rows against fills.

The matching engine writes a row for each party of a match.  The order service writes the
taker's rows once more when the order is filled, but not when it rests, and the sweep
enters the amount it sent to the AMM where the row should say the shares.  A row keeps
eight decimals of its price and of its amount; a quantity that is a quotient has more.
-/

/-- The row as its columns keep it, `Numeric(10, 8)` and `Numeric(20, 8)`. -/
def Trade.stored (row : Trade) : Trade :=
  { row with price := toNumeric scale row.price, amount := toNumeric scale row.amount }

namespace OrderService

/-- The rows a match is worth: one for the maker and one for the taker. -/
def matchRows (now : Timestamp) (market : MarketId) (taker : UserId) (details : MatchDetails) :
    List Trade :=
  [⟨details.makerUserId, market, details.outcome, details.side, details.matchPrice,
      details.matchShares, now⟩,
    ⟨taker, market, details.outcome, details.side.opposite, details.matchPrice,
      details.matchShares, now⟩]

/-- A row for an AMM leg, at whatever price. -/
structure IsLegRow (market : MarketId) (taker : UserId) (outcome : OutcomeName) (leg : AmmLeg)
    (row : Trade) : Prop where
  userId : row.userId = taker
  marketId : row.marketId = market
  outcome : row.outcome = some outcome
  side : row.side = leg.side
  amount : row.amount = leg.shares

/-- The rows for the AMM's part of a fill. -/
def AreLegRows (market : MarketId) (taker : UserId) (outcome : OutcomeName)
    (leg : Option AmmLeg) (rows : List Trade) : Prop :=
  match leg with
  | none => rows = []
  | some leg => ∃ row, rows = [row] ∧ IsLegRow market taker outcome leg row

/-- The rows that were written read, once stored, as two for each match and one for the AMM
leg, and no others. -/
def TradesReconcile (now : Timestamp) (before after : Database) (market : MarketId)
    (taker : UserId) (outcome : OutcomeName) (executed : List MatchDetails)
    (leg : Option AmmLeg) : Prop :=
  ∃ rows legRows, after.trades = before.trades ++ rows ∧
    (rows.map Trade.stored).Perm
      (executed.flatMap (matchRows now market taker) ++ legRows) ∧
    AreLegRows market taker outcome leg legRows

/-! # The sums -/

/-- What the rows say a user traded. -/
def rowShares (user : UserId) (outcome : OutcomeName) (side : Side) (rows : List Trade) : ℚ :=
  (rows.map fun row =>
    if row.userId = user ∧ row.outcome = some outcome ∧ row.side = side then row.amount else 0).sum

/-- What a user traded in a match, as its maker or as its taker. -/
def matchedShares (taker user : UserId) (outcome : OutcomeName) (side : Side)
    (details : MatchDetails) : ℚ :=
  (if details.makerUserId = user ∧ details.outcome = some outcome ∧ details.side = side then
    details.matchShares else 0) +
  if taker = user ∧ details.outcome = some outcome ∧ details.side.opposite = side then
    details.matchShares else 0

/-- What a user bought or sold in a call. -/
def sharesTraded (taker : UserId) (named : OutcomeName) (executed : List MatchDetails)
    (leg : Option AmmLeg) (user : UserId) (outcome : OutcomeName) (side : Side) : ℚ :=
  (executed.map (matchedShares taker user outcome side)).sum +
    AmmLeg.total leg fun leg =>
      if taker = user ∧ named = outcome ∧ leg.side = side then leg.shares else 0

section Sums

variable {now : Timestamp} {before after : Database} {market : MarketId} {taker : UserId}
  {named : OutcomeName} {executed : List MatchDetails} {leg : Option AmmLeg}

theorem rowShares_append (user : UserId) (outcome : OutcomeName) (side : Side)
    (first second : List Trade) : rowShares user outcome side (first ++ second) =
      rowShares user outcome side first + rowShares user outcome side second := by
  simp [rowShares]

theorem rowShares_matchRows (user : UserId) (outcome : OutcomeName) (side : Side)
    (executed : List MatchDetails) :
    rowShares user outcome side (executed.flatMap (matchRows now market taker)) =
      (executed.map (matchedShares taker user outcome side)).sum := by
  induction executed with
  | nil => rfl
  | cons details rest ih =>
      rw [List.flatMap_cons, rowShares_append, ih, List.map_cons, List.sum_cons]
      simp [rowShares, matchRows, matchedShares]

/-- Stored rows that reconcile add up to the shares that were traded. -/
theorem TradesReconcile.shares
    (reconciled : TradesReconcile now before after market taker named executed leg) :
    ∃ rows, after.trades = before.trades ++ rows ∧ ∀ user outcome side,
      rowShares user outcome side (rows.map Trade.stored) =
        sharesTraded taker named executed leg user outcome side := by
  obtain ⟨rows, legRows, written, perm, isLeg⟩ := reconciled
  refine ⟨rows, written, fun user outcome side => ?_⟩
  have sums : rowShares user outcome side (rows.map Trade.stored) = rowShares user outcome side
      (executed.flatMap (matchRows now market taker) ++ legRows) := (perm.map _).sum_eq
  rw [sums, rowShares_append, rowShares_matchRows, sharesTraded]
  congr 1
  cases leg with
  | none =>
      cases isLeg
      rfl
  | some leg =>
      obtain ⟨row, rfl, isRow⟩ := isLeg
      simp [rowShares, AmmLeg.total, isRow.userId, isRow.outcome, isRow.side, isRow.amount]

end Sums

/-! # The matching engine's rows -/

/-- A matching loop writes the rows its matches are worth. -/
theorem trace_trades {σ : Type} {now : Timestamp} {taker : Taker σ} {db after : Database}
    {fill final : σ} {offers : List Offer} {market : MarketId}
    (trace : Trace now taker db fill offers after final)
    (ofMarket : ∀ offer ∈ offers, offer.maker.marketId = market) :
    after.trades = db.trades ++
      (deliveredDetails db.outcomes offers).flatMap (matchRows now market taker.userId) := by
  induction trace with
  | done => simp [deliveredDetails]
  | skip _ _ _ ih =>
      rw [ih fun offer member => ofMarket offer (List.mem_cons_of_mem _ member)]
      simp [deliveredDetails, skipped]
  | @deliver db _ _ _ maker quantity offers _ _ _ _ ih =>
      have here : maker.marketId = market := ofMarket _ List.mem_cons_self
      rw [ih fun offer member => ofMarket offer (List.mem_cons_of_mem _ member)]
      simp [deliveredDetails, MatchingEngine.deliver, matchTrades, matchRows, executedDetails, here]

/-- The columns keep the match as it is. -/
def Recorded (details : MatchDetails) : Prop :=
  OnGrid scale details.matchPrice ∧ OnGrid scale details.matchShares

/-- The columns will keep the match as it is planned. -/
def Recordable (offers : List Offer) : Prop :=
  ∀ offer ∈ offers, offer.delivered = true →
    OnGrid scale offer.maker.price ∧ OnGrid scale offer.quantity

instance (offers : List Offer) : Decidable (Recordable offers) :=
  inferInstanceAs (Decidable (∀ offer ∈ offers, _ → _))

theorem recorded_iff (outcomes : Table Outcome.id) (offers : List Offer) :
    (∀ details ∈ deliveredDetails outcomes offers, Recorded details) ↔ Recordable offers := by
  unfold deliveredDetails Recordable
  rw [List.forall_mem_map]
  simp only [List.mem_filter, and_imp]
  exact Iff.rfl

theorem stored_matchRows {now : Timestamp} {market : MarketId} {taker : UserId}
    {details : MatchDetails} (recorded : Recorded details) :
    (matchRows now market taker details).map Trade.stored = matchRows now market taker details := by
  have price := (toNumeric_eq_self_iff scale_pos).mpr recorded.1
  have shares := (toNumeric_eq_self_iff scale_pos).mpr recorded.2
  simp [matchRows, Trade.stored, price, shares]

/-- Past the rows of its matches, a fill has to write the row of its AMM leg; and the columns
have to keep the matches. -/
theorem tradesReconcile_iff {now : Timestamp} {before after : Database} {market : MarketId}
    {taker : UserId} {outcome : OutcomeName} {executed : List MatchDetails} {leg : Option AmmLeg}
    (more : List Trade) (written : after.trades = before.trades ++
      (executed.flatMap (matchRows now market taker) ++ more)) :
    TradesReconcile now before after market taker outcome executed leg ↔
      (∀ details ∈ executed, Recorded details) ∧
        AreLegRows market taker outcome leg (more.map Trade.stored) := by
  have kept : (∀ details ∈ executed, Recorded details) →
      (executed.flatMap (matchRows now market taker)).map Trade.stored =
        executed.flatMap (matchRows now market taker) := by
    intro recorded
    rw [List.map_flatMap]
    exact List.flatMap_congr fun details member => stored_matchRows (recorded details member)
  constructor
  · rintro ⟨rows, legRows, isRows, perm, isLeg⟩
    rw [written, List.append_cancel_left_eq] at isRows
    rw [← isRows] at perm
    have recorded : ∀ details ∈ executed, Recorded details := by
      intro details member
      have first : (⟨details.makerUserId, market, details.outcome, details.side,
          details.matchPrice, details.matchShares, now⟩ : Trade) ∈
            executed.flatMap (matchRows now market taker) ++ legRows :=
        List.mem_append_left _ (List.mem_flatMap.mpr ⟨details, member, List.mem_cons_self⟩)
      obtain ⟨row, _, isFirst⟩ := List.mem_map.mp (perm.mem_iff.mpr first)
      have price : toNumeric scale row.price = details.matchPrice := congrArg Trade.price isFirst
      have shares : toNumeric scale row.amount = details.matchShares :=
        congrArg Trade.amount isFirst
      exact ⟨price ▸ onGrid_toNumeric scale_pos _, shares ▸ onGrid_toNumeric scale_pos _⟩
    refine ⟨recorded, ?_⟩
    rw [List.map_append, kept recorded, List.perm_append_left_iff] at perm
    cases leg with
    | none =>
        cases isLeg
        exact perm.eq_nil
    | some leg =>
        obtain ⟨row, rfl, isRow⟩ := isLeg
        exact ⟨row, perm.eq_singleton, isRow⟩
  · rintro ⟨recorded, isLeg⟩
    refine ⟨_, more.map Trade.stored, written, ?_, isLeg⟩
    rw [List.map_append, kept recorded]

/-! # Incoming orders -/

section Orders

variable {env : Env} {db matched : Database} {user : UserId} {venue : Venue} {data : OrderRequest}
  {execution : Execution} {book : BookFill} {leg : AmmLeg}

/-- The order is a repeat, or the columns keep its matches and what the book leaves of it
rests, or it takes nothing from the book and the AMM gives it shares. -/
def RowsOnce (db : Database) (user : UserId) (venue : Venue) (data : OrderRequest) : Prop :=
  (duplicateOf db user data).isSome ∨
    (Recordable (bookPlan db user venue data) ∧
      0 < plannedRemainder db user venue data ∧ route venue data = .ok .rest) ∨
    (PassesBook db user venue data ∧
      (data.side = .buy → 0 < venue.amm.sharesFor venue.ammSide
        (data.amount - data.amount * venue.amm.feeRate)))

theorem deliveredDetails_eq_nil {outcomes : Table Outcome.id} {offers : List Offer} :
    deliveredDetails outcomes offers = [] ↔ ∀ offer ∈ offers, offer.delivered = false := by
  simp [deliveredDetails, List.filter_eq_nil_iff]

theorem plannedRemainder_of_passes (passes : PassesBook db user venue data) :
    plannedRemainder db user venue data = data.amount := by
  have nothing : ∀ column : Offer → ℚ, deliveredSum (bookPlan db user venue data) column = 0 := by
    intro column
    refine List.sum_eq_zero fun value member => ?_
    obtain ⟨offer, offered, rfl⟩ := List.mem_map.mp member
    simp [passes offer offered]
  unfold plannedRemainder
  cases data.side with
  | buy => simp [nothing, data.amount_pos.le]
  | sell => simp [nothing, data.amount_pos.le]

theorem book_trades
    (trace : Trace env.now (bookTaker data.side data.amount user) db .empty
      (bookPlan db user venue data) matched book) :
    book.matchDetails = deliveredDetails db.outcomes (bookPlan db user venue data) ∧
      matched.trades = db.trades ++
        book.matchDetails.flatMap (matchRows env.now venue.market.id user) := by
  have details : book.matchDetails =
      deliveredDetails db.outcomes (bookPlan db user venue data) := by
    rw [trace.bookFill.2.2]
    rfl
  refine ⟨details, ?_⟩
  rw [details]
  exact trace_trades trace fun offer member => (isMatch_iff.mp (mem_bookPlan member).2).1

theorem finish_trades {fill : Fill} (finished : finish env db user venue data fill = .ok execution) :
    execution.db.trades = db.trades ++ takerTrades env user venue data fill := by
  obtain ⟨_, _, _, same⟩ := creditReferral_frame (saveFill env db user venue data fill
    (db.orders.insert (filledRow env db user venue data fill))) user
  rw [(finish_ok finished).1, same]
  rfl

/-- The order service's own rows are the leg's only when the book gave nothing. -/
theorem takerTrades_leg_iff (positive : ∀ details ∈ book.matchDetails, 0 < details.matchShares)
    (recorded : ∀ details ∈ book.matchDetails, Recorded details) (side : leg.side = data.side) :
    AreLegRows venue.market.id user data.outcome (some leg)
        ((takerTrades env user venue data ⟨book, some leg⟩).map Trade.stored) ↔
      book.matchDetails = [] ∧ 0 < leg.shares ∧ OnGrid scale leg.shares := by
  have total : AmmLeg.total (some leg) AmmLeg.shares = leg.shares := rfl
  unfold takerTrades
  rw [total]
  constructor
  · rintro ⟨row, isRows, isRow⟩
    by_cases given : 0 < leg.shares
    · rw [if_pos given] at isRows
      have count := congrArg List.length isRows
      have unmatched : book.matchDetails = [] := by
        refine List.eq_nil_of_length_eq_zero ?_
        simp only [List.length_map, List.length_append, List.length_singleton] at count
        omega
      refine ⟨unmatched, given, ?_⟩
      rw [unmatched, List.map_nil, List.nil_append, List.map_singleton, List.singleton_inj] at isRows
      have amount : toNumeric scale leg.shares = leg.shares := by
        conv_rhs => rw [← isRow.amount, ← isRows]
        rfl
      exact (toNumeric_eq_self_iff scale_pos).mp amount
    · -- The one row there is would be a match's, and matches are positive.
      rw [if_neg given, List.append_nil, List.map_map] at isRows
      have member : row ∈ [row] := List.mem_singleton_self row
      rw [← isRows] at member
      obtain ⟨details, reported, rfl⟩ := List.mem_map.mp member
      have amount : toNumeric scale details.matchShares = leg.shares := isRow.amount
      rw [(toNumeric_eq_self_iff scale_pos).mpr (recorded details reported).2] at amount
      exact absurd (amount ▸ positive details reported) given
  · rintro ⟨unmatched, given, grid⟩
    rw [unmatched, if_pos given]
    exact ⟨_, rfl, rfl, rfl, rfl, side.symm, (toNumeric_eq_self_iff scale_pos).mpr grid⟩

/-- The AMM trades a column value for a whole order: what it quotes for a buy, the amount of a
sell. -/
theorem runAmmLeg_shares {traded : Database}
    (ran : runAmmLeg matched user venue data.side data.amount = .ok (traded, leg)) :
    OnGrid scale leg.shares ∧ (0 < leg.shares ↔
      (data.side = .buy → 0 < venue.amm.sharesFor venue.ammSide
        (data.amount - data.amount * venue.amm.feeRate))) := by
  obtain ⟨side, _⟩ := runAmmLeg_traded ran
  cases isSide : data.side with
  | buy =>
      rw [isSide] at ran side
      obtain ⟨_, _, _, bought, _⟩ := ammBuy_ok ran
      simp [AmmLeg.shares, side, (BinaryAMM.executeBuy_ok bought).2.2.2.1,
        BinaryAMM.sharesFor_onGrid]
  | sell =>
      rw [isSide] at ran side
      obtain ⟨_, _, _, isQuantity, _⟩ := ammSell_ok ran
      simp [AmmLeg.shares, side, isQuantity, data.amount_pos, data.amount_grid]

theorem executeOrder_trades_iff (executed : executeOrder env db user data = .ok execution)
    (opened : openVenue env db data.marketId data.outcome = .ok venue) :
    TradesReconcile env.now db execution.db venue.market.id user data.outcome
        execution.matchDetails execution.ammLeg ↔ RowsOnce db user venue data := by
  obtain ⟨_, openedAs, _, _, ways⟩ := executeOrder_ok executed
  cases opened.symm.trans openedAs
  rcases ways with ⟨existing, found, rfl⟩ | ⟨unseen, _, filled⟩
  · refine iff_of_true ((tradesReconcile_iff [] ?_).mpr ⟨?_, rfl⟩) (.inl (by simp [found])) <;>
      simp [duplicate]
  obtain ⟨matched, book, trace, ends⟩ := fillOrder_ok filled
  obtain ⟨details, matchedTrades⟩ := book_trades trace
  have remaining := remainder_eq_planned trace
  have passes : book.matchDetails = [] ↔ PassesBook db user venue data := by
    rw [details]
    exact deliveredDetails_eq_nil
  have positive : ∀ match_ ∈ book.matchDetails, 0 < match_.matchShares := by
    rw [details]
    intro match_ member
    obtain ⟨offer, offered, rfl⟩ := List.mem_map.mp member
    exact (bookPlan_positive trace offer (List.mem_filter.mp offered).1).1
  have recorded : (∀ match_ ∈ book.matchDetails, Recorded match_) ↔
      Recordable (bookPlan db user venue data) := by
    rw [details]
    exact recorded_iff _ _
  rcases ends with ⟨left, routed, rested⟩ | ⟨_, routed, traded, leg, ran, finished⟩ |
    ⟨nothing, finished⟩
  · obtain ⟨_, _, _, _, database, isDetails, noLeg, _⟩ := restOrder_ok rested
    rw [isDetails, noLeg, tradesReconcile_iff [] ?written, recorded]
    case written =>
      rw [database, List.append_nil]
      exact matchedTrades
    constructor
    · rintro ⟨recordable, -⟩
      exact .inr (.inl ⟨recordable, remaining ▸ left, routed⟩)
    · rintro (again | ⟨recordable, -⟩ | ⟨passed, -⟩)
      · simp [unseen] at again
      · exact ⟨recordable, rfl⟩
      · refine ⟨fun offer member delivered => ?_, rfl⟩
        exact absurd delivered (by simp [passed offer member])
  · obtain ⟨_, isDetails, withLeg, _⟩ := finish_ok finished
    obtain ⟨side, quantity, isTraded⟩ := runAmmLeg_traded ran
    rw [isDetails, withLeg, tradesReconcile_iff (takerTrades env user venue data
      ⟨book, some leg⟩) ?written]
    case written =>
      rw [finish_trades finished, isTraded, ← List.append_assoc, ← matchedTrades]
    have shares : PassesBook db user venue data → OnGrid scale leg.shares ∧ (0 < leg.shares ↔
        (data.side = .buy → 0 < venue.amm.sharesFor venue.ammSide
          (data.amount - data.amount * venue.amm.feeRate))) := by
      intro passed
      rw [remaining, plannedRemainder_of_passes passed] at ran
      exact runAmmLeg_shares ran
    constructor
    · rintro ⟨isRecorded, isLeg⟩
      obtain ⟨unmatched, given, _⟩ := (takerTrades_leg_iff positive isRecorded side).mp isLeg
      have passed := passes.mp unmatched
      exact .inr (.inr ⟨passed, (shares passed).2.mp given⟩)
    · rintro (again | ⟨_, _, rests⟩ | ⟨passed, given⟩)
      · simp [unseen] at again
      · rw [rests] at routed
        cases routed
      · have unmatched := passes.mpr passed
        have isRecorded : ∀ match_ ∈ book.matchDetails, Recorded match_ := by simp [unmatched]
        obtain ⟨grid, given_iff⟩ := shares passed
        exact ⟨isRecorded, (takerTrades_leg_iff positive isRecorded side).mpr
          ⟨unmatched, given_iff.mpr given, grid⟩⟩
  · obtain ⟨_, isDetails, noLeg, _⟩ := finish_ok finished
    have whole : ¬ PassesBook db user venue data := by
      intro passed
      rw [remaining, plannedRemainder_of_passes passed] at nothing
      exact absurd nothing (not_le.mpr data.amount_pos)
    refine iff_of_false ?_ ?_
    · rw [isDetails, noLeg, tradesReconcile_iff (takerTrades env user venue data
        ⟨book, none⟩) ?written]
      case written =>
        rw [finish_trades finished, ← List.append_assoc, ← matchedTrades]
      rintro ⟨_, isNil⟩
      have unmatched : book.matchDetails = [] := by
        have empty : (takerTrades env user venue data ⟨book, none⟩).map Trade.stored = [] := isNil
        simpa [takerTrades, AmmLeg.total] using empty
      exact whole (passes.mp unmatched)
    · rintro (again | ⟨_, left, _⟩ | ⟨passed, _⟩)
      · simp [unseen] at again
      · exact absurd (remaining ▸ nothing) (not_le.mpr left)
      · exact whole passed

end Orders

/-! # The sweep -/

section Sweep

variable {now : Timestamp} {db : Database} {session : Session} {market : MarketId}
  {parimutuel : Bool} {orderId : OrderId} {order : Order} {turn : Turn} {processed : Processed}

/-- The AMM gives a resting buy as many shares as the row says dollars; of a resting sell the
row has room for the shares. -/
def LegInShares (now : Timestamp) (session : Session) (turn : Turn) : Prop :=
  let remaining := pendingRemainder turn.order
    (pendingPlan now session turn.market turn.order turn.outcome.id)
  match turn.order.side with
  | .buy =>
      turn.amm.sharesFor turn.ammSide (remaining - remaining * turn.amm.feeRate) =
        toNumeric scale remaining
  | .sell => OnGrid scale remaining

/-- If the turn trades at all, the columns keep its matches and the AMM's part of it. -/
def SweptOnce (now : Timestamp) (session : Session) (turn : Turn) : Prop :=
  turn.order.status.isOpen = true → hasExpired now turn.order = false →
    Recordable (pendingPlan now session turn.market turn.order turn.outcome.id) ∧
      (SweptToAmm now session turn → LegInShares now session turn)

theorem processOrder_trades_iff (sweeping : Sweeping now db session)
    (found : session.current.orders.find? orderId = some order)
    (taken : takeTurn session.current market parimutuel order = some turn)
    (ran : processOrder now market parimutuel session orderId = .ok processed) :
    TradesReconcile now session.current processed.session.current market order.userId
        turn.outcome.name processed.executed processed.ammLeg ↔ SweptOnce now session turn := by
  obtain ⟨rfl, rfl, _⟩ := takeTurn_some taken
  rcases processOrder_ok ran with ⟨rfl, passed⟩ | ⟨_, foundAs, _, expired, rfl⟩ |
    ⟨_, _, foundAs, opened, lasting, takenAs, traded⟩
  · refine iff_of_true ((tradesReconcile_iff [] (by simp)).mpr ⟨by simp, rfl⟩) fun opened _ => ?_
    rcases passed _ found with closed | untaken
    · exact absurd opened (by simp [closed])
    · exact absurd (untaken.symm.trans taken) (by simp)
  · cases found.symm.trans foundAs
    refine iff_of_true ((tradesReconcile_iff [] ?_).mpr ⟨by simp, rfl⟩) fun _ lasting =>
      absurd lasting (by simp [expired])
    simp [Session.commit, expireOrder]
  cases found.symm.trans foundAs
  cases taken.symm.trans takenAs
  unfold SweptOnce
  rw [forall_prop_of_true opened, forall_prop_of_true lasting]
  have sent := tradeOrder_leg_iff sweeping opened lasting traded
  obtain ⟨matched, fill, trace, executed, ends⟩ := tradeOrder_ok traded
  obtain ⟨remaining, reports⟩ := pendingFill_eq trace
  have isExecuted : processed.executed = deliveredDetails session.current.outcomes
      (pendingPlan now session turn.market turn.order turn.outcome.id) := by
    rw [executed, reports, List.nil_append]
  have matchedTrades : matched.trades = session.current.trades ++
      processed.executed.flatMap (matchRows now turn.market turn.order.userId) := by
    rw [isExecuted]
    exact trace_trades trace fun offer member => (pendingPlan_maker sweeping.consistent member).2.1
  have recorded : (∀ details ∈ processed.executed, Recorded details) ↔
      Recordable (pendingPlan now session turn.market turn.order turn.outcome.id) := by
    rw [isExecuted]
    exact recorded_iff _ _
  rw [← sent, ← recorded]
  rcases ends with ⟨noLeg, _, kept⟩ | ⟨after, leg, withLeg, _, _, legRan, final⟩
  · have current : processed.session.current = matched := by
      rcases kept with isSession | isSession <;> rw [isSession]
    rw [noLeg, current, tradesReconcile_iff [] (by rw [List.append_nil]; exact matchedTrades)]
    simp [AreLegRows]
  · obtain ⟨quantity, sides⟩ := sweepLeg_ok legRan
    have written : after.trades = session.current.trades ++
        (processed.executed.flatMap (matchRows now turn.market turn.order.userId) ++
          [⟨turn.order.userId, turn.market, some turn.outcome.name, leg.side, leg.quote.price,
            leg.quantity, now⟩]) := by
      rw [← List.append_assoc, ← matchedTrades]
      rcases sides with ⟨_, _, _, _, rfl⟩ | ⟨_, _, _, _, _, _, rfl⟩ <;> rfl
    have inShares : AreLegRows turn.market turn.order.userId turn.outcome.name (some leg)
        ([⟨turn.order.userId, turn.market, some turn.outcome.name, leg.side, leg.quote.price,
          leg.quantity, now⟩].map Trade.stored) ↔
            toNumeric scale leg.quantity = leg.shares := by
      constructor
      · rintro ⟨row, isRow, legRow⟩
        cases isRow
        exact legRow.amount
      · intro same
        exact ⟨_, rfl, rfl, rfl, rfl, rfl, same⟩
    rw [final, withLeg, tradesReconcile_iff _ written, inShares]
    simp only [Option.isSome_some, forall_const]
    refine and_congr_right fun _ => ?_
    have isRemaining : fill.remaining = pendingRemainder turn.order
        (pendingPlan now session turn.market turn.order turn.outcome.id) := remaining
    unfold LegInShares
    rw [← isRemaining]
    rcases sides with ⟨side, isBuy, _, bought, _⟩ | ⟨side, isSell, _⟩
    · have shares : leg.shares = turn.amm.sharesFor turn.ammSide
          (fill.remaining - fill.remaining * turn.amm.feeRate) := by
        rw [AmmLeg.shares, isBuy]
        exact (BinaryAMM.executeBuy_ok bought).2.2.2.1
      rw [shares, quantity]
      simp only [side]
      exact eq_comm
    · simp only [AmmLeg.shares, isSell, side, quantity]
      exact toNumeric_eq_self_iff scale_pos

end Sweep

end OrderService

end PredictX
