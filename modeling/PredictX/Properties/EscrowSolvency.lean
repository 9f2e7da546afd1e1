import PredictX.Properties.BinaryMarket
import PredictX.Properties.AuditPromise

namespace PredictX.BinaryMarket

open PredictX.Data PredictX.Amm PredictX.MarketService PredictX.MatchingEngine
open PredictX.OrderService PredictX.LiquidityService PredictX.EscrowAudit

/-! Whether a binary market can pay its winners, whichever side wins.

Pairs and liquidity leave the room of both outcomes as it was or larger.  The AMM does not:
a buy mints shares for less than a dollar each and a sell pays for one side's shares out of
the escrow both sides rely on, so the seed has to cover the difference.
-/

/-- Whichever outcome wins, the escrow pays its shares and the fees. -/
def EscrowCovers (db : Database) (market : MarketId) : Prop :=
  ∃ pool, db.pools.find? ⟨market, none⟩ = some pool ∧
    ∀ outcome ∈ outcomesOf db market,
      sideShares db market outcome.id + pool.protocolFees ≤ pool.collateral

/-- The pre-flight of a settlement passes for every outcome. -/
def PassesPreflight (db : Database) (market : MarketId) : Prop :=
  ∀ outcome ∈ outcomesOf db market, ∀ scan : Settlement.Scan,
    scan.Reads db market outcome.id →
      Settlement.preflight id outcome.id scan.positions
        (Settlement.settlementPool db.pools market outcome.id) = .ok ()

/-- The room of the pool's escrow pays for the AMM leg. -/
def LegFunded (db : Database) (venue : Venue) (side : Side) (remaining : ℚ) : Prop :=
  match side with
  | .buy => MintCovered venue.amm venue.ammSide remaining
      (shareRoom db venue.market.id venue.outcome.id venue.pool)
  | .sell => ∀ outcome ∈ outcomesOf db venue.market.id, outcome.id ≠ venue.outcome.id →
      sellCost venue.amm venue.ammSide remaining ≤
        shareRoom db venue.market.id outcome.id venue.pool

instance (db : Database) (venue : Venue) (side : Side) (remaining : ℚ) :
    Decidable (LegFunded db venue side remaining) :=
  match side with
  | .buy => inferInstanceAs (Decidable (MintCovered _ _ _ _))
  | .sell => inferInstanceAs (Decidable (∀ outcome ∈ outcomesOf db venue.market.id, _ → _ ≤ _))

/-- An order on the market credits its matches once and its AMM leg is funded. -/
def Funded (market : MarketId) (db : Database) : Operation → Prop
  | .order env user data =>
      data.marketId = market → ∀ venue, openVenue env db data.marketId data.outcome = .ok venue →
        CreditedOnce db user venue data ∧
          (SentToAmm db user venue data →
            LegFunded db venue data.side (plannedRemainder db user venue data))
  | operation => Booked operation

section Shares

variable {db : Database} {market : MarketId}

theorem sideShares_eq_sharesIn (open_ : Position.AllOpen db.positions market)
    (outcome : OutcomeId) :
    sideShares db market outcome = Position.sharesIn db.positions market outcome := by
  rw [← owed_eq_sideShares]
  unfold Settlement.owed Settlement.unsettled Position.sharesIn Position.counted Table.sum
  unfold Position.AllOpen at open_
  generalize db.positions.rows = rows at open_
  induction rows with
  | nil => rfl
  | cons row rest ih =>
      obtain ⟨head, later⟩ := List.forall_mem_cons.mp open_
      rw [List.filter_cons, List.map_cons, List.sum_cons, ← ih later]
      by_cases ofMarket : row.marketId = market
      · simp [ofMarket, head ofMarket, Settlement.payoutOf]
      · simp [ofMarket]

theorem sharesIn_nonneg (unshort : Unshort db.positions) (outcome : OutcomeId) :
    0 ≤ Position.sharesIn db.positions market outcome := by
  refine Table.sum_nonneg fun row member => ?_
  dsimp only
  split
  · exact unshort row member
  · exact le_rfl

/-- No side is larger than the one a withdrawal leaves the escrow for. -/
theorem sharesIn_le_worstCase (open_ : Position.AllOpen db.positions market)
    (unshort : Unshort db.positions) (outcome : OutcomeId) :
    Position.sharesIn db.positions market outcome ≤ worstCaseShares db market := by
  rw [← sideShares_eq_sharesIn open_]
  unfold worstCaseShares
  cases worst : worstOutcome db market with
  | none =>
      have empty : sides db market = [] := List.argmax_eq_none.mp worst
      rw [← owed_eq_sideShares, owed_of_not_mem (by simp [empty])]
  | some largest =>
      dsimp only
      by_cases side : outcome ∈ sides db market
      · exact List.le_of_mem_argmax side worst
      · rw [← owed_eq_sideShares, owed_of_not_mem side, sideShares_eq_sharesIn open_]
        exact sharesIn_nonneg unshort largest

end Shares

section Steps

variable {db after : Database} {market : MarketId} {first second : Outcome}
  {operation : Operation} {update : LiquidityPool → LiquidityPool} {delta : OutcomeId → ℚ}
  {pool : LiquidityPool}

/-- There is room left for both outcomes. -/
def Roomy (db : Database) (market : MarketId) (first second : Outcome) (pool : LiquidityPool) :
    Prop :=
  ∀ outcome ∈ [first, second], 0 ≤ shareRoom db market outcome.id pool

theorem withdraw_room {lpTokens shares worst : ℚ} (atMost : shares ≤ worst)
    (nonneg : 0 ≤ pool.collateral - pool.protocolFees - shares)
    (floor : pool.collateral * (lpTokens / pool.lpTokenSupply) ≤
      max 0 (pool.collateral - (worst + pool.protocolFees))) :
    0 ≤ (withdrawFrom lpTokens pool).collateral - (withdrawFrom lpTokens pool).protocolFees -
      shares := by
  change 0 ≤ pool.collateral - max 0 (pool.collateral * (lpTokens / pool.lpTokenSupply)) -
    pool.protocolFees - shares
  rcases le_max_iff.mp floor with nothing | enough
  · rw [max_eq_left nothing]
    linarith
  · rcases max_choice 0 (pool.collateral * (lpTokens / pool.lpTokenSupply)) with zero | taken
    · rw [zero]
      linarith
    · rw [taken]
      linarith

theorem order_room {env : Env} {user : UserId} {data : OrderRequest} {venue : Venue}
    {execution : Execution} (books : Books db market first second)
    (roomy : Roomy db market first second venue.pool) (here : data.marketId = market)
    (opened : openVenue env db data.marketId data.outcome = .ok venue)
    (executed : executeOrder env db user data = .ok execution)
    (funded : SentToAmm db user venue data →
      LegFunded db venue data.side (plannedRemainder db user venue data)) :
    ∀ outcome ∈ [first, second],
      0 ≤ shareRoom db market outcome.id (postLeg execution.ammLeg venue.pool) -
        if venue.outcome.id = outcome.id then mintedShares execution.ammLeg else 0 := by
  intro outcome member
  have trades := books.trades here opened
  have room := roomy outcome member
  cases isLeg : execution.ammLeg with
  | none => simpa [postLeg, mintedShares] using room
  | some leg =>
      have legOf := executeOrder_leg executed opened leg isLeg
      have posted : shareRoom db market outcome.id (postLeg (some leg) venue.pool) =
          shareRoom db market outcome.id venue.pool + leg.paid - leg.protocolFee := by
        simp only [shareRoom, postLeg]
        ring
      have enough := funded legOf.sent
      rw [posted]
      split
      · rename_i own
        refine legOf.own_room room ?_ fun isBuy => ?_
        · rw [trades.amm]
          exact books.feeRate _ trades.pool
        · rw [isBuy, LegFunded, trades.marketId, own] at enough
          exact enough
      · rename_i other
        rw [sub_zero]
        refine legOf.other_room room fun isSell => ?_
        rw [isSell, LegFunded, trades.marketId, books.outcomes] at enough
        exact enough outcome member (Ne.symm other)

theorem Posting.room (books : Books db market first second)
    (posting : Posting db market first second operation update delta)
    (funded : Funded market db operation)
    (found : db.pools.find? ⟨market, none⟩ = some pool)
    (roomy : Roomy db market first second pool) :
    ∀ outcome ∈ [first, second],
      0 ≤ shareRoom db market outcome.id (update pool) - delta outcome.id := by
  intro outcome member
  have room := roomy outcome member
  cases posting with
  | idle => simpa using room
  | split user amount =>
      have apart : first.id ≠ second.id := books.apart
      have once : onPair first second (SplitMerge.afterFee amount.value) outcome.id =
          SplitMerge.afterFee amount.value := onPair_of_mem apart member
      rw [once]
      simp only [shareRoom, SplitMerge.splitPool, SplitMerge.afterFee] at room ⊢
      linarith
  | merge user amount =>
      have apart : first.id ≠ second.id := books.apart
      have once : onPair first second (-amount.value) outcome.id = -amount.value :=
        onPair_of_mem apart member
      rw [once]
      simp only [shareRoom, SplitMerge.mergePool, SplitMerge.afterFee] at room ⊢
      linarith
  | @deposit user amount _ row minted here priced =>
      have kept : (depositInto amount.value minted pool).protocolFees = pool.protocolFees := by
        unfold depositInto growReserves
        dsimp only
        split <;> rfl
      have positive := amount.pos
      simp only [shareRoom, kept] at room ⊢
      change 0 ≤ pool.collateral + amount.value - pool.protocolFees - _ - 0
      linarith
  | withdraw user lpTokens name here floor =>
      cases found.symm.trans here
      rw [sub_zero]
      exact withdraw_room (sharesIn_le_worstCase books.allOpen books.unshort outcome.id) room floor
  | fees scanned amount =>
      simp only [shareRoom, payFees, carryFees] at room ⊢
      linarith
  | @order env user data venue execution fees twice here opened executed _ _ once =>
      have trades := books.trades here opened
      cases found.symm.trans trades.pool
      obtain ⟨credited, enough⟩ := funded here venue opened
      have left := order_room books roomy here opened executed enough outcome member
      rw [once credited, add_zero]
      have same : shareRoom db market outcome.id
          (postLeg execution.ammLeg (postFees fees venue.pool)) =
          shareRoom db market outcome.id (postLeg execution.ammLeg venue.pool) := by
        cases execution.ammLeg with
        | none =>
            simp only [shareRoom, postLeg, postFees]
            ring
        | some leg =>
            simp only [shareRoom, postLeg, postFees]
            ring
      rw [same]
      exact left

/-- The books of a market whose pool has room for both outcomes. -/
structure Solvent (db : Database) (market : MarketId) (first second : Outcome) : Prop where
  books : Books db market first second
  pooled : ∃ pool, db.pools.find? ⟨market, none⟩ = some pool ∧
    Roomy db market first second pool

theorem Roomy.feesEscrowed (books : Books db market first second)
    (found : db.pools.find? ⟨market, none⟩ = some pool)
    (roomy : Roomy db market first second pool) : FeesEscrowed db market := by
  intro other here owes
  cases found.symm.trans here
  have room := roomy first List.mem_cons_self
  have held : 0 ≤ Position.sharesIn db.positions market first.id := sharesIn_nonneg books.unshort _
  unfold shareRoom at room
  linarith

theorem Funded.booked (funded : Funded market db operation) : Booked operation := by
  cases operation with
  | order => trivial
  | _ => exact funded

theorem Solvent.commits (solvent : Solvent db market first second)
    (reads : operation.Reads db) (funded : Funded market db operation)
    (committed : operation.Commits db after) : Solvent after market first second := by
  obtain ⟨books, pool, found, roomy⟩ := solvent
  obtain ⟨update, delta, posting, entry⟩ := commits_posting books funded.booked reads
    (fun _ => roomy.feesEscrowed books found) committed
  refine ⟨books.commits committed posting entry, update pool, ?_, fun outcome member => ?_⟩
  · rw [entry.row, found, Option.map_some]
  · have room := posting.room books funded found roomy outcome member
    unfold shareRoom at room ⊢
    rw [entry.shares]
    linarith

theorem Solvent.covers (solvent : Solvent db market first second) : EscrowCovers db market := by
  obtain ⟨books, pool, found, roomy⟩ := solvent
  refine ⟨pool, found, fun outcome member => ?_⟩
  rw [books.outcomes] at member
  have room := roomy outcome member
  rw [sideShares_eq_sharesIn books.allOpen]
  unfold shareRoom at room
  linarith

theorem Solvent.preflight (solvent : Solvent db market first second) :
    PassesPreflight db market := by
  intro outcome member scan reads
  obtain ⟨pool, found, covered⟩ := solvent.covers
  have isPool : Settlement.settlementPool db.pools market outcome.id = some pool := by
    rw [Settlement.settlementPool, solvent.books.unnamed, found]
  have nonneg : ∀ position ∈ Settlement.unsettled db market, 0 ≤ position.sharesHeld :=
    fun position row => solvent.books.unshort position (List.mem_filter.mp row).1
  rw [isPool, Settlement.preflight, reads.winnerTotal_eq nonneg, owed_eq_sideShares]
  exact if_neg (not_lt.mpr (covered outcome member))

end Steps

section Runs

variable {author : Markets.Author} {db start final : Database} {market : MarketId}
  {request : Markets.CreateMarketRequest} {first second : Outcome} {operations : List Operation}

/-- Nobody holds shares of a new market. -/
theorem sharesIn_launched (launches : Markets.Launches author db request market start)
    (outcome : OutcomeId) : Position.sharesIn start.positions market outcome = 0 := by
  refine List.sum_eq_zero fun value member => ?_
  obtain ⟨row, rowMember, rfl⟩ := List.mem_map.mp member
  simp [launches.launched.unheld row rowMember]

theorem solvent_launched (launches : Markets.Launches author db request market start)
    (outcomes : outcomesOf start market = [first, second])
    (binary : isParimutuel (outcomesOf start market) = false) (unshort : Unshort db.positions) :
    Solvent start market first second := by
  have launched := launches.launched
  have books := books_launched launches outcomes binary unshort
  obtain ⟨pool, found⟩ := launched.pooled first (by simp [outcomes])
  rw [binary] at found
  have untraded := launched.untraded _ pool rfl found
  refine ⟨books, pool, found, fun outcome _ => ?_⟩
  rw [shareRoom, sharesIn_launched launches, untraded.protocolFees]
  linarith [untraded.collateral]

/-- As long as every AMM leg is funded and no match is credited twice, the escrow covers
both outcomes. -/
theorem escrow_covers_both_outcomes
    (launches : Markets.Launches author db request market start)
    (outcomes : outcomesOf start market = [first, second])
    (binary : isParimutuel (outcomesOf start market) = false)
    (unshort : ∀ row ∈ db.positions.rows, 0 ≤ row.sharesHeld)
    (run : Operation.Runs (Funded market) start operations final) :
    EscrowCovers final market ∧ PassesPreflight final market := by
  have solvent := run.invariant (fun db : Database => Solvent db market first second)
    (fun _ _ _ guarded committed before => before.commits guarded.1 guarded.2 committed)
    (solvent_launched launches outcomes binary unshort)
  exact ⟨solvent.covers, solvent.preflight⟩

end Runs

/-! # A market with a small seed -/

/-- An exchange with one account and no market yet. -/
def emptyExchange : Database where
  wallets := ⟨[⟨1, 10000, 0⟩], by decide⟩
  positions := .empty
  orders := .empty
  pools := .empty
  lpShares := .empty
  markets := .empty
  outcomes := .empty
  disputes := .empty
  referrals := []
  trades := []
  transactions := []
  systemUser := none

def seededRequest : Markets.CreateMarketRequest where
  closesAt := 1000
  initialLiquidity := 100
  initialProbability := none
  outcomesCreate := none
  liquidity_nonneg := by norm_num
  probability_bounds := by simp
  outcomes_count := by simp
  outcomes_index := by simp
  outcomes_names := by simp

def administrator : Markets.Author := ⟨1, true, true, false⟩

def splitOf (amount : ℚ) (pos : 0 < amount) (grid : OnGrid scale amount) : Operation :=
  .split 1 1 ⟨amount, pos, grid⟩

def orderOf (side : Side) (amount : ℚ) (pos : 0 < amount) (grid : OnGrid scale amount) :
    Operation :=
  .order quietEnv 1 (marketOrder side amount pos grid)

/-- A seed of 100, a split of 1000, and its YES half sold to the AMM: the escrow cannot pay
for the NO half any more. -/
theorem sold_half_empties_escrow :
    ∃ start final, Markets.Launches administrator emptyExchange seededRequest 1 start ∧
      outcomesOf start 1 = [⟨1, 1, .yes, 0⟩, ⟨2, 1, .no, 1⟩] ∧
      isParimutuel (outcomesOf start 1) = false ∧
      Operation.Runs (fun _ operation => Booked operation) start
        [splitOf 1000 pos_thousand grid_thousand,
          orderOf .sell 980 (by norm_num) (by decide +kernel)] final ∧
      ¬ EscrowCovers final 1 := by
  have made : succeedsWith (Markets.createMarket 0 administrator emptyExchange seededRequest)
      (fun made => made.2 = 1 && outcomesOf made.1 1 = [⟨1, 1, .yes, 0⟩, ⟨2, 1, .no, 1⟩] &&
        isParimutuel (outcomesOf made.1 1) = false &&
        succeedsWith ((splitOf 1000 pos_thousand grid_thousand).perform made.1 >>=
            (orderOf .sell 980 (by norm_num) (by decide +kernel)).perform) fun final =>
          outcomesOf final 1 = [⟨1, 1, .yes, 0⟩, ⟨2, 1, .no, 1⟩] &&
            (final.pools.find? ⟨1, none⟩).all fun pool =>
              pool.collateral < sideShares final 1 2 + pool.protocolFees) = true := by
    decide +kernel
  obtain ⟨⟨start, market⟩, created, facts⟩ := succeedsWith_iff.mp made
  simp only [Bool.and_eq_true, decide_eq_true_eq] at facts
  obtain ⟨⟨⟨rfl, outcomes⟩, binary⟩, traded⟩ := facts
  obtain ⟨final, ran, short⟩ := succeedsWith_iff.mp traded
  obtain ⟨middle, splits, sells⟩ := bind_eq_ok.mp ran
  simp only [Bool.and_eq_true, decide_eq_true_eq] at short
  refine ⟨start, final, ⟨0, start, created, .inl rfl⟩, outcomes, binary,
    .act ⟨trivial, trivial⟩ splits (.act ⟨trivial, trivial⟩ sells (.stop _)), ?_⟩
  rintro ⟨pool, found, covered⟩
  rw [found] at short
  have owed := covered ⟨2, 1, .no, 1⟩ (by simp [short.1])
  exact absurd owed (not_le.mpr (by simpa using short.2))

/-- The same market covers a split of 100 and a buy of 5. -/
theorem small_trades_stay_covered :
    ∃ start final, Operation.Runs (Funded 1) start
        [splitOf 100 pos_hundred grid_hundred,
          orderOf .buy 5 pos_five grid_five] final ∧
      EscrowCovers final 1 ∧ PassesPreflight final 1 := by
  let request := marketOrder .buy 5 pos_five grid_five
  have made : succeedsWith (Markets.createMarket 0 administrator emptyExchange seededRequest)
      (fun made => made.2 = 1 && outcomesOf made.1 1 = [⟨1, 1, .yes, 0⟩, ⟨2, 1, .no, 1⟩] &&
        isParimutuel (outcomesOf made.1 1) = false &&
        succeedsWith ((splitOf 100 pos_hundred grid_hundred).perform made.1)
          fun middle =>
            succeedsWith (openVenue quietEnv middle 1 .yes) (fun venue =>
              (bookPlan middle 1 venue request).isEmpty &&
                decide (LegFunded middle venue .buy (plannedRemainder middle 1 venue request))) &&
            succeedsWith ((orderOf .buy 5 pos_five grid_five).perform middle)
              fun _ => true) = true := by
    decide +kernel
  obtain ⟨⟨start, market⟩, created, facts⟩ := succeedsWith_iff.mp made
  simp only [Bool.and_eq_true, decide_eq_true_eq] at facts
  obtain ⟨⟨⟨rfl, outcomes⟩, binary⟩, traded⟩ := facts
  obtain ⟨middle, splits, later⟩ := succeedsWith_iff.mp traded
  simp only [Bool.and_eq_true] at later
  obtain ⟨site, ordered⟩ := later
  obtain ⟨venue, opened, planned⟩ := succeedsWith_iff.mp site
  obtain ⟨final, buys, _⟩ := succeedsWith_iff.mp ordered
  simp only [Bool.and_eq_true, decide_eq_true_eq, List.isEmpty_iff] at planned
  have funded : Funded 1 middle (orderOf .buy 5 pos_five grid_five) := by
    intro _ other openedAs
    cases opened.symm.trans openedAs
    refine ⟨.inr (.inr (.inl fun offer member => ?_)), fun _ => planned.2⟩
    rw [planned.1] at member
    cases member
  have run : Operation.Runs (Funded 1) start
      [splitOf 100 pos_hundred grid_hundred,
        orderOf .buy 5 pos_five grid_five] final :=
    .act ⟨trivial, trivial⟩ splits (.act ⟨trivial, funded⟩ buys (.stop _))
  exact ⟨start, final, run, escrow_covers_both_outcomes ⟨0, start, created, .inl rfl⟩ outcomes
    binary (by simp [emptyExchange, Table.empty]) run⟩

end PredictX.BinaryMarket
