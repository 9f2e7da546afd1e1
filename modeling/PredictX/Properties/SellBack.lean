import PredictX.Properties.EscrowSolvency

namespace PredictX.BinaryMarket

open PredictX.Data PredictX.Amm PredictX.MarketService PredictX.MatchingEngine
open PredictX.OrderService PredictX.LiquidityService PredictX.EscrowAudit

/-! Whether open shares fit the reserve they are sold into.

Splits, merges and deposits move the reserves at least as the shares move.  A withdrawal
scales the reserves down and leaves the shares, and a buy that is credited twice does the
opposite; the AMM itself cuts both reserves to the grid.
-/

/-- The reserve an outcome is sold into. -/
def sideReserve (pool : LiquidityPool) (name : OutcomeName) : ℚ :=
  match shareSide name with
  | .yes => pool.yesShares
  | .no => pool.noShares

/-- Each reserve holds the open shares of its side, so the AMM has room for everybody's own. -/
def SellsBack (db : Database) (market : MarketId) : Prop :=
  ∃ pool, db.pools.find? ⟨market, none⟩ = some pool ∧
    ∀ outcome ∈ outcomesOf db market,
      sideShares db market outcome.id ≤ sideReserve pool outcome.name ∧
        ∀ user shares, shares ≤ Position.held db.positions ⟨user, market, outcome.id⟩ →
          shares ≤ (poolAmm pool).reserve (shareSide outcome.name)

/-- The shares of an outcome an AMM leg burns. -/
def soldOf (venue : Venue) (side : Side) (remaining : ℚ) (outcome : OutcomeId) : ℚ :=
  match side with
  | .buy => 0
  | .sell => if outcome = venue.outcome.id then remaining else 0

/-- The open shares still fit the reserves once the AMM has cut these to the grid. -/
def FitsGrid (db : Database) (venue : Venue) (side : Side) (remaining : ℚ) : Prop :=
  ∀ outcome ∈ outcomesOf db venue.market.id,
    Position.sharesIn db.positions venue.market.id outcome.id -
        soldOf venue side remaining outcome.id ≤
      quantizeDown scale (sideReserve venue.pool outcome.name -
        soldOf venue side remaining outcome.id)

instance (db : Database) (venue : Venue) (side : Side) (remaining : ℚ) :
    Decidable (FitsGrid db venue side remaining) :=
  inferInstanceAs (Decidable (∀ outcome ∈ outcomesOf db venue.market.id, _ ≤ _))

/-- An order credits its matches once and leaves the AMM grid amounts, and a withdrawal leaves
each reserve the open shares of its side. -/
def KeepsReserves (market : MarketId) (db : Database) : Operation → Prop
  | .order env user data =>
      data.marketId = market → ∀ venue, openVenue env db data.marketId data.outcome = .ok venue →
        CreditedOnce db user venue data ∧
          (SentToAmm db user venue data →
            FitsGrid db venue data.side (plannedRemainder db user venue data))
  | .removeLiquidity _ other lpTokens _ =>
      other = market → ∀ pool, db.pools.find? ⟨market, none⟩ = some pool →
        ∀ outcome ∈ outcomesOf db market,
          Position.sharesIn db.positions market outcome.id ≤
            sideReserve pool outcome.name * (1 - lpTokens.value / pool.lpTokenSupply)
  | .split .. | .merge .. | .addLiquidity .. => True
  | _ => False

theorem reserve_of_ne (amm : BinaryAMM) {side other : ShareSide} (apart : side ≠ other) :
    amm.reserve side = amm.otherReserve other := by
  cases side with
  | yes =>
      cases other with
      | yes => exact absurd rfl apart
      | no => rfl
  | no =>
      cases other with
      | yes => rfl
      | no => exact absurd rfl apart

theorem poolAmm_reserve {pool : LiquidityPool} {name : OutcomeName}
    (nonneg : 0 ≤ sideReserve pool name) :
    (poolAmm pool).reserve (shareSide name) = sideReserve pool name := by
  unfold sideReserve at nonneg ⊢
  cases side : shareSide name with
  | yes =>
      rw [side] at nonneg
      exact max_eq_right nonneg
  | no =>
      rw [side] at nonneg
      exact max_eq_right nonneg

theorem sideReserve_postLeg (leg : AmmLeg) (pool : LiquidityPool) (name : OutcomeName) :
    sideReserve (postLeg (some leg) pool) name = leg.amm.reserve (shareSide name) := by
  unfold sideReserve
  cases shareSide name with
  | yes => rfl
  | no => rfl

section Steps

variable {db after : Database} {market : MarketId} {first second : Outcome}
  {operation : Operation} {update : LiquidityPool → LiquidityPool} {delta : OutcomeId → ℚ}
  {pool : LiquidityPool} {outcome other : Outcome}

/-- The two outcomes of a binary market trade on different sides. -/
theorem Books.sides_ne (books : Books db market first second) (member : outcome ∈ [first, second])
    (otherMember : other ∈ [first, second]) (apart : outcome.id ≠ other.id) :
    shareSide outcome.name ≠ shareSide other.name := by
  have pair : shareSide first.name ≠ shareSide second.name := by
    have binary := books.binary
    rw [books.outcomes] at binary
    have names : (first.name = .yes ∨ second.name = .yes) ∧
        (first.name = .no ∨ second.name = .no) := by
      simpa only [isParimutuel, List.any_cons, List.any_nil, Bool.or_false, Bool.not_eq_false',
        Bool.and_eq_true, Bool.or_eq_true, decide_eq_true_eq] using binary
    obtain ⟨yes, no⟩ := names
    rcases yes with one | two
    · have two : second.name = .no := no.resolve_left (by simp [one])
      simp [one, two, shareSide]
    · have one : first.name = .no := no.resolve_right (by simp [two])
      simp [one, two, shareSide]
  have left : outcome = first ∨ outcome = second := by simpa using member
  have right : other = first ∨ other = second := by simpa using otherMember
  rcases left with rfl | rfl
  · rcases right with rfl | rfl
    · exact absurd rfl apart
    · exact pair
  · rcases right with rfl | rfl
    · exact pair.symm
    · exact absurd rfl apart

/-- Every reserve holds the open shares of its side. -/
def Stocked (db : Database) (market : MarketId) (first second : Outcome) (pool : LiquidityPool) :
    Prop :=
  ∀ outcome ∈ [first, second],
    Position.sharesIn db.positions market outcome.id ≤ sideReserve pool outcome.name

theorem Stocked.reserves_nonneg (stocked : Stocked db market first second pool)
    (books : Books db market first second) : 0 ≤ pool.yesShares ∧ 0 ≤ pool.noShares := by
  have each : ∀ outcome ∈ [first, second], 0 ≤ sideReserve pool outcome.name :=
    fun outcome member => (sharesIn_nonneg books.unshort outcome.id).trans (stocked outcome member)
  have one := each first List.mem_cons_self
  have two := each second (List.mem_cons_of_mem _ List.mem_cons_self)
  have apart := books.sides_ne List.mem_cons_self (List.mem_cons_of_mem _ List.mem_cons_self)
    books.apart
  unfold sideReserve at one two
  cases left : shareSide first.name with
  | yes =>
      cases right : shareSide second.name with
      | yes => exact absurd (left.trans right.symm) apart
      | no =>
          rw [left] at one
          rw [right] at two
          exact ⟨one, two⟩
  | no =>
      cases right : shareSide second.name with
      | yes =>
          rw [left] at one
          rw [right] at two
          exact ⟨two, one⟩
      | no => exact absurd (left.trans right.symm) apart

theorem deposit_reserve {amount minted : ℚ} (positive : 0 < amount)
    (yes : 0 ≤ pool.yesShares) (no : 0 ≤ pool.noShares) (name : OutcomeName) :
    sideReserve pool name ≤ sideReserve (depositInto amount minted pool) name := by
  have grows : pool.yesShares ≤ (growReserves amount pool).yesShares ∧
      pool.noShares ≤ (growReserves amount pool).noShares := by
    unfold growReserves
    dsimp only
    split
    · rename_i funded
      have total := funded.2
      exact ⟨le_add_of_nonneg_right (by positivity), le_add_of_nonneg_right (by positivity)⟩
    · exact ⟨le_add_of_nonneg_right (by positivity), le_add_of_nonneg_right (by positivity)⟩
  unfold sideReserve
  cases shareSide name with
  | yes => exact grows.1
  | no => exact grows.2

theorem order_stocked {env : Env} {user : UserId} {data : OrderRequest} {venue : Venue}
    {execution : Execution} (books : Books db market first second)
    (stocked : Stocked db market first second venue.pool) (here : data.marketId = market)
    (opened : openVenue env db data.marketId data.outcome = .ok venue)
    (executed : executeOrder env db user data = .ok execution)
    (fits : SentToAmm db user venue data →
      FitsGrid db venue data.side (plannedRemainder db user venue data)) :
    ∀ outcome ∈ [first, second],
      Position.sharesIn db.positions market outcome.id +
          (if venue.outcome.id = outcome.id then mintedShares execution.ammLeg else 0) ≤
        sideReserve (postLeg execution.ammLeg venue.pool) outcome.name := by
  intro outcome member
  have trades := books.trades here opened
  have stock := stocked outcome member
  have nonneg : 0 ≤ sideReserve venue.pool outcome.name :=
    (sharesIn_nonneg books.unshort outcome.id).trans stock
  cases isLeg : execution.ammLeg with
  | none => simpa [postLeg, mintedShares] using stock
  | some leg =>
      have legOf := executeOrder_leg executed opened leg isLeg
      have outcomeMember : venue.outcome ∈ [first, second] := by simpa using trades.outcome
      have enough := fits legOf.sent
      rw [FitsGrid, trades.marketId, books.outcomes, ← legOf.quantity] at enough
      have own := enough outcome member
      have reserveEq := poolAmm_reserve nonneg
      rw [← trades.amm] at reserveEq
      rw [sideReserve_postLeg]
      by_cases same : outcome.id = venue.outcome.id
      · have sameOutcome : shareSide outcome.name = venue.ammSide := by
          rw [trades.ammSide]
          by_contra apart
          exact apart (congrArg (fun row : Outcome => shareSide row.name)
            (books.eq_of_id member outcomeMember same))
        rw [sameOutcome] at reserveEq ⊢
        rw [if_pos same.symm]
        cases side : data.side with
        | buy =>
            simp only [side, soldOf, sub_zero] at own
            obtain ⟨_, net, _, minted, _, _, _, _, reserveAfter, _⟩ :=
              BinaryAMM.executeBuy_ok (legOf.bought side)
            have grown := venue.amm.le_reserveAfterBuy venue.ammSide net.le
            rw [reserveEq] at grown
            rw [mintedShares, legOf.side, side, minted, reserveAfter]
            linarith
        | sell =>
            simp only [side, soldOf, same, if_true] at own
            obtain ⟨_, _, _, _, _, _, _, _, reserveAfter, _⟩ :=
              BinaryAMM.executeSell_ok (legOf.sold side)
            rw [mintedShares, legOf.side, side, reserveAfter, reserveEq, same]
            linarith
      · have apart : shareSide outcome.name ≠ venue.ammSide := by
          rw [trades.ammSide]
          exact books.sides_ne member outcomeMember same
        rw [reserve_of_ne _ apart] at reserveEq ⊢
        rw [if_neg (Ne.symm same), add_zero]
        have unsold : soldOf venue data.side leg.quantity outcome.id = 0 := by
          unfold soldOf
          cases data.side with
          | buy => rfl
          | sell => exact if_neg same
        rw [unsold, sub_zero, sub_zero] at own
        cases side : data.side with
        | buy =>
            obtain ⟨_, _, _, _, _, _, _, _, _, otherAfter⟩ :=
              BinaryAMM.executeBuy_ok (legOf.bought side)
            rw [otherAfter, reserveEq]
            exact own
        | sell =>
            obtain ⟨_, _, _, _, _, _, _, _, _, otherAfter⟩ :=
              BinaryAMM.executeSell_ok (legOf.sold side)
            rw [otherAfter, reserveEq]
            exact own

theorem Posting.stocked (books : Books db market first second)
    (posting : Posting db market first second operation update delta)
    (keeps : KeepsReserves market db operation)
    (found : db.pools.find? ⟨market, none⟩ = some pool)
    (stocked : Stocked db market first second pool) :
    ∀ outcome ∈ [first, second],
      Position.sharesIn db.positions market outcome.id + delta outcome.id ≤
        sideReserve (update pool) outcome.name := by
  intro outcome member
  have stock := stocked outcome member
  cases posting with
  | idle => simpa using stock
  | split user amount =>
      rw [onPair_of_mem books.apart member]
      unfold sideReserve SplitMerge.splitPool at *
      cases side : shareSide outcome.name with
      | yes =>
          rw [side] at stock
          linarith
      | no =>
          rw [side] at stock
          linarith
  | merge user amount =>
      rw [onPair_of_mem books.apart member]
      unfold sideReserve SplitMerge.mergePool at *
      cases side : shareSide outcome.name with
      | yes =>
          rw [side] at stock
          exact le_max_of_le_right (by linarith)
      | no =>
          rw [side] at stock
          exact le_max_of_le_right (by linarith)
  | deposit user amount =>
      obtain ⟨yes, no⟩ := stocked.reserves_nonneg books
      rw [add_zero]
      exact stock.trans (deposit_reserve amount.pos yes no outcome.name)
  | withdraw user lpTokens name here floor =>
      have left := keeps rfl pool found outcome (books.outcomes ▸ member)
      rw [mul_sub, mul_one] at left
      rw [add_zero]
      unfold sideReserve withdrawFrom shrinkReserves at *
      cases side : shareSide outcome.name with
      | yes =>
          rw [side] at left
          exact left
      | no =>
          rw [side] at left
          exact left
  | fees => exact keeps.elim
  | @order env user data venue execution fees twice here opened executed _ _ once =>
      have trades := books.trades here opened
      cases found.symm.trans trades.pool
      obtain ⟨credited, enough⟩ := keeps here venue opened
      have left := order_stocked books stocked here opened executed enough outcome member
      have same : sideReserve (postLeg execution.ammLeg (postFees fees venue.pool)) outcome.name =
          sideReserve (postLeg execution.ammLeg venue.pool) outcome.name := by
        cases execution.ammLeg with
        | none => rfl
        | some leg => rfl
      rw [once credited, add_zero, same]
      exact left

/-- The books of a market whose reserves hold the open shares. -/
structure Sellable (db : Database) (market : MarketId) (first second : Outcome) : Prop where
  books : Books db market first second
  pooled : ∃ pool, db.pools.find? ⟨market, none⟩ = some pool ∧
    Stocked db market first second pool

theorem KeepsReserves.booked (keeps : KeepsReserves market db operation) : Booked operation := by
  cases operation with
  | order => trivial
  | removeLiquidity => trivial
  | distributeFees => trivial
  | _ => exact keeps

theorem Sellable.commits (sellable : Sellable db market first second)
    (reads : operation.Reads db) (keeps : KeepsReserves market db operation)
    (committed : operation.Commits db after) : Sellable after market first second := by
  obtain ⟨books, pool, found, stocked⟩ := sellable
  have noSweep : (∃ scanned, operation = .distributeFees scanned) → FeesEscrowed db market := by
    rintro ⟨scanned, rfl⟩
    exact keeps.elim
  obtain ⟨update, delta, posting, entry⟩ :=
    commits_posting books keeps.booked reads noSweep committed
  refine ⟨books.commits committed posting entry, update pool, ?_, fun outcome member => ?_⟩
  · rw [entry.row, found, Option.map_some]
  · rw [entry.shares]
    exact posting.stocked books keeps found stocked outcome member

/-- A holder has at most the shares of the side. -/
theorem held_le_sharesIn (unshort : Unshort db.positions) (user : UserId) (outcome : OutcomeId) :
    Position.held db.positions ⟨user, market, outcome⟩ ≤
      Position.sharesIn db.positions market outcome := by
  cases found : db.positions.find? ⟨user, market, outcome⟩ with
  | none =>
      rw [Position.held, found]
      exact sharesIn_nonneg unshort outcome
  | some row =>
      obtain ⟨member, isKey⟩ := Table.find?_eq_some.mp found
      obtain ⟨_, ofMarket, ofOutcome⟩ := PositionKey.mk.inj isKey
      have nonneg : ∀ other ∈ db.positions.rows,
          0 ≤ if decide (other.marketId = market) && decide (other.outcomeId = outcome) then
            other.sharesHeld else 0 := by
        intro other row
        split
        · exact unshort other row
        · exact le_rfl
      have column : _ ≤ Position.sharesIn db.positions market outcome :=
        Table.le_sum nonneg member
      rw [Position.held_eq found]
      simpa [ofMarket, ofOutcome] using column

theorem Sellable.sellsBack (sellable : Sellable db market first second) :
    SellsBack db market := by
  obtain ⟨books, pool, found, stocked⟩ := sellable
  refine ⟨pool, found, fun outcome member => ?_⟩
  rw [books.outcomes] at member
  have stock := stocked outcome member
  refine ⟨by rwa [sideShares_eq_sharesIn books.allOpen], fun user shares owned => ?_⟩
  rw [poolAmm_reserve ((sharesIn_nonneg books.unshort outcome.id).trans stock)]
  exact (owned.trans (held_le_sharesIn books.unshort user outcome.id)).trans stock

end Steps

section Runs

variable {author : Markets.Author} {db start final : Database} {market : MarketId}
  {request : Markets.CreateMarketRequest} {first second : Outcome} {operations : List Operation}

theorem sellable_launched (launches : Markets.Launches author db request market start)
    (outcomes : outcomesOf start market = [first, second])
    (binary : isParimutuel (outcomesOf start market) = false) (unshort : Unshort db.positions) :
    Sellable start market first second := by
  have launched := launches.launched
  obtain ⟨pool, found⟩ := launched.pooled first (by simp [outcomes])
  rw [binary] at found
  have untraded := launched.untraded _ pool rfl found
  refine ⟨books_launched launches outcomes binary unshort, pool, found, fun outcome _ => ?_⟩
  rw [sharesIn_launched launches]
  unfold sideReserve
  cases shareSide outcome.name with
  | yes => exact untraded.yesShares
  | no => exact untraded.noShares

/-- As long as withdrawals leave the reserves the open shares, no match is credited twice and
the AMM's cuts do not reach them, every open share can be sold back. -/
theorem open_shares_fit_reserves
    (launches : Markets.Launches author db request market start)
    (outcomes : outcomesOf start market = [first, second])
    (binary : isParimutuel (outcomesOf start market) = false)
    (unshort : ∀ row ∈ db.positions.rows, 0 ≤ row.sharesHeld)
    (run : Operation.Runs (KeepsReserves market) start operations final) :
    SellsBack final market := by
  have sellable := run.invariant (fun db : Database => Sellable db market first second)
    (fun _ _ _ guarded committed before => before.commits guarded.1 guarded.2 committed)
    (sellable_launched launches outcomes binary unshort)
  exact sellable.sellsBack

end Runs

def withdrawalOf (lpTokens : ℚ) (pos : 0 < lpTokens) (grid : OnGrid scale lpTokens) : Operation :=
  .removeLiquidity 1 1 ⟨lpTokens, pos, grid⟩ none

/-- The operations the reserves are followed over. -/
def Followed : Operation → Prop
  | .order .. | .split .. | .merge .. | .addLiquidity .. | .removeLiquidity .. => True
  | _ => False

/-- A seed of 100 and a split of 100; half of the liquidity leaves, and 74 YES shares are in
the reserve for the 98 that are held. -/
theorem withdrawal_strands_shares :
    ∃ start final, Markets.Launches administrator emptyExchange seededRequest 1 start ∧
      outcomesOf start 1 = [⟨1, 1, .yes, 0⟩, ⟨2, 1, .no, 1⟩] ∧
      isParimutuel (outcomesOf start 1) = false ∧
      Operation.Runs (fun _ operation => Followed operation) start
        [splitOf 100 pos_hundred grid_hundred,
          withdrawalOf 100 pos_hundred grid_hundred] final ∧
      ¬ SellsBack final 1 := by
  have made : succeedsWith (Markets.createMarket 0 administrator emptyExchange seededRequest)
      (fun made => made.2 = 1 && outcomesOf made.1 1 = [⟨1, 1, .yes, 0⟩, ⟨2, 1, .no, 1⟩] &&
        isParimutuel (outcomesOf made.1 1) = false &&
        succeedsWith ((splitOf 100 pos_hundred grid_hundred).perform made.1 >>=
            (withdrawalOf 100 pos_hundred grid_hundred).perform) fun final =>
          outcomesOf final 1 = [⟨1, 1, .yes, 0⟩, ⟨2, 1, .no, 1⟩] &&
            (final.pools.find? ⟨1, none⟩).all fun pool =>
              sideReserve pool .yes < sideShares final 1 1) = true := by
    decide +kernel
  obtain ⟨⟨start, market⟩, created, facts⟩ := succeedsWith_iff.mp made
  simp only [Bool.and_eq_true, decide_eq_true_eq] at facts
  obtain ⟨⟨⟨rfl, outcomes⟩, binary⟩, traded⟩ := facts
  obtain ⟨final, ran, short⟩ := succeedsWith_iff.mp traded
  obtain ⟨middle, splits, leaves⟩ := bind_eq_ok.mp ran
  simp only [Bool.and_eq_true, decide_eq_true_eq] at short
  refine ⟨start, final, ⟨0, start, created, .inl rfl⟩, outcomes, binary,
    .act ⟨trivial, trivial⟩ splits (.act ⟨trivial, trivial⟩ leaves (.stop _)), ?_⟩
  rintro ⟨pool, found, stocked⟩
  rw [found] at short
  have stock := (stocked ⟨1, 1, .yes, 0⟩ (by simp [short.1])).1
  exact absurd stock (not_le.mpr (by simpa using short.2))

/-- A tenth of the liquidity may leave the same market, and a buy of 5 follows. -/
theorem small_withdrawal_keeps_reserves :
    ∃ start final, Operation.Runs (KeepsReserves 1) start
        [splitOf 100 pos_hundred grid_hundred,
          withdrawalOf 20 (by norm_num) (by decide +kernel),
          orderOf .buy 5 pos_five grid_five] final ∧
      SellsBack final 1 := by
  let request := marketOrder .buy 5 pos_five grid_five
  have made : succeedsWith (Markets.createMarket 0 administrator emptyExchange seededRequest)
      (fun made => made.2 = 1 && outcomesOf made.1 1 = [⟨1, 1, .yes, 0⟩, ⟨2, 1, .no, 1⟩] &&
        isParimutuel (outcomesOf made.1 1) = false &&
        succeedsWith ((splitOf 100 pos_hundred grid_hundred).perform made.1)
          fun middle =>
            (middle.pools.find? ⟨1, none⟩).all (fun pool =>
              (outcomesOf middle 1).all fun outcome =>
                Position.sharesIn middle.positions 1 outcome.id ≤
                  sideReserve pool outcome.name * (1 - 20 / pool.lpTokenSupply)) &&
            succeedsWith ((withdrawalOf 20 (by norm_num) (by decide +kernel)).perform middle)
              fun later =>
                succeedsWith (openVenue quietEnv later 1 .yes) (fun venue =>
                  (bookPlan later 1 venue request).isEmpty &&
                    decide (FitsGrid later venue .buy (plannedRemainder later 1 venue request))) &&
                succeedsWith ((orderOf .buy 5 pos_five grid_five).perform later)
                  fun _ => true) = true := by
    decide +kernel
  obtain ⟨⟨start, market⟩, created, facts⟩ := succeedsWith_iff.mp made
  simp only [Bool.and_eq_true, decide_eq_true_eq] at facts
  obtain ⟨⟨⟨rfl, outcomes⟩, binary⟩, traded⟩ := facts
  obtain ⟨middle, splits, next⟩ := succeedsWith_iff.mp traded
  simp only [Bool.and_eq_true] at next
  obtain ⟨left, withdraws⟩ := next
  obtain ⟨later, leaves, last⟩ := succeedsWith_iff.mp withdraws
  simp only [Bool.and_eq_true] at last
  obtain ⟨site, ordered⟩ := last
  obtain ⟨venue, opened, planned⟩ := succeedsWith_iff.mp site
  obtain ⟨final, buys, _⟩ := succeedsWith_iff.mp ordered
  simp only [Bool.and_eq_true, decide_eq_true_eq, List.isEmpty_iff] at planned
  have keeps : KeepsReserves 1 middle (withdrawalOf 20 (by norm_num) (by decide +kernel)) := by
    intro _ pool found outcome member
    rw [found] at left
    simp only [Option.all_some, List.all_eq_true, decide_eq_true_eq] at left
    exact left outcome member
  have fits : KeepsReserves 1 later (orderOf .buy 5 pos_five grid_five) := by
    intro _ other openedAs
    cases opened.symm.trans openedAs
    refine ⟨.inr (.inr (.inl fun offer member => ?_)), fun _ => planned.2⟩
    rw [planned.1] at member
    cases member
  have run : Operation.Runs (KeepsReserves 1) start
      [splitOf 100 pos_hundred grid_hundred,
        withdrawalOf 20 (by norm_num) (by decide +kernel),
        orderOf .buy 5 pos_five grid_five] final :=
    .act ⟨trivial, trivial⟩ splits (.act ⟨trivial, keeps⟩ leaves
      (.act ⟨trivial, fits⟩ buys (.stop _)))
  exact ⟨start, final, run, open_shares_fit_reserves ⟨0, start, created, .inl rfl⟩ outcomes
    binary (by simp [emptyExchange, Table.empty]) run⟩

end PredictX.BinaryMarket
