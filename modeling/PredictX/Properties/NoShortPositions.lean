import PredictX.Api.Operations
import PredictX.Properties.ShareConservation

namespace PredictX

open PredictX.Data PredictX.OrderService PredictX.MatchingEngine PredictX.LimitSweep
open PredictX.Settlement PredictX.Amm

/-! No operation leaves a position short.

A resting sell reserves no shares, so every path that takes shares from a seller checks the
row again, with what the same transaction has already taken from it.
-/

/-- No position is negative. -/
def Unshort (positions : Table Position.key) : Prop :=
  ∀ row ∈ positions.rows, 0 ≤ row.sharesHeld

namespace Unshort

variable {positions : Table Position.key} {key : PositionKey} {shares : ℚ}

theorem modify (unshort : Unshort positions) (update : Position → Position)
    (keeps : ∀ row, (update row).key = row.key)
    (stays : ∀ row ∈ positions.rows, row.key = key → 0 ≤ (update row).sharesHeld) :
    Unshort (positions.modify key update keeps) := by
  intro row member
  obtain ⟨old, oldMember, rfl⟩ := Table.mem_modify.mp member
  split
  · exact stays old oldMember ‹_›
  · exact unshort old oldMember

theorem acquire (unshort : Unshort positions) (nonneg : 0 ≤ shares) (key : PositionKey)
    (cost : ℚ) (average : Position → ℚ) :
    Unshort (Position.acquire positions key shares cost average) := by
  unfold Position.acquire
  split
  · refine unshort.modify (Position.gain shares average) (fun _ => rfl) fun row member _ => ?_
    exact add_nonneg (unshort row member) nonneg
  · intro row member
    rcases Table.mem_insert member with old | rfl
    · exact unshort row old
    · exact nonneg

/-- Nobody loses more than she holds. -/
theorem dispose (unshort : Unshort positions) (holds : shares ≤ Position.held positions key)
    (proceeds : ℚ) : Unshort (Position.dispose positions key shares proceeds) := by
  refine unshort.modify (Position.lose shares proceeds) (fun _ => rfl) fun row member isKey => ?_
  have own : Position.held positions key = row.sharesHeld :=
    Position.held_eq (isKey ▸ Table.find?_key_of_mem member)
  rw [own] at holds
  exact sub_nonneg.mpr holds

end Unshort

/-! # The book -/

section Book

variable {σ : Type} {now : Timestamp} {taker : Taker σ} {db after : Database} {fill final : σ}
  {offers : List Offer}

theorem unshort_moveShares {positions : Table Position.key} {maker : Order} {user : UserId}
    {quantity : ℚ} (unshort : Unshort positions) (positive : 0 < quantity)
    (holds : quantity ≤ Position.held positions (positionKey maker (sellerOf maker user)))
    (usdc : ℚ) : Unshort (moveShares positions maker user quantity usdc) := by
  unfold moveShares
  cases side : maker.side with
  | buy =>
      simp only [sellerOf, side] at holds
      exact (unshort.dispose holds usdc).acquire positive.le _ _ _
  | sell =>
      simp only [sellerOf, side] at holds
      refine (unshort.acquire positive.le _ _ _).dispose ?_ usdc
      rw [Position.held_acquire]
      split
      · linarith
      · linarith

theorem unshort_trace (trace : Trace now taker db fill offers after final)
    (positive : ∀ offer ∈ offers, 0 < offer.quantity) (unshort : Unshort db.positions) :
    Unshort after.positions := by
  induction trace with
  | done => exact unshort
  | skip _ _ _ ih =>
      exact ih (fun offer member => positive offer (List.mem_cons_of_mem _ member)) unshort
  | deliver _ holds _ _ ih =>
      refine ih (fun offer member => positive offer (List.mem_cons_of_mem _ member)) ?_
      exact unshort_moveShares unshort (positive _ List.mem_cons_self) holds _

end Book

/-! # Orders -/

section Orders

variable {env : Env} {db : Database} {user : UserId} {venue : Venue} {data : OrderRequest}
  {execution : Execution}

theorem sharesOut_nonneg {amm after : BinaryAMM} {side : ShareSide} {quantity : ℚ}
    {quote : AMMQuote} (bought : amm.buy side quantity = .ok (after, quote)) :
    0 ≤ quote.sharesOut := by
  obtain ⟨_, _, _, minted, _⟩ := BinaryAMM.executeBuy_ok bought
  rw [minted]
  exact amm.sharesFor_nonneg side _

/-- The AMM takes only what the seller holds after the book, and mints no negative amount. -/
theorem runAmmLeg_unshort {traded : Database} {leg : AmmLeg} {side : Side} {remaining : ℚ}
    (positive : 0 < remaining) (ran : runAmmLeg db user venue side remaining = .ok (traded, leg))
    (unshort : Unshort db.positions) : Unshort traded.positions ∧ 0 ≤ leg.shares := by
  cases side with
  | buy =>
      obtain ⟨_, _, _, bought, isBuy, _, rfl⟩ := ammBuy_ok ran
      refine ⟨unshort, ?_⟩
      rw [AmmLeg.shares, isBuy]
      exact sharesOut_nonneg bought
  | sell =>
      obtain ⟨holds, _, isSell, quantity, _, rfl⟩ := ammSell_ok ran
      refine ⟨unshort.dispose holds _, ?_⟩
      rw [AmmLeg.shares, isSell]
      exact quantity ▸ positive.le

theorem finish_unshort {fill : Fill} (finished : finish env db user venue data fill = .ok execution)
    (nonneg : 0 ≤ fill.totalShares) (unshort : Unshort db.positions) :
    Unshort execution.db.positions := by
  rw [finish_positions finished]
  cases data.side with
  | sell => exact unshort
  | buy => exact unshort.acquire nonneg _ _ _

theorem executeOrder_unshort (executed : executeOrder env db user data = .ok execution)
    (unshort : Unshort db.positions) : Unshort execution.db.positions := by
  obtain ⟨venue, _, _, _, ⟨existing, _, rfl⟩ | ⟨_, _, filled⟩⟩ := executeOrder_ok executed
  · exact unshort
  obtain ⟨matched, book, trace, ended⟩ := fillOrder_ok filled
  have positive := bookPlan_positive trace
  have afterBook : Unshort matched.positions :=
    unshort_trace trace (fun offer member => (positive offer member).1) unshort
  have matchedNonneg : 0 ≤ book.matchedShares := by
    rw [trace.bookFill.1, BookFill.empty, zero_add]
    exact deliveredSum_nonneg fun offer member => (positive offer member).1.le
  rcases ended with ⟨_, _, rested⟩ | ⟨left, _, traded, leg, ran, finished⟩ | ⟨_, finished⟩
  · obtain ⟨_, _, _, _, committed, _⟩ := restOrder_ok rested
    rw [committed]
    exact afterBook
  · obtain ⟨afterLeg, legNonneg⟩ := runAmmLeg_unshort left ran afterBook
    refine finish_unshort finished ?_ afterLeg
    exact add_nonneg matchedNonneg (by simpa [AmmLeg.total] using legNonneg)
  · refine finish_unshort finished ?_ afterBook
    exact add_nonneg matchedNonneg (by simp [AmmLeg.total])

end Orders

/-! # The sweep, split and merge -/

theorem sweep_unshort {now : Timestamp} {scanned : List Order} {db : Database}
    (unshort : Unshort db.positions) :
    Unshort (checkLimitOrderExecution now scanned db).positions := by
  obtain ⟨session, sweeping, final⟩ := checkLimitOrderExecution_sweeping now scanned db
  rw [final]
  refine (sweeping.preserves (fun db => Unshort db.positions) ?_ ?_ ?_ unshort).1
  · exact fun before trace => unshort_trace trace (pending_positive trace) before
  · intro matched traded turn remaining leg before positive ran
    obtain ⟨_, ⟨_, _, _, bought, rfl⟩ | ⟨_, _, _, holds, _, _, rfl⟩⟩ := sweepLeg_ok ran
    · exact before.acquire (sharesOut_nonneg bought) _ _ _
    · exact before.dispose holds _
  · exact fun db order before => before

section Pairs

variable {db : Database} {user : UserId} {market : MarketId} {amount : ℚ}
  {result : SplitMerge.Result}

theorem afterFee_nonneg (positive : 0 < amount) : 0 ≤ SplitMerge.afterFee amount := by
  unfold SplitMerge.afterFee SplitMerge.feeOf splitMergeFeeRate
  linarith

theorem outcomesOf_nodup (db : Database) (market : MarketId) :
    ((MarketService.outcomesOf db market).map Outcome.id).Nodup := by
  unfold MarketService.outcomesOf
  rw [((List.perm_insertionSort _ _).map Outcome.id).nodup_iff]
  exact db.outcomes.unique.sublist (List.filter_sublist.map _)

/-- The two outcomes of a pair are different rows. -/
theorem pair_ids_ne {first second : Outcome}
    (paired : SplitMerge.pairOf db market = .ok (first, second)) : first.id ≠ second.id := by
  obtain ⟨_, rest, _, _, outcomes, _⟩ := SplitMerge.pairOf_ok paired
  have ids := outcomesOf_nodup db market
  rw [outcomes, List.map_cons, List.map_cons, List.nodup_cons] at ids
  exact fun same => ids.1 (same ▸ List.mem_cons_self)

theorem split_unshort (ran : SplitMerge.split db user market amount = .ok result)
    (unshort : Unshort db.positions) : Unshort result.db.positions := by
  obtain ⟨first, second, wallet, _, positive, _, _, rfl⟩ := SplitMerge.split_ok ran
  have nonneg := afterFee_nonneg positive
  exact (unshort.acquire nonneg _ _ _).acquire nonneg _ _ _

theorem merge_unshort (ran : SplitMerge.merge db user market amount = .ok result)
    (unshort : Unshort db.positions) : Unshort result.db.positions := by
  obtain ⟨first, second, wallet, paired, positive, _, holdsFirst, holdsSecond, _, rfl⟩ :=
    SplitMerge.merge_ok ran
  obtain ⟨position, found⟩ := Position.exists_of_held_pos (positive.trans_le holdsFirst)
  have apart : (⟨user, market, second.id⟩ : PositionKey) ≠ ⟨user, market, first.id⟩ := by
    intro same
    exact pair_ids_ne paired (congrArg PositionKey.outcomeId same).symm
  refine (unshort.dispose holdsFirst _).dispose ?_ _
  rwa [Position.held_dispose found, if_neg apart, sub_zero]

end Pairs

/-! # Payouts -/

section Payouts

variable {round : ℚ → ℚ} {now : Timestamp} {db : Database} {market : MarketId}
  {settled : Settled}

theorem claim_unshort {user : UserId} (ran : claimWinnings round now user db market = .ok settled)
    (unshort : Unshort db.positions) : Unshort settled.db.positions := by
  obtain ⟨_, _, paid⟩ := claimWinnings_ok ran
  obtain ⟨_, position, _, _, _, _, _, _, _, rfl⟩ := payClaim_ok paid
  exact unshort.modify (claimRow round now position.sharesHeld) (fun _ => rfl)
    fun _ _ _ => le_rfl

/-- A settlement marks rows and keeps their shares. -/
theorem unshort_settleRows {winning : OutcomeId} {wallets : Table Wallet.userId}
    {rows : List Position} {positions : Table Position.key} (unshort : Unshort positions) :
    Unshort (settleRows round now winning wallets rows positions) := by
  induction rows generalizing positions with
  | nil => exact unshort
  | cons row rest ih =>
      rw [settleRows, List.foldl_cons, ← settleRows]
      split
      · exact ih (unshort.modify (settleRow round now (payoutOf winning row)) (fun _ => rfl)
          fun old member _ => unshort old member)
      · exact ih unshort

theorem settle_unshort {done : Bool} {scan : Scan} {winning : OutcomeId}
    (ran : settleMarket round now done scan db market winning = .ok (some settled))
    (unshort : Unshort db.positions) : Unshort settled.db.positions := by
  obtain ⟨_, paid, swept, final, _, _, _, _, stages, rfl⟩ := settleMarket_ok ran
  obtain ⟨_, _, first⟩ := settlePositions_paid stages.positions
  obtain ⟨_, _, second⟩ := sweepFees_paid stages.fees
  obtain ⟨_, third, _⟩ := redeemShares_paid stages.shares
  have rows : (commitLedger now market (openTreasury db).2 final).positions = settleRows round now
      winning (openTreasury db).2.wallets scan.positions db.positions :=
    third.trans (second.trans first)
  dsimp only
  rw [rows]
  exact unshort_settleRows unshort

end Payouts

/-! # Whole runs -/

theorem expireStaleOrders_positions (now : Timestamp) (db : Database) :
    (expireStaleOrders now db).positions = db.positions := by
  unfold expireStaleOrders
  induction db.orders.rows.filter (isStale now) generalizing db with
  | nil => rfl
  | cons order rest ih =>
      rw [List.foldl_cons, ih]
      rfl

theorem distributeProtocolFees_positions (db : Database) (scanned : List LiquidityPool) :
    (LiquidityService.distributeProtocolFees db scanned).positions = db.positions := by
  have each : ∀ (rows : List LiquidityPool) (treasury : UserId) (db : Database),
      (rows.foldl (LiquidityService.distributePool treasury) db).positions = db.positions := by
    intro rows treasury
    induction rows with
    | nil => exact fun _ => rfl
    | cons pool rest ih =>
        intro db
        rw [List.foldl_cons, ih]
        unfold LiquidityService.distributePool
        split
        · rfl
        split
        · rfl
        · rfl
  unfold LiquidityService.distributeProtocolFees
  split
  · rfl
  · exact each _ _ _

/-- One operation, whatever it is. -/
theorem commits_unshort {db after : Database} {operation : Operation}
    (committed : operation.Commits db after) (unshort : Unshort db.positions) :
    Unshort after.positions := by
  unfold Operation.Commits at committed
  cases operation with
  | order env user data =>
      obtain ⟨execution, executed, rfl⟩ := map_eq_ok.mp committed
      exact executeOrder_unshort executed unshort
  | cancel env user orderId =>
      simp only [Operation.perform, cancelOrder] at committed
      split at committed
      · split at committed
        · cases committed
          exact unshort
        · contradiction
      · contradiction
  | expire now =>
      cases committed
      rw [expireStaleOrders_positions]
      exact unshort
  | sweep now dirty scanned =>
      cases committed
      exact sweep_unshort unshort
  | split user market amount =>
      obtain ⟨result, ran, rfl⟩ := map_eq_ok.mp committed
      exact split_unshort ran unshort
  | merge user market amount =>
      obtain ⟨result, ran, rfl⟩ := map_eq_ok.mp committed
      exact merge_unshort ran unshort
  | addLiquidity user market amount outcome =>
      obtain ⟨deposited, ran, rfl⟩ := map_eq_ok.mp committed
      obtain ⟨_, _, _, _, _, _, _, _, _, _, _, rfl⟩ := LiquidityService.addLiquidity_ok ran
      exact unshort
  | removeLiquidity user market lpTokens outcome =>
      obtain ⟨withdrawn, ran, rfl⟩ := map_eq_ok.mp committed
      obtain ⟨_, _, _, _, _, _, _, _, _, _, _, _, _, _, rfl⟩ :=
        LiquidityService.removeLiquidity_ok ran
      exact unshort
  | distributeFees scanned =>
      cases committed
      rw [distributeProtocolFees_positions]
      exact unshort
  | claim now user market =>
      obtain ⟨settled, ran, rfl⟩ := map_eq_ok.mp committed
      exact claim_unshort ran unshort
  | settle now scan market winning =>
      simp only [Operation.perform] at committed
      split at committed
      · contradiction
      · cases committed
        exact unshort
      · rename_i settled ran
        cases committed
        exact settle_unshort ran unshort

/-- No sequence of operations leaves a position short. -/
theorem positions_never_short {start final : Database} {operations : List Operation}
    (run : Operation.Runs (fun _ _ => True) start operations final)
    (unshort : ∀ row ∈ start.positions.rows, 0 ≤ row.sharesHeld) :
    ∀ row ∈ final.positions.rows, 0 ≤ row.sharesHeld :=
  run.invariant (fun db : Database => Unshort db.positions)
    (fun _ _ _ _ committed before => commits_unshort committed before) unshort

/-- User 2 sells to the AMM the ten shares her resting sell had promised; the buy that meets
the sell afterwards leaves her with none. -/
theorem promised_shares_sold_once :
    let sell : Operation := .order quietEnv 2
      (marketOrder .sell 10 pos_ten grid_ten)
    let buy : Operation := .order quietEnv 1
      (marketOrder .buy 5 pos_five grid_five)
    ∃ final, Operation.Runs (fun _ _ => True) quotedMarket [sell, buy] final ∧
      Position.held final.positions ⟨2, 1, 1⟩ = 0 ∧
      ∀ row ∈ final.positions.rows, 0 ≤ row.sharesHeld := by
  intro sell buy
  have both : succeedsWith (sell.perform quotedMarket >>= buy.perform)
      (fun final => Position.held final.positions ⟨2, 1, 1⟩ = 0) = true := by
    decide +kernel
  obtain ⟨final, ran, empty⟩ := succeedsWith_iff.mp both
  obtain ⟨middle, sold, bought⟩ := bind_eq_ok.mp ran
  have run : Operation.Runs (fun _ _ => True) quotedMarket [sell, buy] final :=
    .act ⟨trivial, trivial⟩ sold (.act ⟨trivial, trivial⟩ bought (.stop _))
  exact ⟨final, run, by simpa using empty, positions_never_short run (by decide +kernel)⟩

end PredictX
