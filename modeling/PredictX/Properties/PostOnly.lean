import PredictX.Properties.QuoteReceipt
import PredictX.Properties.IdempotentOrders
import PredictX.Properties.OrderPlacement

namespace PredictX.OrderService

open PredictX.Data PredictX.Amm PredictX.MarketService PredictX.MatchingEngine
open PredictX.Placement

/-! Post-only orders.

The flag is read after the book has been matched, and it refuses the orders that the fill test a
few lines further down would let rest.  What is left to a post-only order is to be refused or to
take.
-/

/-- The call took nothing: it answered with a stored order, or the whole amount rests. -/
structure TakesNothing (db : Database) (data : OrderRequest) (execution : Execution) : Prop where
  unmatched : execution.matchDetails = []
  untraded : execution.ammLeg = none
  rests : execution.db = db ∨
    ∃ order, execution.db.orders.find? execution.result.orderId = some order ∧
      order.status = .pending ∧ order.remainingAmount = data.amount

/-- A call that does not raise takes nothing. -/
def PostOnlyKept (env : Env) (db : Database) (user : UserId) (data : OrderRequest) : Prop :=
  ∀ execution, executeOrder env db user data = .ok execution → TakesNothing db data execution

/-- What the book left can be sent to the AMM: it has a price, and one within the limit. -/
def AmmTakes (venue : Venue) (data : OrderRequest) : Prop :=
  ¬ (data.side = .buy ∧ venue.priceBefore ≤ 0) ∧
    canFillAmm data.side venue.priceBefore data.price = true

/-- What the book gives the order. -/
def plannedBook (db : Database) (user : UserId) (venue : Venue) (data : OrderRequest) : BookFill :=
  ⟨deliveredSum (bookPlan db user venue data) Offer.quantity,
    deliveredSum (bookPlan db user venue data) Offer.usdc,
    deliveredDetails db.outcomes (bookPlan db user venue data)⟩

/-- What the venue's escrow holds once the fees of the book are in.  They go to a pool of the
outcome's own, if there is one. -/
def plannedEscrow (db : Database) (user : UserId) (venue : Venue) (data : OrderRequest) : ℚ :=
  if venue.pool.key.outcomeId = none ∧
      (db.pools.find? ⟨venue.market.id, some venue.outcome.id⟩).isSome = true then
    venue.pool.collateral
  else venue.pool.collateral + ((bookPlan db user venue data).map Offer.fee).sum

/-- The AMM takes what the book leaves: it quotes the trade, and the buyer's free balance covers the
whole order, or the escrow what the seller is paid. -/
structure LegPasses (db : Database) (user : UserId) (venue : Venue) (data : OrderRequest)
    (leg : AmmLeg) : Prop where
  side : leg.side = data.side
  quantity : leg.quantity = plannedRemainder db user venue data
  quoted : ammTrade venue data.side (plannedRemainder db user venue data) =
    .ok (leg.amm, leg.quote)
  funded : data.side = .buy → ∀ wallet ∈ db.wallets.find? user, data.amount ≤ wallet.available
  escrowed : data.side = .sell → leg.quote.collateralIn ≤ 0 ∨
    leg.quote.collateralIn ≤ plannedEscrow db user venue data

/-- Step 6 lets the fill pass, and no stored order has its key. -/
def FillPasses (db : Database) (user : UserId) (data : OrderRequest) (fill : Fill) : Prop :=
  slippageExceeded data fill.totalShares (fill.actualPrice data.side) = false ∧
    ∀ key ∈ data.clientOrderId, keyed user key db = []

/-- A new order passes the checks before the book, the book leg goes through, and what it leaves,
if anything, is taken by the AMM: all of it told from the state before the order. -/
def Fillable (env : Env) (db : Database) (user : UserId) (data : OrderRequest) : Prop :=
  (∀ limit ∈ data.price, 0 < limit) ∧ (db.wallets.find? user).isSome = true ∧
    duplicateOf db user data = none ∧ checkQuote env user data.quoteId = .ok () ∧
    ∃ venue, openVenue env db data.marketId data.outcome = .ok venue ∧
      checkHoldings db user venue data = .ok () ∧
      (∃ matched book, matchOrderAgainstBook env.now db venue.market.id venue.outcome.id data.side
        data.amount data.price user = .ok (matched, book)) ∧
      (plannedRemainder db user venue data ≤ 0 ∧
          FillPasses db user data ⟨plannedBook db user venue data, none⟩ ∨
        0 < plannedRemainder db user venue data ∧ AmmTakes venue data ∧
          ∃ leg, LegPasses db user venue data leg ∧
            FillPasses db user data ⟨plannedBook db user venue data, some leg⟩)

/-- The same, stage by stage. -/
def FillsInStages (env : Env) (db : Database) (user : UserId) (data : OrderRequest) : Prop :=
  (∀ limit ∈ data.price, 0 < limit) ∧ (db.wallets.find? user).isSome = true ∧
    duplicateOf db user data = none ∧ checkQuote env user data.quoteId = .ok () ∧
    ∃ venue, openVenue env db data.marketId data.outcome = .ok venue ∧
      checkHoldings db user venue data = .ok () ∧
      ∃ matched book, matchOrderAgainstBook env.now db venue.market.id venue.outcome.id data.side
          data.amount data.price user = .ok (matched, book) ∧
        (remainder data book ≤ 0 ∧
            (∃ execution, finish env matched user venue data ⟨book, none⟩ = .ok execution) ∨
          0 < remainder data book ∧ AmmTakes venue data ∧
            ∃ traded leg, runAmmLeg matched user venue data.side (remainder data book) =
                .ok (traded, leg) ∧
              ∃ execution, finish env traded user venue data ⟨book, some leg⟩ = .ok execution)

section PostOnly

variable {env : Env} {db matched : Database} {user : UserId} {venue : Venue} {data : OrderRequest}
  {execution : Execution} {book : BookFill} {limit : ℚ}

/-- The two tests of the AMM's price are each other's opposite. -/
theorem postOnlyCrosses_iff (postOnly : data.postOnly = true) (priced : data.price = some limit)
    (price : ℚ) : postOnlyCrosses data price = !canFillAmm data.side price data.price := by
  unfold postOnlyCrosses canFillAmm
  rw [priced]
  cases data.side <;> simp [postOnly, ← not_le]

/-- A post-only order never rests. -/
theorem route_post_only (postOnly : data.postOnly = true) (isLimit : data.orderType = .limit)
    (priced : data.price = some limit) :
    route venue data ≠ .ok .rest ∧ (route venue data = .ok .amm ↔ AmmTakes venue data) := by
  have crosses := postOnlyCrosses_iff postOnly priced venue.priceBefore
  unfold route AmmTakes
  rw [isLimit, crosses]
  by_cases unpriced : data.side = .buy ∧ venue.priceBefore ≤ 0
  · simp [unpriced]
  · cases canFillAmm data.side venue.priceBefore data.price <;> simp [unpriced]

theorem executeOrder_of_stages (positive : ∀ limit ∈ data.price, 0 < limit)
    (walleted : (db.wallets.find? user).isSome = true) (unseen : duplicateOf db user data = none)
    (quoted : checkQuote env user data.quoteId = .ok ())
    (opened : openVenue env db data.marketId data.outcome = .ok venue)
    (holds : checkHoldings db user venue data = .ok ()) :
    executeOrder env db user data = fillOrder env db user venue data := by
  have valid : (data.price.any fun price => price ≤ 0) = false := by
    rw [Option.any_eq_false]
    intro price given
    simpa using positive price given
  have present : ((db.wallets.find? user).isNone) = false := by
    rw [← Option.not_isSome, walleted]
    rfl
  unfold executeOrder
  simp [valid, opened, present, unseen, quoted, holds, bind, Except.bind]

theorem checkQuote_of_new (executed : executeOrder env db user data = .ok execution)
    (unseen : duplicateOf db user data = none) : checkQuote env user data.quoteId = .ok () := by
  unfold executeOrder at executed
  split at executed
  · contradiction
  obtain ⟨venue, _, executed⟩ := bind_eq_ok.mp executed
  split at executed
  · contradiction
  rw [unseen] at executed
  obtain ⟨_, quoted, _⟩ := bind_eq_ok.mp executed
  exact quoted

/-- A book that matched nothing leaves the whole amount. -/
theorem remainder_of_unmatched
    (ran : matchOrderAgainstBook env.now db venue.market.id venue.outcome.id data.side data.amount
      data.price user = .ok (matched, book)) (unmatched : book.matchDetails = []) :
    0 < remainder data book := by
  obtain ⟨shares, usdc, details⟩ := (matchOrderAgainstBook_trace ran).bookFill
  rw [unmatched] at details
  obtain ⟨sumShares, sumUsdc⟩ := deliveredSum_eq db.outcomes (bookPlan db user venue data)
  rw [sumShares, ← List.nil_append (deliveredDetails _ _)] at shares
  rw [sumUsdc, ← List.nil_append (deliveredDetails _ _)] at usdc
  change [] = [] ++ _ at details
  rw [← details] at shares usdc
  unfold remainder
  cases data.side with
  | buy => simp [usdc, BookFill.empty, data.amount_pos]
  | sell => simp [shares, BookFill.empty, data.amount_pos]

/-- A call that is filled at once reports its matches or its AMM leg. -/
theorem filled_takes {fill : Fill} (finished : finish env matched user venue data fill = .ok execution)
    (took : fill.book.matchDetails ≠ [] ∨ fill.leg ≠ none) : ¬ TakesNothing db data execution := by
  obtain ⟨_, details, leg, _⟩ := finish_ok finished
  rintro ⟨unmatched, untraded, _⟩
  rw [details] at unmatched
  rw [leg] at untraded
  exact took.elim (absurd unmatched) (absurd untraded)

theorem post_only_kept_stages (postOnly : data.postOnly = true) (isLimit : data.orderType = .limit)
    (priced : data.price = some limit) :
    PostOnlyKept env db user data ↔ ¬ FillsInStages env db user data := by
  constructor
  · rintro kept ⟨positive, walleted, unseen, quoted, venue, opened, holds, matched, book, ran, ends⟩
    have stages := executeOrder_of_stages positive walleted unseen quoted opened holds
    rcases ends with ⟨nothing, execution, finished⟩ |
      ⟨left, takes, traded, leg, sent, execution, finished⟩
    · have executed : executeOrder env db user data = .ok execution := by
        rw [stages, fillOrder, ran]
        simp only [bind, Except.bind]
        rw [if_neg (not_lt.mpr nothing), finished]
      refine filled_takes finished (.inl fun unmatched => ?_) (kept execution executed)
      exact absurd nothing (not_le.mpr (remainder_of_unmatched ran unmatched))
    · have executed : executeOrder env db user data = .ok execution := by
        rw [stages, fillOrder, ran]
        simp only [bind, Except.bind]
        rw [if_pos left, (route_post_only postOnly isLimit priced).2.mpr takes]
        simp only [sent, finished]
      exact filled_takes finished (.inr (by simp)) (kept execution executed)
  · intro refused execution executed
    obtain ⟨venue, opened, positive, ⟨wallet, walleted⟩, ways⟩ := executeOrder_ok executed
    rcases ways with ⟨_, _, rfl⟩ | ⟨unseen, holds, filled⟩
    · exact ⟨rfl, rfl, .inl rfl⟩
    refine absurd ?_ refused
    have quoted := checkQuote_of_new executed unseen
    unfold fillOrder at filled
    obtain ⟨⟨matched, book⟩, ran, filled⟩ := bind_eq_ok.mp filled
    refine ⟨positive, by simp [walleted], unseen, quoted, venue, opened, holds, matched, book, ran, ?_⟩
    dsimp only at filled
    split at filled
    · rename_i left
      obtain ⟨way, routed, filled⟩ := bind_eq_ok.mp filled
      obtain ⟨restless, takes⟩ := @route_post_only venue data limit postOnly isLimit priced
      cases way with
      | rest => exact absurd routed restless
      | amm =>
          obtain ⟨⟨traded, leg⟩, sent, finished⟩ := bind_eq_ok.mp filled
          exact .inr ⟨left, takes.mp routed, traded, leg, sent, execution, finished⟩
    · exact .inl ⟨not_lt.mp ‹_›, execution, filled⟩

/-! # The stages, told from the state before the order -/

theorem bookFill_eq_planned
    (trace : Trace env.now (bookTaker data.side data.amount user) db .empty
      (bookPlan db user venue data) matched book) : book = plannedBook db user venue data := by
  obtain ⟨shares, usdc, details⟩ := trace.bookFill
  rw [BookFill.empty, zero_add] at shares usdc
  rw [BookFill.empty, List.nil_append] at details
  unfold plannedBook
  rw [← shares, ← usdc, ← details]

/-- An order is inserted exactly when its key is new. -/
theorem insertOrder_ok_iff (db : Database) (order : Order) :
    (∃ orders, insertOrder db order = .ok orders) ↔
      ∀ key ∈ order.clientOrderId, keyed order.userId key db = [] := by
  unfold insertOrder keyed
  cases carries : order.clientOrderId with
  | none => simp
  | some key =>
      simp only [Option.isSome_some, Bool.true_and, Option.mem_def, Option.some.injEq,
        forall_eq', List.filter_eq_nil_iff]
      split
      · rename_i taken
        obtain ⟨other, member, same⟩ := List.any_eq_true.mp taken
        refine iff_of_false (fun inserted => ?_) fun free => free other member ?_
        · obtain ⟨_, contra⟩ := inserted
          contradiction
        · simpa using same
      · rename_i free
        refine iff_of_true ⟨_, rfl⟩ fun other member same => free ?_
        exact List.any_eq_true.mpr ⟨other, member, by simpa using same⟩

/-- A limit order is finished exactly when step 6 passes its fill and its key is new. -/
theorem finish_ok_iff (isLimit : data.orderType = .limit) (fill : Fill) :
    (∃ execution, finish env matched user venue data fill = .ok execution) ↔
      FillPasses matched user data fill := by
  have stored := insertOrder_ok_iff matched (filledRow env matched user venue data fill)
  change _ ↔ ∀ key ∈ data.clientOrderId, keyed user key matched = [] at stored
  unfold finish FillPasses
  rw [← stored, if_neg (by simp [isLimit])]
  split
  · rename_i exceeded
    simp [exceeded]
  · rename_i within
    dsimp only
    cases inserted : insertOrder matched (filledRow env matched user venue data fill) with
    | error reason => simp
    | ok orders => simp [within]

theorem fillPasses_congr {other : Database} {fill : Fill}
    (same : ∀ key, (keyed user key other).length = (keyed user key db).length) :
    FillPasses other user data fill ↔ FillPasses db user data fill := by
  unfold FillPasses
  simp only [← List.length_eq_zero_iff, same]

/-- The venue's pool after the book leg. -/
theorem book_escrow (opened : openVenue env db data.marketId data.outcome = .ok venue)
    (trace : Trace env.now (bookTaker data.side data.amount user) db .empty
      (bookPlan db user venue data) matched book) :
    ∃ pool, matched.pools.find? venue.pool.key = some pool ∧
      pool.collateral = plannedEscrow db user venue data := by
  obtain ⟨_, _, _, _, found, _⟩ := openVenue_ok opened
  have isKey := Table.key_of_find? found
  rw [← isKey] at found
  have makers := bookPlan_venue db user venue data
  have fees := bookPlan_fees trace
  unfold plannedEscrow
  by_cases named : venue.pool.key.outcomeId = none ∧
      (db.pools.find? ⟨venue.market.id, some venue.outcome.id⟩).isSome = true
  · obtain ⟨unnamed, own⟩ := named
    obtain ⟨row, isRow⟩ := Option.isSome_iff_exists.mp own
    have others := (trace.find?_pool makers fees (.inl rfl) isRow).2
    have apart : venue.pool.key ≠ ⟨venue.market.id, some venue.outcome.id⟩ := by
      intro same
      rw [same] at unnamed
      contradiction
    exact ⟨venue.pool, (others _ apart).trans found, (if_pos ⟨unnamed, own⟩).symm⟩
  · have earns : EarnsFees db.pools venue.market.id venue.outcome.id venue.pool.key := by
      rw [isKey, poolKey] at named ⊢
      cases parimutuel : isParimutuel (outcomesOf db venue.market.id) with
      | true => exact .inl rfl
      | false =>
          rw [parimutuel] at named
          exact .inr ⟨rfl, by simpa using named⟩
    exact ⟨_, (trace.find?_pool makers fees earns found).1, (if_neg named).symm⟩

/-- Whether the AMM takes what the book leaves can be told before the book leg. -/
theorem runAmmLeg_ok_iff {leg : AmmLeg} (walleted : (db.wallets.find? user).isSome = true)
    (opened : openVenue env db data.marketId data.outcome = .ok venue)
    (holds : checkHoldings db user venue data = .ok ())
    (trace : Trace env.now (bookTaker data.side data.amount user) db .empty
      (bookPlan db user venue data) matched book) :
    (∃ traded, runAmmLeg matched user venue data.side (remainder data book) = .ok (traded, leg)) ↔
      LegPasses db user venue data leg := by
  obtain ⟨whole, -, -⟩ := remainder_eq trace
  have planned := remainder_eq_planned trace
  obtain ⟨wallet, isWallet⟩ := Option.isSome_iff_exists.mp walleted
  obtain ⟨pool, isPool, escrow⟩ := book_escrow opened trace
  cases side : data.side with
  | buy =>
      have paid := book_paid side trace
      rw [side] at whole
      rw [isWallet, side] at paid
      have available : (Wallet.debit (book.amount .buy) wallet).available < remainder data book ↔
          wallet.available < data.amount := by
        rw [whole]
        unfold Wallet.available Wallet.debit
        constructor <;> intro short <;> linarith
      constructor
      · rintro ⟨traded, ran⟩
        obtain ⟨debited, isDebited, funded, bought, isBuy, quantity, -⟩ := ammBuy_ok ran
        rw [paid] at isDebited
        cases isDebited
        refine ⟨isBuy.trans side.symm, quantity.trans planned, ?_, fun _ => ?_, fun isSell => ?_⟩
        · rw [side, ← planned]
          exact bought
        · rw [isWallet]
          rintro _ ⟨⟩
          exact not_lt.mp (mt available.mpr (not_lt.mpr funded))
        · exact absurd (side.symm.trans isSell) (by simp)
      · intro passes
        have quoted := passes.quoted
        have funded := passes.funded side wallet isWallet
        rw [side, ← planned] at quoted
        have isLeg : ⟨.buy, remainder data book, leg.quote, leg.amm⟩ = leg := by
          rw [planned, ← passes.quantity, ← side, ← passes.side]
        unfold runAmmLeg ammBuy
        rw [paid]
        dsimp only [Option.map_some]
        rw [if_neg (mt available.mp (not_lt.mpr funded)),
          show venue.amm.buy venue.ammSide (remainder data book) = _ from quoted]
        dsimp only
        rw [isLeg]
        exact ⟨_, rfl⟩
  | sell =>
      have delivered := book_delivered side trace
      rw [side] at whole delivered
      have held : remainder data book ≤
          Position.held matched.positions (venue.positionKey user) := by
        have enough : data.amount ≤ Position.held db.positions (venue.positionKey user) := by
          unfold checkHoldings at holds
          rw [side] at holds
          dsimp only at holds
          split at holds
          · contradiction
          · exact not_lt.mp ‹_›
        rw [whole, delivered]
        linarith
      constructor
      · rintro ⟨traded, ran⟩
        obtain ⟨-, sold, isSell, quantity, -, -⟩ := ammSell_ok ran
        refine ⟨isSell.trans side.symm, quantity.trans planned, ?_, fun isBuy => ?_, fun _ => ?_⟩
        · rw [side, ← planned]
          exact sold
        · exact absurd (side.symm.trans isBuy) (by simp)
        · unfold runAmmLeg ammSell at ran
          rw [if_neg (not_lt.mpr held), sold, isPool] at ran
          dsimp only at ran
          unfold LiquidityPool.debitCollateral at ran
          rw [← escrow]
          by_contra! unpaid
          rw [if_neg (not_le.mpr unpaid.1), if_pos unpaid.2] at ran
          contradiction
      · intro passes
        have quoted := passes.quoted
        have escrowed := passes.escrowed side
        rw [side, ← planned] at quoted
        rw [← escrow] at escrowed
        have isLeg : ⟨.sell, remainder data book, leg.quote, leg.amm⟩ = leg := by
          rw [planned, ← passes.quantity, ← side, ← passes.side]
        unfold runAmmLeg ammSell
        rw [if_neg (not_lt.mpr held),
          show venue.amm.sell venue.ammSide (remainder data book) = _ from quoted]
        dsimp only
        rw [isPool, isLeg]
        dsimp only
        unfold LiquidityPool.debitCollateral
        by_cases nothing : leg.quote.collateralIn ≤ 0
        · rw [if_pos nothing]
          exact ⟨_, rfl⟩
        · rw [if_neg nothing, if_neg (not_lt.mpr (escrowed.resolve_left nothing))]
          exact ⟨_, rfl⟩

/-- Told from the state before the order, the stages are these. -/
theorem fillsInStages_iff (isLimit : data.orderType = .limit) :
    FillsInStages env db user data ↔ Fillable env db user data := by
  unfold FillsInStages Fillable
  refine and_congr_right fun _ => and_congr_right fun walleted => and_congr_right fun _ =>
    and_congr_right fun _ => exists_congr fun venue => and_congr_right fun opened =>
      and_congr_right fun holds => ?_
  -- Along the trace of the book leg the keys of the orders stay, and the plan gives its fill.
  have ends : ∀ {matched book}, Trace env.now (bookTaker data.side data.amount user) db .empty
      (bookPlan db user venue data) matched book →
      ((remainder data book ≤ 0 ∧
            (∃ execution, finish env matched user venue data ⟨book, none⟩ = .ok execution) ∨
          0 < remainder data book ∧ AmmTakes venue data ∧
            ∃ traded leg, runAmmLeg matched user venue data.side (remainder data book) =
                .ok (traded, leg) ∧
              ∃ execution, finish env traded user venue data ⟨book, some leg⟩ = .ok execution) ↔
        (plannedRemainder db user venue data ≤ 0 ∧
            FillPasses db user data ⟨plannedBook db user venue data, none⟩ ∨
          0 < plannedRemainder db user venue data ∧ AmmTakes venue data ∧
            ∃ leg, LegPasses db user venue data leg ∧
              FillPasses db user data ⟨plannedBook db user venue data, some leg⟩)) := by
    intro matched book trace
    have keys : ∀ key, (keyed user key matched).length = (keyed user key db).length :=
      fun key => length_keyed_trace trace
    have isBook := bookFill_eq_planned trace
    rw [remainder_eq_planned trace, finish_ok_iff isLimit, fillPasses_congr keys, ← isBook]
    refine or_congr_right (and_congr_right fun _ => and_congr_right fun _ => ?_)
    rw [exists_comm]
    refine exists_congr fun leg => ?_
    rw [← runAmmLeg_ok_iff walleted opened holds trace, remainder_eq_planned trace,
      ← exists_and_right]
    refine exists_congr fun traded => and_congr_right fun sent => ?_
    rw [finish_ok_iff isLimit]
    refine fillPasses_congr fun key => ?_
    unfold keyed
    rw [runAmmLeg_orders sent]
    exact keys key
  constructor
  · rintro ⟨matched, book, ran, ended⟩
    exact ⟨⟨matched, book, ran⟩, (ends (matchOrderAgainstBook_trace ran)).mp ended⟩
  · rintro ⟨⟨matched, book, ran⟩, ended⟩
    exact ⟨matched, book, ran, (ends (matchOrderAgainstBook_trace ran)).mpr ended⟩

end PostOnly

/-! # Ten USDC on YES at a spot price of one half -/

def postOnlyBuy (limit : ℚ) (bounds : 0 ≤ limit ∧ limit ≤ 1) : OrderRequest :=
  { limitBuy 10 pos_ten grid_ten with
    price := some limit
    postOnly := true
    price_bounds := by simpa using bounds }

end PredictX.OrderService
