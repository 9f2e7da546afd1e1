import PredictX.Api.Resolution
import PredictX.Data.Run

namespace PredictX.Resolution

open PredictX.Data PredictX.Settlement

/-! Which outcomes of a market are paid.

The operations that decide a market and those that pay its winners, one after the other in
any order.  Redis keys expire between them, so each operation brings the answers it gets.
An operation that raises before its first commit leaves no trace and is not part of a run.
-/

inductive Action where
  | propose (admin : Bool) (outcome : OutcomeId)
  | resolve (admin : Bool) (backends : Backends) (outcome : OutcomeId)
  | dispute (user : UserId)
  | adjudicate (bench : Bench) (dispute : ℕ) (ruling : Ruling)
  | claim (user : UserId)
  | settle (done : Bool) (scan : Scan) (winning : OutcomeId)

structure Event where
  now : Timestamp
  action : Action

def perform (round : ℚ → ℚ) (market : MarketId) (books : Books) (event : Event) :
    Except Error Books :=
  match event.action with
  | .propose admin outcome =>
      (proposeResolution admin event.now books.db market outcome).map fun db =>
        { books with db }
  | .resolve admin backends outcome =>
      (resolveMarketEndpoint admin backends event.now books.db market outcome).map fun db =>
        { books with db }
  | .dispute user =>
      (createDispute user event.now books.db market).map fun db => { books with db }
  | .adjudicate bench dispute ruling =>
      (adjudicateDispute bench event.now books.db dispute ruling).map fun ruled =>
        { books with db := ruled.db }
  | .claim user => (claimWinnings round event.now user books.db market).map books.post
  | .settle done scan winning =>
      (settleMarket round event.now done scan books.db market winning).map fun settled =>
        match settled with
        | none => books
        | some settled => books.post settled

/-- The queries of a settlement return the rows of the database. -/
def Legal (market : MarketId) (books : Books) (event : Event) : Prop :=
  match event.action with
  | .settle _ scan winning => scan.Reads books.db market winning
  | _ => True

instance (scan : Scan) (db : Database) (market : MarketId) (winning : OutcomeId) :
    Decidable (scan.Reads db market winning) :=
  decidable_of_iff (scan.positions.Perm (unsettled db market) ∧
      ∀ pool ∈ settlementPool db.pools market winning,
        scan.lpShares.Perm (liveShares db pool.key))
    ⟨fun ⟨positions, lpShares⟩ => ⟨positions, lpShares⟩,
      fun reads => ⟨reads.positions, reads.lpShares⟩⟩

instance (market : MarketId) (books : Books) (event : Event) :
    Decidable (Legal market books event) :=
  match event with
  | ⟨_, .settle _ scan winning⟩ => inferInstanceAs (Decidable (scan.Reads books.db market winning))
  | ⟨_, .propose _ _⟩ | ⟨_, .resolve _ _ _⟩ | ⟨_, .dispute _⟩ | ⟨_, .adjudicate _ _ _⟩
  | ⟨_, .claim _⟩ => isTrue trivial

/-- The outcomes of the positions that were paid. -/
def paidOutcomes (payouts : List Payout) : List OutcomeId :=
  payouts.filterMap fun payout =>
    match payout.payee with
    | .position key => some key.outcomeId
    | _ => none

/-- The outcome an operation is about to record as the winner. -/
def decides (market : MarketId) (db : Database) : Action → Option OutcomeId
  | .resolve _ _ outcome => some outcome
  | .adjudicate _ dispute .upheld =>
      match db.disputes.find? dispute with
      | none => none
      | some row =>
          if row.marketId = market then (db.markets.find? market).bind Market.proposedOutcomeId
          else none
  | _ => none

/-- Once a position has been paid, no operation decides for another outcome. -/
def keepsWinner (market : MarketId) (books : Books) (event : Event) : Bool :=
  (decides market books.db event.action).all fun outcome =>
    (paidOutcomes books.payouts).isEmpty || winner books.db market = some outcome

/-! # One operation -/

section Step

variable {round : ℚ → ℚ} {market : MarketId} {db after : Database} {now : Timestamp}
  {winning : OutcomeId} {settled : Settled}

theorem winner_modify (update : Market → Market) (keeps : ∀ row, (update row).id = row.id)
    (written : after.markets = db.markets.modify market update keeps)
    (same : ∀ row, (update row).winningOutcomeId = row.winningOutcomeId) (other : MarketId) :
    winner after other = winner db other := by
  unfold winner
  rw [written]
  by_cases this : other = market
  · rw [this, Table.find?_modify_self]
    cases db.markets.find? market with
    | none => rfl
    | some row => exact same row
  · rw [Table.find?_modify_ne this]

theorem proposeResolution_winner {admin : Bool} {outcome : OutcomeId}
    (ran : proposeResolution admin now db market outcome = .ok after) :
    winner after market = winner db market := by
  obtain ⟨row, -, -, -, -, rfl⟩ := proposeResolution_ok ran
  exact winner_modify (proposal now outcome) (fun _ => rfl) rfl (fun _ => rfl) market

theorem createDispute_winner {user : UserId} (ran : createDispute user now db market = .ok after) :
    winner after market = winner db market := by
  obtain ⟨row, -, -, -, rfl⟩ := createDispute_ok ran
  exact winner_modify reopen (fun _ => rfl) rfl (fun _ => rfl) market

theorem resolveMarketEndpoint_winner {admin : Bool} {backends : Backends} {outcome : OutcomeId}
    (ran : resolveMarketEndpoint admin backends now db market outcome = .ok after) :
    winner after market = some outcome := by
  obtain ⟨row, -, found, -, -, -, rfl⟩ := resolveMarketEndpoint_ok ran
  unfold winner
  rw [Table.find?_modify_self, found]
  rfl

/-- An upheld dispute records the proposed outcome, if it records one. -/
theorem uphold_winner (bench : Bench) (now : Timestamp) (db : Database)
    (market other : MarketId) :
    winner (uphold bench now db market).db other = winner db other ∨
      (market = other ∧ ∃ outcome,
        (db.markets.find? market).bind Market.proposedOutcomeId = some outcome ∧
        winner (uphold bench now db market).db other = some outcome) := by
  rcases uphold_cases bench now db market with same | ⟨row, outcome, found, proposed, -, written⟩
  · rw [same]
    exact .inl rfl
  rw [written]
  unfold winner
  by_cases this : other = market
  · rw [this, Table.find?_modify_self, found]
    exact .inr ⟨rfl, outcome, proposed, rfl⟩
  · rw [Table.find?_modify_ne this]
    exact .inl rfl

theorem adjudicateDispute_winner {bench : Bench} {dispute : ℕ} {ruling : Ruling} {ruled : Ruled}
    (ran : adjudicateDispute bench now db dispute ruling = .ok ruled) :
    winner ruled.db market = winner db market ∨
      ∃ outcome, decides market db (.adjudicate bench dispute ruling) = some outcome ∧
        winner ruled.db market = some outcome := by
  obtain ⟨row, -, -, found, -, ⟨rfl, rfl⟩ | ⟨rfl, rfl⟩⟩ := adjudicateDispute_ok ran
  · exact .inl rfl
  · rcases uphold_winner bench now
      { db with disputes := db.disputes.modify dispute (rule .upheld) } row.marketId market with
      same | ⟨this, outcome, proposed, recorded⟩
    · exact .inl same
    · refine .inr ⟨outcome, ?_, recorded⟩
      simp only [decides, found, this, if_true]
      rw [← this]
      exact proposed

theorem paidOutcomes_append (left right : List Payout) :
    paidOutcomes (left ++ right) = paidOutcomes left ++ paidOutcomes right :=
  List.filterMap_append

/-- A claim pays the recorded outcome and keeps the record. -/
theorem claimWinnings_winner {user : UserId}
    (ran : claimWinnings round now user db market = .ok settled) :
    ∃ winning, winner db market = some winning ∧ winner settled.db market = some winning ∧
      ∀ outcome ∈ paidOutcomes settled.payouts, outcome = winning := by
  obtain ⟨winning, recorded, paid⟩ := claimWinnings_ok ran
  obtain ⟨pool, position, wallet, _, found, _, _, _, _, rfl⟩ := payClaim_ok paid
  refine ⟨winning, recorded, recorded, ?_⟩
  intro outcome member
  have key := Table.key_of_find? found
  have paidKey : outcome = position.key.outcomeId := by
    simpa [paidOutcomes] using member
  rw [paidKey, key]

theorem settleMarket_winner {done : Bool} {scan : Scan}
    (ran : settleMarket round now done scan db market winning = .ok (some settled)) :
    winner db market = some winning ∧ winner settled.db market = some winning ∧
      ∀ outcome ∈ paidOutcomes settled.payouts, outcome = winning := by
  obtain ⟨row, paid, swept, final, _, found, recorded, _, stages, rfl⟩ := settleMarket_ok ran
  have before : winner db market = some winning := by
    unfold winner
    rw [found]
    exact recorded
  have after : winner (commitLedger now market (openTreasury db).2 final) market = some winning :=
    (winner_modify (markResolved now) (fun _ => rfl) rfl (fun _ => rfl) market).trans before
  refine ⟨before, after, ?_⟩
  intro outcome member
  obtain ⟨payout, payoutMember, paidKey⟩ := List.mem_filterMap.mp member
  have log := stages.paid.log
  rw [log] at payoutMember
  rcases List.mem_append.mp payoutMember with none_ | paidMember
  · exact absurd none_ List.not_mem_nil
  rcases List.mem_append.mp paidMember with won | other
  · obtain ⟨position, _, positionWon⟩ := List.mem_filterMap.mp won
    obtain ⟨_, _, positive, rfl⟩ := win_eq_some.mp positionWon
    cases paidKey
    by_contra lost
    have nothing : payoutOf winning position = 0 := if_neg lost
    exact absurd positive (by rw [nothing]; exact lt_irrefl 0)
  rcases List.mem_append.mp other with fee | redeemed
  · unfold feePayout at fee
    split at fee
    · exact absurd fee List.not_mem_nil
    split at fee
    · cases List.mem_singleton.mp fee
      cases paidKey
    · exact absurd fee List.not_mem_nil
  · unfold redemptions at redeemed
    split at redeemed
    · exact absurd redeemed List.not_mem_nil
    obtain ⟨share, _, redemption_⟩ := List.mem_filterMap.mp redeemed
    unfold redemption at redemption_
    split at redemption_
    · cases redemption_
      cases paidKey
    · cases redemption_

/-- An operation decides the market, or pays only the recorded winner. -/
theorem perform_effect {books next : Books} {event : Event}
    (ran : perform round market books event = .ok next) :
    (next.payouts = books.payouts ∧
      (winner next.db market = winner books.db market ∨
        ∃ outcome, decides market books.db event.action = some outcome ∧
          winner next.db market = some outcome)) ∨
    ∃ winning made, winner books.db market = some winning ∧
      winner next.db market = some winning ∧ next.payouts = books.payouts ++ made ∧
      ∀ outcome ∈ paidOutcomes made, outcome = winning := by
  obtain ⟨now, action⟩ := event
  unfold perform at ran
  cases action with
  | propose admin outcome =>
      obtain ⟨db, done, rfl⟩ := map_eq_ok.mp ran
      exact .inl ⟨rfl, .inl (proposeResolution_winner done)⟩
  | resolve admin backends outcome =>
      obtain ⟨db, done, rfl⟩ := map_eq_ok.mp ran
      exact .inl ⟨rfl, .inr ⟨outcome, rfl, resolveMarketEndpoint_winner done⟩⟩
  | dispute user =>
      obtain ⟨db, done, rfl⟩ := map_eq_ok.mp ran
      exact .inl ⟨rfl, .inl (createDispute_winner done)⟩
  | adjudicate bench dispute ruling =>
      obtain ⟨ruled, done, rfl⟩ := map_eq_ok.mp ran
      exact .inl ⟨rfl, adjudicateDispute_winner done⟩
  | claim user =>
      obtain ⟨settled, done, rfl⟩ := map_eq_ok.mp ran
      obtain ⟨winning, before, after, only⟩ := claimWinnings_winner done
      exact .inr ⟨winning, settled.payouts, before, after, rfl, only⟩
  | settle done scan winning =>
      obtain ⟨result, settles, rfl⟩ := map_eq_ok.mp ran
      cases result with
      | none => exact .inl ⟨rfl, .inl rfl⟩
      | some settled =>
          obtain ⟨before, after, only⟩ := settleMarket_winner settles
          exact .inr ⟨winning, settled.payouts, before, after, rfl, only⟩

end Step

/-! # Runs -/

section Runs

variable {round : ℚ → ℚ} {market : MarketId} {start middle final : Books} {events : List Event}

/-- Runs in which no operation decides against a payout. -/
def Runs (round : ℚ → ℚ) (market : MarketId) : Books → List Event → Books → Prop :=
  Run (fun books event after => perform round market books event = .ok after)
    (fun books event => Legal market books event ∧ keepsWinner market books event = true)

/-- Only the recorded winner has been paid. -/
def PaidWinner (market : MarketId) (books : Books) : Prop :=
  ∀ outcome ∈ paidOutcomes books.payouts, winner books.db market = some outcome

theorem perform_keeps {books next : Books} {event : Event}
    (keeps : keepsWinner market books event = true)
    (ran : perform round market books event = .ok next)
    (paid : PaidWinner market books) :
    PaidWinner market next ∧
      (paidOutcomes books.payouts ≠ [] →
        paidOutcomes next.payouts ≠ [] ∧ winner next.db market = winner books.db market) := by
  rcases perform_effect ran with ⟨samePayouts, decided⟩ | ⟨winning, made, before, after, log, only⟩
  · -- Nothing is paid; a decision that changes the record comes before any payout.
    have kept : paidOutcomes books.payouts ≠ [] →
        winner next.db market = winner books.db market := by
      intro some_
      rcases decided with same | ⟨outcome, decides_, recorded⟩
      · exact same
      · unfold keepsWinner at keeps
        rw [decides_] at keeps
        simp only [Option.all_some, Bool.or_eq_true, List.isEmpty_iff, decide_eq_true_eq] at keeps
        exact recorded.trans (keeps.resolve_left some_).symm
    unfold PaidWinner
    rw [samePayouts]
    refine ⟨fun outcome member => ?_, fun some_ => ⟨some_, kept some_⟩⟩
    exact (kept (List.ne_nil_of_mem member)).trans (paid outcome member)
  · unfold PaidWinner
    rw [log, paidOutcomes_append]
    refine ⟨fun outcome member => ?_, fun some_ => ⟨?_, after.trans before.symm⟩⟩
    · rcases List.mem_append.mp member with old | new
      · exact (after.trans before.symm).trans (paid outcome old)
      · rw [after, only outcome new]
    · exact fun none_ => some_ (List.append_eq_nil_iff.mp none_).1

theorem paidWinner_of_run (run : Runs round market start events final)
    (paid : PaidWinner market start) : PaidWinner market final :=
  run.invariant (PaidWinner market)
    (fun _ _ _ guarded ran holds => (perform_keeps guarded.2 ran holds).1) paid

theorem winner_of_run (run : Runs round market start events final)
    (paid : PaidWinner market start) (some_ : paidOutcomes start.payouts ≠ []) :
    winner final.db market = winner start.db market := by
  have kept := run.invariant
    (fun books => PaidWinner market books ∧ paidOutcomes books.payouts ≠ [] ∧
      winner books.db market = winner start.db market)
    (fun books event next guarded ran holds => by
      obtain ⟨nextPaid, keeps⟩ := perform_keeps guarded.2 ran holds.1
      obtain ⟨nextSome, same⟩ := keeps holds.2.1
      exact ⟨nextPaid, nextSome, same.trans holds.2.2⟩)
    ⟨paid, some_, rfl⟩
  exact kept.2.2

/-- All payouts of a run are of one outcome, and the record stays from the first on. -/
theorem one_outcome_paid {earlier later : List Event} (fresh : start.payouts = [])
    (before : Runs round market start earlier middle)
    (after : Runs round market middle later final) :
    (∀ first ∈ paidOutcomes final.payouts, ∀ second ∈ paidOutcomes final.payouts,
      first = second) ∧
    (paidOutcomes middle.payouts ≠ [] → winner final.db market = winner middle.db market) := by
  have unpaid : PaidWinner market start := by
    unfold PaidWinner
    rw [fresh]
    exact fun outcome member => absurd member List.not_mem_nil
  have halfway := paidWinner_of_run before unpaid
  have paid := paidWinner_of_run after halfway
  refine ⟨fun first firstPaid second secondPaid => ?_, winner_of_run after halfway⟩
  exact Option.some.inj ((paid first firstPaid).symm.trans (paid second secondPaid))

end Runs

/-! # A disputed market

Outcome 1 of market 1 is proposed and the market is resolved to outcome 2.
-/

/-- User 2 holds ten shares of outcome 1 and user 3 four of outcome 2. -/
def contested : Books where
  db :=
    { wallets := ⟨[⟨2, 0, 0⟩, ⟨3, 0, 0⟩], by decide⟩
      positions :=
        ⟨[⟨2, 1, 1, 10, 1 / 2, 0, none⟩, ⟨3, 1, 2, 4, 1 / 2, 0, none⟩], by decide⟩
      orders := .empty
      pools := ⟨[⟨1, none, 100, 100, 100, 2 / 100, 200, 0⟩], by simp⟩
      lpShares := .empty
      markets := .single ⟨1, .active, 1000, none, none, none, none, 100, 0, 0⟩
      outcomes := ⟨[⟨1, 1, .yes, 0⟩, ⟨2, 1, .no, 1⟩], yes_and_no⟩
      disputes := .empty
      referrals := []
      trades := []
      transactions := []
      systemUser := none }
  payouts := []

def ready : Backends := ⟨true, true, true⟩

def sitting : Bench := ⟨true, .ok (), true, true⟩

/-- The market is resolved against the proposal and its winner claims. -/
def resolvedAndClaimed : List Event :=
  [⟨1, .propose true 1⟩, ⟨2, .resolve true ready 2⟩, ⟨3, .claim 3⟩]

/-- A dispute is upheld and the proposed outcome's holder claims as well. -/
def overruledAndClaimed : List Event :=
  [⟨4, .dispute 2⟩, ⟨5, .adjudicate sitting 1 .upheld⟩, ⟨6, .claim 2⟩]

/-- Nothing stops the second payout. -/
theorem both_outcomes_paid :
    ∃ final, Run (fun books event after => perform id 1 books event = .ok after) (Legal 1)
        contested (resolvedAndClaimed ++ overruledAndClaimed) final ∧
      contested.payouts = [] ∧ paidOutcomes final.payouts = [2, 1] ∧
      winner final.db 1 = some 1 := by
  have played : (replay (perform id 1) (Legal 1) (resolvedAndClaimed ++ overruledAndClaimed)
      contested).any (fun final => paidOutcomes final.payouts = [2, 1] ∧
        winner final.db 1 = some 1) = true := by
    decide +kernel
  obtain ⟨final, replayed, paid⟩ := (Option.any_eq_true _ _).mp played
  exact ⟨final, run_of_replay replayed, rfl, of_decide_eq_true paid⟩

/-- The rows a settlement reads after user 3's claim. -/
def unclaimed : Scan := ⟨[⟨2, 1, 1, 10, 1 / 2, 0, none⟩], []⟩

/-- The claim is followed by the settlement: only outcome 2 is paid. -/
theorem claim_then_settle_pays_one :
    ∃ middle final : Books, Runs id 1 contested resolvedAndClaimed middle ∧
      Runs id 1 middle [⟨4, .settle false unclaimed 2⟩] final ∧
      paidOutcomes middle.payouts = [2] ∧ winner final.db 1 = winner middle.db 1 := by
  have played : (replay (perform id 1)
      (fun books event => Legal 1 books event ∧ keepsWinner 1 books event = true)
      resolvedAndClaimed contested).any (fun middle =>
        paidOutcomes middle.payouts = [2] ∧ (replay (perform id 1)
          (fun books event => Legal 1 books event ∧ keepsWinner 1 books event = true)
          [⟨4, .settle false unclaimed 2⟩] middle).isSome) = true := by
    decide +kernel
  obtain ⟨middle, claimed, later⟩ := (Option.any_eq_true _ _).mp played
  obtain ⟨paid, settles⟩ := of_decide_eq_true later
  obtain ⟨final, settled⟩ := Option.isSome_iff_exists.mp settles
  have before := run_of_replay claimed
  have after := run_of_replay settled
  exact ⟨middle, final, before, after, paid,
    (one_outcome_paid rfl before after).2 (by rw [paid]; exact List.cons_ne_nil _ _)⟩

end PredictX.Resolution
