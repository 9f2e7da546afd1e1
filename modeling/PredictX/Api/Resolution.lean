import PredictX.Api.Claims

namespace PredictX.Resolution

open PredictX.Data

/-! How a market is decided: `propose_resolution`, `resolve_market_endpoint`,
`create_dispute` and `adjudicate_dispute`, and how it is closed when its time is over.

What the endpoints ask of Redis, of the broker and of the step-up check is a parameter: keys
expire, and the broker can be down.
-/

/-- `DISPUTE_WINDOW_HOURS`, in the seconds of a timestamp. -/
def disputeWindow : ℕ := 48 * 3600

/-- An outcome of the market, or nothing. -/
def outcomeOf (db : Database) (market : MarketId) (outcome : OutcomeId) : Option Outcome :=
  match db.outcomes.find? outcome with
  | none => none
  | some row => if row.marketId = market then some row else none

def proposal (now : Timestamp) (outcome : OutcomeId) (row : Market) : Market :=
  { row with
    proposedOutcomeId := some outcome
    disputeDeadline := some (now + disputeWindow)
    status := .disputeWindow }

/-- `propose_resolution`. -/
def proposeResolution (admin : Bool) (now : Timestamp) (db : Database) (market : MarketId)
    (outcome : OutcomeId) : Except Error Database :=
  if admin = false then .error .forbidden
  else
    match db.markets.find? market with
    | none => .error .notFound
    | some row =>
        if row.status ≠ .active then .error (.validation .validationError)
        else
          match outcomeOf db market outcome with
          | none => .error (.validation .validationError)
          | some _ => .ok { db with markets := db.markets.modify market (proposal now outcome) }

/-- What Redis and the broker answer a resolution. -/
structure Backends where
  /-- `resolve_api_lock` was free. -/
  locked : Bool
  /-- `resolve_enqueue` was not set. -/
  first : Bool
  /-- The settlement task was enqueued. -/
  queued : Bool
deriving DecidableEq, Repr

def resolution (now : Timestamp) (outcome : OutcomeId) (row : Market) : Market :=
  { row with
    status := .resolving
    winningOutcomeId := some outcome
    resolvedAt := some now }

/-- `resolve_market_endpoint`. -/
def resolveMarketEndpoint (admin : Bool) (backends : Backends) (now : Timestamp) (db : Database)
    (market : MarketId) (outcome : OutcomeId) : Except Error Database :=
  if admin = false then .error .forbidden
  else
    match db.markets.find? market with
    | none => .error .notFound
    | some row =>
        if row.status = .resolved ∨ row.status = .resolving then
          .error (.validation .validationError)
        else if backends.locked = false then .error .conflict
        else
          match outcomeOf db market outcome with
          | none => .error (.validation .validationError)
          | some _ =>
              if backends.first = false then .error .conflict
              else if backends.queued = false then .error .serviceUnavailable
              else .ok { db with markets := db.markets.modify market (resolution now outcome) }

def reopen (row : Market) : Market := { row with status := .disputeWindow }

def nextDisputeId (db : Database) : ℕ := (db.disputes.rows.map Dispute.id).foldr max 0 + 1

/-- `create_dispute`: a dispute moves even a resolved market back into its window. -/
def createDispute (user : UserId) (now : Timestamp) (db : Database) (market : MarketId) :
    Except Error Database :=
  match db.markets.find? market with
  | none => .error .notFound
  | some row =>
      if row.status ≠ .resolving ∧ row.status ≠ .resolved ∧ row.status ≠ .disputeWindow then
        .error (.validation .validationError)
      else if row.disputeDeadline.any (· < now) then .error (.validation .validationError)
      else
        .ok { db with
          disputes := db.disputes.insert ⟨nextDisputeId db, market, user, .isOpen⟩
          markets := db.markets.modify market reopen }

/-- The request schema admits no other ruling. -/
inductive Ruling where
  | upheld
  | dismissed
deriving DecidableEq, Repr

def Ruling.status : Ruling → DisputeStatus
  | .upheld => .upheld
  | .dismissed => .dismissed

/-- Who rules, and what the services around the ruling answer. -/
structure Bench where
  admin : Bool
  stepUp : Except Error Unit
  /-- The settlement task was enqueued. -/
  queued : Bool
  /-- The audit row was written; its commit is the session's. -/
  audited : Bool

def rule (ruling : Ruling) (dispute : Dispute) : Dispute :=
  { dispute with status := ruling.status }

theorem rule_id (ruling : Ruling) (dispute : Dispute) : (rule ruling dispute).id = dispute.id := rfl

def overrule (now : Timestamp) (outcome : OutcomeId) (row : Market) : Market :=
  { row with
    status := .resolved
    winningOutcomeId := some outcome
    resolvedAt := some now }

theorem overrule_id (now : Timestamp) (outcome : OutcomeId) (row : Market) :
    (overrule now outcome row).id = row.id := rfl

/-- A ruling commits before it knows whether it will raise. -/
structure Ruled where
  db : Database
  raised : Option Error

/-- The second transaction of an upheld ruling.  When the broker is down the endpoint
raises, but the audit row's commit writes the market as well. -/
def uphold (bench : Bench) (now : Timestamp) (db : Database) (market : MarketId) : Ruled :=
  match db.markets.find? market with
  | none => ⟨db, none⟩
  | some row =>
      match row.proposedOutcomeId with
      | none => ⟨db, none⟩
      | some outcome =>
          let resolved := { db with markets := db.markets.modify market (overrule now outcome) }
          if bench.queued then ⟨resolved, none⟩
          else if bench.audited then ⟨resolved, some .serviceUnavailable⟩
          else ⟨db, some .serviceUnavailable⟩

/-- `adjudicate_dispute`: the ruling is committed first, then the market. -/
def adjudicateDispute (bench : Bench) (now : Timestamp) (db : Database) (dispute : ℕ)
    (ruling : Ruling) : Except Error Ruled :=
  if bench.admin = false then .error .forbidden
  else
    match bench.stepUp with
    | .error reason => .error reason
    | .ok () =>
        match db.disputes.find? dispute with
        | none => .error .notFound
        | some row =>
            if row.status ≠ .isOpen then .error (.validation .validationError)
            else
              let ruled := { db with disputes := db.disputes.modify dispute (rule ruling) }
              match ruling with
              | .dismissed => .ok ⟨ruled, none⟩
              | .upheld => .ok (uphold bench now ruled row.marketId)

/-- The query of `check_markets_ready_to_resolve`. -/
def readyToResolve (now : Timestamp) (row : Market) : Bool :=
  row.status = .active && row.closesAt ≤ now && row.winningOutcomeId = none

def close (row : Market) : Market := { row with status := .closed }

/-- `check_markets_ready_to_resolve`. -/
def checkMarketsReadyToResolve (now : Timestamp) (db : Database) : Database :=
  { db with
    markets := (db.markets.rows.filter (readyToResolve now)).foldl
      (fun markets row => markets.modify row.id close) db.markets }

/-! # What a decision that went through has found and written -/

section Ok

variable {admin : Bool} {backends : Backends} {bench : Bench} {now : Timestamp}
  {db after : Database} {market : MarketId} {outcome : OutcomeId} {user : UserId} {dispute : ℕ}
  {ruling : Ruling} {ruled : Ruled}

theorem proposeResolution_ok (ran : proposeResolution admin now db market outcome = .ok after) :
    ∃ row, admin = true ∧ db.markets.find? market = some row ∧ row.status = .active ∧
      (outcomeOf db market outcome).isSome = true ∧
      after = { db with markets := db.markets.modify market (proposal now outcome) } := by
  unfold proposeResolution at ran
  split at ran
  · contradiction
  rename_i admitted
  split at ran
  · contradiction
  rename_i row found
  split at ran
  · contradiction
  rename_i active
  split at ran
  · contradiction
  rename_i named
  cases ran
  refine ⟨row, Bool.not_eq_false _ ▸ admitted, found, not_not.mp active, ?_, rfl⟩
  rw [named]
  rfl

theorem resolveMarketEndpoint_ok
    (ran : resolveMarketEndpoint admin backends now db market outcome = .ok after) :
    ∃ row, admin = true ∧ db.markets.find? market = some row ∧
      ¬ (row.status = .resolved ∨ row.status = .resolving) ∧ backends = ⟨true, true, true⟩ ∧
      (outcomeOf db market outcome).isSome = true ∧
      after = { db with markets := db.markets.modify market (resolution now outcome) } := by
  obtain ⟨locked, first, queued⟩ := backends
  unfold resolveMarketEndpoint at ran
  split at ran
  · contradiction
  rename_i admitted
  split at ran
  · contradiction
  rename_i row found
  split at ran
  · contradiction
  rename_i undecided
  split at ran
  · contradiction
  split at ran
  · contradiction
  rename_i named
  split at ran
  · contradiction
  split at ran
  · contradiction
  cases ran
  refine ⟨row, Bool.not_eq_false _ ▸ admitted, found, undecided, by simp_all, ?_, rfl⟩
  rw [named]
  rfl

theorem createDispute_ok (ran : createDispute user now db market = .ok after) :
    ∃ row, db.markets.find? market = some row ∧
      ¬ (row.status ≠ .resolving ∧ row.status ≠ .resolved ∧ row.status ≠ .disputeWindow) ∧
      row.disputeDeadline.any (· < now) = false ∧
      after = { db with
        disputes := db.disputes.insert ⟨nextDisputeId db, market, user, .isOpen⟩
        markets := db.markets.modify market reopen } := by
  unfold createDispute at ran
  split at ran
  · contradiction
  rename_i row found
  split at ran
  · contradiction
  rename_i resolvable
  split at ran
  · contradiction
  rename_i early
  cases ran
  exact ⟨row, found, resolvable, Bool.not_eq_true _ ▸ early, rfl⟩

/-- The second transaction writes nothing or the proposed outcome. -/
theorem uphold_cases (bench : Bench) (now : Timestamp) (db : Database) (market : MarketId) :
    (uphold bench now db market).db = db ∨ ∃ row outcome, db.markets.find? market = some row ∧
      row.proposedOutcomeId = some outcome ∧ (bench.queued = true ∨ bench.audited = true) ∧
      (uphold bench now db market).db =
        { db with markets := db.markets.modify market (overrule now outcome) } := by
  unfold uphold
  split
  · exact .inl rfl
  rename_i row found
  split
  · exact .inl rfl
  rename_i outcome proposed
  dsimp only
  split
  · rename_i queued
    exact .inr ⟨row, outcome, found, proposed, .inl queued, rfl⟩
  split
  · rename_i audited
    exact .inr ⟨row, outcome, found, proposed, .inr audited, rfl⟩
  · exact .inl rfl

theorem adjudicateDispute_ok (ran : adjudicateDispute bench now db dispute ruling = .ok ruled) :
    ∃ row, bench.admin = true ∧ bench.stepUp = .ok () ∧
      db.disputes.find? dispute = some row ∧ row.status = .isOpen ∧
      ((ruling = .dismissed ∧
          ruled = ⟨{ db with disputes := db.disputes.modify dispute (rule .dismissed) }, none⟩) ∨
        (ruling = .upheld ∧ ruled = uphold bench now
          { db with disputes := db.disputes.modify dispute (rule .upheld) } row.marketId)) := by
  unfold adjudicateDispute at ran
  split at ran
  · contradiction
  rename_i admitted
  split at ran
  · contradiction
  rename_i steppedUp
  split at ran
  · contradiction
  rename_i row found
  split at ran
  · contradiction
  rename_i opened
  dsimp only at ran
  refine ⟨row, Bool.not_eq_false _ ▸ admitted, steppedUp, found, not_not.mp opened, ?_⟩
  cases ruling with
  | dismissed => exact .inl ⟨rfl, (Except.ok.inj ran).symm⟩
  | upheld => exact .inr ⟨rfl, (Except.ok.inj ran).symm⟩

end Ok

end PredictX.Resolution
