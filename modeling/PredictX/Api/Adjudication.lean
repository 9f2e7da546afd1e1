import PredictX.Api.Resolution

namespace PredictX.Resolution

open PredictX.Data

/-! `adjudicate_dispute` with its failure points.

The endpoint commits the ruling, sends the settlement to the broker and commits the market.
Each of these can raise, and on the way out the audit row is committed with whatever the
session has changed by then.  An audit row that fails is rolled back, and the rollback expires
the dispute that the response is about to read.
-/

/-- What the database and the services answer, one after the other. -/
structure Proceedings extends Bench where
  /-- The commit of the ruling. -/
  ruled : Except Error Unit
  /-- The commit of the market. -/
  resolved : Except Error Unit
  notified : Except Error Unit

/-- The rows of the last commit, the session's own, and the tasks sent to the broker. -/
structure Hearing where
  committed : Database
  current : Database
  queue : List (MarketId × OutcomeId)

namespace Hearing

def start (db : Database) : Hearing := ⟨db, db, []⟩

def commit (hearing : Hearing) : Hearing := { hearing with committed := hearing.current }

def rollback (hearing : Hearing) : Hearing := { hearing with current := hearing.committed }

/-- `log_action`: a failed audit row is rolled back and swallowed. -/
def audit (audited : Bool) (hearing : Hearing) : Hearing :=
  if audited then hearing.commit else hearing.rollback

end Hearing

/-- What the endpoint raises. -/
inductive Failure where
  | error (reason : Error)
  /-- An expired row is read outside the session: a response with status 500. -/
  | missingGreenlet
deriving DecidableEq, Repr

structure Verdict where
  hearing : Hearing
  raised : Option Failure

/-- `except Exception`: the attempt is recorded and the error raised again. -/
def recordFailure (proceedings : Proceedings) (hearing : Hearing) (reason : Error) : Verdict :=
  ⟨hearing.audit proceedings.audited, some (.error reason)⟩

/-- The audit row, and `return success_response(…)`, which reads `dispute.id`. -/
def conclude (proceedings : Proceedings) (hearing : Hearing) : Verdict :=
  ⟨hearing.audit proceedings.audited,
    if proceedings.audited then none else some .missingGreenlet⟩

/-- The second transaction of an upheld ruling. -/
def resolveDisputed (proceedings : Proceedings) (now : Timestamp) (hearing : Hearing)
    (market : MarketId) : Verdict :=
  match (hearing.current.markets.find? market).bind Market.proposedOutcomeId with
  | none => conclude proceedings hearing
  | some outcome =>
      let written := { hearing with
        current := { hearing.current with
          markets := hearing.current.markets.modify market (overrule now outcome)
            (overrule_id now outcome) } }
      if proceedings.queued = false then recordFailure proceedings written .serviceUnavailable
      else
        let queued := { written with queue := written.queue ++ [(market, outcome)] }
        match proceedings.resolved with
        -- A commit that fails has rolled the session back.
        | .error reason => recordFailure proceedings queued.rollback reason
        | .ok () =>
            match proceedings.notified with
            | .error reason => recordFailure proceedings queued.commit reason
            | .ok () => conclude proceedings queued.commit

/-- `adjudicate_dispute`. -/
def adjudicate (proceedings : Proceedings) (now : Timestamp) (db : Database) (dispute : ℕ)
    (ruling : Ruling) : Verdict :=
  if proceedings.admin = false then ⟨.start db, some (.error .forbidden)⟩
  else
    match proceedings.stepUp with
    | .error reason => recordFailure proceedings (.start db) reason
    | .ok () =>
        match db.disputes.find? dispute with
        | none => recordFailure proceedings (.start db) .notFound
        | some row =>
            if row.status ≠ .isOpen then
              recordFailure proceedings (.start db) (.validation .validationError)
            else
              let ruled : Hearing := { Hearing.start db with
                current := { db with
                  disputes := db.disputes.modify dispute (rule ruling) (rule_id ruling) } }
              match proceedings.ruled with
              | .error reason => recordFailure proceedings ruled.rollback reason
              | .ok () =>
                  match ruling with
                  | .dismissed => conclude proceedings ruled.commit
                  | .upheld => resolveDisputed proceedings now ruled.commit row.marketId

variable {proceedings : Proceedings} {now : Timestamp} {db : Database} {dispute : ℕ}
  {ruling : Ruling}

theorem Hearing.audit_committed (audited : Bool) {hearing : Hearing}
    (clean : hearing.current = hearing.committed) :
    (hearing.audit audited).committed = hearing.committed := by
  cases audited with
  | true => exact clean
  | false => rfl

theorem Hearing.audit_queue (audited : Bool) (hearing : Hearing) :
    (hearing.audit audited).queue = hearing.queue := by
  cases audited <;> rfl

/-- A ruling that is refused commits nothing. -/
theorem adjudicate_of_error {reason : Error}
    (refused : adjudicateDispute proceedings.toBench now db dispute ruling = .error reason) :
    (adjudicate proceedings now db dispute ruling).hearing.committed = db ∧
      (adjudicate proceedings now db dispute ruling).raised = some (.error reason) := by
  have failed : ∀ reason, (recordFailure proceedings (.start db) reason).hearing.committed = db :=
    fun _ => Hearing.audit_committed _ rfl
  unfold adjudicateDispute at refused
  split at refused
  · rename_i stranger
    cases refused
    unfold adjudicate
    rw [if_pos stranger]
    exact ⟨rfl, rfl⟩
  rename_i admitted
  split at refused
  · rename_i isReason
    cases refused
    unfold adjudicate
    rw [if_neg admitted, isReason]
    exact ⟨failed _, rfl⟩
  rename_i steppedUp
  split at refused
  · rename_i missing
    cases refused
    unfold adjudicate
    rw [if_neg admitted, steppedUp, missing]
    exact ⟨failed _, rfl⟩
  rename_i row found
  split at refused
  · rename_i closed
    cases refused
    unfold adjudicate
    rw [if_neg admitted, steppedUp, found]
    dsimp only
    rw [if_pos closed]
    exact ⟨failed _, rfl⟩
  · dsimp only at refused
    cases ruling <;> cases refused

theorem conclude_raised (hearing : Hearing) (audited : proceedings.audited = true) :
    (conclude proceedings hearing).raised = none := by
  rw [conclude, audited]
  rfl

/-- With commits and notifications that go through, the endpoint is the platform's event; it
answers like it where the audit row goes through as well. -/
theorem adjudicate_of_ok {result : Ruled} (ruled : proceedings.ruled = .ok ())
    (resolved : proceedings.resolved = .ok ()) (notified : proceedings.notified = .ok ())
    (ran : adjudicateDispute proceedings.toBench now db dispute ruling = .ok result) :
    (adjudicate proceedings now db dispute ruling).hearing.committed = result.db ∧
      (proceedings.audited = true →
        (adjudicate proceedings now db dispute ruling).raised = result.raised.map .error) := by
  unfold adjudicateDispute at ran
  split at ran
  · contradiction
  rename_i admitted
  split at ran
  · contradiction
  rename_i steppedUp
  split at ran
  · contradiction
  rename_i row found
  split at ran
  · contradiction
  rename_i opened
  unfold adjudicate
  rw [if_neg admitted, steppedUp, found]
  dsimp only at ran ⊢
  rw [if_neg opened, ruled]
  cases ruling with
  | dismissed =>
      cases ran
      exact ⟨Hearing.audit_committed _ rfl, conclude_raised _⟩
  | upheld =>
      cases ran
      unfold uphold resolveDisputed
      dsimp only [Hearing.commit, Hearing.start]
      cases disputed : db.markets.find? row.marketId with
      | none => exact ⟨Hearing.audit_committed _ rfl, conclude_raised _⟩
      | some market =>
          cases proposed : market.proposedOutcomeId with
          | none =>
              simp only [Option.bind_some, proposed]
              exact ⟨Hearing.audit_committed _ rfl, conclude_raised _⟩
          | some outcome =>
              simp only [Option.bind_some, proposed, resolved, notified]
              cases queued : proceedings.queued with
              | true => exact ⟨Hearing.audit_committed _ rfl, conclude_raised _⟩
              | false =>
                  cases audited : proceedings.audited with
                  | true => simp [recordFailure, Hearing.audit, Hearing.commit, audited]
                  | false => simp [recordFailure, Hearing.audit, Hearing.rollback, audited]

end PredictX.Resolution
