import PredictX.Api.Adjudication
import PredictX.Properties.ShareConservation

namespace PredictX.Resolution

open PredictX.Data

/-! Whether a ruling can be retried.

The ruling is committed before its consequences are known, so an endpoint that raises after
that commit leaves the dispute closed, if only for an audit row that fails; and an upheld dispute
about a market without a proposal returns with nothing resolved.
-/

/-- The columns a ruling decides, of one dispute and of every market. -/
structure SameStanding (before after : Database) (dispute : ℕ) : Prop where
  dispute : (after.disputes.find? dispute).map Dispute.status =
    (before.disputes.find? dispute).map Dispute.status
  markets : ∀ market,
    (after.markets.find? market).map (fun row => (row.status, row.winningOutcomeId)) =
      (before.markets.find? market).map fun row => (row.status, row.winningOutcomeId)

/-- The dispute is upheld, its market resolved, and its settlement queued. -/
def Upheld (after : Database) (queue : List (MarketId × OutcomeId)) (dispute : ℕ) : Prop :=
  ∃ row market winning, after.disputes.find? dispute = some row ∧ row.status = .upheld ∧
    after.markets.find? row.marketId = some market ∧ market.status = .resolved ∧
    market.winningOutcomeId = some winning ∧ (row.marketId, winning) ∈ queue

/-- A call that raises has changed nothing, and one that upholds has done everything. -/
structure AllOrNothing (db : Database) (dispute : ℕ) (ruling : Ruling) (verdict : Verdict) :
    Prop where
  nothing : verdict.raised.isSome → SameStanding db verdict.hearing.committed dispute
  all : verdict.raised = none → ruling = .upheld →
    Upheld verdict.hearing.committed verdict.hearing.queue dispute

/-- The call gets as far as committing its ruling on `row`. -/
structure Heard (proceedings : Proceedings) (db : Database) (dispute : ℕ) (row : Dispute) :
    Prop where
  admin : proceedings.admin = true
  stepUp : proceedings.stepUp = .ok ()
  found : db.disputes.find? dispute = some row
  opened : row.status = .isOpen
  ruled : proceedings.ruled = .ok ()

/-- The market has a proposed outcome, and broker, commit and notification of an upheld ruling go
through. -/
structure Executable (proceedings : Proceedings) (db : Database) (market : MarketId) : Prop where
  proposed : ((db.markets.find? market).bind Market.proposedOutcomeId).isSome
  queued : proceedings.queued = true
  resolved : proceedings.resolved = .ok ()
  notified : proceedings.notified = .ok ()

variable {proceedings : Proceedings} {now : Timestamp} {db : Database} {dispute : ℕ}
  {ruling : Ruling} {row : Dispute}

theorem SameStanding.refl (db : Database) (dispute : ℕ) : SameStanding db db dispute :=
  ⟨rfl, fun _ => rfl⟩

/-- The database with the ruling committed. -/
def withRuling (db : Database) (dispute : ℕ) (ruling : Ruling) : Database :=
  { db with disputes := db.disputes.modify dispute (rule ruling) (rule_id ruling) }

theorem adjudicate_heard (heard : Heard proceedings db dispute row) :
    adjudicate proceedings now db dispute ruling =
      match ruling with
      | .dismissed => conclude proceedings
          ⟨withRuling db dispute .dismissed, withRuling db dispute .dismissed, []⟩
      | .upheld => resolveDisputed proceedings now
          ⟨withRuling db dispute .upheld, withRuling db dispute .upheld, []⟩ row.marketId := by
  unfold adjudicate
  rw [heard.stepUp, heard.found, heard.ruled]
  simp only [heard.admin, heard.opened, ne_eq, not_true_eq_false, if_false, Bool.true_eq_false]
  cases ruling <;> rfl

/-- A call that is not heard raises and commits nothing. -/
theorem adjudicate_unheard (now : Timestamp) (ruling : Ruling)
    (unheard : ∀ row, ¬ Heard proceedings db dispute row) :
    (adjudicate proceedings now db dispute ruling).hearing.committed = db ∧
      (adjudicate proceedings now db dispute ruling).raised.isSome = true := by
  have failed : ∀ {hearing : Hearing} {reason : Error}, hearing.committed = db →
      hearing.current = db → (recordFailure proceedings hearing reason).hearing.committed = db ∧
        (recordFailure proceedings hearing reason).raised.isSome = true := by
    rintro hearing reason rfl clean
    exact ⟨Hearing.audit_committed _ clean, rfl⟩
  unfold adjudicate
  split
  · exact ⟨rfl, rfl⟩
  rename_i admitted
  split
  · exact failed rfl rfl
  rename_i steppedUp
  split
  · exact failed rfl rfl
  rename_i row found
  split
  · exact failed rfl rfl
  rename_i opened
  dsimp only
  split
  · exact failed rfl rfl
  · rename_i ruled
    exact absurd ⟨by simpa using admitted, steppedUp, found, not_not.mp opened, ruled⟩ (unheard row)

/-- Once the ruling is committed the dispute does not stand as before. -/
theorem not_sameStanding {after : Database} (ruling : Ruling)
    (found : db.disputes.find? dispute = some row) (opened : row.status = .isOpen)
    (same : after.disputes = (withRuling db dispute ruling).disputes) :
    ¬ SameStanding db after dispute := by
  intro standing
  have status := standing.dispute
  rw [same, withRuling] at status
  dsimp only at status
  rw [Table.find?_modify_self, found] at status
  cases ruling <;> simp [rule, Ruling.status, opened] at status

/-- Where the audit row fails, a ruling that is committed raises after all. -/
theorem not_conclude_of_unaudited {hearing : Hearing} (heard : Heard proceedings db dispute row)
    (failed : proceedings.audited = false)
    (same : hearing.committed.disputes = (withRuling db dispute ruling).disputes) :
    ¬ AllOrNothing db dispute ruling (conclude proceedings hearing) := by
  intro whole
  refine not_sameStanding ruling heard.found heard.opened same ?_
  have standing := whole.nothing
  unfold conclude Hearing.audit at standing
  rw [failed] at standing
  exact standing rfl

theorem resolveDisputed_iff (heard : Heard proceedings db dispute row) :
    AllOrNothing db dispute .upheld (resolveDisputed proceedings now
        ⟨withRuling db dispute .upheld, withRuling db dispute .upheld, []⟩ row.marketId) ↔
      proceedings.audited = true ∧ Executable proceedings db row.marketId := by
  have ruledRow : (withRuling db dispute .upheld).disputes.find? dispute =
      some (rule .upheld row) := by
    rw [withRuling]
    dsimp only
    rw [Table.find?_modify_self, heard.found]
    rfl
  -- Whatever is raised from here on leaves the dispute upheld.
  have raised : ∀ {hearing : Hearing} {reason : Error},
      hearing.committed.disputes = (withRuling db dispute .upheld).disputes →
      hearing.current.disputes = (withRuling db dispute .upheld).disputes →
      ¬ AllOrNothing db dispute .upheld (recordFailure proceedings hearing reason) := by
    intro hearing reason committed current whole
    refine not_sameStanding .upheld heard.found heard.opened ?_ (whole.nothing rfl)
    unfold recordFailure Hearing.audit
    dsimp only
    split
    · exact current
    · exact committed
  unfold resolveDisputed
  split
  · rename_i unproposed
    refine iff_of_false (fun whole => ?_) fun ⟨_, executable⟩ => ?_
    · cases audited : proceedings.audited with
      | false => exact not_conclude_of_unaudited heard audited rfl whole
      | true =>
          obtain ⟨ruled, market, winning, _, _, _, _, _, queued⟩ :=
            whole.all (conclude_raised _ audited) rfl
          rw [conclude, Hearing.audit_queue] at queued
          cases queued
    · have proposed := executable.proposed
      change ((db.markets.find? row.marketId).bind Market.proposedOutcomeId) = none at unproposed
      rw [unproposed] at proposed
      cases proposed
  rename_i outcome isProposed
  have proposed : (db.markets.find? row.marketId).bind Market.proposedOutcomeId = some outcome :=
    isProposed
  obtain ⟨market, disputed, isOutcome⟩ := Option.bind_eq_some_iff.mp proposed
  dsimp only
  split
  · rename_i down
    refine iff_of_false (raised rfl rfl) fun ⟨_, executable⟩ => ?_
    exact absurd executable.queued (by simp [down])
  rename_i queued
  split
  · rename_i failed
    refine iff_of_false (raised rfl rfl) fun ⟨_, executable⟩ => ?_
    exact absurd (failed.symm.trans executable.resolved) (by simp)
  rename_i resolved
  split
  · rename_i failed
    refine iff_of_false (raised rfl rfl) fun ⟨_, executable⟩ => ?_
    exact absurd (failed.symm.trans executable.notified) (by simp)
  rename_i notified
  cases audited : proceedings.audited with
  | false =>
      exact iff_of_false (not_conclude_of_unaudited heard audited rfl) fun never =>
        absurd never.1 (by decide)
  | true =>
      refine iff_of_true ⟨fun never => ?_, fun _ _ => ?_⟩
        ⟨rfl, by simp [proposed], by simpa using queued, resolved, notified⟩
      · rw [conclude_raised _ audited] at never
        cases never
      rw [conclude]
      dsimp only
      rw [Hearing.audit_committed _ rfl, Hearing.audit_queue]
      refine ⟨rule .upheld row, overrule now outcome market, outcome, ruledRow, rfl, ?_, rfl, rfl,
        by simp [Hearing.commit, rule]⟩
      change ((withRuling db dispute .upheld).markets.modify row.marketId
        (overrule now outcome)).find? row.marketId = _
      rw [Table.find?_modify_self, withRuling]
      dsimp only
      rw [disputed]
      rfl

/-- A ruling is all or nothing exactly when, if it is heard, its audit row goes through and, if it
upholds, it can be carried out to its end. -/
theorem ruling_all_or_nothing_iff (proceedings : Proceedings) (now : Timestamp) (db : Database)
    (dispute : ℕ) (ruling : Ruling) :
    AllOrNothing db dispute ruling (adjudicate proceedings now db dispute ruling) ↔
      ∀ row, Heard proceedings db dispute row → proceedings.audited = true ∧
        (ruling = .upheld → Executable proceedings db row.marketId) := by
  by_cases heard : ∃ row, Heard proceedings db dispute row
  · obtain ⟨row, heard⟩ := heard
    have unique : ∀ other, Heard proceedings db dispute other → other = row := fun other otherHeard =>
      Option.some.inj (otherHeard.found.symm.trans heard.found)
    rw [adjudicate_heard heard]
    have only : (∀ other, Heard proceedings db dispute other → proceedings.audited = true ∧
        (ruling = .upheld → Executable proceedings db other.marketId)) ↔
        proceedings.audited = true ∧
          (ruling = .upheld → Executable proceedings db row.marketId) := by
      refine ⟨fun all => all row heard, fun here other otherHeard => ?_⟩
      rw [unique other otherHeard]
      exact here
    rw [only]
    cases ruling with
    | dismissed =>
        dsimp only
        cases audited : proceedings.audited with
        | false =>
            exact iff_of_false (not_conclude_of_unaudited heard audited rfl) fun never =>
              absurd never.1 (by decide)
        | true =>
            refine iff_of_true ⟨fun never => ?_, fun _ never => (by cases never)⟩
              ⟨rfl, fun never => (by cases never)⟩
            rw [conclude_raised _ audited] at never
            cases never
    | upheld =>
        dsimp only
        rw [resolveDisputed_iff heard]
        simp
  · rw [not_exists] at heard
    obtain ⟨same, raised⟩ := adjudicate_unheard now ruling heard
    refine iff_of_true ⟨fun _ => ?_, fun returned => ?_⟩ fun row hears => absurd hears (heard row)
    · rw [same]
      exact .refl db dispute
    · rw [returned] at raised
      cases raised

/-- The quoted market with YES proposed and one open dispute about it. -/
def disputedMarket : Database :=
  { OrderService.quotedMarket with
    markets := ⟨[⟨1, .disputeWindow, 1000, none, none, some 1, some 2000, 100, 0, 0⟩], by decide⟩
    disputes := ⟨[⟨1, 1, 2, .isOpen⟩], by decide⟩ }

/-- The broker is down: the endpoint raises, and the dispute is upheld all the same. -/
theorem broker_failure_keeps_ruling :
    ∃ proceedings : Proceedings, proceedings.queued = false ∧
      ¬ AllOrNothing disputedMarket 1 .upheld
        (adjudicate proceedings 1500 disputedMarket 1 .upheld) := by
  refine ⟨⟨⟨true, .ok (), false, true⟩, .ok (), .ok (), .ok ()⟩, rfl, fun whole => ?_⟩
  have standing := (whole.nothing (by decide +kernel)).dispute
  exact absurd standing (by decide +kernel)

end PredictX.Resolution
