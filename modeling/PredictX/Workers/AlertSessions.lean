import PredictX.Services.AlertEngine
import PredictX.Data.Except
import PredictX.Data.Run

namespace PredictX.AlertEngine

open PredictX.Data

/-! `check_price_alerts` runs side by side, for one market.

A claim script, a pipeline and the guarded update are single steps, and what a run has
updated is seen by others when it commits.  `create_in_app` commits the session in the
middle of the loop, so the first commit can come with any alert of the loop or at its end.
-/

inductive Phase where
  /-- The sets still to be claimed, in the first round or after the repair. -/
  | claiming (rest : List Slot) (again : Bool)
  | selecting
  | writing (rows : List Alert)
  | marking
  | notifying (todo : List AlertId)
  /-- After a failure: the index is rebuilt and the exception raised again. -/
  | repairing
  | restoring (rows : List Alert)
  | finished
deriving DecidableEq

structure Check where
  id : ℕ
  prices : Prices
  phase : Phase
  claimed : List AlertId
  /-- The rows its update returned. -/
  won : List AlertId
  /-- The alerts it has published `alert:triggered` for. -/
  sent : List AlertId
  committed : Bool
deriving DecidableEq

/-- Rows that were updated and not committed are locked. -/
def Check.locks (check : Check) (alert : AlertId) : Bool :=
  match check.phase with
  | .notifying _ => !check.committed && decide (alert ∈ check.won)
  | _ => false

structure System where
  alerts : Table Alert.id
  /-- Every alert ever created, as it was then: an id is not used again. -/
  issued : Table Alert.id
  index : Index
  checks : Table Check.id

def System.start : System := ⟨.empty, .empty, .empty, .empty⟩

inductive Action where
  | create (alert : Alert)
  | indexAlert (alert : AlertId)
  | delete (alert : AlertId)
  | deindexAlert (alert : AlertId)
  | begin (check : ℕ) (prices : Prices)
  | reindex (check : ℕ)
  | claim (check : ℕ)
  /-- The Redis call fails. -/
  | skip (check : ℕ)
  | select (check : ℕ)
  | write (check : ℕ)
  | mark (check : ℕ)
  | notify (check : ℕ) (published : Bool)
  | commit (check : ℕ)
  | fail (check : ℕ)

/-- What a round of claims leads to. -/
def afterClaims (again : Bool) (claimed : List AlertId) : Phase :=
  if claimed = [] then if again then .finished else .selecting else .marking

/-- The next set, or what comes after the last one. -/
def nextClaim (again : Bool) (rest : List Slot) (claimed : List AlertId) : Phase :=
  if rest = [] then afterClaims again claimed else .claiming rest again

def System.put (system : System) (check : Check) : System :=
  { system with checks := system.checks.modify check.id (fun row =>
      { check with id := row.id }) fun _ => rfl }

/-- The commit of what the run has updated. -/
def System.flip (system : System) (check : Check) : System :=
  if check.committed then system
  else { system with alerts := (markTriggered check.won system.alerts).2 }

/-- One step of a run that is in progress. -/
def advance (market : MarketId) (system : System) (check : Check) :
    Action → Except Unit System
  | .claim _ =>
      match check.phase with
      | .claiming (slot :: rest) again =>
          let (members, index) := system.index.claim check.prices slot
          let claimed := check.claimed ++ members
          .ok { system.put { check with claimed, phase := nextClaim again rest claimed } with
            index }
      | _ => .error ()
  | .skip _ =>
      match check.phase with
      | .claiming (_ :: rest) again =>
          .ok (system.put { check with phase := nextClaim again rest check.claimed })
      | .writing _ | .restoring _ => .ok (system.put { check with phase := .finished })
      | _ => .error ()
  | .select _ =>
      let rows := untriggered market system.alerts
      match check.phase with
      | .selecting =>
          .ok (system.put { check with phase := if rows = [] then .finished else .writing rows })
      | .repairing =>
          .ok (system.put { check with phase := if rows = [] then .finished else .restoring rows })
      | _ => .error ()
  | .write _ =>
      match check.phase with
      | .writing rows =>
          .ok { system.put { check with phase := .claiming slots true } with
            index := system.index.addAll rows }
      | .restoring rows =>
          .ok { system.put { check with phase := .finished } with
            index := system.index.addAll rows }
      | _ => .error ()
  | .mark _ =>
      match check.phase with
      | .marking =>
          -- The update waits for rows another run has updated and not committed.
          if system.checks.rows.any fun other => check.claimed.any other.locks then .error ()
          else
            let won := (markTriggered check.claimed system.alerts).1.map Alert.id
            .ok (system.put { check with
              won, phase := if won = [] then .finished else .notifying won })
      | _ => .error ()
  | .notify _ published =>
      match check.phase with
      | .notifying (alert :: todo) =>
          .ok (system.put { check with
            phase := .notifying todo
            sent := if published then check.sent ++ [alert] else check.sent })
      | _ => .error ()
  | .commit _ =>
      match check.phase with
      | .notifying todo =>
          .ok ((system.flip check).put { check with
            committed := true
            phase := if todo = [] then .finished else .notifying todo })
      | _ => .error ()
  | .fail _ =>
      match check.phase with
      | .finished | .repairing | .restoring _ => .error ()
      | _ => .ok (system.put { check with phase := .repairing })
  | _ => .error ()

def perform (market : MarketId) (system : System) (action : Action) : Except Unit System :=
  match action with
  | .create alert =>
      if (system.issued.find? alert.id).isNone && !alert.triggered then
        .ok { system with
          alerts := system.alerts.insert alert
          issued := system.issued.insert alert }
      else .error ()
  | .indexAlert id =>
      match system.issued.find? id with
      | some alert =>
          if alert.marketId = market then .ok { system with index := system.index.add alert }
          else .error ()
      | none => .error ()
  | .delete id =>
      -- `DELETE` waits for a row lock as well.
      if system.checks.rows.any fun check => check.locks id then .error ()
      else .ok { system with alerts := system.alerts.erase id }
  | .deindexAlert id =>
      match system.issued.find? id with
      | some alert =>
          if alert.marketId = market then .ok { system with index := system.index.remove alert }
          else .error ()
      | none => .error ()
  | .begin id prices =>
      if (system.checks.find? id).isNone then
        .ok { system with
          checks := system.checks.insert ⟨id, prices, .claiming slots false, [], [], [], false⟩ }
      else .error ()
  | .reindex id =>
      if (system.checks.find? id).isNone then
        .ok { system with
          checks := system.checks.insert ⟨id, ⟨0, 0⟩, .repairing, [], [], [], false⟩ }
      else .error ()
  | .claim id | .skip id | .select id | .write id | .mark id | .notify id _ | .commit id
  | .fail id =>
      match system.checks.find? id with
      | some check => advance market system check action
      | none => .error ()

end PredictX.AlertEngine
