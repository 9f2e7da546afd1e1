import PredictX.Api.Resolution
import PredictX.Mapping

namespace PredictX.Resolution

open PredictX.Data

/-! The transactions that decide a market, interleaved.

`resolve_market_endpoint`, `create_dispute`, the second transaction of `adjudicate_dispute`
and `settle_market` select the market row `FOR UPDATE`; `propose_resolution` and
`check_markets_ready_to_resolve` select it without a lock, and meet the lock of another
transaction only when their UPDATE is sent.  A transaction writes the columns that differ
from the row it has loaded.  The commit log is kept next to the database: it says which
status each commit found and which it left.
-/

inductive Decision where
  | propose (admin : Bool) (now : Timestamp) (market : MarketId) (outcome : OutcomeId)
  | resolve (admin : Bool) (backends : Backends) (now : Timestamp) (market : MarketId)
      (outcome : OutcomeId)
  | dispute (user : UserId) (now : Timestamp) (market : MarketId)
  | rule (bench : Bench) (dispute : ℕ) (ruling : Ruling)
  | uphold (bench : Bench) (now : Timestamp) (dispute : ℕ)
  | close (now : Timestamp)
  | settle (scan : Settlement.Scan) (now : Timestamp) (market : MarketId) (winning : OutcomeId)

namespace Decision

/-- The guard of the operation on the status of the market. -/
def Admits : Decision → MarketStatus → Prop
  | .propose .., status => status = .active
  | .close _, status => status = .active
  | .resolve .., status => status ≠ .resolved ∧ status ≠ .resolving
  | .dispute .., status => status = .resolving ∨ status = .resolved ∨ status = .disputeWindow
  | .rule .., _ => True
  | .uphold .., _ => True
  | .settle .., _ => True

/-- `with_for_update()` on the market row. -/
def Locks : Decision → Prop
  | .propose .. => False
  | .close _ => False
  | _ => True

/-- The market rows the first query returns to an operation that goes on. -/
def Selects (db : Database) : Decision → List Market → Prop
  | .propose admin _ market _, rows =>
      ∃ row, rows = [row] ∧ db.markets.find? market = some row ∧ admin = true ∧
        row.status = .active
  | .resolve admin backends _ market _, rows =>
      ∃ row, rows = [row] ∧ db.markets.find? market = some row ∧ admin = true ∧
        ¬ (row.status = .resolved ∨ row.status = .resolving) ∧ backends.locked = true
  | .dispute _ now market, rows =>
      ∃ row, rows = [row] ∧ db.markets.find? market = some row ∧
        ¬ (row.status ≠ .resolving ∧ row.status ≠ .resolved ∧ row.status ≠ .disputeWindow) ∧
        row.disputeDeadline.any (· < now) = false
  | .rule bench filed _, rows =>
      ∃ row, rows = [] ∧ db.disputes.find? filed = some row ∧ bench.admin = true ∧
        bench.stepUp = .ok () ∧ row.status = .isOpen
  | .uphold _ _ filed, rows =>
      ∃ ruled row, rows = [row] ∧ db.disputes.find? filed = some ruled ∧
        ruled.status = .upheld ∧ db.markets.find? ruled.marketId = some row ∧
        row.proposedOutcomeId ≠ none
  | .close now, rows => rows.Perm (db.markets.rows.filter (readyToResolve now))
  | .settle _ _ market winning, rows =>
      ∃ row, rows = [row] ∧ db.markets.find? market = some row ∧
        row.winningOutcomeId = some winning

/-- What the operation asks for after it has the market. -/
def Proceeds (db : Database) : Decision → Prop
  | .propose _ _ market outcome => (outcomeOf db market outcome).isSome = true
  | .resolve _ backends _ market outcome =>
      (outcomeOf db market outcome).isSome = true ∧ backends.first = true ∧
        backends.queued = true
  | .uphold bench .. => bench.queued = true ∨ bench.audited = true
  | _ => True

/-- The assignments to the loaded market. -/
def assign : Decision → Market → Market
  | .propose _ now _ outcome => proposal now outcome
  | .resolve _ _ now _ outcome => resolution now outcome
  | .dispute .. => reopen
  | .rule .. => id
  | .uphold _ now _ => fun row =>
      match row.proposedOutcomeId with
      | none => row
      | some outcome => overrule now outcome row
  | .close _ => Resolution.close
  | .settle _ now _ _ => Settlement.markResolved now

end Decision

inductive DecisionStage where
  | begun
  | loaded
  | checked
  | flushed
deriving DecidableEq, Repr

/-- `rows` are the loaded market rows and `mark` the length of the commit log when they
were read. -/
structure DecisionSession where
  task : Decision
  stage : DecisionStage
  rows : List Market
  mark : ℕ

/-- A committed change of a market's status. -/
structure StatusChange where
  task : Decision
  market : MarketId
  before : MarketStatus
  after : MarketStatus

structure Docket where
  db : Database
  changes : List StatusChange

inductive DecisionRow where
  | market (id : MarketId)
  | dispute (id : ℕ)
deriving DecidableEq, Repr

namespace DecisionSession

def holds (session : DecisionSession) : DecisionRow → Prop
  | .market id =>
      id ∈ session.rows.map Market.id ∧
        (session.stage = .flushed ∨ (session.stage ≠ .begun ∧ session.task.Locks))
  | .dispute id =>
      session.stage ≠ .begun ∧ ∃ bench ruling, session.task = .rule bench id ruling

/-- The UPDATE statements of the flush. -/
def writeMarkets (session : DecisionSession) (markets : Table Market.id) : Table Market.id :=
  session.rows.foldl (fun markets row =>
    markets.modify row.id (Market.writeBack row (session.task.assign row))) markets

/-- The changes of status the flush makes, row by row. -/
def changes (session : DecisionSession) (markets : Table Market.id) : List StatusChange :=
  session.rows.filterMap fun row =>
    (markets.find? row.id).bind fun stored =>
      let status := (Market.writeBack row (session.task.assign row) stored).status
      if status = stored.status then none
      else some ⟨session.task, row.id, stored.status, status⟩

end DecisionSession

inductive Consults (docket : Docket) : DecisionSession → DecisionSession → Prop
  | load {session : DecisionSession} {rows : List Market} (stage : session.stage = .begun)
      (selects : session.task.Selects docket.db rows) :
      Consults docket session
        { session with stage := .loaded, rows := rows, mark := docket.changes.length }
  | check {session : DecisionSession} (stage : session.stage = .loaded)
      (proceeds : session.task.Proceeds docket.db) :
      Consults docket session { session with stage := .checked }
  | flush {session : DecisionSession} (stage : session.stage = .checked) :
      Consults docket session { session with stage := .flushed }

/-- The tables other than `markets` that a decision writes.  Nobody else writes what a
settlement pays from. -/
inductive Posts (round : ℚ → ℚ) (db : Database) : Decision → Database → Prop
  | propose {admin now market outcome} : Posts round db (.propose admin now market outcome) db
  | resolve {admin backends now market outcome} :
      Posts round db (.resolve admin backends now market outcome) db
  | dispute {user now market} :
      Posts round db (.dispute user now market)
        { db with disputes := db.disputes.insert ⟨nextDisputeId db, market, user, .isOpen⟩ }
  | rule {bench dispute ruling} :
      Posts round db (.rule bench dispute ruling)
        { db with disputes := db.disputes.modify dispute (Resolution.rule ruling) }
  | uphold {bench now dispute} : Posts round db (.uphold bench now dispute) db
  | close {now} : Posts round db (.close now) db
  | settle {scan now market winning settled} (reads : scan.Reads db market winning)
      (ran : Settlement.settleMarket round now false scan db market winning =
        .ok (some settled)) :
      Posts round db (.settle scan now market winning) settled.db

inductive Decides (round : ℚ → ℚ) (docket : Docket) : DecisionSession → Docket → Prop
  | commit {session : DecisionSession} {posted : Database} (stage : session.stage = .flushed)
      (posts : Posts round docket.db session.task posted) :
      Decides round docket session
        ⟨{ posted with markets := session.writeMarkets docket.db.markets },
          docket.changes ++ session.changes docket.db.markets⟩

def decisions (round : ℚ → ℚ) : Protocol Docket where
  Session := DecisionSession
  Row := DecisionRow
  fresh := fun session => session.stage = .begun ∧ session.rows = []
  holds := DecisionSession.holds
  query := Consults
  commit := Decides round
  holds_fresh := by
    intro session row fresh
    unfold DecisionSession.holds
    cases row with
    | market id => simp [fresh.2]
    | dispute id => simp [fresh.1]

/-! # A decision that nobody disturbs

Alone, a session does what the endpoint does. -/

section Alone

variable {round : ℚ → ℚ} {admin : Bool} {backends : Backends} {bench : Bench} {now : Timestamp}
  {db after posted : Database} {market : MarketId} {outcome : OutcomeId} {user : UserId}
  {dispute : ℕ} {ruling : Ruling} {ruled : Ruled} {task : Decision} {rows : List Market}
  {row : Market} {changes : List StatusChange}

theorem Decision.writeBack_assign (task : Decision) (row : Market) :
    Market.writeBack row (task.assign row) row = task.assign row := by
  apply Market.writeBack_stored
  cases task with
  | uphold bench now filed =>
      unfold assign
      dsimp only
      split <;> rfl
  | _ => rfl

/-- The run of a decision that finds what it asks for. -/
def RunsAlone (round : ℚ → ℚ) (before after : Docket) : Prop :=
  ∃ moves, Run (decisions round).Interleaves (fun _ _ => True) (Protocol.State.idle before) moves
    (Protocol.State.idle after)

theorem decides_alone (round : ℚ → ℚ) (changes : List StatusChange) (task : Decision)
    (selects : task.Selects db rows)
    (proceeds : task.Proceeds db) (posts : Posts round db task posted) :
    ∃ more, RunsAlone round ⟨db, changes⟩
      ⟨{ posted with
        markets := DecisionSession.writeMarkets ⟨task, .flushed, rows, changes.length⟩ db.markets },
        changes ++ more⟩ := by
  have loads : Consults ⟨db, changes⟩ ⟨task, .begun, [], 0⟩ ⟨task, .loaded, rows, changes.length⟩ :=
    .load rfl selects
  have checks : Consults ⟨db, changes⟩ ⟨task, .loaded, rows, changes.length⟩
      ⟨task, .checked, rows, changes.length⟩ := .check rfl proceeds
  have flushes : Consults ⟨db, changes⟩ ⟨task, .checked, rows, changes.length⟩
      ⟨task, .flushed, rows, changes.length⟩ := .flush rfl
  exact ⟨_, Protocol.run_alone _ _ ⟨rfl, rfl⟩ (.head loads (.head checks (.single flushes)))
    (.commit rfl posts)⟩

/-- The flush of rows that nobody has stored anew. -/
theorem writeMarkets_current {mark : ℕ} {markets : Table Market.id} (update : Market → Market)
    (keeps : ∀ row, (update row).id = row.id) (distinct : (rows.map Market.id).Nodup)
    (current : ∀ row ∈ rows, markets.find? row.id = some row ∧ task.assign row = update row) :
    DecisionSession.writeMarkets ⟨task, .flushed, rows, mark⟩ markets =
      rows.foldl (fun markets row => markets.modify row.id update keeps) markets := by
  induction rows generalizing markets with
  | nil => rfl
  | cons head rest ih =>
      rw [List.map_cons, List.nodup_cons] at distinct
      obtain ⟨found, assigned⟩ := current head List.mem_cons_self
      have first : markets.modify head.id (Market.writeBack head (task.assign head)) =
          markets.modify head.id update keeps :=
        Table.modify_congr found ((task.writeBack_assign head).trans assigned)
      rw [List.foldl_cons, ← ih distinct.2, ← first]
      · rfl
      intro row member
      have apart : row.id ≠ head.id :=
        fun same => distinct.1 (same ▸ List.mem_map_of_mem member)
      rw [Table.find?_modify_ne apart]
      exact current row (List.mem_cons_of_mem _ member)

theorem writeMarkets_single {mark : ℕ} (update : Market → Market)
    (keeps : ∀ row, (update row).id = row.id) (found : db.markets.find? market = some row)
    (assigned : task.assign row = update row) :
    DecisionSession.writeMarkets ⟨task, .flushed, [row], mark⟩ db.markets =
      db.markets.modify market update keeps := by
  have key : row.id = market := Table.key_of_find? found
  subst key
  refine writeMarkets_current update keeps (List.nodup_singleton row.id) ?_
  intro stored member
  rw [List.mem_singleton.mp member]
  exact ⟨found, assigned⟩

theorem proposeResolution_alone
    (ran : proposeResolution admin now db market outcome = .ok after) :
    ∃ more, RunsAlone round ⟨db, changes⟩ ⟨after, changes ++ more⟩ := by
  obtain ⟨row, admitted, found, active, named, rfl⟩ := proposeResolution_ok ran
  have run := decides_alone round changes (.propose admin now market outcome)
    ⟨row, rfl, found, admitted, active⟩ named .propose
  rw [writeMarkets_single (proposal now outcome) (fun _ => rfl) found rfl] at run
  exact run

theorem resolveMarketEndpoint_alone
    (ran : resolveMarketEndpoint admin backends now db market outcome = .ok after) :
    ∃ more, RunsAlone round ⟨db, changes⟩ ⟨after, changes ++ more⟩ := by
  obtain ⟨row, admitted, found, undecided, rfl, named, rfl⟩ := resolveMarketEndpoint_ok ran
  have run := decides_alone round changes (.resolve admin ⟨true, true, true⟩ now market outcome)
    ⟨row, rfl, found, admitted, undecided, rfl⟩ ⟨named, rfl, rfl⟩ .resolve
  rw [writeMarkets_single (resolution now outcome) (fun _ => rfl) found rfl] at run
  exact run

theorem createDispute_alone (ran : createDispute user now db market = .ok after) :
    ∃ more, RunsAlone round ⟨db, changes⟩ ⟨after, changes ++ more⟩ := by
  obtain ⟨row, found, resolvable, early, rfl⟩ := createDispute_ok ran
  have run := decides_alone round changes (.dispute user now market)
    ⟨row, rfl, found, resolvable, early⟩ trivial .dispute
  rw [writeMarkets_single reopen (fun _ => rfl) found rfl] at run
  exact run

theorem checkMarketsReadyToResolve_alone :
    ∃ more, RunsAlone round ⟨db, changes⟩ ⟨checkMarketsReadyToResolve now db, changes ++ more⟩ := by
  have selects : (Decision.close now).Selects db (db.markets.rows.filter (readyToResolve now)) :=
    List.Perm.refl _
  have run := decides_alone round changes (.close now) selects trivial .close
  rw [writeMarkets_current close (fun _ => rfl)] at run
  · exact run
  · exact db.markets.unique.sublist (List.filter_sublist.map _)
  · intro row member
    exact ⟨Table.find?_key_of_mem (List.mem_of_mem_filter member), rfl⟩

/-- The first transaction of a ruling, and the second one if the ruling resolves the market. -/
theorem adjudicateDispute_alone
    (ran : adjudicateDispute bench now db dispute ruling = .ok ruled) :
    ∃ between more later, RunsAlone round ⟨db, changes⟩ ⟨between, changes ++ more⟩ ∧
      RunsAlone round ⟨between, changes ++ more⟩ ⟨ruled.db, changes ++ later⟩ := by
  obtain ⟨row, admitted, steppedUp, found, opened, written⟩ := adjudicateDispute_ok ran
  obtain ⟨more, first⟩ := decides_alone round changes (.rule bench dispute ruling)
    ⟨row, rfl, found, admitted, steppedUp, opened⟩ trivial .rule
  refine ⟨{ db with disputes := db.disputes.modify dispute (rule ruling) }, more, ?_⟩
  have done : ruled.db = { db with disputes := db.disputes.modify dispute (rule ruling) } →
      ∃ later, RunsAlone round ⟨db, changes⟩
          ⟨{ db with disputes := db.disputes.modify dispute (rule ruling) }, changes ++ more⟩ ∧
        RunsAlone round ⟨{ db with disputes := db.disputes.modify dispute (rule ruling) },
          changes ++ more⟩ ⟨ruled.db, changes ++ later⟩ :=
    fun same => ⟨more, first, [], same ▸ .stop _⟩
  rcases written with ⟨rfl, rfl⟩ | ⟨rfl, rfl⟩
  · exact done rfl
  rcases uphold_cases bench now
    { db with disputes := db.disputes.modify dispute (rule .upheld) } row.marketId with
    same | ⟨market, outcome, here, proposed, committed, written⟩
  · exact done same
  · have stored : (db.disputes.modify dispute (rule .upheld)).find? dispute =
        some (rule .upheld row) := by
      rw [Table.find?_modify_self, found]
      rfl
    obtain ⟨later, second⟩ := decides_alone round (changes ++ more) (.uphold bench now dispute)
      ⟨rule .upheld row, market, rfl, stored, rfl, here, by simp [proposed]⟩ committed .uphold
    rw [writeMarkets_single (overrule now outcome) (fun _ => rfl) here
      (by simp only [Decision.assign, proposed])] at second
    refine ⟨more ++ later, first, ?_⟩
    rw [written, ← List.append_assoc]
    exact second

theorem settleMarket_alone {scan : Settlement.Scan} {winning : OutcomeId}
    {settled : Settlement.Settled} (reads : scan.Reads db market winning)
    (ran : Settlement.settleMarket round now false scan db market winning = .ok (some settled)) :
    ∃ more, RunsAlone round ⟨db, changes⟩ ⟨settled.db, changes ++ more⟩ := by
  obtain ⟨row, paid, swept, final, -, found, recorded, -, -, rfl⟩ := Settlement.settleMarket_ok ran
  have run := decides_alone round changes (.settle scan now market winning)
    ⟨row, rfl, found, recorded⟩ trivial (.settle reads ran)
  rw [writeMarkets_single (Settlement.markResolved now) (fun _ => rfl) found rfl] at run
  exact run

end Alone

end PredictX.Resolution
