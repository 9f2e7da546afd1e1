import PredictX.Api.Claims
import PredictX.Data.Sessions

namespace PredictX.Settlement

open PredictX.Data

/-! Settlements and claims of one market, interleaved.

A session reads table by table, each at the time of its query, and its writes are computed
from what it has read.  A settlement locks the market row first and a claim does not lock it
at all; both lock the pool they pay from before they look at a position, and keep it to the
commit.  A session can be aborted at any time, and any number of settlements may begin: a
redelivery, or a run after the `resolve_done` marker was lost.
-/

inductive Task where
  | settle (winning : OutcomeId) (now : Timestamp)
  | claim (user : UserId) (now : Timestamp)
deriving DecidableEq, Repr

/-- The last query a session has made.  Claims have no `treasury` and no `providers`. -/
inductive Stage where
  | begun
  | market
  | pool
  | treasury
  | positions
  | wallets
  | providers
deriving DecidableEq, Repr

def Stage.rank : Stage → ℕ
  | .begun => 0
  | .market => 1
  | .pool => 2
  | .treasury => 3
  | .positions => 4
  | .wallets => 5
  | .providers => 6

/-- `view` holds the tables as the queries found them, `scan` the rows they returned. -/
structure PaySession where
  task : Task
  stage : Stage
  view : Database
  scan : Scan

inductive LockedRow where
  | market
  | pool (key : PoolKey)
  | treasury
  | position (key : PositionKey)
  | wallet (user : UserId)
  | share (key : LPShareKey)
deriving DecidableEq, Repr

namespace PaySession

def Reached (session : PaySession) (stage : Stage) : Prop := stage.rank ≤ session.stage.rank

/-- The outcome a session pays. -/
def winning (market : MarketId) (session : PaySession) : Option OutcomeId :=
  match session.task with
  | .settle winning _ => some winning
  | .claim _ _ => winner session.view market

/-- The pool a session pays from, as it read it. -/
def pool (market : MarketId) (session : PaySession) : Option LiquidityPool :=
  (session.winning market).bind (settlementPool session.view.pools market)

/-- The rows of the `FOR UPDATE` queries so far. -/
def holds (market : MarketId) (session : PaySession) (row : LockedRow) : Prop :=
  match session.task, row with
  | .settle _ _, .market => session.Reached .market
  | .claim _ _, .market => False
  | _, .pool key => session.Reached .pool ∧ (session.pool market).map LiquidityPool.key = some key
  | .settle _ _, .treasury => session.Reached .treasury
  | .claim _ _, .treasury => False
  | _, .position key => session.Reached .positions ∧ key ∈ session.scan.positions.map Position.key
  | .settle _ _, .wallet user =>
      (session.Reached .treasury ∧ user = (openTreasury session.view).1) ∨
      (session.Reached .wallets ∧ user ∈ session.scan.positions.map Position.userId) ∨
      (session.Reached .providers ∧ user ∈ session.scan.lpShares.map LPShare.userId)
  | .claim claimant _, .wallet user => session.Reached .wallets ∧ user = claimant
  | .settle _ _, .share key =>
      session.Reached .providers ∧ key ∈ session.scan.lpShares.map LPShare.key
  | .claim _ _, .share _ => False

/-- The database a session computes with.  A claim reads the market's outcome once and never
writes the market. -/
def seen (session : PaySession) (db : Database) : Database :=
  match session.task with
  | .settle _ _ =>
      { db with
        markets := session.view.markets
        pools := session.view.pools
        systemUser := session.view.systemUser
        positions := session.view.positions
        wallets := session.view.wallets
        lpShares := session.view.lpShares }
  | .claim _ _ =>
      { db with
        pools := session.view.pools
        positions := session.view.positions
        wallets := session.view.wallets }

end PaySession

/-- The guards on the market row. -/
def admits (market : MarketId) (db : Database) (task : Task) : Prop :=
  match task with
  | .settle winning _ => winner db market = some winning
  | .claim _ _ =>
      ∃ row winning, db.markets.find? market = some row ∧ claimable row = .ok winning

/-- The claimant's unsettled rows of the winning outcome. -/
def claimRows (market : MarketId) (db : Database) (user : UserId) (winning : OutcomeId) :
    List Position :=
  db.positions.rows.filter fun position =>
    position.key = ⟨user, market, winning⟩ && position.settledAt = none && 0 < position.sharesHeld

inductive Asks (market : MarketId) (db : Database) : PaySession → PaySession → Prop
  | market {session : PaySession} (stage : session.stage = .begun)
      (admitted : admits market db session.task) :
      Asks market db session
        { session with stage := .market, view := { session.view with markets := db.markets } }
  | pool {session : PaySession} (stage : session.stage = .market) :
      Asks market db session
        { session with stage := .pool, view := { session.view with pools := db.pools } }
  | treasury {session : PaySession} {winning : OutcomeId} {now : Timestamp}
      (task : session.task = .settle winning now) (stage : session.stage = .pool) :
      Asks market db session
        { session with
          stage := .treasury
          view := { session.view with systemUser := db.systemUser, wallets := db.wallets } }
  | positions {session : PaySession} {winning : OutcomeId} {now : Timestamp} {rows : List Position}
      (task : session.task = .settle winning now) (stage : session.stage = .treasury)
      (read : rows.Perm (unsettled db market)) :
      Asks market db session
        { session with
          stage := .positions
          view := { session.view with positions := db.positions }
          scan := { session.scan with positions := rows } }
  | position {session : PaySession} {user : UserId} {winning : OutcomeId} {now : Timestamp}
      (task : session.task = .claim user now) (stage : session.stage = .pool)
      (decided : winner session.view market = some winning) :
      Asks market db session
        { session with
          stage := .positions
          view := { session.view with positions := db.positions }
          scan := { session.scan with positions := claimRows market db user winning } }
  | wallets {session : PaySession} (stage : session.stage = .positions) :
      Asks market db session
        { session with stage := .wallets, view := { session.view with wallets := db.wallets } }
  | providers {session : PaySession} {winning : OutcomeId} {now : Timestamp}
      {rows : List LPShare} (task : session.task = .settle winning now)
      (stage : session.stage = .wallets)
      (read : ∀ pool, session.pool market = some pool → rows.Perm (liveShares db pool.key)) :
      Asks market db session
        { session with
          stage := .providers
          view := { session.view with lpShares := db.lpShares, wallets := db.wallets }
          scan := { session.scan with lpShares := rows } }

inductive Writes (round : ℚ → ℚ) (market : MarketId) (books : Books) : PaySession → Books → Prop
  | settle {session : PaySession} {winning : OutcomeId} {now : Timestamp} {settled : Settled}
      (task : session.task = .settle winning now) (stage : session.stage = .providers)
      (ran : settleMarket round now false session.scan (session.seen books.db) market winning =
        .ok (some settled)) :
      Writes round market books session (books.post settled)
  | claim {session : PaySession} {user : UserId} {winning : OutcomeId} {now : Timestamp}
      {settled : Settled} (task : session.task = .claim user now)
      (stage : session.stage = .wallets) (decided : winner session.view market = some winning)
      (ran : payClaim round now user (session.seen books.db) market winning = .ok settled) :
      Writes round market books session (books.post settled)

/-- The settlements and claims of `market`. -/
def payouts (round : ℚ → ℚ) (market : MarketId) : Protocol Books where
  Session := PaySession
  Row := LockedRow
  fresh := fun session => session.stage = .begun
  holds := PaySession.holds market
  query := fun books => Asks market books.db
  commit := Writes round market
  holds_fresh := by
    intro session row fresh
    have early : ∀ stage, stage ≠ .begun → ¬ session.Reached stage := by
      intro stage later
      unfold PaySession.Reached
      rw [fresh]
      cases stage <;> simp_all [Stage.rank]
    unfold PaySession.holds
    cases session.task <;> cases row <;> simp [early]

end PredictX.Settlement
