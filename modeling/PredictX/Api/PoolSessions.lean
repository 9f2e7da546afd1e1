import PredictX.Api.Operations
import PredictX.Mapping

namespace PredictX.PoolSessions

open PredictX.Data PredictX.MarketService

/-! The transactions on a binary market's pool, interleaved.

Orders, splits, merges and settlements lock the market row and then the pool.  The binary
branch of `_resolve_liquidity_pool` drops its `lock` argument: `add_liquidity` holds the
market but reads the pool without a lock, and `remove_liquidity` reads both without one.
Their UPDATE waits for the lock and sends the columns that differ from the loaded row.  The
caller's wallet and provider row are locked when they are read, so they are taken as they are
at the commit.
-/

def storePools (key : PoolKey) (loaded values stored : Table LiquidityPool.key) :
    Table LiquidityPool.key :=
  match loaded.find? key, values.find? key with
  | some row, some value => stored.modify key (LiquidityPool.writeBack row value)
  | _, _ => stored

def storeMarkets (market : MarketId) (loaded values stored : Table Market.id) : Table Market.id :=
  match loaded.find? market, values.find? market with
  | some row, some value => stored.modify market (Market.writeBack row value)
  | _, _ => stored

/-- The operations that write the pool of `market`. -/
def OnMarket (market : MarketId) : Operation → Prop
  | .order _ _ data => data.marketId = market
  | .split _ other _ => other = market
  | .merge _ other _ => other = market
  | .addLiquidity _ other _ _ => other = market
  | .removeLiquidity _ other _ _ => other = market
  | .settle _ _ other _ => other = market
  | _ => False

def LocksMarket : Operation → Prop
  | .removeLiquidity .. => False
  | _ => True

def LocksPool : Operation → Prop
  | .addLiquidity .. => False
  | .removeLiquidity .. => False
  | _ => True

def Settles : Operation → Prop
  | .settle .. => True
  | _ => False

inductive PoolStage where
  | begun
  | market
  | pool
  | positions
  | flushed
deriving DecidableEq, Repr

def PoolStage.rank : PoolStage → ℕ
  | .begun => 0
  | .market => 1
  | .pool => 2
  | .positions => 3
  | .flushed => 4

/-- `view` holds the tables as the queries found them; the marks are the lengths of the
commit log at the query of the market and at the query of the pool. -/
structure PoolSession where
  operation : Operation
  stage : PoolStage
  view : Database
  marketMark : ℕ
  poolMark : ℕ

/-- A committed transaction, the pool it computed with and the pool it wrote over. -/
structure Entry where
  operation : Operation
  loaded : Option LiquidityPool
  stored : Option LiquidityPool

structure Vault where
  db : Database
  log : List Entry

inductive PoolRow where
  | market
  | pool
deriving DecidableEq, Repr

namespace PoolSession

def Reached (session : PoolSession) (stage : PoolStage) : Prop :=
  stage.rank ≤ session.stage.rank

/-- A withdrawal that changes `total_liquidity`; otherwise no UPDATE of the market is sent. -/
def RewritesMarket (market : MarketId) (session : PoolSession) : Prop :=
  ∃ user lpTokens outcome row pool,
    session.operation = .removeLiquidity user market lpTokens outcome ∧
    session.view.markets.find? market = some row ∧
    session.view.pools.find? ⟨market, none⟩ = some pool ∧
    LiquidityService.dropTotalLiquidity
      (pool.collateral * (lpTokens.value / pool.lpTokenSupply)) row ≠ row

def holds (market : MarketId) (session : PoolSession) : PoolRow → Prop
  | .market => (LocksMarket session.operation ∧ session.Reached .market) ∨
      (session.stage = .flushed ∧ session.RewritesMarket market)
  | .pool => (LocksPool session.operation ∧ session.Reached .pool) ∨ session.stage = .flushed

/-- The database a session computes with. -/
def seen (session : PoolSession) (db : Database) : Database :=
  { db with
    markets := session.view.markets
    outcomes := session.view.outcomes
    pools := session.view.pools
    positions := session.view.positions }

def entry (market : MarketId) (session : PoolSession) (db : Database) : Entry :=
  ⟨session.operation, session.view.pools.find? ⟨market, none⟩, db.pools.find? ⟨market, none⟩⟩

/-- What the UPDATEs of a deposit or a withdrawal leave. -/
def store (market : MarketId) (session : PoolSession) (db after : Database) : Database :=
  { after with
    markets := storeMarkets market session.view.markets after.markets db.markets
    outcomes := db.outcomes
    pools := storePools ⟨market, none⟩ session.view.pools after.pools db.pools
    positions := db.positions }

end PoolSession

inductive Reads (market : MarketId) (vault : Vault) : PoolSession → PoolSession → Prop
  | market {session : PoolSession} (stage : session.stage = .begun) :
      Reads market vault session
        { session with
          stage := .market
          view := { session.view with markets := vault.db.markets }
          marketMark := vault.log.length }
  | pool {session : PoolSession} (stage : session.stage = .market)
      (binary : isParimutuel (outcomesOf vault.db market) = false) :
      Reads market vault session
        { session with
          stage := .pool
          view := { session.view with outcomes := vault.db.outcomes, pools := vault.db.pools }
          poolMark := vault.log.length }
  | positions {session : PoolSession} (stage : session.stage = .pool) :
      Reads market vault session
        { session with
          stage := .positions
          view := { session.view with positions := vault.db.positions } }
  | flush {session : PoolSession} (stage : session.stage = .positions)
      (unlocked : ¬ LocksPool session.operation) :
      Reads market vault session { session with stage := .flushed }

inductive Stores (market : MarketId) (vault : Vault) : PoolSession → Vault → Prop
  | locked {session : PoolSession} {after : Database} (stage : session.stage = .positions)
      (locks : LocksPool session.operation)
      (reads : session.operation.Reads (session.seen vault.db))
      (ran : session.operation.perform (session.seen vault.db) = .ok after) :
      Stores market vault session ⟨after, vault.log ++ [session.entry market vault.db]⟩
  | unlocked {session : PoolSession} {after : Database} (stage : session.stage = .flushed)
      (ran : session.operation.perform (session.seen vault.db) = .ok after) :
      Stores market vault session
        ⟨session.store market vault.db after, vault.log ++ [session.entry market vault.db]⟩

/-- The transactions on the pool of a binary market. -/
def poolWriters (market : MarketId) : Protocol Vault where
  Session := PoolSession
  Row := PoolRow
  fresh := fun session => session.stage = .begun ∧ OnMarket market session.operation
  holds := PoolSession.holds market
  query := Reads market
  commit := Stores market
  holds_fresh := by
    intro session row fresh
    unfold PoolSession.holds PoolSession.Reached
    cases row <;> simp [fresh.1, PoolStage.rank]

end PredictX.PoolSessions
