import PredictX.Workers.SweepCases
import PredictX.Services.WalletService
import PredictX.Api.SplitMerge
import PredictX.Data.IdentityMap
import PredictX.Data.Run
import PredictX.Mapping

namespace PredictX.LimitSweep

open PredictX.Data PredictX.MarketService PredictX.MatchingEngine PredictX.OrderService

/-! The sweep beside the transactions that commit while it runs.

The sweep is one session with many transactions: it commits inside its loop, which releases
its row locks and leaves its objects as they are (`expire_on_commit=False`).  Its queries
choose among the stored rows, but a row that is in the identity map comes back with the
object's values, also under `FOR UPDATE`.  A rollback expires the objects.  What a transaction
of the sweep computes is taken at its commit, with every row as it was when the session
loaded it; a query may have loaded it at any time before.
-/

/-! # The sweep between two commits -/

/-- Where the sweep stands: the group in progress with the orders left in it, and the groups
after it. -/
structure SweepPoint where
  group : Option (MarketId × Bool × List OrderId)
  groups : List (MarketId × List OrderId)
deriving DecidableEq, Repr

/-- The turn ends with a commit: the order has expired, or the AMM cannot fill the rest. -/
def turnCommits (now : Timestamp) (market : MarketId) (parimutuel : Bool) (session : Session)
    (orderId : OrderId) : Bool :=
  match session.current.orders.find? orderId with
  | none => false
  | some order =>
      if order.status.isOpen = false then false
      else if hasExpired now order then true
      else
        match takeTurn session.current market parimutuel order with
        | none => false
        | some turn =>
            match matchPendingOrder now session.committed.orders session.current turn.order
                turn.market turn.outcome.id with
            | .error _ => false
            | .ok (matched, fill) =>
                0 < fill.remaining && !turn.canFill &&
                  !(matched.orders.find? turn.order.id).any fun row => row.status = .filled

/-- What a transaction of the sweep commits, `none` after a rollback, and where it leaves off. -/
structure Segment where
  after : Option Database
  next : SweepPoint

/-- The loop over a group's orders, up to the next commit or rollback. -/
def sweepGroup (now : Timestamp) (market : MarketId) (parimutuel : Bool)
    (groups : List (MarketId × List OrderId)) : List OrderId → Session → Segment
  | [], session => ⟨some session.current, ⟨none, groups⟩⟩
  | orderId :: rest, session =>
      match processOrder now market parimutuel session orderId with
      | .error _ => ⟨none, ⟨none, groups⟩⟩
      | .ok processed =>
          if turnCommits now market parimutuel session orderId then
            ⟨some processed.session.current, ⟨some (market, parimutuel, rest), groups⟩⟩
          else sweepGroup now market parimutuel groups rest processed.session

/-- One transaction of the sweep. -/
def segment (now : Timestamp) (point : SweepPoint) (session : Session) : Segment :=
  match point.group, point.groups with
  | some (market, parimutuel, orders), groups =>
      sweepGroup now market parimutuel groups orders session
  | none, [] => ⟨none, point⟩
  | none, (market, orders) :: groups =>
      match session.current.markets.find? market with
      | none => ⟨none, ⟨none, groups⟩⟩
      | some row =>
          if row.status ≠ .active then ⟨none, ⟨none, groups⟩⟩
          else
            sweepGroup now market (isParimutuel (outcomesOf session.current market)) groups orders
              session

/-! # The session's objects -/

inductive RowKey where
  | order (id : OrderId)
  | wallet (user : UserId)
  | position (key : PositionKey)
  | pool (key : PoolKey)
  | market (id : MarketId)
deriving DecidableEq, Repr

/-- The transaction between the two databases left the row alone. -/
def SameRow (before after : Database) : RowKey → Prop
  | .order id => after.orders.find? id = before.orders.find? id
  | .wallet user => after.wallets.find? user = before.wallets.find? user
  | .position key => after.positions.find? key = before.positions.find? key
  | .pool key => after.pools.find? key = before.pools.find? key
  | .market id => after.markets.find? id = before.markets.find? id

structure Objects where
  orders : IdentityMap Order.id
  wallets : IdentityMap Wallet.userId
  positions : IdentityMap Position.key
  pools : IdentityMap LiquidityPool.key
  markets : IdentityMap Market.id

namespace Objects

def empty : Objects := ⟨.empty, .empty, .empty, .empty, .empty⟩

def Has (objects : Objects) : RowKey → Prop
  | .order id => (objects.orders.lookup id).isSome
  | .wallet user => (objects.wallets.lookup user).isSome
  | .position key => (objects.positions.lookup key).isSome
  | .pool key => (objects.pools.lookup key).isSome
  | .market id => (objects.markets.lookup id).isSome

def load (objects : Objects) (db : Database) : RowKey → Objects
  | .order id => { objects with orders := objects.orders.load db.orders id }
  | .wallet user => { objects with wallets := objects.wallets.load db.wallets user }
  | .position key => { objects with positions := objects.positions.load db.positions key }
  | .pool key => { objects with pools := objects.pools.load db.pools key }
  | .market id => { objects with markets := objects.markets.load db.markets id }

/-- The database as the session sees it. -/
def view (objects : Objects) (db : Database) : Database :=
  { db with
    orders := objects.orders.overlay db.orders
    wallets := objects.wallets.overlay db.wallets
    positions := objects.positions.overlay db.positions
    pools := objects.pools.overlay db.pools
    markets := objects.markets.overlay db.markets }

/-- The objects after a commit of `after`. -/
def flushed (objects : Objects) (view after : Database) : Objects where
  orders := objects.orders.flushed view.orders after.orders
  wallets := objects.wallets.flushed view.wallets after.wallets
  positions := objects.positions.flushed view.positions after.positions
  pools := objects.pools.flushed view.pools after.pools
  markets := objects.markets.flushed view.markets after.markets

end Objects

/-- The UPDATEs of a commit over the stored rows. -/
def flush (view after stored : Database) : Database :=
  { after with
    orders := flushRows Order.writeBack Order.writeBack_id view.orders after.orders stored.orders
    wallets := flushRows Wallet.writeBack Wallet.writeBack_userId view.wallets after.wallets
      stored.wallets
    positions := flushRows Position.writeBack Position.writeBack_key view.positions
      after.positions stored.positions
    pools := flushRows LiquidityPool.writeBack LiquidityPool.writeBack_key view.pools after.pools
      stored.pools
    markets := flushRows Market.writeBack Market.writeBack_id view.markets after.markets
      stored.markets }

/-! # The transactions -/

/-- The transactions of others. -/
inductive Other where
  | order (env : Env) (user : UserId) (data : OrderRequest)
  | cancel (env : Env) (user : UserId) (order : OrderId)
  | split (user : UserId) (market : MarketId) (amount : PositiveMoney)
  | withdraw (user : UserId) (amount : ℚ) (key : Option String)

def Other.perform (db : Database) : Other → Except Error Database
  | .order env user data => (executeOrder env db user data).map Execution.db
  | .cancel env user orderId => cancelOrder env db user orderId
  | .split user market amount =>
      (SplitMerge.split db user market amount.value).map SplitMerge.Result.db
  | .withdraw user amount key => WalletService.withdraw db user amount key

inductive Transaction where
  | sweep (now : Timestamp) (point : SweepPoint)
  | other (other : Other)

/-- A transaction with the database to itself. -/
def Transaction.perform (db : Database) : Transaction → Except Error Database
  | .sweep now point => .ok ((segment now point (.start db)).after.getD db)
  | .other theirs => theirs.perform db

/-- `held` are the rows locked since the last commit. -/
structure SweepSession where
  now : Timestamp
  point : SweepPoint
  objects : Objects
  held : List RowKey

/-- The database, the transactions that ended so far, and the sweep. -/
structure Floor where
  db : Database
  log : List Transaction
  sweep : Option SweepSession

inductive Step where
  | begin (now : Timestamp) (dirty : Option (List MarketId)) (scanned : List Order)
  | load (row : RowKey)
  | commit
  | other (other : Other)

/-- The sweep's transaction ends. -/
def Floor.commit (floor : Floor) (sweep : SweepSession) : Floor :=
  let view := sweep.objects.view floor.db
  let ended := segment sweep.now sweep.point ⟨floor.db, view⟩
  { db := match ended.after with
      | none => floor.db
      | some after => flush view after floor.db
    log := floor.log ++ [.sweep sweep.now sweep.point]
    sweep := some
      { sweep with
        point := ended.next
        objects := match ended.after with
          | none => .empty
          | some after => sweep.objects.flushed view after
        held := [] } }

inductive Works : Floor → Step → Floor → Prop
  | begin {floor : Floor} {now : Timestamp} {dirty : Option (List MarketId)}
      {scanned : List Order} (idle : floor.sweep = none)
      (reads : scanned.Subperm (floor.db.orders.rows.filter (isSwept dirty))) :
      Works floor (.begin now dirty scanned)
        { floor with
          sweep := some
            { now := now
              point := ⟨none, groups scanned⟩
              objects := scanned.foldl (fun objects order =>
                objects.load floor.db (.order order.id)) .empty
              held := scanned.map fun order => .order order.id } }
  | load {floor : Floor} {sweep : SweepSession} {row : RowKey}
      (running : floor.sweep = some sweep) :
      Works floor (.load row)
        { floor with
          sweep := some
            { sweep with objects := sweep.objects.load floor.db row, held := row :: sweep.held } }
  | commit {floor : Floor} {sweep : SweepSession} (running : floor.sweep = some sweep) :
      Works floor .commit (floor.commit sweep)
  | other {floor : Floor} {other : Other} {after : Database}
      (performed : other.perform floor.db = .ok after)
      (free : ∀ sweep, floor.sweep = some sweep → ∀ row ∈ sweep.held, SameRow floor.db after row) :
      Works floor (.other other)
        { floor with db := after, log := floor.log ++ [.other other] }

end PredictX.LimitSweep
