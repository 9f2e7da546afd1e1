import PredictX.Services.LiquidityService
import PredictX.Workers.SweepCases
import PredictX.Api.Claims
import PredictX.Api.SplitMerge
import PredictX.Api.Markets
import PredictX.Data.Run

namespace PredictX

open PredictX.Data PredictX.OrderService

/-! The operations that move money and shares, as the steps of one system.

An operation that raises commits nothing.  The workers and the fee sweep carry the rows
their queries returned, and `Reads` says that these are rows of the database.
-/

inductive Operation where
  | order (env : Env) (user : UserId) (data : OrderRequest)
  | cancel (env : Env) (user : UserId) (order : OrderId)
  | expire (now : Timestamp)
  | sweep (now : Timestamp) (dirty : Option (List MarketId)) (scanned : List Order)
  | split (user : UserId) (market : MarketId) (amount : PositiveMoney)
  | merge (user : UserId) (market : MarketId) (amount : PositiveMoney)
  | addLiquidity (user : UserId) (market : MarketId) (amount : PositiveMoney)
      (outcome : Option OutcomeName)
  | removeLiquidity (user : UserId) (market : MarketId) (lpTokens : PositiveMoney)
      (outcome : Option OutcomeName)
  | distributeFees (scanned : List LiquidityPool)
  | claim (now : Timestamp) (user : UserId) (market : MarketId)
  | settle (now : Timestamp) (scan : Settlement.Scan) (market : MarketId) (winning : OutcomeId)

namespace Operation

/-- The default of `slippage_tolerance`, which no caller overrides. -/
def slippageTolerance : ℚ := 5 / 100

/-- The queries of the operation returned the rows of the database, in some order. -/
def Reads (db : Database) : Operation → Prop
  | .sweep _ dirty scanned => LimitSweep.Scanned dirty db scanned
  | .distributeFees scanned => scanned.Perm (LiquidityService.pendingFees db)
  | .settle _ scan market winning => scan.Reads db market winning
  | _ => True

/-- One operation in exact arithmetic. -/
def perform (db : Database) : Operation → Except Error Database
  | .order env user data => (executeOrder env db user data).map Execution.db
  | .cancel env user orderId => cancelOrder env db user orderId
  | .expire now => .ok (LimitSweep.expireStaleOrders now db)
  | .sweep now _ scanned => .ok (LimitSweep.checkLimitOrderExecution now scanned db)
  | .split user market amount =>
      (SplitMerge.split db user market amount.value).map SplitMerge.Result.db
  | .merge user market amount =>
      (SplitMerge.merge db user market amount.value).map SplitMerge.Result.db
  | .addLiquidity user market amount outcome =>
      (LiquidityService.addLiquidity db user market amount.value slippageTolerance outcome).map
        LiquidityService.Deposited.db
  | .removeLiquidity user market lpTokens outcome =>
      (LiquidityService.removeLiquidity db user market lpTokens.value slippageTolerance
        outcome).map LiquidityService.Withdrawn.db
  | .distributeFees scanned => .ok (LiquidityService.distributeProtocolFees db scanned)
  | .claim now user market =>
      (Settlement.claimWinnings id now user db market).map Settlement.Settled.db
  | .settle now scan market winning =>
      match Settlement.settleMarket id now false scan db market winning with
      | .error reason => .error reason
      | .ok none => .ok db
      | .ok (some settled) => .ok settled.db

/-- A committed operation. -/
def Commits (db : Database) (operation : Operation) (after : Database) : Prop :=
  operation.perform db = .ok after

/-- Committed operations in a row, each of which meets `guard` when its turn comes. -/
abbrev Runs (guard : Database → Operation → Prop) : Database → List Operation → Database → Prop :=
  Run (fun db operation after => Commits db operation after)
    fun db operation => Reads db operation ∧ guard db operation

end Operation

end PredictX
