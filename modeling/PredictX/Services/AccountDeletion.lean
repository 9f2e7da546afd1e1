import PredictX.Api.Operations
import PredictX.Api.AuthCases

namespace PredictX.AccountDeletion

open PredictX.Data PredictX.Auth

/-! `anonymise_account` among the requests of its own user and settlements.

A request is let in by `get_current_user` and commits later, whatever has become of the account.
The two counts of the deletion lock nothing; what it erases commits at once.
-/

/-- `SETTLED_MARKET_STATUSES`. -/
def settledStatus : MarketStatus → Bool
  | .resolved | .rejected => true
  | _ => false

/-- The first count of `outstanding_obligations`. -/
def openOrders (db : Database) (user : UserId) : ℕ :=
  db.orders.rows.countP fun order => order.userId = user && order.status.isOpen

/-- The market of a position that the second count looks for. -/
def unresolved (db : Database) (position : Position) : Bool :=
  (db.markets.find? position.marketId).any fun market => !settledStatus market.status

/-- The second count of `outstanding_obligations`. -/
def unsettledPositions (db : Database) (user : UserId) : ℕ :=
  db.positions.rows.countP fun position =>
    position.userId = user && position.sharesHeld ≠ 0 && unresolved db position

/-- What the erasure does to the accounts; identity and private data are left out. -/
def lockOut (accounts : Auth.Accounts) (user : UserId) : Auth.Accounts :=
  { accounts.revokeChain user with
    users := accounts.users.modify user fun row => { row with isActive := false } }

inductive Stage where
  | idle
  | begun
  /-- The open orders are counted. -/
  | counted (openOrders : ℕ)
  /-- Both counts are zero. -/
  | checked
  | deleted
deriving DecidableEq, Repr

/-- An operation of the user that has passed the authentication. -/
structure OwnRequest where
  id : ℕ
  operation : Operation

structure Site where
  db : Database
  accounts : Auth.Accounts
  requests : Table OwnRequest.id
  stage : Stage

/-- The user of an operation that a user asks for. -/
def actor : Operation → Option UserId
  | .order _ user _ | .cancel _ user _ | .split user _ _ | .merge user _ _
  | .addLiquidity user _ _ _ | .removeLiquidity user _ _ _ | .claim _ user _ => some user
  | .expire _ | .sweep _ _ _ | .distributeFees _ | .settle _ _ _ _ => none

inductive Action where
  | ask (id : ℕ)
  | serve (id : ℕ)
  | fail (id : ℕ)
  | settle
  | start
  | countOrders
  | countPositions
  | erase
deriving DecidableEq, Repr

inductive Moves (user : UserId) (site : Site) : Action → Site → Prop
  | ask {id : ℕ} {now : ℚ} {caller : Option Caller} {account : User} {operation : Operation}
      (known : site.accounts.getCurrentUser now caller = .ok account) (self : account.id = user)
      (own : actor operation = some user) (fresh : site.requests.find? id = none) :
      Moves user site (.ask id) { site with requests := site.requests.insert ⟨id, operation⟩ }
  | serve {request : OwnRequest} {after : Database}
      (found : site.requests.find? request.id = some request)
      (ran : request.operation.perform site.db = .ok after) :
      Moves user site (.serve request.id)
        { site with db := after, requests := site.requests.erase request.id }
  | fail {request : OwnRequest} {reason : Error}
      (found : site.requests.find? request.id = some request)
      (raised : request.operation.perform site.db = .error reason) :
      Moves user site (.fail request.id)
        { site with requests := site.requests.erase request.id }
  | settle {now : Timestamp} {scan : Settlement.Scan} {market : MarketId} {winning : OutcomeId}
      {settled : Settlement.Settled} (reads : scan.Reads site.db market winning)
      (ran : Settlement.settleMarket id now false scan site.db market winning =
        .ok (some settled)) :
      Moves user site .settle { site with db := settled.db }
  /-- `delete_my_account`, as far as `anonymise_account`. -/
  | start {now : ℚ} {caller : Option Caller} {account : User} (idle : site.stage = .idle)
      (known : site.accounts.getCurrentUser now caller = .ok account) (self : account.id = user) :
      Moves user site .start { site with stage := .begun }
  | countOrders (begun : site.stage = .begun) :
      Moves user site .countOrders { site with stage := .counted (openOrders site.db user) }
  | countPositions {orders : ℕ} (counted : site.stage = .counted orders) :
      Moves user site .countPositions
        { site with
          stage := if orders = 0 ∧ unsettledPositions site.db user = 0 then .checked
            else .idle }
  | erase (checked : site.stage = .checked) :
      Moves user site .erase
        { site with accounts := lockOut site.accounts user, stage := .deleted }

end PredictX.AccountDeletion
