import PredictX.Services.OrderCases
import PredictX.Data.Sessions

namespace PredictX.OrderService

open PredictX.Data

/-! Calls of `execute_order` by one user under one `client_order_id`, interleaved.

A call locks the market row, the pool and the user's wallet, in this order, and looks the
key up only then.  Calls for different markets share nothing but the wallet.  What a call
reads before the wallet belongs to its market; the rest it reads after the lookup, and it
computes its writes from what it has read.
-/

/-- The last query a call has made. -/
inductive PlaceStage where
  | begun
  | market
  | pool
  | wallet
  | looked
  | loaded
deriving DecidableEq, Repr

def PlaceStage.rank : PlaceStage → ℕ
  | .begun => 0
  | .market => 1
  | .pool => 2
  | .wallet => 3
  | .looked => 4
  | .loaded => 5

/-- `view` holds the market's tables as the first two queries found them, `existing` what the
lookup returned and `body` the tables read after it. -/
structure PlaceSession where
  env : Env
  data : OrderRequest
  stage : PlaceStage
  view : Database
  existing : Option Order
  body : Database

inductive PlaceRow where
  | market (id : MarketId)
  | pool (key : PoolKey)
  | wallet (user : UserId)
  | order (id : OrderId)
deriving DecidableEq, Repr

namespace PlaceSession

def Reached (session : PlaceSession) (stage : PlaceStage) : Prop :=
  stage.rank ≤ session.stage.rank

/-- The venue a call resolves from its first two queries. -/
def venue (session : PlaceSession) : Except Error Venue :=
  openVenue session.env session.view session.data.marketId session.data.outcome

def holds (user : UserId) (session : PlaceSession) : PlaceRow → Prop
  | .market id => session.Reached .market ∧ id = session.data.marketId
  | .pool key => session.Reached .pool ∧ ∃ venue, session.venue = .ok venue ∧ venue.pool.key = key
  | .wallet owner => session.Reached .wallet ∧ owner = user
  | .order id => session.Reached .looked ∧ session.existing.map Order.id = some id

end PlaceSession

/-- The database and the responses of the calls that committed. -/
structure Desk where
  db : Database
  answers : List OrderResult

inductive Looks (user : UserId) (db : Database) : PlaceSession → PlaceSession → Prop
  | market {session : PlaceSession} (stage : session.stage = .begun)
      (priced : ¬ session.data.price.any (fun price => price ≤ 0)) :
      Looks user db session
        { session with
          stage := .market
          view := { session.view with markets := db.markets, outcomes := db.outcomes } }
  | pool {session : PlaceSession} (stage : session.stage = .market) :
      Looks user db session
        { session with stage := .pool, view := { session.view with pools := db.pools } }
  | wallet {session : PlaceSession} (stage : session.stage = .pool)
      (owner : (db.wallets.find? user).isSome = true) :
      Looks user db session { session with stage := .wallet }
  | lookup {session : PlaceSession} (stage : session.stage = .wallet) :
      Looks user db session
        { session with stage := .looked, existing := duplicateOf db user session.data }
  | load {session : PlaceSession} (stage : session.stage = .looked)
      (unseen : session.existing = none) :
      Looks user db session { session with stage := .loaded, body := db }

inductive Places (user : UserId) (desk : Desk) : PlaceSession → Desk → Prop
  | duplicate {session : PlaceSession} {venue : Venue} {existing : Order}
      (stage : session.stage = .looked) (opened : session.venue = .ok venue)
      (seen : session.existing = some existing) :
      Places user desk session
        ⟨desk.db, desk.answers ++ [(duplicate desk.db user session.data existing).result]⟩
  | place {session : PlaceSession} {venue : Venue} {execution : Execution}
      (stage : session.stage = .loaded) (opened : session.venue = .ok venue)
      (quoted : checkQuote session.env user session.data.quoteId = .ok ())
      (held : checkHoldings session.body user venue session.data = .ok ())
      (filled : fillOrder session.env session.body user venue session.data = .ok execution) :
      Places user desk session ⟨execution.db, desk.answers ++ [execution.result]⟩

/-- The calls of `user` that carry `key`. -/
def placements (user : UserId) (key : String) : Protocol Desk where
  Session := PlaceSession
  Row := PlaceRow
  fresh := fun session => session.stage = .begun ∧ session.data.clientOrderId = some key
  holds := PlaceSession.holds user
  query := fun desk => Looks user desk.db
  commit := Places user
  holds_fresh := by
    intro session row fresh
    have early : ∀ stage, stage ≠ .begun → ¬ session.Reached stage := by
      intro stage later
      unfold PlaceSession.Reached
      rw [fresh.1]
      cases stage <;> simp_all [PlaceStage.rank]
    unfold PlaceSession.holds
    cases row <;> simp [early]

end PredictX.OrderService
