import PredictX.Api.Operations
import PredictX.Api.MarketCases
import PredictX.Api.Resolution

namespace PredictX

open PredictX.Data PredictX.Resolution

/-! The whole platform: the operations and the decisions about markets.

Next to the database it keeps which markets a settlement has been committed for, which no
column records: an upheld dispute marks a market resolved as well.
-/

structure Platform where
  db : Database
  settled : List MarketId

inductive Event where
  | operate (operation : Operation)
  | createMarket (now : Timestamp) (author : Markets.Author)
      (request : Markets.CreateMarketRequest)
  | approveMarket (now : Timestamp) (market : MarketId)
  | rejectMarket (market : MarketId)
  | proposeResolution (admin : Bool) (now : Timestamp) (market : MarketId) (outcome : OutcomeId)
  | resolveMarket (admin : Bool) (backends : Backends) (now : Timestamp) (market : MarketId)
      (outcome : OutcomeId)
  | createDispute (user : UserId) (now : Timestamp) (market : MarketId)
  | adjudicateDispute (bench : Bench) (now : Timestamp) (dispute : ℕ) (ruling : Ruling)
  | closeMarkets (now : Timestamp)

namespace Event

/-- What the event commits.  A ruling commits even when its endpoint raises. -/
def perform (db : Database) : Event → Except Error Database
  | .operate operation => operation.perform db
  | .createMarket now author request => (Markets.createMarket now author db request).map Prod.fst
  | .approveMarket now market => Markets.approveMarket now db market
  | .rejectMarket market => Markets.rejectMarket db market
  | .proposeResolution admin now market outcome =>
      Resolution.proposeResolution admin now db market outcome
  | .resolveMarket admin backends now market outcome =>
      resolveMarketEndpoint admin backends now db market outcome
  | .createDispute user now market => Resolution.createDispute user now db market
  | .adjudicateDispute bench now dispute ruling =>
      (Resolution.adjudicateDispute bench now db dispute ruling).map Ruled.db
  | .closeMarkets now => .ok (checkMarketsReadyToResolve now db)

/-- The market whose settlement the event commits. -/
def settles (db : Database) : Event → List MarketId
  | .operate (.settle now scan market winning) =>
      match Settlement.settleMarket id now false scan db market winning with
      | .ok (some _) => [market]
      | _ => []
  | _ => []

def Reads (db : Database) : Event → Prop
  | .operate operation => operation.Reads db
  | _ => True

def Commits (platform : Platform) (event : Event) (after : Platform) : Prop :=
  event.perform platform.db = .ok after.db ∧
    after.settled = event.settles platform.db ++ platform.settled

/-- The state a committed event leads to. -/
def play (platform : Platform) (event : Event) : Except Error Platform :=
  (event.perform platform.db).map fun db => ⟨db, event.settles platform.db ++ platform.settled⟩

theorem commits_of_play {platform after : Platform} {event : Event}
    (played : event.play platform = .ok after) : event.Commits platform after := by
  obtain ⟨db, performed, rfl⟩ := map_eq_ok.mp played
  exact ⟨performed, rfl⟩

/-- Committed events in a row, each of which meets `guard` when its turn comes. -/
abbrev Runs (guard : Platform → Event → Prop) : Platform → List Event → Platform → Prop :=
  Run (fun platform event after => Commits platform event after)
    fun platform event => Reads platform.db event ∧ guard platform event

end Event

/-- A platform without markets; its accounts are arbitrary. -/
structure Platform.Fresh (platform : Platform) : Prop where
  markets : platform.db.markets = .empty
  pools : platform.db.pools = .empty
  lpShares : platform.db.lpShares = .empty
  settled : platform.settled = []

end PredictX
