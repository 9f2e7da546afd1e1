import PredictX.Data.Bulk
import PredictX.Data.Rounding
import PredictX.Models

namespace PredictX.AlertEngine

open PredictX.Data

/-! The trigger index of price alerts, for one market.

Redis keeps a sorted set for each tracked side and condition, and `Postgres` the rows.  A
sorted set is a list of members with their scores; nothing depends on its order.  Scores and
prices are binary doubles, so a trigger price is compared as `float(trigger_price)`.
-/

abbrev AlertId := ℕ

inductive TrackedSide where
  | yes
  | no
deriving DecidableEq, Repr

inductive Condition where
  | above
  | below
deriving DecidableEq, Repr

structure Alert where
  id : AlertId
  userId : UserId
  marketId : MarketId
  outcome : Option String
  condition : Condition
  triggerPrice : ℚ
  triggered : Bool
deriving DecidableEq, Repr

/-- `_tracked_side`. -/
def trackedSide (outcome : Option String) : TrackedSide :=
  if outcome = some "no" then .no else .yes

/-- `_zset_key`, for the market at hand. -/
structure Slot where
  side : TrackedSide
  condition : Condition
deriving DecidableEq, Repr

def Alert.slot (alert : Alert) : Slot := ⟨trackedSide alert.outcome, alert.condition⟩

/-- `float(trigger_price)`. -/
def Alert.score (alert : Alert) : ℚ := roundSig 2 53 alert.triggerPrice

/-- The prices of a `check_price_alerts` run. -/
structure Prices where
  yes : ℚ
  no : ℚ
deriving DecidableEq, Repr

def Prices.on (prices : Prices) : TrackedSide → ℚ
  | .yes => prices.yes
  | .no => prices.no

/-- The range the claim script asks for. -/
def isDue (prices : Prices) (slot : Slot) (score : ℚ) : Bool :=
  match slot.condition with
  | .above => score ≤ prices.on slot.side
  | .below => prices.on slot.side ≤ score

/-- The price meets the alert's condition on its tracked side. -/
def Alert.Due (prices : Prices) (alert : Alert) : Prop :=
  isDue prices alert.slot alert.score = true

instance (prices : Prices) (alert : Alert) : Decidable (alert.Due prices) :=
  inferInstanceAs (Decidable (_ = true))

structure Member where
  id : AlertId
  score : ℚ
deriving DecidableEq, Repr

/-- The sorted sets of the market. -/
abbrev Index := Slot → List Member

def Index.empty : Index := fun _ => []

/-- `ZADD` of the alert under its own key. -/
def Index.add (index : Index) (alert : Alert) : Index :=
  Function.update index alert.slot
    (⟨alert.id, alert.score⟩ :: (index alert.slot).filter fun member => member.id ≠ alert.id)

/-- `ZREM`, as `deindex_alert` does it. -/
def Index.remove (index : Index) (alert : Alert) : Index :=
  Function.update index alert.slot
    ((index alert.slot).filter fun member => member.id ≠ alert.id)

/-- `CLAIM_SCRIPT` on one sorted set: what is due leaves it. -/
def Index.claim (prices : Prices) (slot : Slot) (index : Index) : List AlertId × Index :=
  (((index slot).filter fun member => isDue prices slot member.score).map Member.id,
    Function.update index slot
      ((index slot).filter fun member => ¬ isDue prices slot member.score))

/-- The four sets, in the order they are claimed. -/
def slots : List Slot := [⟨.yes, .above⟩, ⟨.yes, .below⟩, ⟨.no, .above⟩, ⟨.no, .below⟩]

/-- `claim_due_alerts`. -/
def claimDueAlerts (prices : Prices) (index : Index) : List AlertId × Index :=
  slots.foldl (fun claims slot =>
    let (members, rest) := claims.2.claim prices slot
    (claims.1 ++ members, rest)) ([], index)

/-- The rows `reindex_market_alerts` selects. -/
def untriggered (market : MarketId) (alerts : Table Alert.id) : List Alert :=
  alerts.rows.filter fun alert => alert.marketId = market && !alert.triggered

/-- The pipeline of `reindex_market_alerts`. -/
def Index.addAll (index : Index) (alerts : List Alert) : Index := alerts.foldl Index.add index

/-- `reindex_market_alerts`. -/
def reindexMarketAlerts (market : MarketId) (alerts : Table Alert.id) (index : Index) :
    ℕ × Index :=
  ((untriggered market alerts).length, index.addAll (untriggered market alerts))

/-- The `WHERE` of the guarded update. -/
def Alert.flips (ids : List AlertId) (alert : Alert) : Bool :=
  decide (alert.id ∈ ids) && !alert.triggered

def Alert.flip (ids : List AlertId) (alert : Alert) : Alert :=
  if alert.flips ids then { alert with triggered := true } else alert

/-- `mark_triggered`: the rows this worker won, and the table. -/
def markTriggered (ids : List AlertId) (alerts : Table Alert.id) :
    List Alert × Table Alert.id :=
  (alerts.rows.filter (Alert.flips ids),
    alerts.updateAll (Alert.flip ids) fun alert => by unfold Alert.flip; split <;> rfl)

structure Checked where
  alerts : Table Alert.id
  index : Index
  /-- The alerts whose owners are notified. -/
  notified : List Alert

/-- From the claimed ids on. -/
def flipClaimed (alerts : Table Alert.id) (claimed : List AlertId) (index : Index) : Checked :=
  if claimed = [] then ⟨alerts, index, []⟩
  else ⟨(markTriggered claimed alerts).2, index, (markTriggered claimed alerts).1⟩

/-- `check_price_alerts`, when nothing raises and nobody interferes. -/
def checkPriceAlerts (market : MarketId) (prices : Prices) (alerts : Table Alert.id)
    (index : Index) : Checked :=
  let (claimed, rest) := claimDueAlerts prices index
  if claimed = [] then
    let (reindexed, repaired) := reindexMarketAlerts market alerts rest
    if reindexed = 0 then ⟨alerts, repaired, []⟩
    else flipClaimed alerts (claimDueAlerts prices repaired).1 (claimDueAlerts prices repaired).2
  else flipClaimed alerts claimed rest

end PredictX.AlertEngine
