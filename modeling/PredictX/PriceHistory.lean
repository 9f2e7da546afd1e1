import PredictX.Models

namespace PredictX

open Data

/-! The `price_history` table.

Rows are kept in the order in which they were written; time stamps are whole seconds.
-/

structure PriceHistory where
  marketId : MarketId
  outcomeId : OutcomeId
  price : ℚ
  totalVolume : ℚ
  snapshotAt : Timestamp
deriving DecidableEq, Repr

namespace PriceHistory

/-- `snapshot_at.replace(second=0, microsecond=0)`. -/
def minuteFloor (time : Timestamp) : Timestamp := time - time % 60

/-- The rows of the minute that `time` is in. -/
def inMinute (time : Timestamp) (row : PriceHistory) : Bool :=
  minuteFloor time ≤ row.snapshotAt && row.snapshotAt < minuteFloor time + 60

def pair (row : PriceHistory) : MarketId × OutcomeId := (row.marketId, row.outcomeId)

end PriceHistory

end PredictX
