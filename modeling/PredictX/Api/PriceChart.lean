import PredictX.Data.Dict
import PredictX.PriceHistory

namespace PredictX.PriceChart

open PredictX.Data

/-! `get_price_history`.

The rows come from the database in the order of `snapshot_at`, at most `rowLimit` of them.
-/

/-- `.limit(5000)`. -/
def rowLimit : ℕ := 5000

/-- `interval_seconds`. -/
def intervalSeconds (interval : String) : ℕ :=
  match interval with
  | "1m" => 60
  | "5m" => 300
  | "15m" => 900
  | "1h" => 3600
  | "4h" => 14400
  | "1d" => 86400
  | _ => 300

def bucketOf (interval : ℕ) (row : PriceHistory) : Timestamp :=
  row.snapshotAt - row.snapshotAt % interval

structure OutcomePrice where
  id : OutcomeId
  name : String
  price : ℚ
deriving DecidableEq, Repr

structure Sample where
  timestamp : Timestamp
  outcomes : List OutcomePrice
  totalVolume : ℚ
deriving DecidableEq, Repr

/-- `grouped`. -/
def grouped (interval : ℕ) (rows : List PriceHistory) : Dict Timestamp (List PriceHistory) :=
  rows.foldl (fun grouped row =>
    grouped.set (bucketOf interval row)
      ((grouped.get? (bucketOf interval row)).getD [] ++ [row])) .empty

/-- The prices of some rows, written over those of a dict. -/
def takePrices (prices : Dict OutcomeId ℚ) (rows : List PriceHistory) : Dict OutcomeId ℚ :=
  (rows.map fun row => (row.outcomeId, row.price)).foldl
    (fun prices item => prices.set item.1 item.2) prices

/-- `outcome_prices` of a bucket: its own rows' prices, and the last known of the others. -/
def shownPrices (last : Dict OutcomeId ℚ) (rows : List PriceHistory) : Dict OutcomeId ℚ :=
  last.rows.foldl (fun prices item => prices.setDefault item.1 item.2) (takePrices .empty rows)

def sampleOf (names : Dict OutcomeId String) (bucket : Timestamp) (last : Dict OutcomeId ℚ)
    (rows : List PriceHistory) : Sample where
  timestamp := bucket
  outcomes :=
    ((shownPrices last rows).rows.insertionSort fun left right =>
        (names.get? left.1).getD "" ≤ (names.get? right.1).getD "").map
      fun item => ⟨item.1, (names.get? item.1).getD "Unknown", item.2⟩
  totalVolume := (rows.map PriceHistory.totalVolume).sum

/-- The loop over the buckets; `last` is `last_prices`. -/
def samplesFrom (names : Dict OutcomeId String) (grouped : Dict Timestamp (List PriceHistory)) :
    List Timestamp → Dict OutcomeId ℚ → List Sample
  | [], _ => []
  | bucket :: rest, last =>
      let rows := (grouped.get? bucket).getD []
      let known := takePrices last rows
      sampleOf names bucket known rows :: samplesFrom names grouped rest known

/-- The samples of the rows that the query yields. -/
def chart (interval : ℕ) (names : Dict OutcomeId String) (rows : List PriceHistory) :
    List Sample :=
  let grouped := grouped interval rows
  samplesFrom names grouped ((grouped.rows.map Prod.fst).insertionSort (· ≤ ·)) .empty

/-- `get_price_history` of the rows in the requested range, in the order of `snapshot_at`. -/
def getPriceHistory (interval : String) (names : Dict OutcomeId String)
    (rows : List PriceHistory) : List Sample :=
  chart (intervalSeconds interval) names (rows.take rowLimit)

end PredictX.PriceChart
