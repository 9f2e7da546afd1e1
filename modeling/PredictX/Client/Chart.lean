import PredictX.Data.Dict

namespace PredictX.Chart

open PredictX.Data

/-! Candles from price points, in one batch and point by point.

Times and prices are exact; a `Date` holds whole milliseconds.
-/

/-- A point of the live line; `time` in seconds. -/
structure LinePoint where
  time : ℚ
  value : ℚ
deriving DecidableEq, Repr

structure Candle where
  /-- What `date.getTime()` returns; `none` is the `NaN` of an invalid date. -/
  date : Option ℤ
  /-- `open`. -/
  opening : ℚ
  high : ℚ
  low : ℚ
  close : ℚ
deriving DecidableEq, Repr

/-- The time range of a `Date`, in milliseconds to either side of the epoch. -/
def dateRange : ℚ := 8640000000000000

/-- `new Date(ms)`: the fraction of a millisecond is cut off. -/
def newDate (ms : ℚ) : Option ℤ :=
  if |ms| ≤ dateRange then some (if 0 ≤ ms then ⌊ms⌋ else ⌈ms⌉) else none

/-- `date.getTime() === ms`; a `NaN` equals nothing. -/
def hasTime (date : Option ℤ) (ms : ℚ) : Bool := date.any fun (time : ℤ) => (time : ℚ) = ms

/-- `Math.floor(time / intervalSeconds) * intervalSeconds`. -/
def bucketAt (interval time : ℚ) : ℚ := ⌊time / interval⌋ * interval

/-- The candle of one bucket. -/
def candleOf (timeMs : ℚ) (values : List ℚ) : Candle where
  date := newDate (timeMs * 1000)
  opening := values.headD 0
  high := values.foldl max (values.headD 0)
  low := values.foldl min (values.headD 0)
  close := values.getLastD 0

def priceToOHLC (history : List LinePoint) (interval : ℚ) : List Candle :=
  let buckets := Dict.group (fun point => bucketAt interval point.time) LinePoint.value history
  (buckets.rows.insertionSort fun left right => left.1 ≤ right.1).map fun entry =>
    candleOf entry.1 entry.2

def addPriceToOHLC (candles : List Candle) (price timestamp interval : ℚ) : List Candle :=
  let bucketMs := bucketAt interval timestamp * 1000
  match candles.getLast? with
  | some last =>
      if hasTime last.date bucketMs then
        candles.dropLast ++
          [{ last with high := max last.high price, low := min last.low price, close := price }]
      else candles ++ [⟨newDate bucketMs, price, price, price, price⟩]
  | none => [⟨newDate bucketMs, price, price, price, price⟩]

end PredictX.Chart
