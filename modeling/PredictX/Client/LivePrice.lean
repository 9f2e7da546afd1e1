import PredictX.Client.JavaScript

namespace PredictX.LivePrice

open PredictX.Data PredictX.JavaScript

/-! The two overlays of a price frame on a market.

`none` as a result is the market itself, the same reference.  `lower` is `toLowerCase`, and the
fields of a market and of an outcome that no overlay reads are left out.
-/

structure MarketOutcome where
  name : Option String
  price : Value
deriving DecidableEq, Repr

structure MarketPrices where
  yesPrice : Value
  noPrice : Value
  /-- `none` is no array. -/
  outcomes : Option (List MarketOutcome)
deriving DecidableEq, Repr

structure LiveFrame where
  yesPrice : Value
  noPrice : Value
  outcomePrices : Option (Dict String Value)

/-- Decimal texts of numbers: `String(number)` and `Number(text)`. -/
structure NumberText where
  write : ℚ → String
  read : String → Number
  read_write : ∀ number, read (write number) = .finite number

variable (lower : String → String)

/-- `prices[name] ?? prices[name.toLowerCase()]`, with `""` for an outcome without a name. -/
def framePrice (prices : Dict String Value) (outcome : MarketOutcome) : Value :=
  let name := outcome.name.getD ""
  (property prices name).orElse (property prices (lower name))

/-- The outcome with the frame's price, unless there is none or it is the outcome's own. -/
def repriced (prices : Dict String Value) (outcome : MarketOutcome) : Option MarketOutcome :=
  match (framePrice lower prices outcome).finite? with
  | none => none
  | some price =>
      if outcome.price = .number (.finite price) then none
      else some { outcome with price := .number (.finite price) }

/-- The array that either overlay writes, if an outcome has changed. -/
def nextOutcomes (frame : LiveFrame) (market : MarketPrices) : Option (List MarketOutcome) :=
  match frame.outcomePrices, market.outcomes with
  | some prices, some outcomes =>
      if outcomes.any fun outcome => (repriced lower prices outcome).isSome then
        some (outcomes.map fun outcome => (repriced lower prices outcome).getD outcome)
      else none
  | _, _ => none

/-- `patchMarketPrices` for the cached market: prices become texts. -/
def patchMarketPrices (text : NumberText) (prev : MarketPrices) (msg : LiveFrame) :
    Option MarketPrices :=
  let yesPrice := msg.yesPrice.finite?.map fun price => Value.text (text.write price)
  let noPrice := msg.noPrice.finite?.map fun price => Value.text (text.write price)
  let outcomes := nextOutcomes lower msg prev
  -- `Object.keys(patch).length === 0`
  if yesPrice = none ∧ noPrice = none ∧ outcomes = none then none
  else some {
    yesPrice := yesPrice.getD prev.yesPrice
    noPrice := noPrice.getD prev.noPrice
    outcomes := outcomes.or prev.outcomes }

/-- `applyLivePrices` for a card: prices stay numbers. -/
def applyLivePrices (market : MarketPrices) (live : LiveFrame) : Option MarketPrices :=
  let changed := live.yesPrice.finite?.isSome || live.noPrice.finite?.isSome
  let outcomes := nextOutcomes lower live market
  if changed || outcomes.isSome then
    some {
      yesPrice := if live.yesPrice.finite?.isSome then live.yesPrice else market.yesPrice
      noPrice := if live.noPrice.finite?.isSome then live.noPrice else market.noPrice
      outcomes := outcomes.or market.outcomes }
  else none

end PredictX.LivePrice
