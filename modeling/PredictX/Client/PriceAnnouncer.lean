import PredictX.Client.JavaScript

namespace PredictX.PriceAnnouncer

open PredictX.Data PredictX.JavaScript

/-! The announcer of live prices and the frames that a market's page hands it.

Prices are finite, as the page sees to it.  The region that is read aloud and the timer that
flushes are left out: a flush may come at any time.
-/

structure PriceChange where
  marketId : String
  outcome : String
  /-- `from`; `none` is what an inherited member of a record leaves there, which is no number. -/
  fromPrice : Option ℚ
  /-- `to`. -/
  toPrice : ℚ
  /-- `at`, in milliseconds. -/
  atMs : ℕ
deriving DecidableEq, Repr

structure AnnouncerState where
  announced : Dict String ℚ
  pending : Dict String PriceChange

def emptyState : AnnouncerState := ⟨.empty, .empty⟩

/-- `state.announced[marketId]`, where there is something. -/
def announcedPrice (announced : Dict String ℚ) (marketId : String) : Option (Option ℚ) :=
  match announced.get? marketId with
  | some price => some (some price)
  | none => if marketId ∈ objectMembers then some none else none

/-- `existing?.from ?? state.announced[change.marketId] ?? change.from`. -/
def baseline (state : AnnouncerState) (change : PriceChange) : Option ℚ :=
  match state.pending.get? change.marketId with
  | some existing => existing.fromPrice
  | none => (announcedPrice state.announced change.marketId).getD change.fromPrice

def stagePriceChange (state : AnnouncerState) (change : PriceChange) : AnnouncerState where
  announced := state.announced
  pending :=
    state.pending.set change.marketId { change with fromPrice := baseline state change }

/-! # Significance and wording -/

/-- `Math.round(price * 100)` of the exact product, which binary64 may put just below a half. -/
def displayedPercent (price : ℚ) : ℤ := ⌊price * 100 + 1 / 2⌋

/-- The default rule, which compares what is displayed. -/
def isSignificant (fromPrice : Option ℚ) (toPrice : ℚ) : Bool :=
  match fromPrice with
  | none => false
  | some price => price ≠ toPrice && displayedPercent price ≠ displayedPercent toPrice

def formatPriceChange (change : PriceChange) : String :=
  let now := displayedPercent change.toPrice
  match change.fromPrice.map displayedPercent with
  | none => change.outcome ++ " " ++ toString now ++ "%, down from NaN%"
  | some before =>
      if before = now then change.outcome ++ " " ++ toString now ++ "%"
      else
        let direction := if before < now then "up from" else "down from"
        change.outcome ++ " " ++ toString now ++ "%, " ++ direction ++ " " ++ toString before ++ "%"

/-! # The flush -/

/-- A zero delta is never announced, whatever the rule says. -/
def isSpoken (rule : Option ℚ → ℚ → Bool) (change : PriceChange) : Bool :=
  change.fromPrice ≠ some change.toPrice && rule change.fromPrice change.toPrice

/-- The changes that a flush puts into words. -/
def spoken (rule : Option ℚ → ℚ → Bool) (state : AnnouncerState) : List (String × PriceChange) :=
  state.pending.rows.filter fun entry => isSpoken rule entry.2

structure FlushResult where
  state : AnnouncerState
  messages : List String

def flushAnnouncements (rule : Option ℚ → ℚ → Bool) (state : AnnouncerState) : FlushResult where
  state :=
    { announced := (spoken rule state).foldl
        (fun announced entry => announced.set entry.1 entry.2.toPrice) state.announced
      pending := .empty }
  messages := (spoken rule state).map fun entry => formatPriceChange entry.2

/-! # The page -/

/-- What a price frame carries for the announcer; the entries of `outcome_prices`, where it has
any. -/
structure PriceFrame where
  outcomePrices : Option (List (String × Value))
  yesPrice : Value
deriving DecidableEq, Repr

/-- `from` is deliberately the new price. -/
def pageChange (marketId outcome : String) (price : ℚ) (now : ℕ) : PriceChange :=
  ⟨marketId, outcome, some price, price, now⟩

/-- The `announcePrice` calls for one frame. -/
def announcePrices (slug yesOutcomeName : String) (frame : PriceFrame) (now : ℕ) :
    List PriceChange :=
  match frame.outcomePrices with
  | some entries => entries.filterMap fun entry =>
      entry.2.finite?.map fun price => pageChange (slug ++ ":" ++ entry.1) entry.1 price now
  | none =>
      (frame.yesPrice.finite?.map fun price => pageChange slug yesOutcomeName price now).toList

end PredictX.PriceAnnouncer
