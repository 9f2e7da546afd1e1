import PredictX.Services.OrderService

namespace PredictX.OrderService

open PredictX.Data PredictX.Amm PredictX.MarketService

/-! Quotes.

`compute_quote` prices a trade against the pool as it stands and promises the user the all-in
figure.  It resolves the outcome with a pattern match of its own; the floats of the payload are
taken for the decimals they show.
-/

/-! # The outcome's name as a pattern -/

def nameText : OutcomeName → String
  | .yes => "yes"
  | .no => "no"
  | .named label => label

/-- `LIKE` on lowered names: a backslash takes the next character literally, and a pattern that
ends in one is refused. -/
def likeChars : List Char → List Char → Bool
  | [], text => text.isEmpty
  | ['\\'], _ => false
  | '\\' :: literal :: pattern, text => text.head? = some literal && likeChars pattern text.tail
  | char :: pattern, text =>
      if char = '%' then text.tails.any (likeChars pattern)
      else if char = '_' then !text.isEmpty && likeChars pattern text.tail
      else text.head? = some char && likeChars pattern text.tail

/-- `Outcome.name.ilike(outcome_name)`. -/
def ilike (name asked : OutcomeName) : Bool :=
  likeChars (nameText asked).toList (nameText name).toList

/-- A name without an escape character matches itself. -/
theorem likeChars_self {chars : List Char} (plain : '\\' ∉ chars) : likeChars chars chars = true := by
  induction chars with
  | nil => rfl
  | cons char rest ih =>
      rw [List.mem_cons, not_or] at plain
      have later := ih plain.2
      rw [likeChars]
      · split
        · exact List.any_eq_true.mpr ⟨rest, (List.mem_tails _ _).mpr (List.suffix_cons _ _), later⟩
        · simp [later]
      · intro last _
        exact plain.1 last.symm
      · intro literal pattern escape _
        exact plain.1 escape.symm

/-! # The quote -/

inductive QuoteRefusal where
  | notFound
  | marketClosed
  | invalidOutcome
  /-- `MultipleResultsFound`. -/
  | multipleResults
  | refused (reason : Error)
deriving DecidableEq, Repr

/-- `scalar_one_or_none` of the outcomes whose name is like the one asked for. -/
def quotedOutcome (db : Database) (market : MarketId) (asked : OutcomeName) :
    Except QuoteRefusal Outcome :=
  match db.outcomes.rows.filter fun outcome =>
      outcome.marketId = market && ilike outcome.name asked with
  | [] => .error .invalidOutcome
  | [outcome] => .ok outcome
  | _ => .error .multipleResults

/-- The payload, and the shares the price is an average over. -/
structure Quote where
  quoteId : String
  userId : UserId
  marketId : MarketId
  outcome : OutcomeName
  side : Side
  amount : ℚ
  priceBefore : ℚ
  priceAfter : ℚ
  slippage : ℚ
  yesPrice : ℚ
  noPrice : ℚ
  expiresAt : Timestamp
  shares : ℚ

/-- `QUOTE_TTL`, in seconds. -/
def quoteTtl : Timestamp := 5

/-- `all_in_price`. -/
def allInPrice (priceBefore : ℚ) (result : AMMQuote) : ℚ :=
  if 0 < result.sharesOut then result.collateralIn / result.sharesOut else priceBefore

def computeQuote (now : Timestamp) (quoteId : String) (db : Database) (user : UserId)
    (marketId : MarketId) (asked : OutcomeName) (side : Side) (amount : ℚ) :
    Except QuoteRefusal Quote := do
  match db.markets.find? marketId with
  | none => .error .notFound
  | some market =>
      if market.status ≠ .active then .error .marketClosed
      else
        let outcome ← quotedOutcome db market.id asked
        let parimutuel := isParimutuel (outcomesOf db market.id)
        let pool ← (resolvePool db market.id outcome.id parimutuel).mapError .refused
        let amm :=
          if parimutuel then (buildOutcomeAmm (loadOutcomePools db market.id) outcome.id).1
          else poolAmm pool
        -- The side follows the name asked for, not the outcome found.
        let ammSide := if parimutuel then .yes else shareSide asked
        let priceBefore := amm.price ammSide
        let (after, result) ← (match side with
          | .buy => amm.buy ammSide amount
          | .sell => amm.sell ammSide amount).mapError .refused
        let priceAfter := allInPrice priceBefore result
        .ok
          { quoteId, userId := user, marketId, outcome := asked, side, amount
            priceBefore, priceAfter
            slippage := |priceAfter - priceBefore|
            yesPrice := after.yesShares
            noPrice := after.noShares
            expiresAt := now + quoteTtl
            shares := result.sharesOut }

end PredictX.OrderService
