import PredictX.Data.Dict
import PredictX.Models

namespace PredictX.MarketList

open PredictX.Data

/-! `list_markets` and the cache of its answers.

The text search, the order of markets that tie and the decoding of a cursor are the database's and
the library's; so are the prices, which a page of markets gets in one batch.
-/

/-- `STATUS_ACTIVE` and the others. -/
def statusText : MarketStatus → String
  | .active => "active"
  | .closed => "closed"
  | .resolving => "resolving"
  | .resolved => "resolved"
  | .disputeWindow => "dispute_window"
  | .pendingReview => "pending_review"
  | .rejected => "rejected"

/-- `UNPUBLISHED_STATUSES`. -/
def unpublishedStatuses : List MarketStatus := [.pendingReview, .rejected]

structure ListedMarket where
  id : MarketId
  slug : String
  question : String
  category : String
  status : MarketStatus
  totalLiquidity : ℚ
  totalVolume : ℚ
  createdAt : Timestamp
  closesAt : Option Timestamp
deriving DecidableEq, Repr

structure OutcomeResponse where
  id : OutcomeId
  name : String
  outcomeIndex : ℕ
  price : Option ℚ
deriving DecidableEq, Repr

structure MarketResponse where
  market : ListedMarket
  yesPrice : ℚ
  noPrice : ℚ
  outcomes : List OutcomeResponse
deriving DecidableEq, Repr

structure MarketListResponse where
  data : List MarketResponse
  page : ℕ
  pageSize : ℕ
  hasMore : Bool
deriving DecidableEq, Repr

/-- What the database holds, and what it makes of a search text. -/
structure Catalogue where
  markets : List ListedMarket
  prices : MarketId → ℚ × ℚ
  /-- The outcomes that a market is listed with: none unless it is parimutuel. -/
  outcomes : MarketId → List OutcomeResponse
  /-- `plainto_tsquery(q) @@ to_tsvector(question)`. -/
  isMatch : String → String → Bool
  /-- `ts_rank_cd`. -/
  relevance : String → String → ℚ

inductive SortKey where
  | volume
  | newest
  | closingSoon
  | liquidity
deriving DecidableEq, Repr

def SortKey.text : SortKey → String
  | .volume => "volume"
  | .newest => "newest"
  | .closingSoon => "closing_soon"
  | .liquidity => "liquidity"

/-- A request; an absent parameter and an empty one are treated alike. -/
structure Request where
  q : String
  category : String
  status : String
  sort : SortKey
  cursor : String
  page : ℕ
  pageSize : ℕ
  pageStarts : 1 ≤ page := by decide
  sizeBounds : 1 ≤ pageSize ∧ pageSize ≤ 100 := by decide
deriving DecidableEq, Repr

inductive Refusal where
  | statusNotPublic (status : String)
  | invalidCursor
  | paginationLimit
deriving DecidableEq, Repr

/-- The status asked for is not available on the public catalogue. -/
def isUnpublished (request : Request) : Bool :=
  request.status ∈ unpublishedStatuses.map statusText

def cacheKey (request : Request) : String :=
  if request.cursor ≠ "" then
    request.q ++ ":" ++ request.category ++ ":" ++ request.status ++ ":" ++ request.sort.text
  else
    request.q ++ ":" ++ request.category ++ ":" ++ request.status ++ ":" ++ request.sort.text ++
      ":" ++ toString request.page ++ ":" ++ toString request.pageSize

/-- The `WHERE` clauses of `base`. -/
def isListed (catalogue : Catalogue) (request : Request) (market : ListedMarket) : Bool :=
  (request.q = "" || catalogue.isMatch request.q market.question) &&
  (if request.status ≠ "" then decide (statusText market.status = request.status)
    else decide (market.status ∉ unpublishedStatuses)) &&
  (request.category = "" || market.category = request.category) &&
  (request.sort ≠ .closingSoon || market.status ≠ .resolved)

/-- `order`, as whether the one may stand before the other. -/
def SortKey.precedes (sort : SortKey) (left right : ListedMarket) : Bool :=
  match sort with
  | .closingSoon =>
      -- `nullslast`
      match left.closesAt, right.closesAt with
      | _, none => true
      | none, some _ => false
      | some leftTime, some rightTime => leftTime ≤ rightTime
  | .newest => right.createdAt ≤ left.createdAt
  | .volume | .liquidity => right.totalVolume ≤ left.totalVolume

/-- The `ORDER BY`: what was searched for by relevance first. -/
def precedes (catalogue : Catalogue) (request : Request) (left right : ListedMarket) : Bool :=
  let rank := fun market : ListedMarket =>
    if request.q = "" then 0 else catalogue.relevance request.q market.question
  rank right < rank left || rank right = rank left && request.sort.precedes left right

def ordered (catalogue : Catalogue) (request : Request) (markets : List ListedMarket) :
    List ListedMarket :=
  markets.insertionSort fun left right => precedes catalogue request left right

/-- The rows of the query: one more than the page holds. -/
def queryRows (decodeCursor : String → Option Timestamp) (catalogue : Catalogue)
    (request : Request) : Except Refusal (List ListedMarket) :=
  let base := catalogue.markets.filter (isListed catalogue request)
  let offset := (request.page - 1) * request.pageSize
  if request.cursor ≠ "" then
    match decodeCursor request.cursor with
    | none => .error .invalidCursor
    | some time =>
        .ok ((ordered catalogue request
          (base.filter fun market => market.createdAt < time)).take (request.pageSize + 1))
  else if 1000 < offset then .error .paginationLimit
  else
    .ok (((ordered catalogue request base).drop offset).take (request.pageSize + 1))

/-- `market_to_response`, with the outcomes of a parimutuel market. -/
def marketToResponse (catalogue : Catalogue) (market : ListedMarket) : MarketResponse where
  market := market
  yesPrice := (catalogue.prices market.id).1
  noPrice := (catalogue.prices market.id).2
  outcomes := catalogue.outcomes market.id

def respond (catalogue : Catalogue) (request : Request) (rows : List ListedMarket) :
    MarketListResponse where
  data := (rows.take request.pageSize).map (marketToResponse catalogue)
  page := request.page
  pageSize := request.pageSize
  hasMore := decide (request.pageSize < rows.length)

/-- `list_markets` without its cache. -/
def listFresh (decodeCursor : String → Option Timestamp) (catalogue : Catalogue)
    (request : Request) : Except Refusal MarketListResponse :=
  if isUnpublished request then .error (.statusNotPublic request.status)
  else (queryRows decodeCursor catalogue request).map (respond catalogue request)

/-- An answer under its key, until Redis drops it. -/
structure Entry where
  response : MarketListResponse
  expiresAt : Timestamp
deriving DecidableEq, Repr

abbrev Cache := Dict String Entry

/-- `cache_get_market_list`. -/
def cacheGet (cache : Cache) (now : Timestamp) (key : String) : Option MarketListResponse :=
  ((cache.get? key).filter fun entry => now < entry.expiresAt).map Entry.response

/-- `cache_set_market_list` with `ttl=60`. -/
def cacheSet (cache : Cache) (now : Timestamp) (key : String) (response : MarketListResponse) :
    Cache :=
  cache.set key ⟨response, now + 60⟩

def listMarkets (decodeCursor : String → Option Timestamp) (catalogue : Catalogue)
    (cache : Cache) (now : Timestamp) (request : Request) :
    Cache × Except Refusal MarketListResponse :=
  if isUnpublished request then (cache, .error (.statusNotPublic request.status))
  else
    match cacheGet cache now (cacheKey request) with
    | some response => (cache, .ok response)
    | none =>
        match queryRows decodeCursor catalogue request with
        | .error refusal => (cache, .error refusal)
        | .ok rows =>
            let response := respond catalogue request rows
            (cacheSet cache now (cacheKey request) response, .ok response)

end PredictX.MarketList
