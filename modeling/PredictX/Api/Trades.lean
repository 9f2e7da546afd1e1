import PredictX.Data.Paging
import PredictX.Models

namespace PredictX.Trades

open PredictX.Data

/-! The two trade feeds and their cursor.

Both foreign keys of a trade and its `executed_at` are `NOT NULL`, so a row stands here with the
market and the name of the user that it is joined with.  Ids, amounts and times are left as they
are before they are written out as text.  What the routes demand of `page`, `page_size` and the
length of a cursor has been checked before.
-/

structure FeedMarket where
  id : MarketId
  slug : String
  question : String
deriving DecidableEq, Repr

structure FeedTrade where
  id : ℕ
  market : FeedMarket
  outcome : String
  side : String
  price : ℚ
  amount : ℚ
  executedAt : Timestamp
  username : String
deriving DecidableEq, Repr

/-- An entry of `trades` in an answer. -/
structure TradeItem where
  id : ℕ
  marketId : MarketId
  marketSlug : String
  marketQuestion : String
  outcome : String
  side : String
  price : ℚ
  amount : ℚ
  executedAt : Timestamp
  username : String
deriving DecidableEq, Repr

structure TradePage where
  trades : List TradeItem
  page : ℕ
  pageSize : ℕ
  nextCursor : Option (List Char)
  hasMore : Bool
deriving DecidableEq, Repr

inductive Refusal where
  | invalidCursor
  | paginationLimit
  | marketNotFound
deriving DecidableEq, Repr

/-! # The cursor -/

/-- The texts of times and ids, and base64. -/
structure CursorCodec where
  isoformat : Timestamp → List Char
  fromIsoformat : List Char → Option Timestamp
  uuidText : ℕ → List Char
  parseUuid : List Char → Option ℕ
  b64encode : List Char → List Char
  b64decode : List Char → Option (List Char)
  fromIsoformat_isoformat : ∀ time, fromIsoformat (isoformat time) = some time
  parseUuid_uuidText : ∀ id, parseUuid (uuidText id) = some id
  /-- Hexadecimal digits and hyphens. -/
  uuidText_plain : ∀ id, '|' ∉ uuidText id
  b64decode_b64encode : ∀ text, b64decode (b64encode text) = some text
  b64encode_nil : ∀ text, b64encode text = [] → text = []

variable (codec : CursorCodec)

def encodeCursor (executedAt : Timestamp) (tradeId : ℕ) : List Char :=
  codec.b64encode (codec.isoformat executedAt ++ '|' :: codec.uuidText tradeId)

/-- `raw.rsplit("|", 1)`; `none` where there is no bar. -/
def rsplitBar : List Char → Option (List Char × List Char)
  | [] => none
  | char :: rest =>
      match rsplitBar rest with
      | some (front, back) => some (char :: front, back)
      | none => if char = '|' then some ([], rest) else none

def decodeCursor (cursor : List Char) : Except Refusal (Timestamp × ℕ) :=
  match codec.b64decode cursor with
  | none => .error .invalidCursor
  | some raw =>
      match rsplitBar raw with
      | none => .error .invalidCursor
      | some (time, tradeId) =>
          match codec.fromIsoformat time, codec.parseUuid tradeId with
          | some executedAt, some id => .ok (executedAt, id)
          | _, _ => .error .invalidCursor

/-- The keyset filter: `executed_at` alone is not unique. -/
def isBelow (time : Timestamp) (tradeId : ℕ) (trade : FeedTrade) : Bool :=
  trade.executedAt < time || trade.executedAt = time && trade.id < tradeId

/-- `_cursor_filter` on the rows of the query. -/
def cursorFilter (rows : List FeedTrade) (cursor : List Char) : Except Refusal (List FeedTrade) :=
  if cursor = [] then .ok rows
  else do
    let (time, tradeId) ← decodeCursor codec cursor
    return rows.filter (isBelow time tradeId)

/-! # The feeds -/

/-- What the feeds are ordered by. -/
def FeedTrade.key (trade : FeedTrade) : Timestamp ×ₗ ℕ := toLex (trade.executedAt, trade.id)

/-- `order_by(Trade.executed_at.desc(), Trade.id.desc())`. -/
def newestFirst (rows : List FeedTrade) : List FeedTrade :=
  rows.insertionSort fun left right => right.key ≤ left.key

/-- The answer from the rows of the query, of which there is one more than the page holds. -/
def pageOf (item : FeedTrade → TradeItem) (page pageSize : ℕ) (queried : List FeedTrade) :
    TradePage :=
  let hasMore := pageSize < queried.length
  let rows := queried.take pageSize
  { trades := rows.map item
    page := page
    pageSize := pageSize
    nextCursor :=
      if hasMore then rows.getLast?.map fun last => encodeCursor codec last.executedAt last.id
      else none
    hasMore := hasMore }

def itemOf (market : FeedMarket) (slug : String) (trade : FeedTrade) : TradeItem :=
  { id := trade.id
    marketId := trade.market.id
    marketSlug := slug
    marketQuestion := market.question
    outcome := trade.outcome
    side := trade.side
    price := trade.price
    amount := trade.amount
    executedAt := trade.executedAt
    username := trade.username }

/-- In the global feed a trade shows the market that it is joined with. -/
def feedItem (trade : FeedTrade) : TradeItem := itemOf trade.market trade.market.slug trade

/-- `if market_slug: query.where(Market.slug == market_slug)`. -/
def inFeed (marketSlug : Option String) (trade : FeedTrade) : Bool :=
  match marketSlug with
  | none => true
  | some slug => slug = "" || trade.market.slug = slug

/-- `list_trades`.  An empty cursor is no cursor to the filter, but it overrides the page. -/
def listTrades (trades : List FeedTrade) (page pageSize : ℕ) (marketSlug : Option String)
    (cursor : Option (List Char)) : Except Refusal TradePage :=
  let offset := (page - 1) * pageSize
  if cursor = none ∧ 1000 < offset then .error .paginationLimit
  else do
    let matching := trades.filter (inFeed marketSlug)
    let rows ← match cursor with
      | some cursor => (cursorFilter codec matching cursor).map newestFirst
      | none => .ok ((newestFirst matching).drop offset)
    return pageOf codec feedItem page pageSize (rows.take (pageSize + 1))

/-- `list_market_trades`.  An empty cursor is no cursor, and deep offsets are allowed. -/
def listMarketTrades (markets : List FeedMarket) (trades : List FeedTrade) (slug : String)
    (page pageSize : ℕ) (cursor : Option (List Char)) : Except Refusal TradePage :=
  match markets.find? fun market => market.slug = slug with
  | none => .error .marketNotFound
  | some market => do
      let matching := trades.filter fun trade => trade.market.id = market.id
      let rows ← match cursor with
        | some (char :: rest) =>
            (cursorFilter codec matching (char :: rest)).map newestFirst
        | _ => .ok ((newestFirst matching).drop ((page - 1) * pageSize))
      return pageOf codec (itemOf market slug) page pageSize (rows.take (pageSize + 1))

end PredictX.Trades
