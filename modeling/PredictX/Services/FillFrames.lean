import PredictX.Data.Dict
import PredictX.Services.OrderService

namespace PredictX.OrderService

open PredictX.Data PredictX.MatchingEngine

/-! `_notify_fill_participants`: the `order:fill` frames after an order.

The frames leave in the order of the dict.  The position frames, the stored notifications, the
slug of the market and the conversions to `float` are left out, and publishing does not fail.
-/

inductive Role where
  | taker
  | maker
deriving DecidableEq, Repr

/-- An entry of `participants`. -/
structure Participant where
  shares : ℚ
  price : ℚ
  orderIds : List OrderId
  side : Side
  role : Role
  status : ResultStatus
deriving DecidableEq, Repr

structure FillFrame where
  userId : UserId
  orderId : Option OrderId
  orderIds : List OrderId
  marketId : MarketId
  status : ResultStatus
  side : Side
  shares : ℚ
  price : ℚ
  role : Role
deriving DecidableEq, Repr

/-- The arguments of a call. -/
structure FillNotice where
  marketId : MarketId
  takerUser : UserId
  orderId : OrderId
  side : Side
  matchDetails : List MatchDetails
  takerShares : ℚ
  takerPrice : ℚ
  status : ResultStatus
deriving DecidableEq, Repr

/-- The loop's body: a maker's details are added up. -/
def addMaker (notice : FillNotice) (participants : Dict UserId Participant)
    (details : MatchDetails) : Dict UserId Participant :=
  if details.skipped then participants
  else if details.makerUserId = notice.takerUser then participants
  else
    let entry := (participants.get? details.makerUserId).getD
      ⟨0, 0, [], details.side, .maker, notice.status⟩
    participants.set details.makerUserId
      { entry with
        shares := entry.shares + details.matchShares
        price := entry.price + details.matchUsdc
        orderIds := entry.orderIds ++ [details.makerOrderId] }

def participants (notice : FillNotice) : Dict UserId Participant :=
  notice.matchDetails.foldl (addMaker notice)
    (Dict.set .empty notice.takerUser
      ⟨notice.takerShares, notice.takerPrice, [notice.orderId], notice.side, .taker,
        notice.status⟩)

def frameOf (notice : FillNotice) (participant : UserId × Participant) : Option FillFrame :=
  let entry := participant.2
  if entry.shares ≤ 0 then none
  else
    some
      { userId := participant.1
        orderId := entry.orderIds.head?
        orderIds := entry.orderIds
        marketId := notice.marketId
        status := entry.status
        side := entry.side
        shares := entry.shares
        price := entry.price / entry.shares
        role := entry.role }

def notifyFillParticipants (notice : FillNotice) : List FillFrame :=
  (participants notice).rows.filterMap (frameOf notice)

/-- The totals that `execute_order` keeps of the book. -/
def Execution.book (execution : Execution) : BookFill :=
  execution.matchDetails.foldl BookFill.add .empty

/-- What `execute_order` notifies: a fill, and a match before the order rests. -/
def fillNotice (user : UserId) (data : OrderRequest) (execution : Execution) : Option FillNotice :=
  let book := execution.book
  let fill : Fill := ⟨book, execution.ammLeg⟩
  let notice : FillNotice :=
    { marketId := data.marketId
      takerUser := user
      orderId := execution.result.orderId
      side := data.side
      matchDetails := execution.matchDetails
      takerShares := fill.totalShares
      takerPrice := fill.averagePrice
      status := execution.result.status }
  match execution.result.status with
  | .filled => some notice
  | .partiallyFilled =>
      some { notice with
        takerShares := book.matchedShares
        takerPrice := if 0 < book.matchedShares then book.matchedUsdc / book.matchedShares else 0 }
  | .pending | .duplicate => none

/-- The `order:fill` frames of a call. -/
def fillFrames (user : UserId) (data : OrderRequest) (execution : Execution) : List FillFrame :=
  ((fillNotice user data execution).map notifyFillParticipants).getD []

end PredictX.OrderService
