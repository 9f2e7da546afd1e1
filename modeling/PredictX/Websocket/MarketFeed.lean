import PredictX.Websocket.PublishQueue

namespace PredictX.MarketFeed

open PredictX.PublishQueue

/-! What the publishers of `RedisPubSub` hand to the dispatcher, and what it does in Redis.

A market's frames are numbered when they are published, by the script that publishes them.  The
time to live of the cached price is left out, and so are the frames' other contents.
-/

/-- A market id as the sockets know it: any text. -/
abbrev MarketKey := String

/-- A coroutine that a publisher puts in the queue; `π` is what a price frame carries. -/
inductive Publication (π : Type) where
  | price (market : MarketKey) (prices : π)
  | event (market : MarketKey) (eventType : String)
  /-- A frame on another channel. -/
  | elsewhere
deriving DecidableEq, Repr

/-- A frame on a market's events channel. -/
structure Stamped (π : Type) where
  market : MarketKey
  seq : ℕ
  prices : Option π
deriving DecidableEq, Repr

structure Redis (π : Type) where
  /-- `market:{id}:price`. -/
  price : MarketKey → Option π
  /-- The counter that the script increments. -/
  seq : MarketKey → ℕ
  published : List (Stamped π)

def Redis.empty {π : Type} : Redis π := ⟨fun _ => none, fun _ => 0, []⟩

/-- `_SEQ_AND_PUBLISH_LUA`. -/
def Redis.seqAndPublish {π : Type} (redis : Redis π) (market : MarketKey) (prices : Option π) :
    Redis π :=
  let seq := redis.seq market + 1
  { redis with
    seq := Function.update redis.seq market seq
    published := redis.published ++ [⟨market, seq, prices⟩] }

/-- What a publication does; the commands of a price update are one transaction. -/
def Publication.apply {π : Type} : Publication π → Redis π → Redis π
  | .price market prices, redis =>
      let cached := { redis with price := Function.update redis.price market (some prices) }
      cached.seqAndPublish market (some prices)
  | .event market _, redis => redis.seqAndPublish market none
  | .elsewhere, redis => redis

/-- The publishers. -/
inductive Call (π : Type) where
  | publishPriceUpdate (market : MarketKey) (prices : π)
  | publishMarketEvent (market : MarketKey) (eventType : String)
  | publishOrderFill (user : UserId)
  | publishNotification (user : UserId)
  | publishUserEvent (user : UserId) (type : String)
  | publishGlobalTrade
deriving DecidableEq, Repr

/-- What a publisher passes to `enqueue`. -/
def Call.pending {π : Type} : Call π → Pending (Publication π)
  | .publishPriceUpdate market prices => pendingOf (.price market prices) "price_update" none
  | .publishMarketEvent market eventType => pendingOf (.event market eventType) eventType none
  | .publishOrderFill user => pendingOf .elsewhere "order:fill" (some user)
  | .publishNotification user => pendingOf .elsewhere "notification" (some user)
  | .publishUserEvent user type => pendingOf .elsewhere type (some user)
  | .publishGlobalTrade => pendingOf .elsewhere "trade:new" none

/-- The frames of a market, in the order they were published. -/
def Redis.frames {π : Type} (redis : Redis π) (market : MarketKey) : List (Stamped π) :=
  redis.published.filter fun frame => frame.market = market

section Frames

variable {π : Type} {redis : Redis π} {market : MarketKey}

theorem frames_seqAndPublish (other : MarketKey) (prices : Option π) :
    (redis.seqAndPublish other prices).frames market =
      redis.frames market ++
        if other = market then [⟨market, redis.seq market + 1, prices⟩] else [] := by
  unfold Redis.frames Redis.seqAndPublish
  by_cases same : other = market
  · subst same
    simp
  · simp [same]

/-- The frames of a market are numbered from one on, without a hole. -/
def Redis.Numbered (redis : Redis π) : Prop :=
  ∀ market, (redis.frames market).map Stamped.seq = List.range' 1 (redis.seq market)

theorem Redis.Numbered.seqAndPublish (numbered : redis.Numbered) (market : MarketKey)
    (prices : Option π) : (redis.seqAndPublish market prices).Numbered := by
  intro other
  rw [frames_seqAndPublish]
  by_cases same : market = other
  · subst same
    have counted : (redis.seqAndPublish market prices).seq market = redis.seq market + 1 := by
      simp [Redis.seqAndPublish]
    rw [counted, List.range'_1_concat, ← numbered market]
    simp [Nat.add_comm]
  · simp [same, numbered other, Redis.seqAndPublish, Ne.symm same]

theorem Redis.Numbered.apply (numbered : redis.Numbered) (publication : Publication π) :
    (publication.apply redis).Numbered := by
  cases publication with
  | price market prices => exact Redis.Numbered.seqAndPublish (fun other => numbered other) _ _
  | event market eventType => exact numbered.seqAndPublish _ _
  | elsewhere => exact numbered

theorem numbered_step {limits : Limits} {floor after : Floor (Publication π) (Redis π)}
    {action : Action (Publication π)} (moves : Moves limits Publication.apply floor action after)
    (numbered : floor.redis.Numbered) : after.redis.Numbered := by
  cases moves with
  | publish sending => exact numbered.apply _
  | @fail _ _ applied sending =>
      cases applied with
      | true => exact numbered.apply _
      | false => exact numbered
  | _ => exact numbered

end Frames

end PredictX.MarketFeed
