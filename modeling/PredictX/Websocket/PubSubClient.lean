import Mathlib.Data.Finset.Basic
import Mathlib.Logic.Function.Basic

namespace PredictX.PubSubClient

/-! `RedisPubSub`: the channels that a node wants, those it believes to have, and those that the
client in use has.

A step ends where a method waits: for the lock of `_sync_channels`, for Redis to take a SUBSCRIBE
or an UNSUBSCRIBE, or for the connection to be made.  The calls at the lock are all alike, so that
they are only counted.  A command that fails leaves the client's channels as they are.  The node
starts with the client that the application connects before it serves; what the listener does with
messages, the publish queue and `close` are left out.
-/

abbrev Channel := String
abbrev Client := ℕ

inductive Stage where
  | subscribing
  | unsubscribing
deriving DecidableEq, Repr

/-- A `_sync_channels` that holds the lock and waits for an answer. -/
structure Pass where
  stage : Stage
  /-- The client that the command was given to. -/
  client : Client
  /-- `want`, from when the lock was taken. -/
  want : Finset Channel
  current : Channel
  rest : List Channel
deriving DecidableEq

inductive Listener where
  /-- In the loop of `listen`. -/
  | listening
  /-- In `_reconnect`, at the connection, at the lock and at the replay. -/
  | connecting
  | joining
  | replaying (client : Client) (wanted : Finset Channel)
deriving DecidableEq

structure RedisPubSub where
  /-- `_refs`. -/
  refs : Channel → ℕ
  /-- `_pubsub`. -/
  client : Option Client
  /-- `_subscribed`. -/
  subscribed : Finset Channel
  /-- What each client is subscribed to. -/
  held : Client → Finset Channel
  /-- How many calls of `_sync_channels` wait for the lock. -/
  waiting : ℕ
  /-- The one that has it. -/
  holder : Option Pass
  listener : Listener
  /-- How many clients have been made. -/
  made : ℕ

namespace RedisPubSub

/-- After the `connect` of the application's start. -/
def connected : RedisPubSub where
  refs := fun _ => 0
  client := some 0
  subscribed := ∅
  held := fun _ => ∅
  waiting := 0
  holder := none
  listener := .listening
  made := 1

/-- `_acquire` up to the lock. -/
def acquire (pubsub : RedisPubSub) (channels : List Channel) : RedisPubSub :=
  { pubsub with
    refs := channels.foldl (fun refs channel =>
      Function.update refs channel (refs channel + 1)) pubsub.refs
    waiting := pubsub.waiting + 1 }

/-- `_release` up to the lock; a count that falls below one is removed. -/
def release (pubsub : RedisPubSub) (channels : List Channel) : RedisPubSub :=
  { pubsub with
    refs := channels.foldl (fun refs channel =>
      Function.update refs channel (refs channel - 1)) pubsub.refs
    waiting := pubsub.waiting + 1 }

/-- The second loop of `_sync_channels`; without a client every command fails at once. -/
def unsubscribeNext (pubsub : RedisPubSub) (want : Finset Channel) : List Channel → RedisPubSub
  | [] => { pubsub with holder := none }
  | current :: rest =>
      { pubsub with
        holder := pubsub.client.map fun client => ⟨.unsubscribing, client, want, current, rest⟩ }

/-- The first loop of `_sync_channels`; `stale` is for the second one. -/
def subscribeNext (pubsub : RedisPubSub) (want : Finset Channel) (stale : List Channel) :
    List Channel → RedisPubSub
  | [] => pubsub.unsubscribeNext want stale
  | current :: rest =>
      { pubsub with
        holder := pubsub.client.map fun client => ⟨.subscribing, client, want, current, rest⟩ }

/-- Redis has taken the SUBSCRIBE of the pass. -/
def subscribe (pubsub : RedisPubSub) (pass : Pass) : RedisPubSub :=
  { pubsub with
    held := Function.update pubsub.held pass.client
      (insert pass.current (pubsub.held pass.client))
    subscribed := insert pass.current pubsub.subscribed }

/-- Redis has taken the UNSUBSCRIBE of the pass. -/
def unsubscribe (pubsub : RedisPubSub) (pass : Pass) : RedisPubSub :=
  { pubsub with
    held := Function.update pubsub.held pass.client
      ((pubsub.held pass.client).erase pass.current)
    subscribed := pubsub.subscribed.erase pass.current }

/-- `_drop_pubsub`. -/
def drop (pubsub : RedisPubSub) : RedisPubSub :=
  { pubsub with client := none, subscribed := ∅ }

/-- Nobody has the lock. -/
def Free (pubsub : RedisPubSub) : Prop :=
  pubsub.holder = none ∧ ∀ client wanted, pubsub.listener ≠ .replaying client wanted

/-- `_wanted()`. -/
def Wants (pubsub : RedisPubSub) (want : Finset Channel) : Prop :=
  ∀ channel, channel ∈ want ↔ 0 < pubsub.refs channel

end RedisPubSub

/-- The channels of a set, in an order of their own. -/
def Iterates (order : List Channel) (set : Finset Channel) : Prop :=
  order.Nodup ∧ order.toFinset = set

instance (order : List Channel) (set : Finset Channel) : Decidable (Iterates order set) :=
  inferInstanceAs (Decidable (_ ∧ _))

inductive Action where
  | acquire (channels : List Channel)
  | release (channels : List Channel)
  /-- A `_sync_channels` takes the lock. -/
  | enter
  /-- The pass hears from Redis. -/
  | answer (taken : Bool)
  /-- `get_message` fails. -/
  | lose
  | reconnect
  | connect (reached : Bool)
  /-- `_reconnect` takes the lock. -/
  | join
  /-- The replay hears from Redis. -/
  | replayed (taken : Bool)
deriving DecidableEq, Repr

inductive Moves (pubsub : RedisPubSub) : Action → RedisPubSub → Prop
  | acquire (channels : List Channel) : Moves pubsub (.acquire channels) (pubsub.acquire channels)
  | release (channels : List Channel) : Moves pubsub (.release channels) (pubsub.release channels)
  | enter {waiting : ℕ} {client : Client} {want : Finset Channel} {order stale : List Channel}
      (waits : pubsub.waiting = waiting + 1) (free : pubsub.Free)
      (live : pubsub.client = some client) (wants : pubsub.Wants want)
      (missing : Iterates order (want \ pubsub.subscribed))
      (unwanted : Iterates stale (pubsub.subscribed \ want)) :
      Moves pubsub .enter ({ pubsub with waiting }.subscribeNext want stale order)
  /-- There is no client to talk to. -/
  | skip {waiting : ℕ} (waits : pubsub.waiting = waiting + 1) (free : pubsub.Free)
      (dropped : pubsub.client = none) : Moves pubsub .enter { pubsub with waiting }
  | subscribed {pass : Pass} {stale : List Channel} (holds : pubsub.holder = some pass)
      (stage : pass.stage = .subscribing)
      (unwanted : Iterates stale ((pubsub.subscribe pass).subscribed \ pass.want)) :
      Moves pubsub (.answer true)
        ((pubsub.subscribe pass).subscribeNext pass.want stale pass.rest)
  | refused {pass : Pass} {stale : List Channel} (holds : pubsub.holder = some pass)
      (stage : pass.stage = .subscribing)
      (unwanted : Iterates stale (pubsub.subscribed \ pass.want)) :
      Moves pubsub (.answer false) (pubsub.subscribeNext pass.want stale pass.rest)
  | unsubscribed {pass : Pass} (holds : pubsub.holder = some pass)
      (stage : pass.stage = .unsubscribing) :
      Moves pubsub (.answer true) ((pubsub.unsubscribe pass).unsubscribeNext pass.want pass.rest)
  | kept {pass : Pass} (holds : pubsub.holder = some pass) (stage : pass.stage = .unsubscribing) :
      Moves pubsub (.answer false) (pubsub.unsubscribeNext pass.want pass.rest)
  | lose {client : Client} (listens : pubsub.listener = .listening)
      (live : pubsub.client = some client) : Moves pubsub .lose pubsub.drop
  | reconnect (listens : pubsub.listener = .listening) (dropped : pubsub.client = none) :
      Moves pubsub .reconnect { pubsub with listener := .connecting }
  | connect (connects : pubsub.listener = .connecting) :
      Moves pubsub (.connect true)
        { pubsub with client := some pubsub.made, made := pubsub.made + 1, listener := .joining }
  | unreachable (connects : pubsub.listener = .connecting) :
      Moves pubsub (.connect false) { pubsub with listener := .listening }
  | replay {client : Client} {want : Finset Channel} (joins : pubsub.listener = .joining)
      (free : pubsub.holder = none) (live : pubsub.client = some client)
      (wants : pubsub.Wants want) (wanted : want.Nonempty) :
      Moves pubsub .join { pubsub with subscribed := ∅, listener := .replaying client want }
  | nothing {client : Client} (joins : pubsub.listener = .joining) (free : pubsub.holder = none)
      (live : pubsub.client = some client) (wants : pubsub.Wants ∅) :
      Moves pubsub .join { pubsub with subscribed := ∅, listener := .listening }
  | replayed {client : Client} {want : Finset Channel}
      (replays : pubsub.listener = .replaying client want) :
      Moves pubsub (.replayed true)
        { pubsub with
          held := Function.update pubsub.held client (pubsub.held client ∪ want)
          subscribed := want
          listener := .listening }
  | unreplayed {client : Client} {want : Finset Channel}
      (replays : pubsub.listener = .replaying client want) :
      Moves pubsub (.replayed false) { pubsub with listener := .listening }

end PredictX.PubSubClient
