import PredictX.Websocket.UserConnections
import PredictX.Data.Run
import Mathlib.Data.Finset.Card

namespace PredictX.UserConnections

open PredictX.Data PredictX.RedisPubSub

/-! Who holds a user's private channels.

A socket takes them when it is registered and gives them back when it is unregistered, if the two
are done together.  The route gives them back whether or not its socket is still registered, and a
failed send unregisters a socket without giving anything back.
-/

/-- As many holds as the user has sockets. -/
def Held (hub : Hub) : Prop :=
  ∀ user, ∀ channel ∈ privateChannels user, hub.refs channel = (hub.userSocks user).card

/-- The route leaves a registered socket, and a send fails on a socket that has gone. -/
def InStep (hub : Hub) : Action → Prop
  | .leave socket => (hub.wsToUser socket).isSome = true
  | .sendFailed socket => hub.wsToUser socket = none
  | _ => True

structure Consistent (hub : Hub) : Prop where
  socks : ∀ socket user, socket ∈ hub.userSocks user ↔ hub.wsToUser socket = some user
  routes : ∀ socket user, hub.wsToUser socket = some user →
    hub.routes socket = .reading user ∨ hub.routes socket = .ended user

section Steps

variable {hub after : Hub} {action : Action} {socket : Socket} {user : UserId}

/-- A channel is private to one user. -/
theorem privateChannels_ne {other : UserId} {channel : Channel} (different : other ≠ user)
    (member : channel ∈ privateChannels other) : channel ∉ privateChannels user := by
  simp only [privateChannels, Finset.mem_insert, Finset.mem_singleton] at member ⊢
  rcases member with rfl | rfl
  · simp [different]
  · simp [different]

theorem Consistent.disconnect (consistent : Consistent hub)
    (owner : ∀ other, hub.wsToUser socket = some other → other = user) :
    Consistent (hub.disconnect socket user) := by
  constructor
  · intro other holder
    by_cases same : other = socket
    · subst same
      by_cases isUser : holder = user
      · simp [Hub.disconnect, isUser]
      · have foreign : other ∉ hub.userSocks holder := by
          rw [consistent.socks]
          exact fun registered => isUser (owner holder registered)
        simp [Hub.disconnect, isUser, foreign]
    · by_cases isUser : holder = user
      · subst isUser
        simp [Hub.disconnect, same, consistent.socks]
      · simp [Hub.disconnect, same, isUser, consistent.socks]
  · intro other holder registered
    by_cases same : other = socket
    · simp [Hub.disconnect, same] at registered
    · exact consistent.routes other holder (by simpa [Hub.disconnect, same] using registered)

theorem Held.leaves (held : Held hub) (member : socket ∈ hub.userSocks user) :
    Held ((hub.disconnect socket user).unsubscribeUser user) := by
  intro other channel isPrivate
  by_cases same : other = user
  · subst same
    have card := Finset.card_erase_of_mem member
    simp [Hub.unsubscribeUser, Hub.disconnect, Refs.release, isPrivate, card,
      held other channel isPrivate]
  · have elsewhere := privateChannels_ne same isPrivate
    simp [Hub.unsubscribeUser, Hub.disconnect, Refs.release, elsewhere, same,
      held other channel isPrivate]

/-- A socket that has gone is disconnected once more. -/
theorem disconnect_gone (consistent : Consistent hub) (gone : hub.wsToUser socket = none) :
    hub.disconnect socket user = hub := by
  have absent : socket ∉ hub.userSocks user := by simp [consistent.socks, gone]
  unfold Hub.disconnect
  rw [Finset.erase_eq_of_notMem absent, Function.update_eq_self, ← gone, Function.update_eq_self]

theorem Consistent.moveTo {route : Route} (consistent : Consistent hub)
    (known : ∀ user, hub.wsToUser socket = some user → route = .reading user ∨ route = .ended user) :
    Consistent (hub.moveTo socket route) := by
  refine ⟨consistent.socks, ?_⟩
  intro other holder registered
  by_cases same : other = socket
  · subst same
    simpa [Hub.moveTo] using known holder registered
  · simpa [Hub.moveTo, same] using consistent.routes other holder registered

/-- The user of a route is the one its socket is registered to. -/
theorem Consistent.owner {other : UserId} (consistent : Consistent hub)
    (known : hub.routes socket = .reading user ∨ hub.routes socket = .ended user)
    (registered : hub.wsToUser socket = some other) : other = user := by
  rcases consistent.routes socket other registered with reading | ended
  · rw [reading] at known
    simpa using known
  · rw [ended] at known
    simpa using known

theorem Consistent.unregistered (consistent : Consistent hub)
    (connecting : hub.routes socket = .connecting) : hub.wsToUser socket = none := by
  rw [Option.eq_none_iff_forall_not_mem]
  intro user registered
  have known := consistent.routes socket user registered
  simp [connecting] at known

theorem Consistent.register (consistent : Consistent hub)
    (connecting : hub.routes socket = .connecting) :
    Consistent ((hub.register socket user).moveTo socket (.reading user)) := by
  have fresh := consistent.unregistered connecting
  constructor
  · intro other holder
    by_cases same : other = socket
    · subst same
      by_cases isUser : holder = user
      · simp [Hub.moveTo, Hub.register, isUser]
      · simp [Hub.moveTo, Hub.register, isUser, consistent.socks, fresh, Ne.symm isUser]
    · by_cases isUser : holder = user
      · subst isUser
        simp [Hub.moveTo, Hub.register, same, consistent.socks]
      · simp [Hub.moveTo, Hub.register, same, isUser, consistent.socks]
  · intro other holder registered
    by_cases same : other = socket
    · subst same
      have isUser : user = holder := by simpa [Hub.moveTo, Hub.register] using registered
      simp [Hub.moveTo, isUser]
    · have registered : hub.wsToUser other = some holder := by
        simpa [Hub.moveTo, Hub.register, same] using registered
      simpa [Hub.moveTo, Hub.register, same] using consistent.routes other holder registered

theorem consistent_step (moves : Moves hub action after) (consistent : Consistent hub) :
    Consistent after := by
  cases moves with
  | connect connecting => exact consistent.register connecting
  | @leave socket user reading =>
      have left : Consistent (hub.disconnect socket user) :=
        consistent.disconnect fun other registered => consistent.owner (.inl reading) registered
      refine Consistent.moveTo ⟨left.socks, left.routes⟩ ?_
      intro other registered
      simp [Hub.unsubscribeUser, Hub.disconnect] at registered
  | oversized reading =>
      refine consistent.moveTo fun other registered => .inr ?_
      rw [consistent.owner (.inl reading) registered]
  | sendFailed known =>
      exact consistent.disconnect fun other registered => consistent.owner known registered
  | reap owner =>
      have left := consistent.disconnect fun other registered =>
        Option.some.inj (registered.symm.trans owner)
      exact ⟨left.socks, left.routes⟩
  | spare gone => exact consistent

theorem held_step (guarded : InStep hub action) (moves : Moves hub action after)
    (consistent : Consistent hub) (held : Held hub) : Held after := by
  cases moves with
  | @connect socket user connecting =>
      have absent : socket ∉ hub.userSocks user := by
        simp [consistent.socks, consistent.unregistered connecting]
      intro other channel isPrivate
      by_cases same : other = user
      · subst same
        simp [Hub.moveTo, Hub.register, Refs.acquire, isPrivate, Finset.card_insert_of_notMem absent,
          held other channel isPrivate]
      · have elsewhere := privateChannels_ne same isPrivate
        simp [Hub.moveTo, Hub.register, Refs.acquire, elsewhere, same,
          held other channel isPrivate]
  | @leave socket user reading =>
      obtain ⟨owner, registered⟩ := Option.isSome_iff_exists.mp guarded
      obtain rfl := consistent.owner (.inl reading) registered
      exact held.leaves ((consistent.socks socket owner).mpr registered)
  | oversized reading => exact held
  | sendFailed known =>
      rw [disconnect_gone consistent guarded]
      exact held
  | @reap socket user owner => exact held.leaves ((consistent.socks socket user).mpr owner)
  | spare gone => exact held

end Steps

/-- In every run in which the routes and the sends keep in step with the registry, a user's
channels are held once for each registered socket, and are let go with the last. -/
theorem private_channels_held {actions : List Action} {hub : Hub}
    (run : Run Moves InStep .empty actions hub) (user : UserId) :
    (∀ channel ∈ privateChannels user, hub.refs channel = (hub.userSocks user).card) ∧
      ∀ socket, socket ∈ hub.userSocks user ↔ hub.wsToUser socket = some user := by
  have kept : Consistent hub ∧ Held hub := by
    refine run.invariant (fun hub => Consistent hub ∧ Held hub) ?_ ⟨?_, ?_⟩
    · intro before action after guarded moves kept
      exact ⟨consistent_step moves kept.1, held_step guarded moves kept.1 kept.2⟩
    · exact ⟨by simp [Hub.empty], by simp [Hub.empty]⟩
    · simp [Held, Hub.empty]
  exact ⟨kept.2 user, fun socket => kept.1.socks socket user⟩

/-- The heartbeat reaps one of two sockets, and then its route notices: the other socket is still
there and nothing is held for it. -/
theorem reaped_socket_releases_twice :
    ∃ hub, Run Moves (fun _ _ => True) .empty
        [.connect 1 7, .connect 2 7, .reap 1, .leave 1] hub ∧
      hub.userSocks 7 = {2} ∧ hub.refs (.fills 7) = 0 := by
  refine ⟨?hub, ?run, ?_, ?_⟩
  case run =>
    apply Run.act trivial (.connect rfl)
    apply Run.act trivial (.connect rfl)
    apply Run.act trivial (.reap rfl)
    apply Run.act trivial (.leave rfl)
    exact .stop _
  · decide
  · decide

/-- A route that ended with a `break` leaves its socket to the heartbeat. -/
theorem oversized_socket_released_once :
    ∃ hub, Run Moves InStep .empty
        [.connect 1 7, .connect 2 7, .oversized 1, .reap 1, .leave 2] hub ∧
      hub.userSocks 7 = ∅ ∧ hub.refs (.fills 7) = 0 := by
  obtain ⟨hub, run, socks⟩ : ∃ hub, Run Moves InStep .empty
      [.connect 1 7, .connect 2 7, .oversized 1, .reap 1, .leave 2] hub ∧
      hub.userSocks 7 = ∅ := by
    refine ⟨?hub, ?run, ?_⟩
    case run =>
      apply Run.act trivial (.connect rfl)
      apply Run.act trivial (.connect rfl)
      apply Run.act trivial (.oversized rfl)
      apply Run.act trivial (.reap rfl)
      apply Run.act (by rfl) (.leave rfl)
      exact .stop _
    · decide
  have held := (private_channels_held run 7).1 (.fills 7) (by simp [privateChannels])
  exact ⟨hub, run, socks, by simpa [socks] using held⟩

end PredictX.UserConnections
