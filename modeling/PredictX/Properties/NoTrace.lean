import PredictX.Properties.SocketCounters
import PredictX.Properties.MarketLocks
import PredictX.Data.Run

namespace PredictX.ConnectionManager

open PredictX.Data PredictX.MarketFeed PredictX.MarketSocket PredictX.RedisPubSub

/-! What is left of a socket after its `disconnect`. -/

/-- The socket occurs in none of the maps. -/
structure Traceless (hub : Hub) (socket : Socket) : Prop where
  marketSubs : ∀ market, socket ∉ hub.marketSubs.members market
  subscriptions : (hub.peers socket).subscriptions = none
  lock : (hub.peers socket).lock = false
  lastSeen : (hub.peers socket).lastSeen = false
  grid : (hub.peers socket).grid = none
  channels : (hub.peers socket).channels = none
  gridSubscribers : ∀ market, socket ∉ hub.gridSubscribers.members market
  pending : (hub.peers socket).pending = false
  ip : (hub.peers socket).ip = none
  user : (hub.peers socket).user = none

/-- The registered sockets from an address. -/
def Hub.fromIp (hub : Hub) (address : Ip) : Finset Socket :=
  hub.known.filter fun socket =>
    (hub.peers socket).registered = true ∧ (hub.peers socket).ip = some (some address)

/-- The registered sockets of a user. -/
def Hub.ofUser (hub : Hub) (account : UserId) : Finset Socket :=
  hub.known.filter fun socket =>
    (hub.peers socket).registered = true ∧ (hub.peers socket).user = some (some account)

section Runs

variable {hub : Hub} {socket : Socket} {market : MarketKey}

theorem Tracks.traceless (tracks : Tracks hub socket) (leaves : socket ∈ hub.departed)
    (exits : (hub.peers socket).exits = []) : Traceless hub socket := by
  have gone := (tracks.gone leaves).2
  obtain ⟨subscriptions, channels⟩ := gone.finished exits
  obtain ⟨ip, user⟩ := tracks.paired
  simp only [Peer.registered, subscriptions, Option.isSome_none, Option.isSome_eq_false_iff,
    Option.isNone_iff_eq_none] at ip user
  refine ⟨?_, subscriptions, gone.lock, gone.lastSeen, gone.grid, channels, ?_, gone.pending, ip,
    user⟩
  · intro market isMember
    obtain subscribed | kept | ⟨stage, isStage, -⟩ := tracks.listed market isMember
    · simp [Peer.subscribed, subscriptions] at subscribed
    · simp [gone.idle, Call.keeps] at kept
    · simp [exits] at isStage
  · intro market isMember
    have shows := (tracks.shown market).mp isMember
    simp [Peer.shown, gone.grid] at shows

theorem Counted.fromIp (counted : Counted hub)
    (paired : ∀ socket, (hub.peers socket).ip.isSome = (hub.peers socket).registered)
    (address : Ip) : hub.ipConnections address = (hub.fromIp address).card := by
  have registered : ∀ socket, (hub.peers socket).ip = some (some address) →
      (hub.peers socket).registered = true := by
    intro socket ip
    rw [← paired socket, ip]
    rfl
  rw [counted.ips address, Hub.fromIp, Finset.card_filter]
  refine Finset.sum_congr rfl fun socket _ => ?_
  by_cases ip : (hub.peers socket).ip = some (some address)
  · simp [slots, ip, registered socket ip]
  · simp [slots, ip]

theorem Counted.ofUser (counted : Counted hub)
    (paired : ∀ socket, (hub.peers socket).user.isSome = (hub.peers socket).registered)
    (account : UserId) : hub.userConnections account = (hub.ofUser account).card := by
  have registered : ∀ socket, (hub.peers socket).user = some (some account) →
      (hub.peers socket).registered = true := by
    intro socket user
    rw [← paired socket, user]
    rfl
  rw [counted.users account, Hub.ofUser, Finset.card_filter]
  refine Finset.sum_congr rfl fun socket _ => ?_
  by_cases user : (hub.peers socket).user = some (some account)
  · simp [slots, user, registered socket user]
  · simp [slots, user]

/-- Between the calls a market's subscribers are registered sockets that are subscribed to it. -/
theorem members_quiet (tracks : ∀ socket, Tracks hub socket) (quiet : hub.Quiet)
    (nobody : hub.subscribers market = ∅) : hub.marketSubs.members market = ∅ := by
  refine Finset.eq_empty_of_forall_notMem fun socket isMember => ?_
  have listed := (tracks socket).listed market isMember
  by_cases known : socket ∈ hub.known
  · obtain ⟨idle, exits⟩ := quiet socket known
    have subscribed : market ∈ (hub.peers socket).subscribed := by
      simpa [Peer.Listed, idle, exits, Call.keeps] using listed
    have registered : (hub.peers socket).registered = true := by
      cases found : (hub.peers socket).subscriptions with
      | none => simp [Peer.subscribed, found] at subscribed
      | some markets => simp [Peer.registered, found]
    have isSubscriber : socket ∈ hub.subscribers market :=
      Finset.mem_filter.mpr ⟨known, registered, subscribed⟩
    rw [nobody] at isSubscriber
    exact Finset.notMem_empty socket isSubscriber
  · simp [(tracks socket).absent known, Peer.Listed, Peer.unknown, Peer.subscribed,
      Call.keeps] at listed

theorem Locked.unserved (locked : Locked hub) (tracks : ∀ socket, Tracks hub socket)
    (quiet : hub.Quiet) (nobody : hub.marketSubs.members market = ∅) :
    market ∉ hub.marketLocks := by
  intro isLocked
  obtain served | ⟨socket, waits⟩ := locked.served market isLocked
  · exact served.ne_empty nobody
  · have busy : (hub.peers socket).call ≠ .idle := by
      intro idle
      simp [idle, Call.awaits] at waits
    exact busy (quiet socket ((tracks socket).busy busy).1).1

end Runs

theorem tracked_run {actions : List Action} {hub : Hub}
    (run : Run Moves Apart .empty actions hub) :
    (∀ socket, Tracks hub socket) ∧ Counted hub ∧ hub.marketSubs.Entries := by
  refine run.invariant (fun hub => (∀ socket, Tracks hub socket) ∧ Counted hub ∧
    hub.marketSubs.Entries) ?_ ⟨?_, ?_, ?_⟩
  · rintro before action after apart moves ⟨tracks, counted, entries⟩
    exact ⟨tracks_step apart moves tracks, counted_step apart moves tracks counted,
      entries_step moves entries⟩
  · intro socket
    refine ⟨fun _ => rfl, ⟨rfl, rfl⟩, fun _ => rfl, ?_, ?_, ?_, ?_, ?_, ?_⟩ <;>
      simp [Hub.empty, Peer.unknown, Peer.shown, Index.members]
  · exact ⟨fun _ => rfl, fun _ => rfl⟩
  · intro market
    simp [Hub.empty]

theorem locked_run {actions : List Action} {hub : Hub}
    (run : Run Moves Tidy .empty actions hub) : Locked hub := by
  have kept : (∀ socket, Tracks hub socket) ∧ Locked hub := by
    refine run.invariant (fun hub => (∀ socket, Tracks hub socket) ∧ Locked hub) ?_ ⟨?_, ?_⟩
    · rintro before action after tidy moves ⟨tracks, locked⟩
      exact ⟨tracks_step tidy.1 moves tracks, locked_step tidy moves tracks locked⟩
    · exact (tracked_run (.stop _)).1
    · refine ⟨?_, ?_⟩ <;> simp [Hub.empty, Peer.unknown, Peer.Listed, Peer.subscribed, Call.keeps]
  exact kept.2

/-- In every run in which a socket's calls and its `disconnect` keep apart, a socket whose
`disconnect` has returned occurs in no map, and the connection counters count the registered
sockets. -/
theorem departed_socket_is_forgotten {actions : List Action} {hub : Hub}
    (run : Run Moves Apart .empty actions hub) :
    (∀ socket ∈ hub.departed, (hub.peers socket).exits = [] → Traceless hub socket) ∧
    (∀ address, hub.ipConnections address = (hub.fromIp address).card) ∧
    (∀ account, hub.userConnections account = (hub.ofUser account).card) := by
  obtain ⟨tracks, counted, -⟩ := tracked_run run
  refine ⟨?_, counted.fromIp fun socket => (tracks socket).paired.1,
    counted.ofUser fun socket => (tracks socket).paired.2⟩
  intro socket leaves exits
  exact (tracks socket).traceless leaves exits

/-- If no market loses its last subscriber either, a market without subscribers has neither an
entry nor a lock between the calls. -/
theorem disconnected_socket_leaves_no_trace {actions : List Action} {hub : Hub}
    (run : Run Moves Tidy .empty actions hub) :
    (∀ socket ∈ hub.departed, (hub.peers socket).call = .idle → (hub.peers socket).exits = [] →
      Traceless hub socket) ∧
    (∀ address, hub.ipConnections address = (hub.fromIp address).card) ∧
    (∀ account, hub.userConnections account = (hub.ofUser account).card) ∧
    (hub.Quiet → ∀ market, hub.subscribers market = ∅ →
      hub.marketSubs market = none ∧ market ∉ hub.marketLocks) := by
  have apart : Run Moves Apart .empty actions hub := run.weaken fun _ _ tidy => tidy.1
  obtain ⟨forgotten, ips, users⟩ := departed_socket_is_forgotten apart
  obtain ⟨tracks, -, entries⟩ := tracked_run apart
  refine ⟨?_, ips, users, ?_⟩
  · intro socket leaves _ exits
    exact forgotten socket leaves exits
  · intro quiet market nobody
    have none := members_quiet tracks quiet nobody
    exact ⟨entries.none none, (locked_run run).unserved tracks quiet none⟩

/-- Two sockets of one user watch a market, and one of them goes. -/
theorem second_socket_leaves_no_trace :
    ∃ hub, Run Moves Tidy .empty
        [.connect 1 "a" (some 9) (some 7), .resume 1, .resume 1, .resume 1,
          .connect 2 "a" (some 9) (some 7), .resume 2, .resume 2, .resume 2, .disconnect 2,
          .exit 2 .locking, .exit 2 (.clearing "a" [] ["a"]), .exit 2 (.releasing [])] hub ∧
      Traceless hub 2 ∧ hub.ipConnections 9 = (hub.fromIp 9).card ∧ hub.fromIp 9 = {1} := by
  have reached : ∃ hub, Run Moves Tidy .empty
        [.connect 1 "a" (some 9) (some 7), .resume 1, .resume 1, .resume 1,
          .connect 2 "a" (some 9) (some 7), .resume 2, .resume 2, .resume 2, .disconnect 2,
          .exit 2 .locking, .exit 2 (.clearing "a" [] ["a"]), .exit 2 (.releasing [])] hub ∧
      2 ∈ hub.departed ∧ (hub.peers 2).call = .idle ∧ (hub.peers 2).exits = [] ∧
      hub.fromIp 9 = {1} := by
    refine ⟨?hub, ?run, ?_, ?_, ?_, ?_⟩
    case run =>
      refine Run.act ⟨trivial, trivial⟩ (.connect (by decide)
        (by simp [Hub.empty, maxConnectionsPerIp]) (by simp [Hub.empty, maxConnectionsPerUser])) ?_
      refine Run.act ⟨trivial, fun _ leaves => Call.noConfusion leaves⟩ (.accepted rfl) ?_
      refine Run.act ⟨trivial, fun _ leaves => Call.noConfusion leaves⟩ (.connected rfl) ?_
      refine Run.act ⟨trivial, fun _ leaves => Call.noConfusion leaves⟩ (.registered rfl) ?_
      refine Run.act ⟨trivial, trivial⟩ (.connect (by decide) (by decide) (by decide)) ?_
      refine Run.act ⟨trivial, fun _ leaves => Call.noConfusion leaves⟩ (.accepted rfl) ?_
      refine Run.act ⟨trivial, fun _ leaves => Call.noConfusion leaves⟩ (.connected rfl) ?_
      refine Run.act ⟨trivial, fun _ leaves => Call.noConfusion leaves⟩ (.registered rfl) ?_
      refine Run.act ⟨rfl, trivial⟩ (.disconnect (by decide) rfl) ?_
      refine Run.act ⟨trivial, trivial⟩
        (@Moves.popped _ 2 [] [] ["a"] rfl ⟨by decide, fun _ => Iff.rfl⟩) ?_
      refine Run.act ⟨trivial, 1, by decide⟩ (@Moves.cleared _ 2 [] [] "a" [] ["a"] rfl) ?_
      refine Run.act ⟨trivial, trivial⟩ (@Moves.released _ 2 [] [] [] rfl) ?_
      exact .stop _
    · decide
    · rfl
    · rfl
    · decide
  obtain ⟨hub, run, leaves, idle, exits, others⟩ := reached
  obtain ⟨traceless, ips, -⟩ := disconnected_socket_leaves_no_trace run
  exact ⟨hub, run, traceless 2 leaves idle exits, ips 9, others⟩

/-- A market's only socket connects and disconnects; its lock stays. -/
theorem lock_outlives_its_market :
    ∃ hub, Run Moves (fun _ _ => True) .empty
        [.connect 1 "a" none none, .resume 1, .resume 1, .resume 1, .disconnect 1,
          .exit 1 .locking, .exit 1 (.clearing "a" [] ["a"]), .exit 1 (.releasing [])] hub ∧
      hub.Quiet ∧ 1 ∈ hub.departed ∧ hub.subscribers "a" = ∅ ∧ "a" ∈ hub.marketLocks := by
  refine ⟨?hub, ?run, ?_, ?_, ?_, ?_⟩
  case run =>
    apply Run.act trivial (.connect (by decide) (by simp) (by simp))
    apply Run.act trivial (.accepted rfl)
    apply Run.act trivial (.connected rfl)
    apply Run.act trivial (.registered rfl)
    apply Run.act trivial (.disconnect (by decide) rfl)
    apply Run.act trivial (@Moves.popped _ 1 [] [] ["a"] rfl ⟨by decide, fun _ => Iff.rfl⟩)
    apply Run.act trivial (@Moves.cleared _ 1 [] [] "a" [] ["a"] rfl)
    apply Run.act trivial (@Moves.released _ 1 [] [] [] rfl)
    exact .stop _
  · unfold Hub.Quiet
    decide
  · decide
  · decide
  · decide

end PredictX.ConnectionManager
