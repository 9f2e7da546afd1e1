import PredictX.Data.Run
import PredictX.Websocket.PubSubClient

namespace PredictX.PubSubClient

open PredictX.Data

/-! The channels that are wanted and those that the client in use has.

A SUBSCRIBE that fails is not tried again by the call that issued it.  If another pass over what is
wanted comes after it, that one makes up for it; and a pass that nothing comes after, while none of
its commands fails, leaves nothing out.
-/

/-- The channels that a pass has still to subscribe to. -/
def Pass.toSubscribe (pass : Pass) : List Channel :=
  match pass.stage with
  | .subscribing => pass.current :: pass.rest
  | .unsubscribing => []

/-- A pass over all that is wanted is still to come: a call waits for the lock, or the client is
gone and its successor has not been told yet. -/
def RedisPubSub.Retries (pubsub : RedisPubSub) : Prop :=
  0 < pubsub.waiting ∨ pubsub.listener = .connecting ∨ pubsub.listener = .joining ∨
    pubsub.client = none

/-- A SUBSCRIBE fails only if another pass is still to come. -/
def Recovers (pubsub : RedisPubSub) : Action → Prop
  | .answer false => (∃ pass ∈ pubsub.holder, pass.stage = .subscribing) → pubsub.Retries
  | .replayed false => pubsub.Retries
  | _ => True

/-- No call of `_sync_channels`, `_reconnect` or `connect` is under way. -/
structure RedisPubSub.Quiet (pubsub : RedisPubSub) : Prop where
  waiting : pubsub.waiting = 0
  holder : pubsub.holder = none
  listener : pubsub.listener = .listening

/-- The client in use is the one that passes talk to, and it has all that is believed of it. -/
structure Attached (pubsub : RedisPubSub) (client : Client) : Prop where
  believed : pubsub.subscribed ⊆ pubsub.held client
  addressed : ∀ pass ∈ pubsub.holder, pass.client = client

/-- With no other pass to come, all that is wanted is believed to be had, or will be. -/
def Covered (pubsub : RedisPubSub) : Prop :=
  pubsub.waiting = 0 → ∀ channel, 0 < pubsub.refs channel →
    match pubsub.holder with
    | none => channel ∈ pubsub.subscribed
    | some pass =>
        channel ∈ pass.want ∧ (channel ∈ pubsub.subscribed ∨ channel ∈ pass.toSubscribe)

structure Reconciled (pubsub : RedisPubSub) : Prop where
  /-- What is wanted is not unsubscribed. -/
  spares : ∀ pass ∈ pubsub.holder, pass.stage = .unsubscribing →
    ∀ channel ∈ pass.current :: pass.rest, channel ∉ pass.want
  connects : pubsub.listener = .connecting → pubsub.client = none
  listens : ∀ client, pubsub.listener = .listening → pubsub.client = some client →
    Attached pubsub client ∧ Covered pubsub
  replays : ∀ client wanted, pubsub.listener = .replaying client wanted →
    pubsub.holder = none ∧ pubsub.client = some client ∧ pubsub.subscribed = ∅ ∧
      (pubsub.waiting = 0 → ∀ channel, 0 < pubsub.refs channel → channel ∈ wanted)

/-- What holds while a pass has still to subscribe to `missing`, whatever it waits for. -/
structure Working (pubsub : RedisPubSub) (want : Finset Channel) (missing : List Channel) :
    Prop where
  connects : pubsub.listener = .connecting → pubsub.client = none
  free : ∀ client wanted, pubsub.listener ≠ .replaying client wanted
  believed : ∀ client, pubsub.listener = .listening → pubsub.client = some client →
    pubsub.subscribed ⊆ pubsub.held client
  covers : ∀ client, pubsub.listener = .listening → pubsub.client = some client →
    pubsub.waiting = 0 → ∀ channel, 0 < pubsub.refs channel →
      channel ∈ want ∧ (channel ∈ pubsub.subscribed ∨ channel ∈ missing)

section Steps

variable {pubsub after : RedisPubSub} {action : Action} {pass : Pass} {want : Finset Channel}
  {missing stale : List Channel}

theorem reconciled_connected : Reconciled .connected where
  spares := fun pass holds => nomatch holds
  connects := fun connects => Listener.noConfusion connects
  listens := by
    rintro client - -
    refine ⟨⟨Finset.empty_subset _, fun pass holds => nomatch holds⟩, ?_⟩
    intro _ channel wanted
    exact absurd wanted (Nat.lt_irrefl 0)
  replays := fun _ _ replays => Listener.noConfusion replays

/-- One more call waits at the lock. -/
theorem Reconciled.asks (reconciled : Reconciled pubsub) (refs : Channel → ℕ) :
    Reconciled { pubsub with refs, waiting := pubsub.waiting + 1 } where
  spares := reconciled.spares
  connects := reconciled.connects
  listens := by
    intro client listens live
    obtain ⟨attached, -⟩ := reconciled.listens client listens live
    exact ⟨⟨attached.believed, attached.addressed⟩, fun none => absurd none (Nat.succ_ne_zero _)⟩
  replays := by
    intro client wanted replays
    obtain ⟨free, live, empty, -⟩ := reconciled.replays client wanted replays
    exact ⟨free, live, empty, fun none => absurd none (Nat.succ_ne_zero _)⟩

/-- A pass that is through leaves the lock. -/
theorem Working.ends (working : Working pubsub want []) :
    Reconciled { pubsub with holder := none } where
  spares := fun pass holds => nomatch holds
  connects := working.connects
  listens := by
    intro client listens live
    refine ⟨⟨working.believed client listens live, fun pass holds => nomatch holds⟩, ?_⟩
    intro none channel wanted
    obtain ⟨-, believed | later⟩ := working.covers client listens live none channel wanted
    · exact believed
    · cases later
  replays := fun client wanted replays => absurd replays (working.free client wanted)

/-- A pass gives its next command to the client, or gives up if the client is gone. -/
theorem Working.commands {stage : Stage} {current : Channel} {rest : List Channel}
    (working : Working pubsub want (Pass.toSubscribe ⟨stage, 0, want, current, rest⟩))
    (spares : stage = .unsubscribing → ∀ channel ∈ current :: rest, channel ∉ want) :
    Reconciled
      { pubsub with
        holder := pubsub.client.map fun client => ⟨stage, client, want, current, rest⟩ } where
  spares := by
    intro pass holds
    obtain ⟨client, -, rfl⟩ := Option.map_eq_some_iff.mp holds
    exact spares
  connects := working.connects
  listens := by
    intro client listens live
    have isLive : pubsub.client = some client := live
    refine ⟨⟨working.believed client listens live, ?_⟩, ?_⟩
    · intro pass holds
      obtain ⟨other, isOther, rfl⟩ := Option.map_eq_some_iff.mp holds
      exact Option.some.inj (isOther.symm.trans isLive)
    · unfold Covered
      simp only [isLive, Option.map_some]
      exact working.covers client listens live
  replays := fun client wanted replays => absurd replays (working.free client wanted)

theorem Working.unsubscribeNext (working : Working pubsub want []) {rest : List Channel}
    (spares : ∀ channel ∈ rest, channel ∉ want) :
    Reconciled (pubsub.unsubscribeNext want rest) := by
  cases rest with
  | nil => exact working.ends
  | cons current rest => exact @Working.commands _ _ .unsubscribing _ _ working fun _ => spares

theorem Working.subscribeNext (working : Working pubsub want missing)
    (unwanted : Iterates stale (pubsub.subscribed \ want)) :
    Reconciled (pubsub.subscribeNext want stale missing) := by
  cases missing with
  | nil =>
      refine working.unsubscribeNext fun channel isStale => ?_
      have member := List.mem_toFinset.mpr isStale
      rw [unwanted.2] at member
      exact (Finset.mem_sdiff.mp member).2
  | cons current rest =>
      exact @Working.commands _ _ .subscribing _ _ working fun stage => Stage.noConfusion stage

/-- The state of a pass that waits for an answer. -/
theorem Reconciled.working (reconciled : Reconciled pubsub) (holds : pubsub.holder = some pass) :
    Working pubsub pass.want pass.toSubscribe where
  connects := reconciled.connects
  free := by
    intro client wanted replays
    obtain ⟨free, -⟩ := reconciled.replays client wanted replays
    rw [holds] at free
    cases free
  believed := fun client listens live => (reconciled.listens client listens live).1.believed
  covers := by
    intro client listens live none channel wanted
    have covered := (reconciled.listens client listens live).2 none channel wanted
    rw [holds] at covered
    exact covered

/-- The pass hears that its SUBSCRIBE is taken. -/
theorem Reconciled.subscribe (reconciled : Reconciled pubsub) (holds : pubsub.holder = some pass)
    (stage : pass.stage = .subscribing) :
    Working (pubsub.subscribe pass) pass.want pass.rest := by
  have working := reconciled.working holds
  refine ⟨working.connects, working.free, ?_, ?_⟩
  · intro client listens live
    have addressed := (reconciled.listens client listens live).1.addressed pass holds
    subst addressed
    have believed := working.believed pass.client listens live
    simp only [RedisPubSub.subscribe, Function.update_self]
    exact Finset.insert_subset_insert _ believed
  · intro client listens live none channel wanted
    obtain ⟨isWanted, covered⟩ := working.covers client listens live none channel wanted
    refine ⟨isWanted, ?_⟩
    simp only [Pass.toSubscribe, stage, List.mem_cons] at covered
    simp only [RedisPubSub.subscribe, Finset.mem_insert]
    tauto

/-- The pass hears that its SUBSCRIBE has failed, and another pass is still to come. -/
theorem Reconciled.refused (reconciled : Reconciled pubsub) (holds : pubsub.holder = some pass)
    (retries : pubsub.Retries) : Working pubsub pass.want pass.rest := by
  have working := reconciled.working holds
  refine ⟨working.connects, working.free, working.believed, ?_⟩
  intro client listens live none
  obtain waits | connects | joins | dropped := retries
  · exact absurd none waits.ne'
  · rw [listens] at connects
    cases connects
  · rw [listens] at joins
    cases joins
  · rw [live] at dropped
    cases dropped

/-- The pass hears that its UNSUBSCRIBE is taken. -/
theorem Reconciled.unsubscribe (reconciled : Reconciled pubsub)
    (holds : pubsub.holder = some pass) (stage : pass.stage = .unsubscribing) :
    Working (pubsub.unsubscribe pass) pass.want [] := by
  have working := reconciled.working holds
  have spared := reconciled.spares pass holds stage pass.current List.mem_cons_self
  refine ⟨working.connects, working.free, ?_, ?_⟩
  · intro client listens live
    have addressed := (reconciled.listens client listens live).1.addressed pass holds
    subst addressed
    have believed := working.believed pass.client listens live
    simp only [RedisPubSub.unsubscribe, Function.update_self]
    exact Finset.erase_subset_erase _ believed
  · intro client listens live none channel wanted
    obtain ⟨isWanted, covered⟩ := working.covers client listens live none channel wanted
    have apart : channel ≠ pass.current := fun same => spared (same ▸ isWanted)
    simp only [Pass.toSubscribe, stage] at covered
    refine ⟨isWanted, covered.imp_left fun believed => ?_⟩
    exact Finset.mem_erase.mpr ⟨apart, believed⟩

/-- A pass begins with what is wanted now. -/
theorem Reconciled.enters (reconciled : Reconciled pubsub) (free : pubsub.Free)
    (wants : pubsub.Wants want) (order : Iterates missing (want \ pubsub.subscribed))
    (waiting : ℕ) : Working { pubsub with waiting } want missing where
  connects := reconciled.connects
  free := free.2
  believed := fun client listens live => (reconciled.listens client listens live).1.believed
  covers := by
    intro client listens live none channel wanted
    have isWanted := (wants channel).mpr wanted
    refine ⟨isWanted, ?_⟩
    by_cases believed : channel ∈ pubsub.subscribed
    · exact .inl believed
    · refine .inr (List.mem_toFinset.mp ?_)
      rw [order.2]
      exact Finset.mem_sdiff.mpr ⟨isWanted, believed⟩

/-- `_reconnect` starts to replay what is wanted now. -/
theorem Reconciled.replay {client : Client} (reconciled : Reconciled pubsub)
    (free : pubsub.holder = none) (live : pubsub.client = some client) (wants : pubsub.Wants want) :
    Reconciled { pubsub with subscribed := ∅, listener := .replaying client want } where
  spares := reconciled.spares
  connects := fun connects => Listener.noConfusion connects
  listens := fun _ listens => Listener.noConfusion listens
  replays := by
    rintro _ _ ⟨⟩
    exact ⟨free, live, rfl, fun _ channel => (wants channel).mpr⟩

/-- There is nothing to replay. -/
theorem Reconciled.nothing (reconciled : Reconciled pubsub) (free : pubsub.holder = none)
    (wants : pubsub.Wants ∅) :
    Reconciled { pubsub with subscribed := ∅, listener := .listening } where
  spares := reconciled.spares
  connects := fun connects => Listener.noConfusion connects
  listens := by
    intro client _ live
    refine ⟨⟨Finset.empty_subset _, ?_⟩, ?_⟩
    · intro pass holds
      rw [show pubsub.holder = some pass from holds] at free
      cases free
    · intro _ channel wanted
      exact absurd ((wants channel).mpr wanted) (Finset.notMem_empty channel)
  replays := fun _ _ replays => Listener.noConfusion replays

theorem Reconciled.replayed {client : Client} (reconciled : Reconciled pubsub)
    (replays : pubsub.listener = .replaying client want) :
    Reconciled
      { pubsub with
        held := Function.update pubsub.held client (pubsub.held client ∪ want)
        subscribed := want
        listener := .listening } := by
  obtain ⟨free, isLive, -, covers⟩ := reconciled.replays client want replays
  refine ⟨reconciled.spares, fun connects => Listener.noConfusion connects, ?_,
    fun _ _ replays => Listener.noConfusion replays⟩
  intro other _ live
  obtain rfl : client = other := Option.some.inj (isLive.symm.trans live)
  refine ⟨⟨?_, ?_⟩, ?_⟩
  · simp only [Function.update_self]
    exact Finset.subset_union_right
  · intro pass holds
    rw [show pubsub.holder = some pass from holds] at free
    cases free
  · unfold Covered
    simp only [free]
    exact covers

/-- The replay has failed, and a call waits that will make up for it. -/
theorem Reconciled.unreplayed {client : Client} (reconciled : Reconciled pubsub)
    (replays : pubsub.listener = .replaying client want) (retries : pubsub.Retries) :
    Reconciled { pubsub with listener := .listening } := by
  obtain ⟨free, isLive, empty, -⟩ := reconciled.replays client want replays
  have waits : 0 < pubsub.waiting := by
    simpa [RedisPubSub.Retries, replays, isLive] using retries
  refine ⟨reconciled.spares, fun connects => Listener.noConfusion connects, ?_,
    fun _ _ replays => Listener.noConfusion replays⟩
  intro other _ live
  refine ⟨⟨?_, ?_⟩, fun none => absurd none waits.ne'⟩
  · simp only [empty]
    exact Finset.empty_subset _
  · intro pass holds
    rw [show pubsub.holder = some pass from holds] at free
    cases free

/-- While the client is gone, nothing is asked of it. -/
theorem Reconciled.without {listener : Listener} (reconciled : Reconciled pubsub)
    (dropped : pubsub.client = none) (idle : ∀ client wanted, listener ≠ .replaying client wanted) :
    Reconciled { pubsub with listener } where
  spares := reconciled.spares
  connects := fun _ => dropped
  listens := by
    intro client _ live
    rw [show pubsub.client = some client from live] at dropped
    cases dropped
  replays := fun client wanted replays => absurd replays (idle client wanted)

theorem reconciled_step (recovers : Recovers pubsub action) (moves : Moves pubsub action after)
    (reconciled : Reconciled pubsub) : Reconciled after := by
  cases moves with
  | acquire channels => exact reconciled.asks _
  | release channels => exact reconciled.asks _
  | @enter waiting client want order stale waits free live wants missing unwanted =>
      exact (reconciled.enters free wants missing waiting).subscribeNext unwanted
  | skip waits free dropped =>
      refine ⟨reconciled.spares, reconciled.connects, ?_, ?_⟩
      · intro client _ live
        rw [show pubsub.client = some client from live] at dropped
        cases dropped
      · exact fun client wanted replays => absurd replays (free.2 client wanted)
  | subscribed holds stage unwanted =>
      exact (reconciled.subscribe holds stage).subscribeNext unwanted
  | refused holds stage unwanted =>
      exact (reconciled.refused holds (recovers ⟨_, holds, stage⟩)).subscribeNext unwanted
  | unsubscribed holds stage =>
      refine (reconciled.unsubscribe holds stage).unsubscribeNext fun channel later => ?_
      exact reconciled.spares _ holds stage channel (List.mem_cons_of_mem _ later)
  | kept holds stage =>
      have working := reconciled.working holds
      simp only [Pass.toSubscribe, stage] at working
      refine working.unsubscribeNext fun channel later => ?_
      exact reconciled.spares _ holds stage channel (List.mem_cons_of_mem _ later)
  | lose listens live =>
      refine ⟨reconciled.spares, fun _ => rfl, ?_, ?_⟩
      · intro client _ isLive
        cases isLive
      · intro client wanted replays
        rw [show pubsub.listener = .replaying client wanted from replays] at listens
        cases listens
  | reconnect listens dropped =>
      exact reconciled.without dropped fun _ _ replays => Listener.noConfusion replays
  | connect connects =>
      exact ⟨reconciled.spares, fun connects => Listener.noConfusion connects,
        fun _ listens => Listener.noConfusion listens,
        fun _ _ replays => Listener.noConfusion replays⟩
  | unreachable connects =>
      exact reconciled.without (reconciled.connects connects)
        fun _ _ replays => Listener.noConfusion replays
  | replay joins free live wants wanted => exact reconciled.replay free live wants
  | nothing joins free live wants => exact reconciled.nothing free wants
  | replayed replays => exact reconciled.replayed replays
  | unreplayed replays => exact reconciled.unreplayed replays recovers

end Steps

/-- If every SUBSCRIBE that fails is made up for by a later pass, the client in use has all that is
wanted whenever no call is under way. -/
theorem wanted_channels_held {actions : List Action} {pubsub : RedisPubSub}
    (run : Run Moves Recovers .connected actions pubsub) (quiet : pubsub.Quiet) (client : Client)
    (live : pubsub.client = some client) (channel : Channel) (wanted : 0 < pubsub.refs channel) :
    channel ∈ pubsub.subscribed ∧ channel ∈ pubsub.held client := by
  have reconciled : Reconciled pubsub := by
    refine run.invariant Reconciled ?_ reconciled_connected
    intro before action after recovers moves kept
    exact reconciled_step recovers moves kept
  obtain ⟨attached, covered⟩ := reconciled.listens client quiet.listener live
  have believed := covered quiet.waiting channel wanted
  rw [quiet.holder] at believed
  exact ⟨believed, attached.believed believed⟩

theorem wants_iff {refs : Channel → ℕ} {want : Finset Channel}
    (counted : ∀ channel ∈ want, 0 < refs channel) (others : ∀ channel ∉ want, refs channel = 0)
    (channel : Channel) : channel ∈ want ↔ 0 < refs channel := by
  constructor
  · exact counted channel
  · intro wanted
    by_contra unwanted
    rw [others channel unwanted] at wanted
    exact Nat.lt_irrefl 0 wanted

/-- A SUBSCRIBE fails while a second call waits for the lock. -/
theorem wanted_channels_held_of_two :
    ∃ pubsub, Run Moves Recovers .connected
        [.acquire ["a"], .acquire ["b"], .enter, .answer false, .answer true, .enter,
          .answer true] pubsub ∧
      pubsub.client = some 0 ∧ "a" ∈ pubsub.subscribed ∧ "a" ∈ pubsub.held 0 := by
  obtain ⟨pubsub, run, quiet, live, wanted⟩ : ∃ pubsub, Run Moves Recovers .connected
        [.acquire ["a"], .acquire ["b"], .enter, .answer false, .answer true, .enter,
          .answer true] pubsub ∧
      pubsub.Quiet ∧ pubsub.client = some 0 ∧ 0 < pubsub.refs "a" := by
    have wants : ∀ channel, channel ∈ ({"a", "b"} : Finset Channel) ↔
        0 < (Function.update (Function.update (fun _ : Channel => 0) "a" 1) "b" 1) channel := by
      refine wants_iff (by decide) fun channel other => ?_
      simp_all
    refine ⟨?pubsub, ?run, ⟨?_, ?_, ?_⟩, ?_, ?_⟩
    case run =>
      apply Run.act trivial (.acquire ["a"])
      apply Run.act trivial (.acquire ["b"])
      apply Run.act trivial (@Moves.enter _ 1 0 {"a", "b"} ["a", "b"] [] rfl
        ⟨rfl, fun _ _ replays => Listener.noConfusion replays⟩ rfl (by exact wants) (by decide)
        (by decide))
      apply Run.act (fun _ => .inl (by decide)) (@Moves.refused _ _ [] rfl rfl (by decide))
      apply Run.act trivial (@Moves.subscribed _ _ [] rfl rfl (by decide))
      apply Run.act trivial (@Moves.enter _ 0 0 {"a", "b"} ["a"] [] rfl
        ⟨rfl, fun _ _ replays => Listener.noConfusion replays⟩ rfl (by exact wants) (by decide)
        (by decide))
      apply Run.act trivial (@Moves.subscribed _ _ [] rfl rfl (by decide))
      exact .stop _
    all_goals decide
  exact ⟨pubsub, run, live, wanted_channels_held run quiet 0 live "a" wanted⟩

/-- A SUBSCRIBE of the only call fails, and so does the replay after a loss: the channel is wanted,
a client is in use, and nothing is under way. -/
theorem refused_channel_stays_silent :
    (∃ pubsub, Run Moves (fun _ _ => True) .connected [.acquire ["a"], .enter, .answer false]
        pubsub ∧
      pubsub.Quiet ∧ pubsub.client = some 0 ∧ 0 < pubsub.refs "a" ∧ "a" ∉ pubsub.subscribed ∧
        "a" ∉ pubsub.held 0) ∧
    ∃ pubsub, Run Moves (fun _ _ => True) .connected
        [.acquire ["a"], .enter, .answer true, .lose, .reconnect, .connect true, .join,
          .replayed false] pubsub ∧
      pubsub.Quiet ∧ pubsub.client = some 1 ∧ 0 < pubsub.refs "a" ∧ "a" ∉ pubsub.subscribed ∧
        "a" ∉ pubsub.held 1 := by
  have wants : ∀ channel, channel ∈ ({"a"} : Finset Channel) ↔
      0 < (Function.update (fun _ : Channel => 0) "a" 1) channel := by
    refine wants_iff (by decide) fun channel other => ?_
    simp_all
  constructor
  · refine ⟨?pubsub, ?run, ⟨?_, ?_, ?_⟩, ?_, ?_, ?_, ?_⟩
    case run =>
      apply Run.act trivial (.acquire ["a"])
      apply Run.act trivial (@Moves.enter _ 0 0 {"a"} ["a"] [] rfl
        ⟨rfl, fun _ _ replays => Listener.noConfusion replays⟩ rfl (by exact wants) (by decide)
        (by decide))
      apply Run.act trivial (@Moves.refused _ _ [] rfl rfl (by decide))
      exact .stop _
    all_goals decide
  · refine ⟨?lost, ?runLost, ⟨?_, ?_, ?_⟩, ?_, ?_, ?_, ?_⟩
    case runLost =>
      apply Run.act trivial (.acquire ["a"])
      apply Run.act trivial (@Moves.enter _ 0 0 {"a"} ["a"] [] rfl
        ⟨rfl, fun _ _ replays => Listener.noConfusion replays⟩ rfl (by exact wants) (by decide)
        (by decide))
      apply Run.act trivial (@Moves.subscribed _ _ [] rfl rfl (by decide))
      apply Run.act trivial (.lose rfl rfl)
      apply Run.act trivial (.reconnect rfl rfl)
      apply Run.act trivial (.connect rfl)
      apply Run.act trivial (.replay rfl rfl rfl (by exact wants) (by decide))
      apply Run.act trivial (.unreplayed rfl)
      exact .stop _
    all_goals decide

end PredictX.PubSubClient
