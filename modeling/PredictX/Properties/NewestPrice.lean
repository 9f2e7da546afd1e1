import PredictX.Websocket.MarketFeed
import PredictX.Properties.CriticalFrames

namespace PredictX.MarketFeed

open PredictX.Data PredictX.PublishQueue

/-! Does the newest price win?

Any writer that is free takes the next frame, so two prices of one market can be on their way at
the same time, and Redis runs them in whatever order they arrive.  Frames also disappear from the
queue: the oldest when it overflows, whichever market it is of, and one in the writers' re-check.
-/

/-- The list keeps to the order of the calls and to the last of them. -/
structure Newest {π : Type} (kept calls : List π) : Prop where
  ordered : kept.Sublist calls
  last : kept.getLast? = calls.getLast?

namespace Newest

variable {π : Type} {kept before after calls : List π} {old new : π}

theorem append (newest : Newest kept calls) (new : π) : Newest (kept ++ [new]) (calls ++ [new]) :=
  ⟨newest.ordered.append_right [new], by simp⟩

theorem drop (newest : Newest (before ++ old :: after) calls) (more : after ≠ []) :
    Newest (before ++ after) calls := by
  refine ⟨List.Sublist.trans ?_ newest.ordered, ?_⟩
  · exact (List.sublist_cons_self old after).append_left before
  · rw [← newest.last]
    cases after with
    | nil => contradiction
    | cons head tail => simp [List.getLast?_append, List.getLast?_cons_cons]

theorem replace (newest : Newest (before ++ old :: after) calls) (new : π) :
    Newest (before ++ after ++ [new]) (calls ++ [new]) := by
  refine ⟨List.Sublist.append_right (List.Sublist.trans ?_ newest.ordered) [new], by simp⟩
  exact (List.sublist_cons_self old after).append_left before

end Newest

/-! # The prices of one market -/

section Prices

variable {π : Type}

/-- The price of the market that the frame carries. -/
def priceOf (market : MarketKey) (pending : Pending (Publication π)) : Option π :=
  match pending.op with
  | .price other prices => if other = market then some prices else none
  | _ => none

/-- The calls of `publish_price_update` for the market. -/
def priceCalls (market : MarketKey) (log : List (Event (Publication π))) : List π :=
  log.filterMap fun event =>
    match event with
    | .accepted pending => priceOf market pending
    | _ => none

/-- The prices that were published, in the order of their `seq`. -/
def Redis.shown (redis : Redis π) (market : MarketKey) : List π :=
  (redis.frames market).filterMap Stamped.prices

def Drained (market : MarketKey) (floor : Floor (Publication π) (Redis π)) : Prop :=
  (∀ pending ∈ floor.queues.ephemeral, priceOf market pending = none) ∧
    ∀ writer pending, floor.writers writer = .sending pending → priceOf market pending = none

/-- The head of the queue may go: it is no price of the market, or a later one is behind it. -/
def Superseded (market : MarketKey) (queue : List (Pending (Publication π))) : Prop :=
  ∀ oldest newer, queue = oldest :: newer → (priceOf market oldest).isSome = true →
    ∃ later ∈ newer, (priceOf market later).isSome = true

/-- One price of the market is sent at a time, its sends succeed, and the newest price is not
dropped from the queue. -/
def OneAtATime (limits : Limits) (market : MarketKey) (floor : Floor (Publication π) (Redis π)) :
    Action (Publication π) → Prop
  | .enqueue pending => (∃ call : Call π, pending = call.pending) ∧
      (pending.delivery = .ephemeral → limits.ephemeralMax ≤ floor.queues.ephemeral.length →
        (priceOf market pending).isSome = true ∨ Superseded market floor.queues.ephemeral)
  | .take _ => ∀ pending queues, floor.queues.next = some (pending, queues) →
      (priceOf market pending).isSome = true →
        ∀ writer other, floor.writers writer = .sending other → priceOf market other = none
  | .fail writer _ => ∀ pending, floor.writers writer = .sending pending →
      priceOf market pending = none
  | .resume _ _ => floor.queues.critical = [] → Superseded market floor.queues.ephemeral
  | _ => True

/-- The price that is on its way, if there is one. -/
def OnTheWay (market : MarketKey) (writers : ℕ → Stage (Publication π)) : Option π → Prop
  | none => ∀ writer pending, writers writer = .sending pending → priceOf market pending = none
  | some prices => ∃ sender pending, writers sender = .sending pending ∧
      priceOf market pending = some prices ∧
      ∀ writer other, writer ≠ sender → writers writer = .sending other →
        priceOf market other = none

structure Ordered (market : MarketKey) (floor : Floor (Publication π) (Redis π)) : Prop where
  critical : ∀ pending ∈ floor.queues.critical, priceOf market pending = none
  price : floor.redis.price market = (floor.redis.shown market).getLast?
  newest : ∃ onTheWay, OnTheWay market floor.writers onTheWay ∧
    Newest (floor.redis.shown market ++ onTheWay.toList ++
      floor.queues.ephemeral.filterMap (priceOf market)) (priceCalls market floor.log)

end Prices

/-! # Steps -/

section Steps

variable {π : Type} {limits : Limits} {market : MarketKey}
  {floor after : Floor (Publication π) (Redis π)} {action : Action (Publication π)}

theorem priceOf_critical {call : Call π} (critical : call.pending.delivery = .critical) :
    priceOf market call.pending = none := by
  cases call with
  | publishPriceUpdate other prices =>
      simp [Call.pending, pendingOf, criticalFrames] at critical
  | publishMarketEvent other eventType =>
      simp only [Call.pending, pendingOf]
      split <;> rfl
  | publishOrderFill user =>
      simp only [Call.pending, pendingOf]
      split <;> rfl
  | publishNotification user =>
      simp only [Call.pending, pendingOf]
      split <;> rfl
  | publishUserEvent user type =>
      simp only [Call.pending, pendingOf]
      split <;> rfl
  | publishGlobalTrade =>
      simp only [Call.pending, pendingOf]
      split <;> rfl

theorem shown_seqAndPublish (redis : Redis π) (other : MarketKey) (prices : Option π) :
    (redis.seqAndPublish other prices).shown market =
      redis.shown market ++ if other = market then prices.toList else [] := by
  unfold Redis.shown
  rw [frames_seqAndPublish]
  by_cases same : other = market
  · cases prices <;> simp [same]
  · simp [same]

/-- A publication shows the price it carries, and caches it. -/
theorem shown_apply (pending : Pending (Publication π)) (redis : Redis π) :
    (pending.op.apply redis).shown market =
      redis.shown market ++ (priceOf market pending).toList := by
  cases op : pending.op with
  | price other prices =>
      simp only [Publication.apply, shown_seqAndPublish, priceOf, op]
      by_cases same : other = market
      · simp [same, Redis.shown, Redis.frames]
      · simp [same, Redis.shown, Redis.frames]
  | event other eventType =>
      simp [Publication.apply, shown_seqAndPublish, priceOf, op]
  | elsewhere => simp [Publication.apply, priceOf, op]

theorem price_apply (pending : Pending (Publication π)) (redis : Redis π) :
    (pending.op.apply redis).price market =
      ((priceOf market pending).map some).getD (redis.price market) := by
  cases op : pending.op with
  | price other prices =>
      simp only [Publication.apply, Redis.seqAndPublish, priceOf, op]
      by_cases same : other = market
      · subst same
        simp
      · simp [same, Ne.symm same]
  | event other eventType => simp [Publication.apply, Redis.seqAndPublish, priceOf, op]
  | elsewhere => simp [Publication.apply, priceOf, op]

/-- A writer that takes up or lays down a frame of no price of the market. -/
theorem OnTheWay.update {writers : ℕ → Stage (Publication π)} {onTheWay : Option π} {writer : ℕ}
    {stage : Stage (Publication π)} (flight : OnTheWay market writers onTheWay)
    (idle : ∀ pending, writers writer = .sending pending → priceOf market pending = none)
    (next : ∀ pending, stage = .sending pending → priceOf market pending = none) :
    OnTheWay market (Function.update writers writer stage) onTheWay := by
  cases onTheWay with
  | none =>
      intro other pending sending
      by_cases same : other = writer
      · subst same
        exact next pending (by simpa using sending)
      · exact flight other pending (by simpa [same] using sending)
  | some prices =>
      obtain ⟨sender, pending, sending, carries, others⟩ := flight
      have apart : sender ≠ writer := by
        intro same
        subst same
        simp [idle pending sending] at carries
      refine ⟨sender, pending, by simpa [apart] using sending, carries, ?_⟩
      intro other frame different isSending
      by_cases same : other = writer
      · subst same
        exact next frame (by simpa using isSending)
      · exact others other frame different (by simpa [same] using isSending)

/-- The head of the ephemeral queue is dropped. -/
theorem newest_drop {kept calls : List π} {oldest : Pending (Publication π)}
    {newer : List (Pending (Publication π))}
    (newest : Newest (kept ++ (oldest :: newer).filterMap (priceOf market)) calls)
    (superseded : Superseded market (oldest :: newer)) :
    Newest (kept ++ newer.filterMap (priceOf market)) calls := by
  cases carries : priceOf market oldest with
  | none => simpa [carries] using newest
  | some prices =>
      rw [List.filterMap_cons_some carries] at newest
      refine newest.drop ?_
      obtain ⟨later, member, isPrice⟩ := superseded oldest newer rfl (by simp [carries])
      obtain ⟨laterPrices, laterCarries⟩ := Option.isSome_iff_exists.mp isPrice
      exact List.ne_nil_of_mem (List.mem_filterMap.mpr ⟨later, member, laterCarries⟩)

/-- What a step that shows nothing and queues nothing leaves as it was. -/
theorem Ordered.idle {writer : ℕ} {stage : Stage (Publication π)} (ordered : Ordered market floor)
    (queues : after.queues.critical = floor.queues.critical ∧
      after.queues.ephemeral = floor.queues.ephemeral)
    (redis : after.redis = floor.redis)
    (calls : priceCalls market after.log = priceCalls market floor.log)
    (writers : after.writers = Function.update floor.writers writer stage)
    (idle : ∀ pending, floor.writers writer = .sending pending → priceOf market pending = none)
    (next : ∀ pending, stage = .sending pending → priceOf market pending = none) :
    Ordered market after := by
  obtain ⟨onTheWay, flight, newest⟩ := ordered.newest
  refine ⟨?_, ?_, onTheWay, ?_, ?_⟩
  · rw [queues.1]
    exact ordered.critical
  · rw [redis]
    exact ordered.price
  · rw [writers]
    exact flight.update idle next
  · rw [redis, queues.2, calls]
    exact newest

theorem ordered_accept {call : Call π} {queues : Queues (Publication π)}
    (guarded : call.pending.delivery = .ephemeral →
      limits.ephemeralMax ≤ floor.queues.ephemeral.length →
        (priceOf market call.pending).isSome = true ∨ Superseded market floor.queues.ephemeral)
    (offered : floor.queues.enqueue limits call.pending = .accepted queues)
    (ordered : Ordered market floor) :
    Ordered market { floor with queues, log := floor.log ++ [.accepted call.pending] } := by
  obtain ⟨onTheWay, flight, newest⟩ := ordered.newest
  have calls : priceCalls market (floor.log ++ [.accepted call.pending]) =
      priceCalls market floor.log ++ (priceOf market call.pending).toList := by
    cases carries : priceOf market call.pending <;> simp [priceCalls, carries]
  obtain ⟨_, ⟨isCritical, critical, ephemeral⟩ | ⟨isEphemeral, critical, ephemeral⟩⟩ :=
    Queues.enqueue_accepted offered
  · have noPrice : priceOf market call.pending = none := priceOf_critical isCritical
    refine ⟨?_, ordered.price, onTheWay, flight, ?_⟩
    · dsimp only
      rw [critical]
      simpa [or_imp, forall_and, noPrice] using ordered.critical
    · dsimp only
      rw [calls, ephemeral, noPrice]
      simpa using newest
  · refine ⟨?_, ordered.price, onTheWay, flight, ?_⟩
    · dsimp only
      rw [critical]
      exact ordered.critical
    dsimp only
    rw [calls]
    rcases ephemeral with appended | ⟨full, oldest, newer, held, kept⟩
    · rw [appended, List.filterMap_append, ← List.append_assoc]
      cases carries : priceOf market call.pending with
      | none => simpa [carries] using newest
      | some prices => simpa [carries] using newest.append prices
    · rw [kept, List.filterMap_append, ← List.append_assoc]
      rw [held] at newest
      cases carries : priceOf market call.pending with
      | none =>
          have superseded := (guarded isEphemeral full).resolve_left (by simp [carries])
          rw [held] at superseded
          simpa [carries] using newest_drop newest superseded
      | some prices =>
          cases dropped : priceOf market oldest with
          | none =>
              rw [List.filterMap_cons_none dropped] at newest
              simpa [carries] using newest.append prices
          | some old =>
              rw [List.filterMap_cons_some dropped] at newest
              simpa [carries] using newest.replace prices

theorem ordered_take {writer : ℕ} {pending : Pending (Publication π)}
    {queues : Queues (Publication π)}
    (guarded : (priceOf market pending).isSome = true →
      ∀ writer other, floor.writers writer = .sending other → priceOf market other = none)
    (top : floor.writers writer = .running) (next : floor.queues.next = some (pending, queues))
    (ordered : Ordered market floor) :
    Ordered market
      { floor with
        queues
        writers := Function.update floor.writers writer (.sending pending)
        log := floor.log ++ [.passed pending] } := by
  have calls : priceCalls market (floor.log ++ [.passed pending]) =
      priceCalls market floor.log := by
    simp [priceCalls]
  have running : ∀ other, floor.writers writer = .sending other →
      priceOf market other = none := by
    simp [top]
  obtain ⟨onTheWay, flight, newest⟩ := ordered.newest
  rcases Queues.next_some next with ⟨critical, ephemeral, _⟩ | ⟨_, critical, ephemeral, _⟩
  · have members := ordered.critical
    rw [critical, List.forall_mem_cons] at members
    refine ⟨members.2, ordered.price, onTheWay, ?_, ?_⟩
    · refine flight.update running ?_
      intro other same
      cases same
      exact members.1
    · dsimp only
      rw [calls, ephemeral]
      exact newest
  · refine ⟨by simp [critical], ordered.price, ?_⟩
    rw [ephemeral] at newest
    dsimp only
    rw [calls]
    cases carries : priceOf market pending with
    | none =>
        refine ⟨onTheWay, flight.update running ?_, ?_⟩
        · intro other same
          cases same
          exact carries
        · rwa [List.filterMap_cons_none carries] at newest
    | some prices =>
        have alone := guarded (by simp [carries])
        have nothing : onTheWay = none := by
          cases onTheWay with
          | none => rfl
          | some old =>
              obtain ⟨sender, other, sending, isPrice, _⟩ := flight
              simp [alone sender other sending] at isPrice
        subst nothing
        refine ⟨some prices, ⟨writer, pending, by simp, carries, ?_⟩, ?_⟩
        · intro other frame apart sending
          exact alone other frame (by simpa [apart] using sending)
        · rw [List.filterMap_cons_some carries] at newest
          simpa using newest

theorem ordered_publish {writer : ℕ} {pending : Pending (Publication π)}
    (sending : floor.writers writer = .sending pending) (ordered : Ordered market floor) :
    Ordered market
      { floor with
        writers := Function.update floor.writers writer .running
        redis := pending.op.apply floor.redis
        log := floor.log ++ [.published pending] } := by
  obtain ⟨onTheWay, flight, newest⟩ := ordered.newest
  have calls : priceCalls market (floor.log ++ [.published pending]) =
      priceCalls market floor.log := by
    simp [priceCalls]
  refine ⟨ordered.critical, ?_, ?_⟩
  · dsimp only
    rw [price_apply, shown_apply, ordered.price]
    cases priceOf market pending <;> simp
  · dsimp only
    rw [calls, shown_apply]
    cases carries : priceOf market pending with
    | none =>
        refine ⟨onTheWay, flight.update ?_ (by simp), by simpa using newest⟩
        intro other same
        rw [sending] at same
        cases same
        exact carries
    | some prices =>
        -- the writer's frame is the one that was on its way
        cases onTheWay with
        | none =>
            simp [flight writer pending sending] at carries
        | some old =>
            obtain ⟨sender, other, isSending, isPrice, others⟩ := flight
            have same : writer = sender := by
              by_contra apart
              simp [others writer pending apart sending] at carries
            subst same
            rw [sending] at isSending
            cases isSending
            rw [carries] at isPrice
            cases isPrice
            refine ⟨none, ?_, by simpa using newest⟩
            intro another frame isSending
            by_cases isWriter : another = writer
            · simp [isWriter] at isSending
            · exact others another frame isWriter (by simpa [isWriter] using isSending)

/-- A send that fails is no price of the market, whatever Redis made of it. -/
theorem ordered_fail {writer : ℕ} {pending : Pending (Publication π)} {applied : Bool}
    (guarded : OneAtATime limits market floor (.fail writer applied))
    (sending : floor.writers writer = .sending pending) (ordered : Ordered market floor) :
    Ordered market
      { floor with
        writers := Function.update floor.writers writer .running
        redis := if applied then pending.op.apply floor.redis else floor.redis
        log := floor.log ++ [.failed pending applied] } := by
  obtain ⟨onTheWay, flight, newest⟩ := ordered.newest
  have noPrice : priceOf market pending = none := guarded pending sending
  have calls : priceCalls market (floor.log ++ [.failed pending applied]) =
      priceCalls market floor.log := by
    simp [priceCalls]
  have shown : Redis.shown (if applied then pending.op.apply floor.redis else floor.redis) market =
      floor.redis.shown market := by
    cases applied <;> simp [shown_apply, noPrice]
  have price : Redis.price (if applied then pending.op.apply floor.redis else floor.redis) market =
      floor.redis.price market := by
    cases applied <;> simp [price_apply, noPrice]
  refine ⟨ordered.critical, ?_, onTheWay, flight.update guarded (by simp), ?_⟩
  · dsimp only
    rw [shown, price]
    exact ordered.price
  · dsimp only
    rw [shown, calls]
    exact newest

theorem ordered_resume {writer : ℕ} {user : UserId} {published : Bool}
    (guarded : floor.queues.critical = [] → Superseded market floor.queues.ephemeral)
    (flushing : floor.writers writer = .flushing user []) (ordered : Ordered market floor) :
    Ordered market
      { floor with
        queues := (recheck floor.queues).2
        writers := Function.update floor.writers writer (recheck floor.queues).1
        log := floor.log ++ [.marker user published] } := by
  have calls : priceCalls market (floor.log ++ [.marker user published]) =
      priceCalls market floor.log := by
    simp [priceCalls]
  have idle : ∀ other, floor.writers writer = .sending other → priceOf market other = none := by
    simp [flushing]
  unfold recheck
  cases next : floor.queues.next with
  | none => exact ordered.idle ⟨rfl, rfl⟩ rfl calls rfl idle (by simp)
  | some taken =>
      obtain ⟨pending, queues⟩ := taken
      rcases Queues.next_some next with ⟨critical, ephemeral, _⟩ | ⟨nothing, critical, ephemeral, _⟩
      · obtain ⟨onTheWay, flight, newest⟩ := ordered.newest
        have members := ordered.critical
        rw [critical, List.forall_mem_cons] at members
        refine ⟨members.2, ordered.price, onTheWay, flight.update idle (by simp), ?_⟩
        dsimp only
        rw [calls, ephemeral]
        exact newest
      · obtain ⟨onTheWay, flight, newest⟩ := ordered.newest
        have superseded := guarded nothing
        rw [ephemeral] at newest superseded
        refine ⟨by simp [critical], ordered.price, onTheWay, flight.update idle (by simp), ?_⟩
        dsimp only
        rw [calls]
        exact newest_drop newest superseded

theorem ordered_step (guarded : OneAtATime limits market floor action)
    (moves : Moves limits Publication.apply floor action after)
    (ordered : Ordered market floor) : Ordered market after := by
  have calls : ∀ event : Event (Publication π), (∀ pending, event ≠ .accepted pending) →
      priceCalls market (floor.log ++ [event]) = priceCalls market floor.log := by
    intro event other
    cases event with
    | accepted pending => exact absurd rfl (other pending)
    | _ => simp [priceCalls]
  cases moves with
  | accept offered =>
      obtain ⟨⟨call, isCall⟩, room⟩ := guarded
      rw [isCall] at offered room ⊢
      exact ordered_accept room offered ordered
  | spill offered =>
      obtain ⟨_, rfl⟩ := Queues.enqueue_spilled offered
      obtain ⟨onTheWay, flight, newest⟩ := ordered.newest
      obtain ⟨critical, ephemeral⟩ := floor.queues.spill_queues (pendingOf _ _ _)
      refine ⟨?_, ordered.price, onTheWay, flight, ?_⟩
      · dsimp only
        rw [critical]
        exact ordered.critical
      · dsimp only
        rw [ephemeral, calls (.spilled _) nofun]
        exact newest
  | take top next => exact ordered_take (guarded _ _ next) top next ordered
  | publish sending => exact ordered_publish sending ordered
  | fail sending => exact ordered_fail guarded sending ordered
  | flush top idle distinct owed =>
      exact ordered.idle ⟨rfl, rfl⟩ rfl rfl rfl (by simp [top]) (by simp)
  | mark flushing =>
      exact ordered.idle ⟨rfl, rfl⟩ rfl (calls _ nofun) rfl (by simp [flushing]) (by simp)
  | resume flushing => exact ordered_resume guarded flushing ordered
  | park top idle owed => exact ordered.idle ⟨rfl, rfl⟩ rfl rfl rfl (by simp [top]) (by simp)
  | wake waiting => exact ordered.idle ⟨rfl, rfl⟩ rfl rfl rfl (by simp [waiting]) (by simp)

end Steps

/-! # Runs -/

section Runs

variable {π : Type} {limits : Limits} {market : MarketKey} {floor : Floor (Publication π) (Redis π)}
  {actions : List (Action (Publication π))}

theorem Ordered.drained (ordered : Ordered market floor) (drained : Drained market floor) :
    Newest (floor.redis.shown market) (priceCalls market floor.log) := by
  obtain ⟨onTheWay, flight, newest⟩ := ordered.newest
  have noneQueued : floor.queues.ephemeral.filterMap (priceOf market) = [] := by
    rw [List.filterMap_eq_nil_iff]
    exact drained.1
  have noneSent : onTheWay = none := by
    cases onTheWay with
    | none => rfl
    | some prices =>
        obtain ⟨sender, pending, sending, carries, _⟩ := flight
        rw [drained.2 sender pending sending] at carries
        contradiction
  simpa [noneQueued, noneSent] using newest

/-- When one price of the market is sent at a time, prices are shown in the order of the calls,
and the last call is what the cache is left with. -/
theorem newest_price_wins
    (run : Run (Moves limits Publication.apply) (OneAtATime limits market) (.start .empty) actions
      floor) :
    (floor.redis.shown market).Sublist (priceCalls market floor.log) ∧
      ((floor.redis.frames market).map Stamped.seq).Pairwise (· < ·) ∧
      (Drained market floor →
        floor.redis.price market = (priceCalls market floor.log).getLast?) := by
  have numbered : floor.redis.Numbered :=
    run.invariant (fun state => state.redis.Numbered)
      (fun _ _ _ _ moves numbered => numbered_step moves numbered)
      (by simp [Redis.Numbered, Redis.frames, Redis.empty, Floor.start])
  have ordered : Ordered market floor := by
    refine run.invariant (Ordered market)
      (fun _ _ _ guarded moves ordered => ordered_step guarded moves ordered) ?_
    refine ⟨by simp [Floor.start], rfl, none, by simp [OnTheWay, Floor.start], ?_⟩
    exact ⟨List.Sublist.refl _, rfl⟩
  refine ⟨?_, ?_, ?_⟩
  · obtain ⟨onTheWay, _, newest⟩ := ordered.newest
    rw [List.append_assoc] at newest
    exact (List.sublist_append_left _ _).trans newest.ordered
  · rw [numbered market]
    exact List.pairwise_lt_range'
  · intro drained
    rw [ordered.price]
    exact (ordered.drained drained).last

end Runs

def priceFrame (price : ℚ) : Pending (Publication ℚ) :=
  pendingOf (.price "m" price) "price_update" none

theorem priceFrame_eq (price : ℚ) :
    priceFrame price = ⟨.price "m" price, .ephemeral, "price_update", none⟩ := by
  simp [priceFrame, pendingOf, criticalFrames]

def roomy : Limits := ⟨10, 10⟩

theorem accept_price (price : ℚ) (waiting : List (Pending (Publication ℚ)))
    (room : waiting.length < 10) :
    Queues.enqueue roomy ⟨waiting, [], ∅⟩ (priceFrame price) =
      .accepted ⟨waiting ++ [priceFrame price], [], ∅⟩ := by
  simp [Queues.enqueue, priceFrame_eq, roomy, Nat.not_le.mpr room]

/-- Two writers take the two prices of a market, and the older one arrives last. -/
theorem older_price_arrives_last :
    ∃ floor, Run (Moves roomy Publication.apply) (fun _ _ => True) (.start .empty)
        [.enqueue (priceFrame 1), .enqueue (priceFrame 2), .take 0, .take 1, .publish 1,
          .publish 0] floor ∧
      Drained "m" floor ∧ priceCalls "m" floor.log = [1, 2] ∧
      floor.redis.price "m" = some 1 ∧ floor.redis.shown "m" = [2, 1] := by
  refine ⟨?floor, ?run, ⟨?_, ?_⟩, ?_, ?_, ?_⟩
  case run =>
    apply Run.act trivial (.accept (accept_price 1 [] (by simp)))
    apply Run.act trivial (.accept (accept_price 2 [priceFrame 1] (by simp)))
    apply Run.act trivial (.take rfl rfl)
    apply Run.act trivial (.take rfl rfl)
    apply Run.act trivial (.publish rfl)
    apply Run.act trivial (.publish rfl)
    exact .stop _
  · simp
  · intro writer pending sending
    by_cases first : writer = 0
    · simp [first] at sending
    · by_cases second : writer = 1
      · simp [second] at sending
      · simp [first, second, Floor.start] at sending
  · simp [priceCalls, priceFrame_eq, priceOf, Floor.start, pendingOf, criticalFrames]
  · simp [priceFrame_eq, Publication.apply, Redis.seqAndPublish]
  · simp [priceFrame_eq, Publication.apply, Redis.seqAndPublish, Redis.shown, Redis.frames,
      Redis.empty, Floor.start]

/-- A writer that sends both, one after the other, leaves the newer one. -/
theorem newer_price_arrives_last :
    ∃ floor, Run (Moves roomy Publication.apply) (OneAtATime roomy "m") (.start .empty)
        [.enqueue (priceFrame 1), .enqueue (priceFrame 2), .take 0, .publish 0, .take 0,
          .publish 0] floor ∧
      Drained "m" floor ∧ floor.redis.price "m" = some 2 := by
  obtain ⟨floor, sent, drained, calls⟩ :
      ∃ floor, Run (Moves roomy Publication.apply) (OneAtATime roomy "m") (.start .empty)
        [.enqueue (priceFrame 1), .enqueue (priceFrame 2), .take 0, .publish 0, .take 0,
          .publish 0] floor ∧
        Drained "m" floor ∧ priceCalls "m" floor.log = [1, 2] := by
    refine ⟨?floor, ?run, ⟨?_, ?_⟩, ?_⟩
    case run =>
      apply Run.act ⟨⟨.publishPriceUpdate "m" 1, rfl⟩, by simp [Floor.start, roomy]⟩
        (.accept (accept_price 1 [] (by simp)))
      apply Run.act ⟨⟨.publishPriceUpdate "m" 2, rfl⟩, by simp [roomy]⟩
        (.accept (accept_price 2 [priceFrame 1] (by simp)))
      apply Run.act (by simp [OneAtATime, Floor.start]) (.take rfl rfl)
      apply Run.act trivial (.publish rfl)
      refine Run.act ?alone (.take rfl rfl) ?later
      case later =>
        apply Run.act trivial (.publish rfl)
        exact .stop _
      intro _ _ _ _ writer other sending
      simp only [Function.update_idem] at sending
      simp [Function.update_apply, Floor.start] at sending
    · simp
    · intro writer pending sending
      by_cases first : writer = 0
      · simp [first] at sending
      · simp [first, Floor.start] at sending
    · simp [priceCalls, priceFrame_eq, priceOf, Floor.start, pendingOf, criticalFrames]
  refine ⟨floor, sent, drained, ?_⟩
  have last := (newest_price_wins sent).2.2 drained
  rw [calls] at last
  simpa using last

end PredictX.MarketFeed
