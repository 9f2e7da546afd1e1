import PredictX.Data.Run
import PredictX.Websocket.GridFeed

namespace PredictX.GridFeed

open PredictX.Data PredictX.MarketFeed

/-! Gaps that a grid sees.

The frames of a market that are under way are a chain: each begins behind the one before it, and
where the next number belongs to a frame that grids are sent, exactly there.  So a frame that
begins further on than the list's baseline allows has a frame before it that grids are not sent,
or that the wire has lost.
-/

/-- The frame is one that grids are sent. -/
def MarketEvent.Buffered {π : Type} : MarketEvent π → Prop
  | .price _ | .resolved => True
  | .other _ => False

/-- Grids are sent the frame with the number after `seq`. -/
def NextBuffered {π : Type} (events : List (MarketEvent π)) (seq : ℕ) : Prop :=
  ∃ event ∈ events[seq]?, event.Buffered

/-- `frames` go on from `floor`, and from a price that is followed directly if possible. -/
def Follows {π : Type} (events : List (MarketEvent π)) :
    ℕ → Bool → List (GridFrame π) → Prop
  | floor, afterPrice, [] =>
      floor ≤ events.length ∧ (afterPrice = true → ¬NextBuffered events floor)
  | floor, afterPrice, frame :: rest =>
      floor < frame.first ∧ frame.first ≤ frame.seq ∧ NextBuffered events (frame.first - 1) ∧
        (afterPrice = true → NextBuffered events floor → frame.first = floor + 1) ∧
        Follows events frame.seq frame.prices.isSome rest

/-- The frames of a market that are under way to the list. -/
def Grid.queue {π : Type} (grid : Grid π) (market : MarketKey) : List (GridFrame π) :=
  (grid.wire ++ [grid.pending]).filterMap fun batch => batch.find? market

section Chains

variable {π : Type} {events : List (MarketEvent π)} {event : MarketEvent π}
  {floor lower : ℕ} {afterPrice : Bool} {frames front old new : List (GridFrame π)}
  {frame : GridFrame π}

theorem nextBuffered_snoc_of_lt (within : floor < events.length) :
    NextBuffered (events ++ [event]) floor ↔ NextBuffered events floor := by
  simp only [NextBuffered, List.getElem?_append_left within]

theorem not_nextBuffered_of_le (outside : events.length ≤ floor) :
    ¬NextBuffered events floor := by
  simp [NextBuffered, List.getElem?_eq_none outside]

theorem NextBuffered.snoc (next : NextBuffered events floor) :
    NextBuffered (events ++ [event]) floor := by
  by_cases within : floor < events.length
  · exact (nextBuffered_snoc_of_lt within).mpr next
  · exact absurd next (not_nextBuffered_of_le (by omega))

theorem Follows.floor_le (follows : Follows events floor afterPrice frames) :
    floor ≤ events.length := by
  induction frames generalizing floor afterPrice with
  | nil => exact follows.1
  | cons frame rest ih =>
      obtain ⟨above, spans, -, -, later⟩ := follows
      have last := ih later
      omega

theorem Follows.weaken (follows : Follows events floor afterPrice frames)
    (below : lower ≤ floor) : Follows events lower false frames := by
  cases frames with
  | nil => exact ⟨below.trans follows.1, by simp⟩
  | cons frame rest =>
      obtain ⟨above, spans, starts, -, later⟩ := follows
      exact ⟨by omega, spans, starts, by simp, later⟩

/-- One more frame is published, and only the end of the chain changes. -/
theorem Follows.grow (front : List (GridFrame π))
    (ends : ∀ floor afterPrice, Follows events floor afterPrice old →
      Follows (events ++ [event]) floor afterPrice new)
    (follows : Follows events floor afterPrice (front ++ old)) :
    Follows (events ++ [event]) floor afterPrice (front ++ new) := by
  induction front generalizing floor afterPrice with
  | nil => exact ends _ _ follows
  | cons frame rest ih =>
      obtain ⟨above, spans, starts, direct, later⟩ := follows
      have bounded := later.floor_le
      refine ⟨above, spans, starts.snoc, fun priced next => direct priced ?_, ih later⟩
      exact (nextBuffered_snoc_of_lt (by omega)).mp next

/-- A frame that opens a window. -/
theorem Follows.opens (buffered : event.Buffered) (isFirst : frame.first = events.length + 1)
    (isLast : frame.seq = events.length + 1)
    (follows : Follows events floor afterPrice []) :
    Follows (events ++ [event]) floor afterPrice [frame] := by
  obtain ⟨below, direct⟩ := follows
  refine ⟨by omega, by omega, ⟨event, by simp [isFirst], buffered⟩, fun priced next => ?_, ?_,
    fun _ => ?_⟩
  · by_cases within : floor < events.length
    · exact absurd ((nextBuffered_snoc_of_lt within).mp next) (direct priced)
    · omega
  · simp [isLast]
  · exact not_nextBuffered_of_le (by simp [isLast])

/-- A frame that is collapsed into the one of its window. -/
theorem Follows.collapses {collapsed : GridFrame π}
    (follows : Follows events floor afterPrice [frame]) (sameFirst : collapsed.first = frame.first)
    (isLast : collapsed.seq = events.length + 1) :
    Follows (events ++ [event]) floor afterPrice [collapsed] := by
  obtain ⟨above, spans, starts, direct, within, -⟩ := follows
  refine ⟨by omega, by omega, sameFirst ▸ starts.snoc, fun priced next => ?_, ?_, fun _ => ?_⟩
  · rw [sameFirst]
    exact direct priced ((nextBuffered_snoc_of_lt (by omega)).mp next)
  · simp [isLast]
  · exact not_nextBuffered_of_le (by simp [isLast])

/-- A frame that a resolution in its window keeps out. -/
theorem Follows.keptOut (resolved : frame.prices = none)
    (follows : Follows events floor afterPrice [frame]) :
    Follows (events ++ [event]) floor afterPrice [frame] := by
  obtain ⟨above, spans, starts, direct, within, -⟩ := follows
  refine ⟨above, spans, starts.snoc, fun priced next => ?_, ?_, by simp [resolved]⟩
  · exact direct priced ((nextBuffered_snoc_of_lt (by omega)).mp next)
  · simp only [List.length_append]
    omega

/-- A frame that grids are not sent. -/
theorem Follows.unsent {type : String} (follows : Follows events floor afterPrice []) :
    Follows (events ++ [.other type]) floor afterPrice [] := by
  obtain ⟨below, direct⟩ := follows
  refine ⟨by simp only [List.length_append]; omega, fun priced next => ?_⟩
  by_cases within : floor < events.length
  · exact direct priced ((nextBuffered_snoc_of_lt within).mp next)
  · obtain ⟨event, isEvent, buffered⟩ := next
    obtain rfl : floor = events.length := by omega
    simp only [List.getElem?_concat_length, Option.mem_some_iff] at isEvent
    subst isEvent
    exact buffered

end Chains

section Steps

variable {π : Type} {grid after : Grid π} {market : MarketKey} {event : MarketEvent π}
  {floor : ℕ} {afterPrice : Bool}

theorem queue_eq (grid : Grid π) (market : MarketKey) :
    grid.queue market =
      grid.wire.filterMap (fun batch => batch.find? market) ++
        (grid.pending.find? market).toList := by
  rw [Grid.queue, List.filterMap_append]
  cases found : grid.pending.find? market with
  | none => simp [found]
  | some frame => simp [found]

theorem follows_bufferGridEvent {events : List (MarketEvent π)} {pending : Batch π}
    (buffered : event.Buffered) (prices : Option π)
    (follows : Follows events floor afterPrice (pending.find? market).toList) :
    Follows (events ++ [event]) floor afterPrice
      ((bufferGridEvent pending market prices (events.length + 1)).find? market).toList := by
  cases found : pending.find? market with
  | none =>
      rw [found] at follows
      rw [find?_bufferGridEvent_new found]
      exact Follows.opens buffered rfl rfl follows
  | some existing =>
      rw [found] at follows
      cases kind : existing.prices with
      | none =>
          rw [bufferGridEvent_resolved found kind, found]
          exact Follows.keptOut kind follows
      | some shown =>
          rw [find?_bufferGridEvent_again found (by simp [kind])]
          have alone : Follows events floor afterPrice [existing] := follows
          exact alone.collapses rfl rfl

theorem follows_publish (other : MarketKey)
    (follows : Follows (grid.published market) floor afterPrice (grid.queue market)) :
    Follows ((grid.publish other event).published market) floor afterPrice
      ((grid.publish other event).queue market) := by
  rw [queue_eq] at follows ⊢
  by_cases same : market = other
  · subst same
    simp only [Grid.publish, Function.update_self]
    refine Follows.grow _ (fun floor afterPrice ends => ?_) follows
    cases event with
    | price prices =>
        have buffered : (MarketEvent.price prices).Buffered := trivial
        exact follows_bufferGridEvent buffered (some prices) ends
    | resolved =>
        have buffered : (MarketEvent.resolved : MarketEvent π).Buffered := trivial
        exact follows_bufferGridEvent buffered none ends
    | other type =>
        cases found : grid.pending.find? market with
        | none =>
            simp only [broadcastToMarket, found, Option.toList_none] at ends ⊢
            exact ends.unsent
        | some frame =>
            simp only [broadcastToMarket, found, Option.toList_some] at ends ⊢
            exact Follows.grow [frame] (fun _ _ nothing => nothing.unsent) ends
  · have kept : (grid.publish other event).pending.find? market = grid.pending.find? market := by
      cases event with
      | price prices => exact find?_bufferGridEvent_other same
      | resolved => exact find?_bufferGridEvent_other same
      | other type => rfl
    rw [kept]
    simpa only [Grid.publish, Function.update_of_ne same] using follows

end Steps

/-- The list does not get the frame with the number after `prev`: grids are not sent it, or the
wire has lost the batch that begins with it. -/
def Grid.Missing {π : Type} (grid : Grid π) (market : MarketKey) (prev : ℕ) : Prop :=
  (∃ type, (grid.published market)[prev]? = some (.other type)) ∨
    ∃ frame ∈ grid.lost, frame.market = market ∧ frame.first = prev + 1

/-- What is under way goes on from the baseline, or the frame after it is missing. -/
def Grid.Accounted {π : Type} (grid : Grid π) (market : MarketKey) : Prop :=
  Follows (grid.published market) 0 false (grid.queue market) ∧
    ∀ prev ∈ grid.list.seqRef market,
      Follows (grid.published market) prev true (grid.queue market) ∨
        (grid.Missing market prev ∧
          Follows (grid.published market) (prev + 1) false (grid.queue market))

section Accounts

variable {π : Type} {grid after : Grid π} {market : MarketKey} {action : Action π} {prev : ℕ}

theorem Grid.Missing.publish (missing : grid.Missing market prev) (other : MarketKey)
    (event : MarketEvent π) : (grid.publish other event).Missing market prev := by
  rcases missing with ⟨type, isOther⟩ | lost
  · refine .inl ⟨type, ?_⟩
    by_cases same : market = other
    · subst same
      have within := (List.getElem?_eq_some_iff.mp isOther).1
      simpa only [Grid.publish, Function.update_self, List.getElem?_append_left within] using isOther
    · simpa only [Grid.publish, Function.update_of_ne same] using isOther
  · exact .inr lost

theorem accounted_publish (accounted : grid.Accounted market) (other : MarketKey)
    (event : MarketEvent π) : (grid.publish other event).Accounted market := by
  refine ⟨follows_publish other accounted.1, fun prev isPrev => ?_⟩
  rcases accounted.2 prev isPrev with follows | ⟨missing, follows⟩
  · exact .inl (follows_publish other follows)
  · exact .inr ⟨missing.publish other event, follows_publish other follows⟩

theorem queue_flushGrid (grid : Grid π) (market : MarketKey) :
    grid.flushGrid.queue market = grid.queue market := by
  rw [Grid.queue, Grid.flushGrid, List.filterMap_append]
  exact List.append_nil _

theorem queue_of_sent (market : MarketKey) {batch : Batch π} {rest : List (Batch π)}
    (sent : grid.wire = batch :: rest) :
    grid.queue market =
      (batch.find? market).toList ++ { grid with wire := rest }.queue market := by
  rw [Grid.queue, sent]
  cases found : batch.find? market with
  | none => simp [Grid.queue, found]
  | some frame => simp [Grid.queue, found]

/-- The next frame of a chain begins right after the baseline unless grids are not sent that
frame. -/
theorem Follows.starts {events : List (MarketEvent π)} {frame : GridFrame π}
    {rest : List (GridFrame π)} (follows : Follows events prev true (frame :: rest)) :
    frame.first = prev + 1 ∨ ∃ type, events[prev]? = some (.other type) := by
  obtain ⟨above, spans, -, direct, later⟩ := follows
  have bounded := later.floor_le
  have within : prev < events.length := by omega
  have isEvent := List.getElem?_eq_getElem within
  cases kind : events[prev] with
  | other type => exact .inr ⟨type, by rw [isEvent, kind]⟩
  | price prices => exact .inl (direct rfl ⟨_, isEvent, by simp [kind, MarketEvent.Buffered]⟩)
  | resolved => exact .inl (direct rfl ⟨_, isEvent, by simp [kind, MarketEvent.Buffered]⟩)

/-- A frame that does not begin where the list expects it tells of one that is missing. -/
theorem Grid.Accounted.missing_of_gap {frame : GridFrame π} {rest : List (GridFrame π)}
    (accounted : grid.Accounted market) (isQueue : grid.queue market = frame :: rest)
    (isPrev : grid.list.seqRef market = some prev) (gap : prev + 1 < frame.first) :
    grid.Missing market prev := by
  rcases accounted.2 prev isPrev with follows | ⟨missing, -⟩
  · rw [isQueue] at follows
    rcases follows.starts with contiguous | other
    · omega
    · exact .inl other
  · exact missing

/-- And it does not begin there if grids are not sent the frame with that number. -/
theorem Grid.Accounted.gap_of_other {frame : GridFrame π} {rest : List (GridFrame π)}
    {type : String} (accounted : grid.Accounted market)
    (isQueue : grid.queue market = frame :: rest) (isPrev : grid.list.seqRef market = some prev)
    (isOther : (grid.published market)[prev]? = some (.other type)) : prev + 1 < frame.first := by
  rcases accounted.2 prev isPrev with follows | ⟨-, follows⟩
  · rw [isQueue] at follows
    obtain ⟨above, -, ⟨event, isEvent, buffered⟩, -⟩ := follows
    rcases Nat.lt_or_ge (prev + 1) frame.first with gap | reached
    · exact gap
    · have here : frame.first - 1 = prev := by omega
      rw [here, isOther] at isEvent
      obtain rfl := Option.some.inj isEvent
      exact buffered.elim
  · rw [isQueue] at follows
    exact follows.1

theorem accounted_receive {batch : Batch π} {rest : List (Batch π)}
    (sent : grid.wire = batch :: rest) (accounted : grid.Accounted market) :
    { grid with wire := rest, list := grid.list.handlePrices batch }.Accounted market := by
  have isQueue := queue_of_sent market sent
  cases found : batch.find? market with
  | none =>
      rw [found, Option.toList_none, List.nil_append] at isQueue
      rw [Grid.Accounted, isQueue] at accounted
      refine ⟨accounted.1, fun prev isPrev => accounted.2 prev ?_⟩
      rwa [(handlePrices_absent grid.list found).1] at isPrev
  | some frame =>
      rw [found, Option.toList_some, List.singleton_append] at isQueue
      have whole := accounted.1
      rw [isQueue] at whole
      obtain ⟨-, spans, -, -, later⟩ := whole
      refine ⟨later.weaken (Nat.zero_le _), fun prev isPrev => ?_⟩
      rw [(handlePrices_found grid.list found).1, rebase] at isPrev
      cases kind : frame.prices with
      | none => simp [kind] at isPrev
      | some prices =>
          simp only [kind] at isPrev
          split at isPrev
          · rename_i gapped
            obtain ⟨old, isOld, gap⟩ := gapped
            obtain rfl : old = prev := Option.some.inj (isOld.symm.trans isPrev)
            exact .inr ⟨accounted.missing_of_gap isQueue isOld gap, later.weaken (by omega)⟩
          · obtain rfl : frame.seq = prev := Option.some.inj isPrev
            rw [kind] at later
            exact .inl later

theorem accounted_lose {batch : Batch π} {rest : List (Batch π)}
    (sent : grid.wire = batch :: rest) (accounted : grid.Accounted market) :
    { grid with wire := rest, lost := grid.lost ++ batch.rows }.Accounted market := by
  have isQueue := queue_of_sent market sent
  have stillMissing : ∀ {prev}, grid.Missing market prev →
      { grid with wire := rest, lost := grid.lost ++ batch.rows }.Missing market prev := by
    rintro prev (other | ⟨frame, member, starts⟩)
    · exact .inl other
    · exact .inr ⟨frame, List.mem_append_left _ member, starts⟩
  cases found : batch.find? market with
  | none =>
      rw [found, Option.toList_none, List.nil_append] at isQueue
      rw [Grid.Accounted, isQueue] at accounted
      refine ⟨accounted.1, fun prev isPrev => ?_⟩
      rcases accounted.2 prev isPrev with follows | ⟨missing, follows⟩
      · exact .inl follows
      · exact .inr ⟨stillMissing missing, follows⟩
  | some frame =>
      rw [found, Option.toList_some, List.singleton_append] at isQueue
      rw [Grid.Accounted, isQueue] at accounted
      obtain ⟨⟨-, spans, -, -, later⟩, known⟩ := accounted
      refine ⟨later.weaken (Nat.zero_le _), fun prev isPrev => .inr ?_⟩
      obtain ⟨member, isMarket⟩ := Table.find?_eq_some.mp found
      rcases known prev isPrev with follows | ⟨missing, follows⟩
      · have above := follows.1
        refine ⟨?_, later.weaken (by omega)⟩
        rcases follows.starts with contiguous | other
        · exact .inr ⟨frame, List.mem_append_right _ member, isMarket, contiguous⟩
        · exact .inl other
      · have above := follows.1
        exact ⟨stillMissing missing, later.weaken (by omega)⟩

theorem accounted_flush (accounted : grid.Accounted market) :
    { grid with list := grid.list.flush }.Accounted market := by
  refine ⟨accounted.1, fun prev isPrev => ?_⟩
  cases resync : grid.list.needsResync with
  | true => simp [MarketList.flush, resync] at isPrev
  | false =>
      simp only [MarketList.flush, resync] at isPrev
      exact accounted.2 prev isPrev

theorem accounted_step (moves : Moves grid action after) (accounted : grid.Accounted market) :
    after.Accounted market := by
  cases moves with
  | publish other event => exact accounted_publish accounted other event
  | flushGrid =>
      rw [Grid.Accounted, queue_flushGrid]
      exact accounted
  | receive sent => exact accounted_receive sent accounted
  | lose sent => exact accounted_lose sent accounted
  | flush => exact accounted_flush accounted

theorem accounted_opened (published : MarketKey → List (MarketEvent π)) (market : MarketKey) :
    (Grid.opened published).Accounted market :=
  ⟨⟨Nat.zero_le _, by simp⟩, by simp [Grid.opened, MarketList.mounted]⟩

theorem accounted_run {guard : Grid π → Action π → Prop}
    {published : MarketKey → List (MarketEvent π)} {actions : List (Action π)} {final : Grid π}
    (run : Run Moves guard (.opened published) actions final) (market : MarketKey) :
    final.Accounted market := by
  apply run.invariant (fun grid => grid.Accounted market)
  · exact fun _ _ _ _ moves accounted => accounted_step moves accounted
  · exact accounted_opened published market

end Accounts

/-- The batch that is next to arrive has this frame of the market. -/
def Grid.Brings {π : Type} (grid : Grid π) (market : MarketKey) (frame : GridFrame π) : Prop :=
  ∃ batch ∈ grid.wire.head?, batch.find? market = some frame

/-- A price of the market is next to arrive, and the frame that was published directly after the
price that the list has is a trade or an order-book update. -/
def Grid.Interleaved {π : Type} (grid : Grid π) (market : MarketKey) : Prop :=
  ∃ frame prev type, grid.Brings market frame ∧ frame.prices.isSome ∧
    grid.list.seqRef market = some prev ∧ (grid.published market)[prev]? = some (.other type)

section Gaps

variable {π : Type} {grid after : Grid π} {market : MarketKey} {action : Action π}
  {frame : GridFrame π}

theorem queue_of_brings (brings : grid.Brings market frame) :
    ∃ rest, grid.queue market = frame :: rest := by
  obtain ⟨batch, isHead, found⟩ := brings
  obtain ⟨later, sent⟩ := List.head?_eq_some_iff.mp isHead
  rw [queue_of_sent market sent, found]
  exact ⟨_, rfl⟩

theorem gaps_of_brings (moves : Moves grid .receive after) (brings : grid.Brings market frame) :
    after.list.gaps market =
      grid.list.gaps market + if frame.Flags (grid.list.seqRef market) then 1 else 0 := by
  obtain ⟨batch, isHead, found⟩ := brings
  cases moves with
  | receive sent =>
      rw [sent] at isHead
      obtain rfl := Option.some.inj isHead
      exact (handlePrices_found grid.list found).2

/-- A frame sets `needsResync` only when a price of the market arrives. -/
theorem gaps_step (moves : Moves grid action after)
    (quiet : action = .receive → ∀ frame, grid.Brings market frame →
      ¬frame.Flags (grid.list.seqRef market)) :
    after.list.gaps market = grid.list.gaps market := by
  cases moves with
  | publish | flushGrid | lose => rfl
  | @receive batch rest sent =>
      cases found : batch.find? market with
      | none => exact (handlePrices_absent grid.list found).2
      | some frame =>
          have brings : grid.Brings market frame := ⟨batch, by simp [sent], found⟩
          have unflagged := quiet rfl frame brings
          exact (handlePrices_found grid.list found).2.trans (by simp [unflagged])
  | flush => simp only [MarketList.flush]; split <;> rfl

/-- Where nothing was lost, a price sets `needsResync` just if another frame follows the last. -/
theorem flags_iff_interleaved (accounted : grid.Accounted market) (lossless : grid.lost = [])
    (brings : grid.Brings market frame) :
    frame.Flags (grid.list.seqRef market) ↔ grid.Interleaved market := by
  obtain ⟨rest, isQueue⟩ := queue_of_brings brings
  constructor
  · rintro ⟨priced, prev, isPrev, gap⟩
    rcases accounted.missing_of_gap isQueue isPrev gap with ⟨type, isOther⟩ | ⟨_, member, -⟩
    · exact ⟨frame, prev, type, brings, priced, isPrev, isOther⟩
    · simp [lossless] at member
  · rintro ⟨other, prev, type, ⟨batch, isHead, found⟩, priced, isPrev, isOther⟩
    obtain ⟨batch', isHead', found'⟩ := brings
    obtain rfl : batch' = batch := Option.some.inj (isHead'.symm.trans isHead)
    obtain rfl : frame = other := Option.some.inj (found'.symm.trans found)
    exact ⟨priced, prev, isPrev, accounted.gap_of_other isQueue isPrev isOther⟩

theorem lossless_step (moves : Moves grid action after) (kept : action ≠ .lose)
    (lossless : grid.lost = []) : after.lost = [] := by
  cases moves with
  | lose => exact absurd rfl kept
  | publish | flushGrid | receive | flush => exact lossless

theorem lossless_run {published : MarketKey → List (MarketEvent π)} {actions : List (Action π)}
    {final : Grid π}
    (run : Run Moves (fun _ action => action ≠ .lose) (.opened published) actions final) :
    final.lost = [] := by
  apply run.invariant (fun grid => grid.lost = [])
  · exact fun _ _ _ kept moves lossless => lossless_step moves kept lossless
  · rfl

/-- After a loss the list's baseline stays below what it lost, and the rest above it. -/
def Grid.Behind (grid : Grid π) (market : MarketKey) (seq : ℕ) : Prop :=
  Follows (grid.published market) seq false (grid.queue market) ∧
    ∀ prev ∈ grid.list.seqRef market, prev < seq

theorem behind_of_lose (accounted : grid.Accounted market) (moves : Moves grid .lose after)
    (brings : grid.Brings market frame) : after.Behind market frame.seq := by
  obtain ⟨batch, isHead, found⟩ := brings
  cases moves with
  | lose sent =>
      rw [sent] at isHead
      obtain rfl := Option.some.inj isHead
      have isQueue := queue_of_sent market sent
      rw [found, Option.toList_some, List.singleton_append] at isQueue
      rw [Grid.Accounted, isQueue] at accounted
      obtain ⟨⟨-, spans, -, -, later⟩, known⟩ := accounted
      refine ⟨later.weaken le_rfl, fun prev isPrev => ?_⟩
      rcases known prev isPrev with follows | ⟨-, follows⟩
      · exact follows.1.trans_le spans
      · exact (Nat.lt_of_succ_lt follows.1).trans_le spans

theorem behind_step {seq : ℕ} (moves : Moves grid action after) (behind : grid.Behind market seq)
    (priceless : action = .receive → ∀ frame, grid.Brings market frame → frame.prices = none) :
    after.Behind market seq := by
  have passes : ∀ {batch : Batch π} {rest : List (Batch π)}, grid.wire = batch :: rest →
      Follows (grid.published market) seq false ({ grid with wire := rest }.queue market) := by
    intro batch rest sent
    have follows := behind.1
    rw [queue_of_sent market sent] at follows
    cases found : batch.find? market with
    | none =>
        rw [found] at follows
        exact follows
    | some frame =>
        rw [found] at follows
        obtain ⟨above, spans, -, -, later⟩ := follows
        exact later.weaken (by omega)
  cases moves with
  | publish other event => exact ⟨follows_publish other behind.1, behind.2⟩
  | flushGrid => exact ⟨(queue_flushGrid grid market).symm ▸ behind.1, behind.2⟩
  | @receive batch rest sent =>
      refine ⟨passes sent, fun prev isPrev => behind.2 prev ?_⟩
      cases found : batch.find? market with
      | none => rwa [(handlePrices_absent grid.list found).1] at isPrev
      | some frame =>
          have resolved := priceless rfl frame ⟨batch, by simp [sent], found⟩
          rw [(handlePrices_found grid.list found).1, rebase, resolved] at isPrev
          contradiction
  | lose sent => exact ⟨passes sent, behind.2⟩
  | flush =>
      refine ⟨behind.1, fun prev isPrev => ?_⟩
      cases resync : grid.list.needsResync with
      | true => simp [MarketList.flush, resync] at isPrev
      | false =>
          simp only [MarketList.flush, resync] at isPrev
          exact behind.2 prev isPrev

/-- Where nothing is lost, the grid takes a frame that it was never to be sent for a loss.  A
price that is lost is noticed at the next one, unless the list has dropped its baseline. -/
theorem gaps_exactly (published : MarketKey → List (MarketEvent π)) (market : MarketKey) :
    (∀ actions final,
      Run Moves (fun grid action => action ≠ .lose ∧
        (action = .receive → ¬grid.Interleaved market)) (.opened published) actions final →
      final.list.gaps market = 0) ∧
    (∀ actions grid after,
      Run Moves (fun _ action => action ≠ .lose) (.opened published) actions grid →
      Moves grid .receive after → grid.Interleaved market →
      after.list.gaps market = grid.list.gaps market + 1) ∧
    (∀ actions grid lossy frame,
      Run Moves (fun _ _ => True) (.opened published) actions grid →
      Moves grid .lose lossy → grid.Brings market frame → frame.prices.isSome →
      ∀ more later after next,
        Run Moves (fun grid action => action = .receive →
          ∀ frame, grid.Brings market frame → frame.prices = none) lossy more later →
        Moves later .receive after → later.Brings market next → next.prices.isSome →
        (after.list.gaps market = later.list.gaps market + 1 ↔
          later.list.seqRef market ≠ none)) := by
  refine ⟨?noFalseGap, ?falseGap, ?noticed⟩
  case noFalseGap =>
    intro actions final run
    have invariant : final.Accounted market ∧ final.lost = [] ∧ final.list.gaps market = 0 := by
      apply run.invariant fun grid =>
        grid.Accounted market ∧ grid.lost = [] ∧ grid.list.gaps market = 0
      · intro grid action after ⟨kept, apart⟩ moves ⟨accounted, lossless, untold⟩
        have quiet : after.list.gaps market = grid.list.gaps market :=
          gaps_step moves fun receives frame brings flags =>
            apart receives ((flags_iff_interleaved accounted lossless brings).mp flags)
        exact ⟨accounted_step moves accounted, lossless_step moves kept lossless,
          quiet.trans untold⟩
      · exact ⟨accounted_opened published market, rfl, rfl⟩
    exact invariant.2.2
  case falseGap =>
    intro actions grid after run moves interleaved
    obtain ⟨frame, -, -, brings, -⟩ := id interleaved
    have flags := (flags_iff_interleaved (accounted_run run market) (lossless_run run) brings).mpr
      interleaved
    rw [gaps_of_brings moves brings, if_pos flags]
  case noticed =>
    intro actions grid lossy frame run loses brings priced more later after next quiet moves
      nextBrings nextPriced
    have behind : later.Behind market frame.seq := by
      apply quiet.invariant fun grid => grid.Behind market frame.seq
      · exact fun _ _ _ priceless moves behind => behind_step moves behind priceless
      · exact behind_of_lose (accounted_run run market) loses brings
    obtain ⟨rest, isQueue⟩ := queue_of_brings nextBrings
    have above := behind.1
    rw [isQueue] at above
    rw [gaps_of_brings moves nextBrings]
    cases isPrev : later.list.seqRef market with
    | none => simp [GridFrame.Flags, Gapped]
    | some prev =>
        have below := behind.2 prev isPrev
        have flags : next.Flags (some prev) := ⟨nextPriced, prev, rfl, by have := above.1; omega⟩
        simp [flags]

/-- A price is lost after one that arrived, and the one after it sets `needsResync`. -/
theorem lost_price_is_noticed : ∃ grid lossy later after : Grid ℚ,
    Run Moves (fun _ _ => True) (.opened fun _ => [])
      [.publish "m" (.price (1 / 2)), .flushGrid, .receive, .publish "m" (.price (3 / 5)),
        .flushGrid] grid ∧
    Moves grid .lose lossy ∧
    Run Moves (fun grid action => action = .receive →
      ∀ frame, grid.Brings "m" frame → frame.prices = none) lossy
      [.publish "m" (.price (2 / 5)), .flushGrid] later ∧
    Moves later .receive after ∧ after.list.gaps "m" = later.list.gaps "m" + 1 := by
  obtain ⟨grid, run, lossy, loses, brings, later, more, after, receives, nextBrings, known⟩ :
      ∃ grid : Grid ℚ,
        Run Moves (fun _ _ => True) (.opened fun _ => [])
          [.publish "m" (.price (1 / 2)), .flushGrid, .receive, .publish "m" (.price (3 / 5)),
            .flushGrid] grid ∧
        ∃ lossy, Moves grid .lose lossy ∧ grid.Brings "m" ⟨"m", some (3 / 5), 2, none⟩ ∧
        ∃ later, Run Moves (fun grid action => action = .receive →
          ∀ frame, grid.Brings "m" frame → frame.prices = none) lossy
          [.publish "m" (.price (2 / 5)), .flushGrid] later ∧
        ∃ after, Moves later .receive after ∧
          later.Brings "m" ⟨"m", some (2 / 5), 3, none⟩ ∧ later.list.seqRef "m" ≠ none := by
    refine ⟨?grid, ?run, ?lost⟩
    case run =>
      apply Run.act trivial (.publish _ _)
      apply Run.act trivial (.flushGrid (by decide))
      apply Run.act trivial (.receive rfl)
      apply Run.act trivial (.publish _ _)
      apply Run.act trivial (.flushGrid (by decide))
      exact .stop _
    case lost =>
      refine ⟨_, .lose rfl, ⟨_, rfl, rfl⟩, ?later, ?more, ?noticed⟩
      case more =>
        apply Run.act (by simp) (.publish _ _)
        apply Run.act (by simp) (.flushGrid (by decide))
        exact .stop _
      case noticed => exact ⟨_, .receive rfl, ⟨_, rfl, rfl⟩, by decide⟩
  have noticed := ((gaps_exactly (fun _ => []) "m").2.2 _ _ _ _ run loses brings rfl _ _ _ _ more
    receives nextBrings rfl).mpr known
  exact ⟨grid, lossy, later, after, run, loses, more, receives, noticed⟩

/-- The book changes between two prices, nothing is lost, and the grid asks for a resync. -/
theorem book_update_is_taken_for_a_loss : ∃ final : Grid ℚ,
    Run Moves (fun _ action => action ≠ .lose) (.opened fun _ => [])
      [.publish "m" (.price (1 / 2)), .flushGrid, .receive,
        .publish "m" (.other "orderbook:update"), .publish "m" (.price (3 / 5)), .flushGrid, .receive]
      final ∧
    final.list.gaps "m" ≠ 0 ∧ final.list.needsResync = true := by
  refine ⟨?final, ?run, ?told⟩
  case run =>
    apply Run.act (by simp) (.publish _ _)
    apply Run.act (by simp) (.flushGrid (by decide))
    apply Run.act (by simp) (.receive rfl)
    apply Run.act (by simp) (.publish _ _)
    apply Run.act (by simp) (.publish _ _)
    apply Run.act (by simp) (.flushGrid (by decide))
    apply Run.act (by simp) (.receive rfl)
    exact .stop _
  case told => decide

end Gaps

end PredictX.GridFeed
