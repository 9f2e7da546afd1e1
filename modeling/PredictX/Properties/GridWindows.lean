import PredictX.Data.Run
import PredictX.Websocket.GridBuffer

namespace PredictX.GridBuffer

open PredictX.Data PredictX.MarketFeed PredictX.ConnectionManager
open PredictX.GridFeed (GridFrame MarketEvent)

/-! What a flush tells a socket, and the events of the socket's own window.

An event goes into all the buffers as one payload, which begins where one of the buffers does.
So the windows of the sockets that are open to it have to begin alike, with the event itself where
nothing is buffered yet; and a socket that declares its grid anew must not wait for a resolution.
-/

/-- What an entry tells of its market. -/
structure Told (π : Type) where
  market : MarketKey
  prices : Option π
  seq : ℕ
  seqFrom : ℕ
deriving DecidableEq, Repr

def told {π : Type} (frame : GridFrame π) : Told π :=
  ⟨frame.market, frame.prices, frame.seq, frame.first⟩

/-- The event that an entry has to show: the resolution, or else the last price. -/
def shown {π : Type} (first : Seen π) (later : List (Seen π)) : Seen π :=
  ((first :: later).find? fun seen => seen.prices.isNone).getD (later.getLast?.getD first)

/-- What a socket has to be told of a window. -/
def windowTold {π : Type} (market : MarketKey) : List (Seen π) → Option (Told π)
  | [] => none
  | first :: later =>
      some ⟨market, (shown first later).prices, (shown first later).seq, first.seq⟩

/-- The sockets that are open to the event begin alike with it. -/
def SameStart {π : Type} (manager : Manager π) (market : MarketKey) (seq : ℕ) : Prop :=
  ∀ one ∈ manager.gridSubscribers market, ∀ other ∈ manager.gridSubscribers market,
    Open manager.gridPending market one → Open manager.gridPending market other →
      (begins manager.gridPending market one).getD seq =
        (begins manager.gridPending market other).getD seq

/-- The step keeps the sockets apart and no resolution is thrown away. -/
def Harmless {π : Type} (manager : Manager π) : Action π → Prop
  | .broadcast _ market (.price _) seq | .broadcast _ market .resolved seq =>
      SameStart manager market seq
  | .subscribe socket marketIds =>
      ∀ market ∈ acceptedMarkets marketIds, Open manager.gridPending market socket
  | .broadcast _ _ (.other _) _ | .flush | .clear _ => True

instance {π : Type} (manager : Manager π) (market : MarketKey) (seq : ℕ) :
    Decidable (SameStart manager market seq) :=
  inferInstanceAs (Decidable (∀ one ∈ manager.gridSubscribers market, _))

instance {π : Type} (manager : Manager π) (action : Action π) :
    Decidable (Harmless manager action) :=
  match action with
  | .broadcast _ market (.price _) seq | .broadcast _ market .resolved seq =>
      inferInstanceAs (Decidable (SameStart manager market seq))
  | .subscribe socket marketIds =>
      inferInstanceAs (Decidable
        (∀ market ∈ acceptedMarkets marketIds, Open manager.gridPending market socket))
  | .broadcast _ _ (.other _) _ | .flush | .clear _ => inferInstanceAs (Decidable True)

/-- The buffers tell what the windows ask for, and the index is that of the grids. -/
structure Faithful {π : Type} (manager : Manager π) : Prop where
  indexed : ∀ socket market,
    socket ∈ manager.gridSubscribers market ↔ market ∈ manager.gridSubs socket
  tells : ∀ socket market,
    (manager.gridPending socket market).map told =
      windowTold market (manager.windows socket market)

section Windows

variable {π : Type} {market : MarketKey} {window : List (Seen π)} {seen : Seen π}

theorem newest_mem (first : Seen π) (later : List (Seen π)) :
    later.getLast?.getD first ∈ first :: later := by
  cases last : later.getLast? with
  | none => exact List.mem_cons_self
  | some seen => exact List.mem_cons_of_mem first (List.mem_of_getLast? last)

theorem shown_snoc (first : Seen π) (later : List (Seen π)) (seen : Seen π) :
    shown first (later ++ [seen]) =
      if (shown first later).prices = none then shown first later else seen := by
  unfold shown
  rw [← List.cons_append, List.find?_append]
  cases resolution : (first :: later).find? fun seen => seen.prices.isNone with
  | some resolved =>
      have ends : resolved.prices = none := by simpa using List.find?_some resolution
      simp [ends]
  | none =>
      have priced : (later.getLast?.getD first).prices ≠ none := by
        simpa using List.find?_eq_none.mp resolution _ (newest_mem first later)
      cases isPrice : seen.prices <;> simp [priced, isPrice]

theorem windowTold_snoc (market : MarketKey) (window : List (Seen π)) (seen : Seen π) :
    windowTold market (window ++ [seen]) =
      match windowTold market window with
      | none => some ⟨market, seen.prices, seen.seq, seen.seq⟩
      | some earlier =>
          some (if earlier.prices = none then earlier
            else ⟨market, seen.prices, seen.seq, earlier.seqFrom⟩) := by
  cases window with
  | nil => cases isPrice : seen.prices <;> simp [windowTold, shown, isPrice]
  | cons first later =>
      simp only [windowTold, List.cons_append, shown_snoc]
      split <;> rfl

/-- A window is told as a resolution exactly when it holds one. -/
theorem ended_iff :
    Ended window ↔ ∃ earlier ∈ windowTold market window, earlier.prices = none := by
  cases window with
  | nil => simp [Ended, windowTold]
  | cons first later =>
      simp only [windowTold, Option.mem_def, Option.some.injEq, exists_eq_left', shown]
      cases resolution : (first :: later).find? fun seen => seen.prices.isNone with
      | some resolved =>
          have ends : resolved.prices = none := by simpa using List.find?_some resolution
          exact ⟨fun _ => ends, fun _ => ⟨resolved, List.mem_of_find?_eq_some resolution, ends⟩⟩
      | none =>
          have priced := List.find?_eq_none.mp resolution
          constructor
          · rintro ⟨seen, member, ends⟩
            simpa [ends] using priced seen member
          · intro ends
            exact ⟨_, newest_mem first later, ends⟩

end Windows

section Steps

variable {π : Type} {manager after : Manager π} {order : List Socket} {market : MarketKey}
  {seen : Seen π} {action : Action π} {pending : Pending π} {socket : Socket}
  {window : List (Seen π)}

/-- An open socket is told right when the payload begins where its own entry does. -/
theorem tells_open_iff (tells : (pending socket market).map told = windowTold market window)
    (isOpen : Open pending market socket) (carries : Option ℕ) :
    (some ⟨market, seen.prices, seen.seq, carries⟩ : Option (GridFrame π)).map told =
        windowTold market (window ++ [seen]) ↔
      carries.getD seen.seq = (begins pending market socket).getD seen.seq := by
  rw [windowTold_snoc, ← tells]
  cases found : pending socket market with
  | none => simp [told, begins, found, GridFrame.first]
  | some existing =>
      have priced : existing.prices ≠ none := by
        simpa [Option.isSome_iff_ne_none] using (open_some found).mp isOpen
      simp [told, begins, found, GridFrame.first, priced]

/-- A socket that waits for a resolution stays told of it. -/
theorem tells_closed (tells : (pending socket market).map told = windowTold market window)
    (closed : ¬Open pending market socket) :
    (pending socket market).map told = windowTold market (window ++ [seen]) := by
  rw [windowTold_snoc, ← tells]
  cases found : pending socket market with
  | none => exact absurd (open_none found) closed
  | some existing =>
      have resolved : existing.prices = none := by
        simpa [open_some found] using closed
      simp [told, resolved]

/-- The payload begins where all the open sockets do, or at the event. -/
theorem carried_getD {seq : ℕ} (alike : SameStart manager market seq)
    (all : order.toFinset = manager.gridSubscribers market) (member : socket ∈ order)
    (isOpen : Open manager.gridPending market socket) :
    (carried manager.gridPending order market).getD seq =
      (begins manager.gridPending market socket).getD seq := by
  cases starts : carried manager.gridPending order market with
  | none => rw [carried_eq_none starts member isOpen]
  | some first =>
      obtain ⟨other, otherMember, otherOpen, isFirst⟩ := carried_eq_some starts
      rw [← isFirst]
      exact alike other (all ▸ List.mem_toFinset.mpr otherMember) socket
        (all ▸ List.mem_toFinset.mpr member) otherOpen isOpen

/-- An event is told right to every socket exactly when the open ones begin alike. -/
theorem buffer_tells_iff (faithful : Faithful manager)
    (all : order.toFinset = manager.gridSubscribers market) :
    (∀ socket other, ((manager.buffer order market seen).gridPending socket other).map told =
        windowTold other ((manager.buffer order market seen).windows socket other)) ↔
      SameStart manager market seen.seq := by
  have member : ∀ socket, socket ∈ order ↔ market ∈ manager.gridSubs socket := fun socket => by
    rw [← faithful.indexed, ← all, List.mem_toFinset]
  unfold Manager.buffer Manager.widen
  simp only [bufferGridEvent_eq]
  constructor
  · intro tells one oneShows other otherShows oneOpen otherOpen
    have starts : ∀ socket ∈ manager.gridSubscribers market,
        Open manager.gridPending market socket →
          (carried manager.gridPending order market).getD seen.seq =
            (begins manager.gridPending market socket).getD seen.seq := by
      intro socket shows isOpen
      have declared := (faithful.indexed socket market).mp shows
      have here := tells socket market
      rw [if_pos ⟨rfl, (member socket).mpr declared, isOpen⟩, if_pos ⟨rfl, declared⟩] at here
      exact (tells_open_iff (faithful.tells socket market) isOpen _).mp here
    exact (starts one oneShows oneOpen).symm.trans (starts other otherShows otherOpen)
  · intro alike socket other
    by_cases here : other = market ∧ market ∈ manager.gridSubs socket
    · obtain ⟨rfl, declared⟩ := here
      have inOrder := (member socket).mpr declared
      by_cases isOpen : Open manager.gridPending other socket
      · rw [if_pos ⟨rfl, inOrder, isOpen⟩, if_pos ⟨rfl, declared⟩]
        exact (tells_open_iff (faithful.tells socket other) isOpen _).mpr
          (carried_getD alike all inOrder isOpen)
      · rw [if_neg fun taken => isOpen taken.2.2, if_pos ⟨rfl, declared⟩]
        exact tells_closed (faithful.tells socket other) isOpen
    · rw [if_neg fun taken => here ⟨taken.1, (member socket).mp taken.2.1⟩, if_neg here]
      exact faithful.tells socket other

theorem clearGrid_indexed (faithful : Faithful manager) (socket other : Socket)
    (market : MarketKey) :
    other ∈ (manager.clearGrid socket).gridSubscribers market ↔
      market ∈ (manager.clearGrid socket).gridSubs other := by
  have indexed := faithful.indexed other market
  simp only [Manager.clearGrid, Function.update_apply]
  by_cases same : other = socket
  · subst same
    split <;> simp_all
  · split <;> simp_all

theorem subscribeGrid_indexed (faithful : Faithful manager) (socket other : Socket)
    (marketIds : List MarketKey) (market : MarketKey) :
    other ∈ (manager.subscribeGrid socket marketIds).gridSubscribers market ↔
      market ∈ (manager.subscribeGrid socket marketIds).gridSubs other := by
  have indexed := clearGrid_indexed faithful socket other market
  have cleared : market ∉ (manager.clearGrid socket).gridSubs socket := by
    simp [Manager.clearGrid]
  simp only [Manager.subscribeGrid, Function.update_apply]
  by_cases same : other = socket
  · subst same
    split <;> simp_all
  · split <;> simp_all

theorem moves_indexed (faithful : Faithful manager) (moves : Moves manager action after)
    (socket : Socket) (market : MarketKey) :
    socket ∈ after.gridSubscribers market ↔ market ∈ after.gridSubs socket := by
  cases moves with
  | broadcast event seq once all => cases event <;> exact faithful.indexed socket market
  | flush => exact faithful.indexed socket market
  | subscribe subscriber marketIds =>
      exact subscribeGrid_indexed faithful subscriber socket marketIds market
  | clear cleared => exact clearGrid_indexed faithful cleared socket market

/-- A grid is declared without loss exactly when it waits for no resolution. -/
theorem subscribeGrid_tells_iff (faithful : Faithful manager) (socket : Socket)
    (marketIds : List MarketKey) :
    (∀ other market, ((manager.subscribeGrid socket marketIds).gridPending other market).map told =
        windowTold market ((manager.subscribeGrid socket marketIds).windows other market)) ↔
      ∀ market ∈ acceptedMarkets marketIds, Open manager.gridPending market socket := by
  have ended : ∀ market, Ended (manager.windows socket market) ↔
      ¬Open manager.gridPending market socket := fun market => by
    rw [ended_iff, ← faithful.tells]
    cases found : manager.gridPending socket market with
    | none => simp [open_none found]
    | some existing => simp [open_some found, told]
  simp only [Manager.subscribeGrid, Manager.clearGrid, Function.update_apply]
  constructor
  · intro tells market accepted
    by_contra closed
    have here := tells socket market
    rw [if_pos rfl, if_pos rfl, if_pos ⟨accepted, (ended market).mpr closed⟩] at here
    obtain ⟨earlier, isTold, -⟩ := ended_iff.mp ((ended market).mpr closed)
    rw [← here] at isTold
    cases isTold
  · intro opens other market
    by_cases same : other = socket
    · have restarts : ¬(market ∈ acceptedMarkets marketIds ∧
          Ended (manager.windows socket market)) := fun kept =>
        (ended market).mp kept.2 (opens market kept.1)
      rw [if_pos same, if_pos same, if_neg restarts]
      rfl
    · rw [if_neg same, if_neg same, if_neg same]
      exact faithful.tells other market

theorem clearGrid_tells (faithful : Faithful manager) (socket other : Socket)
    (market : MarketKey) :
    ((manager.clearGrid socket).gridPending other market).map told =
      windowTold market ((manager.clearGrid socket).windows other market) := by
  simp only [Manager.clearGrid, Function.update_apply]
  split
  · rfl
  · exact faithful.tells other market

/-- From a faithful state, a step is harmless exactly when it leads to one. -/
theorem faithful_iff (faithful : Faithful manager) (moves : Moves manager action after) :
    Faithful after ↔ Harmless manager action := by
  have indexed := moves_indexed faithful moves
  have split : Faithful after ↔ ∀ socket market,
      (after.gridPending socket market).map told =
        windowTold market (after.windows socket market) :=
    ⟨fun faithful => faithful.tells, fun tells => ⟨indexed, tells⟩⟩
  rw [split]
  cases moves with
  | broadcast event seq once all =>
      cases event with
      | price prices => exact buffer_tells_iff faithful all
      | resolved => exact buffer_tells_iff faithful all
      | other type => exact iff_of_true faithful.tells trivial
  | flush => exact iff_of_true (fun _ _ => rfl) trivial
  | subscribe socket marketIds => exact subscribeGrid_tells_iff faithful socket marketIds
  | clear socket => exact iff_of_true (clearGrid_tells faithful socket) trivial

end Steps

/-! # Runs -/

/-- What the socket is sent tells of the events of its own window. -/
def Truthful {π : Type} (delivery : Delivery π) : Prop :=
  ∀ market, (delivery.prices market).map told = windowTold market (delivery.windows market)

section Runs

variable {π : Type} {manager after : Manager π} {action : Action π} {actions : List (Action π)}

/-- A step sends nothing, or the buffers. -/
theorem moves_received (moves : Moves manager action after) {socket : Socket}
    {delivery : Delivery π} (sent : delivery ∈ after.received socket) :
    delivery ∈ manager.received socket ∨
      delivery = ⟨manager.gridPending socket, manager.windows socket⟩ := by
  cases moves with
  | broadcast event seq once all => cases event <;> exact .inl sent
  | flush =>
      rcases List.mem_append.mp sent with earlier | now
      · exact .inl earlier
      · exact .inr (List.mem_singleton.mp now)
  | subscribe subscriber marketIds => exact .inl sent
  | clear cleared => exact .inl sent

theorem faithful_empty : Faithful (Manager.empty : Manager π) where
  indexed := fun _ _ => iff_of_false (Finset.notMem_empty _) (Finset.notMem_empty _)
  tells := fun _ _ => rfl

/-- As long as no step is harmful, every socket is told of its own windows and of nothing else. -/
theorem grid_truthful (run : Run Moves Harmless Manager.empty actions manager) (socket : Socket)
    (delivery : Delivery π) (sent : delivery ∈ manager.received socket) : Truthful delivery := by
  have kept : Faithful manager ∧
      ∀ socket, ∀ delivery ∈ manager.received socket, Truthful delivery := by
    refine run.invariant (fun manager => Faithful manager ∧
      ∀ socket, ∀ delivery ∈ manager.received socket, Truthful delivery) ?_
      ⟨faithful_empty, fun _ _ sent => nomatch sent⟩
    intro manager action after harmless moves before
    refine ⟨(faithful_iff before.1 moves).mpr harmless, fun socket delivery sent => ?_⟩
    rcases moves_received moves sent with earlier | rfl
    · exact before.2 socket delivery earlier
    · exact before.1.tells socket
  exact kept.2 socket delivery sent

end Runs

/-- A market ticks twice in one socket's window, while another socket shows another market. -/
def apartManager : Manager ℕ :=
  let shows := Manager.empty.subscribeGrid 1 ["rain"]
  let ticked := shows.broadcastToMarket [1] "rain" (.price 40) 5
  let both := ticked.subscribeGrid 2 ["snow"]
  both.broadcastToMarket [1] "rain" (.price 41) 6

theorem grid_truthful_of_two :
    (apartManager.gridPending 1 "rain").map told = some ⟨"rain", some 41, 6, 5⟩ ∧
      Truthful ⟨apartManager.gridPending 1, apartManager.windows 1⟩ := by
  have run : Run Moves Harmless Manager.empty
      [.subscribe 1 ["rain"], .broadcast [1] "rain" (.price 40) 5, .subscribe 2 ["snow"],
        .broadcast [1] "rain" (.price 41) 6, .flush] apartManager.flushGrid := by
    refine .act ?_ (.subscribe 1 ["rain"]) (.act ?_ (.broadcast (.price 40) 5 ?_ ?_)
      (.act ?_ (.subscribe 2 ["snow"]) (.act ?_ (.broadcast (.price 41) 6 ?_ ?_)
        (.act trivial .flush (.stop _)))))
    all_goals decide
  exact ⟨by decide, grid_truthful run 1 _ (List.mem_append_right _ (List.mem_singleton_self _))⟩

/-- Two sockets show a market, and the second declares it after a tick. -/
def sharedManager : Manager ℕ :=
  let shows := Manager.empty.subscribeGrid 1 ["rain"]
  let ticked := shows.broadcastToMarket [1] "rain" (.price 40) 5
  let both := ticked.subscribeGrid 2 ["rain"]
  both.broadcastToMarket [1, 2] "rain" (.price 41) 6

/-- A grid is declared anew before the resolution of a market in it is sent. -/
def redeclaredManager : Manager ℕ :=
  let shows := Manager.empty.subscribeGrid 1 ["rain"]
  let resolved := shows.broadcastToMarket [1] "rain" .resolved 5
  resolved.subscribeGrid 1 ["rain", "snow"]

/-- The second socket is told of the first one's tick, and a resolution is never told. -/
theorem neighbour_start_told :
    (∃ actions delivery,
      Run Moves (fun _ _ => True) Manager.empty actions sharedManager.flushGrid ∧
        delivery ∈ sharedManager.flushGrid.received 2 ∧
        delivery.windows "rain" = [⟨some 41, 6⟩] ∧
        (delivery.prices "rain").map told = some ⟨"rain", some 41, 6, 5⟩ ∧
        ¬Truthful delivery) ∧
    ∃ actions delivery,
      Run Moves (fun _ _ => True) Manager.empty actions redeclaredManager.flushGrid ∧
        delivery ∈ redeclaredManager.flushGrid.received 1 ∧
        delivery.windows "rain" = [⟨none, 5⟩] ∧ delivery.prices "rain" = none ∧
        ¬Truthful delivery := by
  have shared : Run Moves (fun _ _ => True) Manager.empty
      [.subscribe 1 ["rain"], .broadcast [1] "rain" (.price 40) 5, .subscribe 2 ["rain"],
        .broadcast [1, 2] "rain" (.price 41) 6, .flush] sharedManager.flushGrid := by
    apply Run.act trivial (.subscribe 1 ["rain"])
    apply Run.act trivial (.broadcast (.price 40) 5 (by decide) (by decide))
    apply Run.act trivial (.subscribe 2 ["rain"])
    apply Run.act trivial (.broadcast (.price 41) 6 (by decide) (by decide))
    exact .act trivial .flush (.stop _)
  have redeclared : Run Moves (fun _ _ => True) Manager.empty
      [.subscribe 1 ["rain"], .broadcast [1] "rain" .resolved 5,
        .subscribe 1 ["rain", "snow"], .flush] redeclaredManager.flushGrid := by
    apply Run.act trivial (.subscribe 1 ["rain"])
    apply Run.act trivial (.broadcast .resolved 5 (by decide) (by decide))
    apply Run.act trivial (.subscribe 1 ["rain", "snow"])
    exact .act trivial .flush (.stop _)
  constructor
  · refine ⟨_, ⟨sharedManager.gridPending 2, sharedManager.windows 2⟩, shared,
      List.mem_append_right _ (List.mem_singleton_self _), by decide, by decide, ?_⟩
    exact fun truthful => absurd (truthful "rain") (by decide)
  · refine ⟨_, ⟨redeclaredManager.gridPending 1, redeclaredManager.windows 1⟩, redeclared,
      List.mem_append_right _ (List.mem_singleton_self _), by decide, by decide, ?_⟩
    exact fun truthful => absurd (truthful "rain") (by decide)

end PredictX.GridBuffer
