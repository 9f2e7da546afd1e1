import PredictX.Data.Table
import PredictX.Websocket.MarketFeed

namespace PredictX.GridFeed

open PredictX.Data PredictX.MarketFeed

/-! A grid's prices: what `ConnectionManager` buffers for a socket and flushes to it, and what
`MarketList` makes of the batches.

The socket is one whose grid shows the markets throughout.  `π` is what a price frame carries;
the names and ids of a resolution are left out, and so are the rows of the list.
-/

/-- A frame on a market's events channel; its number is its place in the channel, from one on. -/
inductive MarketEvent (π : Type) where
  | price (prices : π)
  | resolved
  /-- A trade or an order-book update, which is for the pages of single markets only. -/
  | other (type : String)
deriving DecidableEq, Repr

/-- An entry of `_grid_pending`, and of the batch that it becomes. -/
structure GridFrame (π : Type) where
  market : MarketKey
  /-- None: the frame is a `market:resolved`. -/
  prices : Option π
  seq : ℕ
  seqFrom : Option ℕ
deriving DecidableEq, Repr

/-- `seq_from`, or `seq` where the frame has none. -/
def GridFrame.first {π : Type} (frame : GridFrame π) : ℕ := frame.seqFrom.getD frame.seq

abbrev Batch (π : Type) := Table (@GridFrame.market π)

section Buffer

variable {π : Type}

/-- `_buffer_grid_event`: the newest event wins, a resolution for good. -/
def bufferGridEvent (pending : Batch π) (market : MarketKey) (prices : Option π) (seq : ℕ) :
    Batch π :=
  match pending.find? market with
  | none => pending.insert ⟨market, prices, seq, none⟩
  | some existing =>
      match existing.prices with
      | none => pending
      | some _ =>
          pending.modify market fun entry =>
            { entry with prices := prices, seq := seq, seqFrom := some existing.first }

/-- What `broadcast_to_market` does for grids. -/
def broadcastToMarket (pending : Batch π) (market : MarketKey) (event : MarketEvent π) (seq : ℕ) :
    Batch π :=
  match event with
  | .price prices => bufferGridEvent pending market (some prices) seq
  | .resolved => bufferGridEvent pending market none seq
  | .other _ => pending

end Buffer

/-- The refs and the state of `MarketList`. -/
structure MarketList (π : Type) where
  /-- `seqRef`: the highest `seq` seen of each market. -/
  seqRef : MarketKey → Option ℕ
  pendingRef : MarketKey → Option π
  live : MarketKey → Option π
  resolvedRef : List MarketKey
  needsResync : Bool
  /-- `flushTimerRef` is set. -/
  scheduled : Bool
  /-- How often frames of each market have set `needsResync`. -/
  gaps : MarketKey → ℕ

section List

variable {π : Type}

def MarketList.mounted : MarketList π where
  seqRef := fun _ => none
  pendingRef := fun _ => none
  live := fun _ => none
  resolvedRef := []
  needsResync := false
  scheduled := false
  gaps := fun _ => 0

/-- `prev !== undefined && seqFrom > prev + 1`. -/
def Gapped (baseline : Option ℕ) (frame : GridFrame π) : Prop :=
  ∃ prev ∈ baseline, prev + 1 < frame.first

instance (baseline : Option ℕ) (frame : GridFrame π) : Decidable (Gapped baseline frame) :=
  inferInstanceAs (Decidable (∃ prev ∈ baseline, _))

/-- The body of the loop of `handlePrices`. -/
def MarketList.handleFrame (list : MarketList π) (frame : GridFrame π) : MarketList π :=
  match frame.prices with
  | none =>
      { list with
        resolvedRef := frame.market :: list.resolvedRef
        pendingRef := Function.update list.pendingRef frame.market none
        seqRef := Function.update list.seqRef frame.market none
        live := Function.update list.live frame.market none }
  | some prices =>
      if Gapped (list.seqRef frame.market) frame then
        { list with
          needsResync := true
          gaps := Function.update list.gaps frame.market (list.gaps frame.market + 1) }
      else
        { list with
          seqRef := Function.update list.seqRef frame.market (some frame.seq)
          pendingRef := Function.update list.pendingRef frame.market (some prices) }

def MarketList.handlePrices (list : MarketList π) (batch : Batch π) : MarketList π :=
  { batch.rows.foldl handleFrame list with scheduled := true }

/-- `flush`, when its timer fires. -/
def MarketList.flush (list : MarketList π) : MarketList π :=
  if list.needsResync then
    { list with
      scheduled := false
      needsResync := false
      pendingRef := fun _ => none
      seqRef := fun _ => none
      live := fun _ => none }
  else
    { list with
      scheduled := false
      pendingRef := fun _ => none
      live := fun market => (list.pendingRef market).or (list.live market) }

end List

/-- The node, the socket and the browser. -/
structure Grid (π : Type) where
  /-- What has been published on each market; all of it has reached the node. -/
  published : MarketKey → List (MarketEvent π)
  /-- `_grid_pending` of the socket. -/
  pending : Batch π
  /-- The batches that have been sent and not yet received. -/
  wire : List (Batch π)
  list : MarketList π
  /-- The frames of the batches that the wire has lost. -/
  lost : List (GridFrame π)

inductive Action (π : Type) where
  | publish (market : MarketKey) (event : MarketEvent π)
  /-- `flush_grid`. -/
  | flushGrid
  | receive
  /-- A batch is lost between the node and the browser. -/
  | lose
  /-- The timer of the list fires. -/
  | flush
deriving DecidableEq, Repr

section Moves

variable {π : Type}

/-- The page has just declared its grid; the markets may have been traded before. -/
def Grid.opened (published : MarketKey → List (MarketEvent π)) : Grid π where
  published := published
  pending := .empty
  wire := []
  list := .mounted
  lost := []

def Grid.publish (grid : Grid π) (market : MarketKey) (event : MarketEvent π) : Grid π :=
  { grid with
    published := Function.update grid.published market (grid.published market ++ [event])
    pending := broadcastToMarket grid.pending market event ((grid.published market).length + 1) }

def Grid.flushGrid (grid : Grid π) : Grid π :=
  { grid with wire := grid.wire ++ [grid.pending], pending := .empty }

inductive Moves : Grid π → Action π → Grid π → Prop
  | publish {grid : Grid π} (market : MarketKey) (event : MarketEvent π) :
      Moves grid (.publish market event) (grid.publish market event)
  | flushGrid {grid : Grid π} (buffered : grid.pending.rows ≠ []) :
      Moves grid .flushGrid grid.flushGrid
  | receive {grid : Grid π} {batch : Batch π} {rest : List (Batch π)}
      (sent : grid.wire = batch :: rest) :
      Moves grid .receive { grid with wire := rest, list := grid.list.handlePrices batch }
  | lose {grid : Grid π} {batch : Batch π} {rest : List (Batch π)}
      (sent : grid.wire = batch :: rest) :
      Moves grid .lose { grid with wire := rest, lost := grid.lost ++ batch.rows }
  | flush {grid : Grid π} (scheduled : grid.list.scheduled = true) :
      Moves grid .flush { grid with list := grid.list.flush }

end Moves

section Buffered

variable {π : Type} {pending : Batch π} {market other : MarketKey} {prices : Option π} {seq : ℕ}

theorem find?_bufferGridEvent_other (apart : other ≠ market) :
    (bufferGridEvent pending market prices seq).find? other = pending.find? other := by
  unfold bufferGridEvent
  split
  · exact Table.find?_insert_ne _ apart
  · split
    · rfl
    · exact Table.find?_modify_ne apart

theorem find?_bufferGridEvent_new (absent : pending.find? market = none) :
    (bufferGridEvent pending market prices seq).find? market =
      some ⟨market, prices, seq, none⟩ := by
  simp only [bufferGridEvent, absent]
  exact Table.find?_insert_self _ absent

theorem find?_bufferGridEvent_again {existing : GridFrame π}
    (found : pending.find? market = some existing) (priced : existing.prices.isSome) :
    (bufferGridEvent pending market prices seq).find? market =
      some ⟨market, prices, seq, some existing.first⟩ := by
  obtain ⟨shown, isShown⟩ := Option.isSome_iff_exists.mp priced
  simp only [bufferGridEvent, found, isShown]
  rw [Table.find?_modify_self, found]
  simp [Table.key_of_find? found]

/-- A resolution stays until the flush. -/
theorem bufferGridEvent_resolved {existing : GridFrame π}
    (found : pending.find? market = some existing) (resolved : existing.prices = none) :
    bufferGridEvent pending market prices seq = pending := by
  simp only [bufferGridEvent, found, resolved]

end Buffered

section Received

variable {π : Type} (list : MarketList π) {market : MarketKey}

/-- What a frame of its market makes of a baseline. -/
def rebase (baseline : Option ℕ) (frame : GridFrame π) : Option ℕ :=
  match frame.prices with
  | none => none
  | some _ => if Gapped baseline frame then baseline else some frame.seq

/-- Whether a frame sets `needsResync`. -/
def GridFrame.Flags (frame : GridFrame π) (baseline : Option ℕ) : Prop :=
  frame.prices.isSome ∧ Gapped baseline frame

instance (frame : GridFrame π) (baseline : Option ℕ) : Decidable (frame.Flags baseline) :=
  inferInstanceAs (Decidable (_ ∧ _))

theorem handleFrame_other {frame : GridFrame π} (apart : frame.market ≠ market) :
    (list.handleFrame frame).seqRef market = list.seqRef market ∧
      (list.handleFrame frame).gaps market = list.gaps market := by
  unfold MarketList.handleFrame
  split
  · simp [Ne.symm apart]
  · split <;> simp [Ne.symm apart]

theorem handleFrame_self (frame : GridFrame π) :
    (list.handleFrame frame).seqRef frame.market = rebase (list.seqRef frame.market) frame ∧
      (list.handleFrame frame).gaps frame.market =
        list.gaps frame.market + if frame.Flags (list.seqRef frame.market) then 1 else 0 := by
  cases kind : frame.prices with
  | none => simp [MarketList.handleFrame, rebase, GridFrame.Flags, kind]
  | some prices =>
      by_cases gapped : Gapped (list.seqRef frame.market) frame
      · simp [MarketList.handleFrame, rebase, GridFrame.Flags, kind, gapped]
      · simp [MarketList.handleFrame, rebase, GridFrame.Flags, kind, gapped]

theorem foldl_handleFrame_other {frames : List (GridFrame π)}
    (apart : ∀ frame ∈ frames, frame.market ≠ market) :
    (frames.foldl MarketList.handleFrame list).seqRef market = list.seqRef market ∧
      (frames.foldl MarketList.handleFrame list).gaps market = list.gaps market := by
  induction frames generalizing list with
  | nil => exact ⟨rfl, rfl⟩
  | cons frame rest ih =>
      have here := handleFrame_other list (apart frame List.mem_cons_self)
      have later := ih (list.handleFrame frame) fun other member =>
        apart other (List.mem_cons_of_mem _ member)
      exact ⟨later.1.trans here.1, later.2.trans here.2⟩

theorem handlePrices_absent {batch : Batch π} (absent : batch.find? market = none) :
    (list.handlePrices batch).seqRef market = list.seqRef market ∧
      (list.handlePrices batch).gaps market = list.gaps market :=
  foldl_handleFrame_other list (Table.find?_eq_none.mp absent)

/-- A batch has one frame of a market at most. -/
theorem handlePrices_found {batch : Batch π} {frame : GridFrame π}
    (found : batch.find? market = some frame) :
    (list.handlePrices batch).seqRef market = rebase (list.seqRef market) frame ∧
      (list.handlePrices batch).gaps market =
        list.gaps market + if frame.Flags (list.seqRef market) then 1 else 0 := by
  obtain ⟨member, rfl⟩ := Table.find?_eq_some.mp found
  obtain ⟨before, after, isRows⟩ := List.append_of_mem member
  have unique := batch.unique
  rw [isRows, List.map_append, List.map_cons, List.nodup_middle, List.nodup_cons,
    List.mem_append, not_or] at unique
  have apartBefore : ∀ other ∈ before, other.market ≠ frame.market := fun other inBefore same =>
    unique.1.1 (same ▸ List.mem_map_of_mem inBefore)
  have apartAfter : ∀ other ∈ after, other.market ≠ frame.market := fun other inAfter same =>
    unique.1.2 (same ▸ List.mem_map_of_mem inAfter)
  have first := foldl_handleFrame_other list apartBefore
  have here := handleFrame_self (before.foldl MarketList.handleFrame list) frame
  have last := foldl_handleFrame_other
    ((before.foldl MarketList.handleFrame list).handleFrame frame) apartAfter
  rw [first.1, first.2] at here
  unfold MarketList.handlePrices
  rw [isRows, List.foldl_append, List.foldl_cons]
  exact ⟨last.1.trans here.1, last.2.trans here.2⟩

end Received

end PredictX.GridFeed
