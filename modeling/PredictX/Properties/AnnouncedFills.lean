import PredictX.Properties.FillPaths
import PredictX.Workers.SweepNotices

namespace PredictX.LimitSweep

open PredictX.Data PredictX.Amm PredictX.MarketService PredictX.MatchingEngine
open PredictX.OrderService

/-! Which of the fills of a sweep are announced.

A group publishes at most once, for its last order and with what its last turn to trade has left.
So a group is announced right when nothing but its last order was filled, and this one by resting
orders in its own turn: what an AMM takes is not counted in the published quantity.
-/

namespace Event

def filled? : Event → Option Filled
  | .filled fill => some fill
  | _ => none

def notice? : Event → Option FillNotice
  | .orderFill notice => some notice
  | _ => none

end Event

/-- The orders that their own turns have filled. -/
def fills (log : List Event) : List Filled :=
  log.filterMap Event.filled?

def notices (log : List Event) : List FillNotice :=
  log.filterMap Event.notice?

/-- The notice carries the fill. -/
structure Tells (notice : FillNotice) (filled : Filled) : Prop where
  order : notice.orderId = filled.orderId
  user : notice.userId = filled.userId
  side : notice.side = filled.side
  shares : notice.shares = filled.quantity

/-- Each fill is announced by one notice and by a later price of its market, and is counted. -/
structure Announces (log : List Event) (executed : ℕ) : Prop where
  told : ∀ filled ∈ fills log, ∃ notice,
    (notices log).filter (fun notice => notice.orderId = filled.orderId) = [notice] ∧
      Tells notice filled
  priced : ∀ filled ∈ fills log, ∃ update,
    update.market = filled.marketId ∧ List.Sublist [.filled filled, .price update] log
  counted : executed = (fills log).length

/-! # Groups apart from one another -/

/-- What a group publishes after its loop. -/
inductive Tail where
  | silent
  | priced (update : PriceUpdate)
  | told (update : PriceUpdate) (notice : FillNotice)

namespace Tail

def events : Tail → List Event
  | .silent => []
  | .priced update => [.price update]
  | .told update notice => [.price update, .orderFill notice]

def count : Tail → ℕ
  | .silent => 0
  | .priced _ => 1
  | .told _ _ => 1

def notices : Tail → List FillNotice
  | .silent => []
  | .priced _ => []
  | .told _ notice => [notice]

end Tail

/-- What a group adds to the log. -/
structure Batch where
  ids : List OrderId
  fills : List Filled
  tail : Tail

namespace Batch

def events (batch : Batch) : List Event :=
  batch.fills.map Event.filled ++ batch.tail.events

structure Sound (batch : Batch) : Prop where
  listed : ∀ filled ∈ batch.fills, filled.orderId ∈ batch.ids
  distinct : (batch.fills.map Filled.orderId).Nodup
  named : ∀ notice ∈ batch.tail.notices, notice.orderId ∈ batch.ids
  priced : ∀ filled ∈ batch.fills, ∀ update notice, batch.tail = .told update notice →
    update.market = filled.marketId

/-- The group has announced its one fill, or has none. -/
def Good (batch : Batch) : Prop :=
  (batch.fills = [] ∧ batch.tail = .silent) ∨
    ∃ filled update notice, batch.fills = [filled] ∧ batch.tail = .told update notice ∧
      Tells notice filled

def Apart (left right : Batch) : Prop := left.ids.Disjoint right.ids

instance : Std.Symm Apart := ⟨fun _ _ disjoint => disjoint.symm⟩

end Batch

section Batches

variable {batches : List Batch} {batch : Batch}

theorem fills_events (batch : Batch) : fills batch.events = batch.fills := by
  unfold fills Batch.events
  rw [List.filterMap_append, List.filterMap_map]
  have own : batch.fills.filterMap (Event.filled? ∘ Event.filled) = batch.fills :=
    List.filterMap_some
  have none_ : batch.tail.events.filterMap Event.filled? = [] := by
    cases batch.tail <;> rfl
  rw [own, none_, List.append_nil]

theorem notices_events (batch : Batch) : notices batch.events = batch.tail.notices := by
  unfold notices Batch.events
  rw [List.filterMap_append, List.filterMap_map]
  have none_ : batch.fills.filterMap (Event.notice? ∘ Event.filled) = [] :=
    List.filterMap_eq_nil_iff.mpr fun _ _ => rfl
  have own : batch.tail.events.filterMap Event.notice? = batch.tail.notices := by
    cases batch.tail <;> rfl
  rw [own, none_, List.nil_append]

theorem fills_flatMap (batches : List Batch) :
    fills (batches.flatMap Batch.events) = batches.flatMap Batch.fills := by
  unfold fills
  rw [List.filterMap_flatMap]
  exact List.flatMap_congr fun batch _ => fills_events batch

theorem notices_flatMap (batches : List Batch) :
    notices (batches.flatMap Batch.events) = batches.flatMap fun batch => batch.tail.notices := by
  unfold notices
  rw [List.filterMap_flatMap]
  exact List.flatMap_congr fun batch _ => notices_events batch

/-- Two groups that share an order are one. -/
theorem same_batch (apart : batches.Pairwise Batch.Apart) {other : Batch} (member : batch ∈ batches)
    (otherMember : other ∈ batches) {orderId : OrderId} (listed : orderId ∈ batch.ids)
    (otherListed : orderId ∈ other.ids) : batch = other := by
  by_contra different
  exact apart.forall member otherMember different listed otherListed

/-- Where one sum bounds another term by term, equal totals have equal terms. -/
theorem eq_of_sum_eq {ι : Type} {items : List ι} {least most : ι → ℕ}
    (bounded : ∀ item ∈ items, least item ≤ most item)
    (same : (items.map most).sum = (items.map least).sum) :
    ∀ item ∈ items, least item = most item := by
  induction items with
  | nil => simp
  | cons item rest ih =>
      rw [List.forall_mem_cons] at bounded ⊢
      rw [List.map_cons, List.map_cons, List.sum_cons, List.sum_cons] at same
      have below : (rest.map least).sum ≤ (rest.map most).sum := List.sum_le_sum bounded.2
      exact ⟨by omega, ih bounded.2 (by omega)⟩

theorem told_of_announces {executed : ℕ} (sound : ∀ batch ∈ batches, batch.Sound)
    (apart : batches.Pairwise Batch.Apart)
    (announces : Announces (batches.flatMap Batch.events) executed) (member : batch ∈ batches)
    {filled : Filled} (isFill : filled ∈ batch.fills) :
    ∃ update notice, batch.tail = .told update notice ∧ Tells notice filled := by
  have logged : filled ∈ fills (batches.flatMap Batch.events) := by
    rw [fills_flatMap]
    exact List.mem_flatMap.mpr ⟨batch, member, isFill⟩
  obtain ⟨notice, only, tells⟩ := announces.told filled logged
  have published : notice ∈ notices (batches.flatMap Batch.events) :=
    List.mem_of_mem_filter (only ▸ List.mem_singleton_self notice)
  rw [notices_flatMap] at published
  obtain ⟨other, otherMember, isNotice⟩ := List.mem_flatMap.mp published
  have otherListed := (sound other otherMember).named notice isNotice
  rw [tells.order] at otherListed
  obtain rfl := same_batch apart member otherMember ((sound batch member).listed filled isFill)
    otherListed
  cases isTail : batch.tail with
  | silent => simp [isTail, Tail.notices] at isNotice
  | priced update => simp [isTail, Tail.notices] at isNotice
  | told update other =>
      simp only [isTail, Tail.notices, List.mem_singleton] at isNotice
      exact ⟨update, other, rfl, isNotice ▸ tells⟩

theorem good_of_announces {executed : ℕ} (sound : ∀ batch ∈ batches, batch.Sound)
    (apart : batches.Pairwise Batch.Apart)
    (isCount : executed = (batches.map fun batch => batch.tail.count).sum)
    (announces : Announces (batches.flatMap Batch.events) executed) :
    ∀ batch ∈ batches, batch.Good := by
  have single : ∀ batch ∈ batches, batch.fills = [] ∨ batch.Good := by
    intro batch member
    cases isFills : batch.fills with
    | nil => exact .inl rfl
    | cons filled rest =>
        obtain ⟨update, notice, isTail, tells⟩ := told_of_announces sound apart announces member
          (isFills ▸ List.mem_cons_self : filled ∈ batch.fills)
        refine .inr (.inr ⟨filled, update, notice, ?_, isTail, tells⟩)
        cases rest with
        | nil => exact isFills
        | cons other rest =>
            have otherFill : other ∈ batch.fills := by
              rw [isFills]
              exact List.mem_cons_of_mem _ List.mem_cons_self
            obtain ⟨_, _, otherTail, otherTells⟩ := told_of_announces sound apart announces member
              otherFill
            cases isTail.symm.trans otherTail
            have distinct := (sound batch member).distinct
            rw [isFills, List.map_cons, List.map_cons, List.nodup_cons] at distinct
            refine absurd ?_ distinct.1
            rw [← tells.order, otherTells.order]
            exact List.mem_cons_self
  have bounded : ∀ batch ∈ batches, batch.fills.length ≤ batch.tail.count := by
    intro batch member
    obtain none_ | ⟨none_, -⟩ | ⟨_, _, _, isFills, isTail, -⟩ := single batch member
    · rw [none_]
      exact Nat.zero_le _
    · rw [none_]
      exact Nat.zero_le _
    · rw [isFills, isTail]
      rfl
  have totals := announces.counted
  rw [fills_flatMap, List.length_flatMap, isCount] at totals
  have equal := eq_of_sum_eq bounded totals
  intro batch member
  obtain none_ | good := single batch member
  · have nothing := equal batch member
    rw [none_] at nothing
    cases isTail : batch.tail with
    | silent => exact .inl ⟨none_, isTail⟩
    | priced _ => simp [isTail, Tail.count] at nothing
    | told _ _ => simp [isTail, Tail.count] at nothing
  · exact good

theorem announces_of_good {executed : ℕ} (sound : ∀ batch ∈ batches, batch.Sound)
    (apart : batches.Pairwise Batch.Apart)
    (isCount : executed = (batches.map fun batch => batch.tail.count).sum)
    (good : ∀ batch ∈ batches, batch.Good) :
    Announces (batches.flatMap Batch.events) executed := by
  have own : ∀ filled ∈ fills (batches.flatMap Batch.events), ∃ batch ∈ batches,
      ∃ update notice, batch.fills = [filled] ∧ batch.tail = .told update notice ∧
        Tells notice filled := by
    intro filled logged
    rw [fills_flatMap] at logged
    obtain ⟨batch, member, isFill⟩ := List.mem_flatMap.mp logged
    obtain ⟨none_, -⟩ | ⟨other, update, notice, isFills, isTail, tells⟩ := good batch member
    · rw [none_] at isFill
      exact absurd isFill List.not_mem_nil
    · rw [isFills, List.mem_singleton] at isFill
      subst isFill
      exact ⟨batch, member, update, notice, isFills, isTail, tells⟩
  constructor
  · intro filled logged
    obtain ⟨batch, member, update, notice, isFills, isTail, tells⟩ := own filled logged
    refine ⟨notice, ?_, tells⟩
    have listed : filled.orderId ∈ batch.ids := by
      refine (sound batch member).listed filled ?_
      rw [isFills]
      exact List.mem_singleton_self filled
    obtain ⟨before, after, rfl⟩ := List.append_of_mem member
    rw [List.pairwise_append, List.pairwise_cons] at apart
    obtain ⟨-, ⟨afterApart, -⟩, beforeApart⟩ := apart
    have silent : ∀ others : List Batch,
        (∀ other ∈ others, other.Sound ∧ filled.orderId ∉ other.ids) →
        (others.flatMap fun batch => batch.tail.notices).filter
          (fun notice => notice.orderId = filled.orderId) = [] := by
      intro others apart
      rw [List.filter_eq_nil_iff]
      intro other published isOrder
      obtain ⟨from_, fromMember, isNotice⟩ := List.mem_flatMap.mp published
      obtain ⟨fromSound, unlisted⟩ := apart from_ fromMember
      rw [decide_eq_true_eq] at isOrder
      exact unlisted (isOrder ▸ fromSound.named other isNotice)
    rw [notices_flatMap, List.flatMap_append, List.flatMap_cons, List.filter_append,
      List.filter_append, silent before, silent after, isTail]
    · simp [Tail.notices, tells.order]
    · intro other otherMember
      exact ⟨sound other (List.mem_append_right _ (List.mem_cons_of_mem _ otherMember)),
        afterApart other otherMember listed⟩
    · intro other otherMember
      exact ⟨sound other (List.mem_append_left _ otherMember), fun shared =>
        beforeApart other otherMember batch List.mem_cons_self shared listed⟩
  · intro filled logged
    obtain ⟨batch, member, update, notice, isFills, isTail, tells⟩ := own filled logged
    refine ⟨update, (sound batch member).priced filled ?_ update notice isTail, ?_⟩
    · rw [isFills]
      exact List.mem_singleton_self filled
    · have isEvents : batch.events = [.filled filled, .price update, .orderFill notice] := by
        unfold Batch.events
        rw [isFills, isTail]
        rfl
      have inBatch : List.Sublist [.filled filled, .price update] batch.events := by
        rw [isEvents]
        exact .cons_cons _ (.cons_cons _ (List.nil_sublist _))
      obtain ⟨before, after, rfl⟩ := List.append_of_mem member
      rw [List.flatMap_append, List.flatMap_cons]
      exact inBatch.trans ((List.sublist_append_left _ _).trans (List.sublist_append_right _ _))
  · rw [isCount, fills_flatMap, List.length_flatMap]
    refine congrArg List.sum (List.map_congr_left fun batch member => ?_)
    obtain ⟨none_, isTail⟩ | ⟨_, _, _, isFills, isTail, -⟩ := good batch member
    · rw [none_, isTail]
      rfl
    · rw [isFills, isTail]
      rfl

end Batches

/-! # A turn that fills its order -/

section Turn

variable {now : Timestamp} {session : Session} {market : MarketId} {parimutuel : Bool}
  {orderId : OrderId} {processed : Processed} {order row next : Order} {outcome : OutcomeId}
  {matched : Database} {fill : PendingFill}

/-- The book leg writes what it leaves of the order into the order's row. -/
theorem trace_row {db after : Database} {begun final : PendingFill} {offers : List Offer}
    (trace : Trace now (pendingTaker now order) db begun offers after final)
    (apart : ∀ offer ∈ offers, offer.maker.id ≠ order.id)
    (found : db.orders.find? order.id = some row) (left : row.remainingAmount = begun.remaining) :
    ∃ next, after.orders.find? order.id = some next ∧ next.remainingAmount = final.remaining ∧
      SameTerms row next := by
  induction trace generalizing row with
  | done => exact ⟨row, found, left, .refl row⟩
  | skip _ _ _ ih =>
      exact ih (fun offer member => apart offer (List.mem_cons_of_mem _ member)) found left
  | @deliver db _ begun _ maker quantity _ asked _ _ _ ih =>
      have other : order.id ≠ maker.id := Ne.symm (apart _ List.mem_cons_self)
      let spent := takerSpent order.side (executedDetails db.outcomes maker quantity)
      have stored : (deliver now (pendingTaker now order) db maker quantity).orders.find? order.id =
          some (fillTaker now spent row) := by
        change ((db.orders.modify maker.id _ (fillMaker_id now _)).modify order.id
          (fillTaker now spent) (fillTaker_id now spent)).find? order.id = _
        rw [Table.find?_modify_self, Table.find?_modify_ne other, found]
        rfl
      have isLeft : (fillTaker now spent row).remainingAmount =
          ((pendingTaker now order).record begun
            (executedDetails db.outcomes maker quantity)).remaining := by
        change _ = begun.remaining - spent
        rw [← left]
        unfold fillTaker
        dsimp only
        split <;> rfl
      obtain ⟨next, nextFound, nextLeft, terms⟩ :=
        ih (fun offer member => apart offer (List.mem_cons_of_mem _ member)) stored isLeft
      exact ⟨next, nextFound, nextLeft, (fillTaker_sameTerms now spent row).trans terms⟩

theorem matched_row (consistent : session.Consistent)
    (found : session.current.orders.find? order.id = some order)
    (matching : matchPendingOrder now session.committed.orders session.current order market outcome =
      .ok (matched, fill)) :
    ∃ next, matched.orders.find? order.id = some next ∧ next.remainingAmount = fill.remaining ∧
      SameTerms order next := by
  refine trace_row (pending_trace matching) ?_ found rfl
  intro offer member same
  obtain ⟨maker, _, _, _, users, _⟩ := pendingPlan_maker consistent member
  rw [same, found] at maker
  exact users (congrArg Order.userId (Option.some.inj maker)).symm

/-- The turn's book leg, and the AMM leg that fills the rest if there is one. -/
theorem tradeOrder_legs {turn : Turn} (ran : tradeOrder now session turn = .ok processed) :
    ∃ matched fill, matchPendingOrder now session.committed.orders session.current turn.order
        turn.market turn.outcome.id = .ok (matched, fill) ∧
      ((processed.ammLeg = none ∧ processed.session.current = matched) ∨
        ∃ traded leg, processed.ammLeg = some leg ∧ 0 < fill.remaining ∧
          sweepLeg now matched turn fill.remaining = .ok (some (traded, leg)) ∧
          processed.session.current = traded) := by
  unfold tradeOrder at ran
  split at ran
  · contradiction
  rename_i matched fill matching
  refine ⟨matched, fill, matching, ?_⟩
  dsimp only at ran
  split at ran
  · rename_i left
    split at ran
    · split at ran
      · contradiction
      · cases ran
        exact .inl ⟨rfl, rfl⟩
      · rename_i traded leg legRan
        cases ran
        exact .inr ⟨traded, leg, rfl, left, legRan, rfl⟩
    · cases ran
      refine .inl ⟨rfl, ?_⟩
      dsimp only
      split <;> rfl
  · cases ran
    exact .inl ⟨rfl, rfl⟩

theorem sweepLeg_row {turn : Turn} {traded : Database} {leg : AmmLeg}
    (found : matched.orders.find? turn.order.id = some row)
    (ran : sweepLeg now matched turn row.remainingAmount = .ok (some (traded, leg))) :
    ∃ next, traded.orders.find? turn.order.id = some next ∧ next.remainingAmount = 0 ∧
      SameTerms row next := by
  obtain ⟨quantity, sides⟩ := sweepLeg_ok ran
  have orders : traded.orders = matched.orders.modify turn.order.id (fillResting now leg)
      (fillResting_id now leg) := by
    rcases sides with ⟨_, _, _, _, rfl⟩ | ⟨_, _, _, _, _, _, rfl⟩ <;> rfl
  refine ⟨fillResting now leg row, ?_, ?_, fillResting_sameTerms now leg row⟩
  · rw [orders, Table.find?_modify_self, found]
    rfl
  · have left : (fillResting now leg row).remainingAmount = row.remainingAmount - leg.quantity := by
      unfold fillResting fillTaker
      dsimp only
      split <;> rfl
    rw [left, quantity, sub_self]

/-- What a turn has that fills its order. -/
structure FillsOrder (now : Timestamp) (market : MarketId) (parimutuel : Bool) (session : Session)
    (processed : Processed) (row next : Order) : Prop where
  opened : row.status.isOpen = true
  lasting : hasExpired now row = false
  terms : SameTerms row next
  traded : ∃ outcome pool matched fill,
    session.current.outcomes.find? row.outcomeId = some outcome ∧
    resolvePool session.current market outcome.id parimutuel = .ok pool ∧
    matchPendingOrder now session.committed.orders session.current row market outcome.id =
      .ok (matched, fill) ∧
    ((processed.ammLeg = none ∧ next.remainingAmount = fill.remaining) ∨
      (processed.ammLeg ≠ none ∧ 0 < fill.remaining ∧ next.remainingAmount = 0))

theorem fillsOrder_of_filled (consistent : session.Consistent)
    (ran : processOrder now market parimutuel session orderId = .ok processed)
    (found : session.current.orders.find? orderId = some row)
    (after : processed.session.current.orders.find? orderId = some next)
    (before : row.status ≠ .filled) (filled : next.status = .filled) :
    FillsOrder now market parimutuel session processed row next := by
  obtain rfl := Table.key_of_find? found
  rcases processOrder_ok ran with ⟨rfl, _⟩ | ⟨order, isOrder, _, _, rfl⟩ |
    ⟨order, turn, isOrder, opened, lasting, taken, trades⟩
  · cases found.symm.trans after
    exact absurd filled before
  · cases found.symm.trans isOrder
    change (session.current.orders.modify row.id _ (markExpired_id now)).find? row.id = some next
      at after
    rw [Table.find?_modify_self, found] at after
    cases after
    exact absurd filled (by simp [markExpired])
  · cases found.symm.trans isOrder
    obtain ⟨isMarket, isRow, isPari, _⟩ := takeTurn_some taken
    have resolved : ∃ pool, session.current.outcomes.find? row.outcomeId = some turn.outcome ∧
        resolvePool session.current market turn.outcome.id parimutuel = .ok pool := by
      unfold takeTurn at taken
      split at taken
      · contradiction
      split at taken
      · contradiction
      · rename_i outcome outcomeFound _ pool poolFound
        cases taken
        exact ⟨pool, outcomeFound, poolFound⟩
    obtain ⟨pool, outcomeFound, poolFound⟩ := resolved
    obtain ⟨matched, fill, matching, legs⟩ := tradeOrder_legs trades
    rw [isMarket, isRow] at matching
    obtain ⟨middle, middleFound, left, terms⟩ := matched_row consistent found matching
    rcases legs with ⟨noLeg, current⟩ | ⟨traded, leg, isLeg, more, legRan, current⟩
    · rw [current, middleFound] at after
      cases after
      exact ⟨opened, lasting, terms, turn.outcome, pool, matched, fill, outcomeFound, poolFound,
        matching, .inl ⟨noLeg, left⟩⟩
    · rw [← left] at legRan
      obtain ⟨last, lastFound, nothing, moreTerms⟩ :=
        sweepLeg_row (by rw [isRow]; exact middleFound) legRan
      rw [isRow] at lastFound
      rw [current, lastFound] at after
      cases after
      refine ⟨opened, lasting, terms.trans moreTerms, turn.outcome, pool, matched, fill,
        outcomeFound, poolFound, matching, .inr ⟨?_, more, nothing⟩⟩
      rw [isLeg]
      exact Option.some_ne_none leg

/-- A turn that fills its order leaves the notification the order's own values. -/
theorem FillsOrder.locals (fills : FillsOrder now market parimutuel session processed row next)
    (found : session.current.orders.find? orderId = some row) (locals : Locals) :
    ∃ remaining ammPrice,
      (bindTurn now market parimutuel session orderId processed.ammLeg locals).orderSide =
        some row.side ∧
      (bindTurn now market parimutuel session orderId processed.ammLeg locals).orderAmount =
        some row.remainingAmount ∧
      (bindTurn now market parimutuel session orderId processed.ammLeg locals).remaining =
        some remaining ∧
      (bindTurn now market parimutuel session orderId processed.ammLeg locals).ammPriceVal =
        some ammPrice ∧
      ((processed.ammLeg = none ∧ next.remainingAmount = remaining) ∨
        (processed.ammLeg ≠ none ∧ 0 < remaining ∧ next.remainingAmount = 0)) := by
  obtain ⟨outcome, pool, matched, fill, outcomeFound, resolved, matching, legs⟩ := fills.traded
  refine ⟨fill.remaining, (processed.ammLeg.map fun leg => leg.quote.price).getD 0, ?_, ?_, ?_, ?_,
    legs⟩ <;>
    simp [bindTurn, bindTrade, found, fills.opened, fills.lasting, outcomeFound, resolved, matching]

theorem bindTurn_reLocked (found : session.current.orders.find? orderId = some row)
    (leg : Option AmmLeg) (locals : Locals) :
    (bindTurn now market parimutuel session orderId leg locals).reLocked = some orderId := by
  unfold bindTurn
  rw [found]
  dsimp only
  split
  · rfl
  split
  · rfl
  split
  · rfl
  split
  · rfl
  · unfold bindTrade
    dsimp only
    split <;> rfl

theorem bindTurn_missing (missing : session.current.orders.find? orderId = none)
    (leg : Option AmmLeg) (locals : Locals) :
    (bindTurn now market parimutuel session orderId leg locals).reLocked = none := by
  unfold bindTurn
  rw [missing]

end Turn

/-! # A group -/

/-- The order's row is filled. -/
def IsFilled (db : Database) (orderId : OrderId) : Prop :=
  ∃ row, db.orders.find? orderId = some row ∧ row.status = .filled

/-- No order but the last is filled in its own turn; and the last, if it is filled when its turn is
over, has been filled in this turn and without an AMM leg. -/
def LastByBook (now : Timestamp) (market : MarketId) (parimutuel : Bool) :
    List OrderId → Session → Prop
  | [], _ => True
  | [last], session =>
      ∀ processed, processOrder now market parimutuel session last = .ok processed →
        IsFilled processed.session.current last →
        filledInTurn market session.current processed.session.current last ≠ none ∧
          processed.ammLeg = none
  | orderId :: next :: rest, session =>
      ∀ processed, processOrder now market parimutuel session orderId = .ok processed →
        filledInTurn market session.current processed.session.current orderId = none ∧
          LastByBook now market parimutuel (next :: rest) processed.session

section Group

variable {now : Timestamp} {market : MarketId} {parimutuel : Bool} {db : Database}
  {sweep swept : Sweep} {ids : List OrderId}

/-- What the loop over a group's orders has done up to its last turn, and in it. -/
structure LastTurn (now : Timestamp) (db : Database) (market : MarketId) (parimutuel : Bool)
    (sweep swept : Sweep) (ids : List OrderId) (early : List Filled) (last : OrderId)
    (begun : Session) (processed : Processed) : Prop where
  sweeping : Sweeping now db begun
  isLast : ∃ before, ids = before ++ [last] ∧ (early.map Filled.orderId).Sublist before
  ran : processOrder now market parimutuel begun last = .ok processed
  session : swept.session = processed.session
  locals : ∃ locals, swept.locals =
    bindTurn now market parimutuel begun last processed.ammLeg locals
  log : swept.log = sweep.log ++ (early ++ (filledInTurn market begun.current
    processed.session.current last).toList).map Event.filled
  executed : swept.executed = sweep.executed
  raised : swept.raised = sweep.raised
  ofMarket : ∀ filled ∈ early, filled.marketId = market
  byBook : LastByBook now market parimutuel ids sweep.session ↔ early = [] ∧
    (IsFilled processed.session.current last →
      filledInTurn market begun.current processed.session.current last ≠ none ∧
        processed.ammLeg = none)

theorem filledInTurn_some {before after : Database} {orderId : OrderId} {filled : Filled}
    (isFilled : filledInTurn market before after orderId = some filled) :
    ∃ row next, before.orders.find? orderId = some row ∧ after.orders.find? orderId = some next ∧
      row.status ≠ .filled ∧ next.status = .filled ∧
      filled = ⟨orderId, market, row.userId, row.side,
        row.remainingAmount - next.remainingAmount⟩ := by
  unfold filledInTurn at isFilled
  split at isFilled
  · rename_i row next found after
    split at isFilled
    · rename_i both
      exact ⟨row, next, found, after, both.1, both.2, (Option.some.inj isFilled).symm⟩
    · contradiction
  · contradiction

theorem sweepTurns_last (nonempty : ids ≠ []) (sweeping : Sweeping now db sweep.session)
    (ran : sweepTurns now market parimutuel ids sweep = .ok swept) :
    ∃ early last session processed,
      LastTurn now db market parimutuel sweep swept ids early last session processed := by
  induction ids generalizing sweep with
  | nil => exact absurd rfl nonempty
  | cons orderId rest ih =>
      unfold sweepTurns at ran
      split at ran
      · contradiction
      rename_i processed turned
      cases rest with
      | nil =>
          cases ran
          refine ⟨[], orderId, sweep.session, processed, sweeping, ⟨[], rfl, List.Sublist.slnil⟩,
            turned, rfl, ⟨sweep.locals, rfl⟩, ?_, rfl, rfl, nofun, ?_⟩
          · cases filledInTurn market sweep.session.current processed.session.current orderId <;> rfl
          · constructor
            · intro byBook
              exact ⟨rfl, byBook processed turned⟩
            · rintro ⟨-, byBook⟩ other otherTurned
              cases turned.symm.trans otherTurned
              exact byBook
      | cons following rest =>
          obtain ⟨early, last, session, lastProcessed, turns⟩ :=
            ih (List.cons_ne_nil _ _) (sweeping.turn turned) ran
          obtain ⟨before, isIds, listed⟩ := turns.isLast
          generalize isOwn : filledInTurn market sweep.session.current processed.session.current
            orderId = own at turns
          refine ⟨own.toList ++ early, last, session, lastProcessed, turns.sweeping,
            ⟨orderId :: before, by rw [isIds, List.cons_append], ?_⟩, turns.ran, turns.session,
            turns.locals, ?_, turns.executed, turns.raised, ?_, ?_⟩
          · cases own with
            | none => exact listed.cons _
            | some filled =>
                obtain ⟨_, _, _, _, _, _, rfl⟩ := filledInTurn_some isOwn
                exact listed.cons_cons _
          · rw [turns.log]
            cases own <;> simp
          · intro filled member
            obtain first | later := List.mem_append.mp member
            · rw [Option.mem_toList] at first
              obtain ⟨_, _, _, _, _, _, rfl⟩ := filledInTurn_some (isOwn.trans first)
              rfl
            · exact turns.ofMarket filled later
          · have byBook := turns.byBook
            have unfolded : LastByBook now market parimutuel (orderId :: following :: rest)
                sweep.session ↔ own = none ∧
                  LastByBook now market parimutuel (following :: rest) processed.session := by
              rw [← isOwn]
              constructor
              · intro all
                exact all processed turned
              · rintro both other otherTurned
                cases turned.symm.trans otherTurned
                exact both
            rw [unfolded, byBook]
            cases own <;> simp

theorem fillNotice_some {order : Order} {locals : Locals} {notice : FillNotice}
    (isNotice : fillNotice market order locals = some notice) :
    ∃ side amount remaining ammPrice, locals.orderSide = some side ∧
      locals.orderAmount = some amount ∧ locals.remaining = some remaining ∧
      locals.ammPriceVal = some ammPrice ∧
      notice = ⟨order.userId, order.id, market, order.status, side, amount - remaining,
        if 0 < ammPrice then ammPrice else order.price⟩ := by
  unfold fillNotice at isNotice
  split at isNotice
  · rename_i side amount remaining ammPrice isSide isAmount isRemaining isPrice
    exact ⟨side, amount, remaining, ammPrice, isSide, isAmount, isRemaining, isPrice,
      (Option.some.inj isNotice).symm⟩
  · contradiction

/-- What the block publishes for a group whose last order is filled. -/
def lastTail (update : PriceUpdate) : Option FillNotice → Tail
  | none => .priced update
  | some notice => .told update notice

theorem LastTurn.sound {early : List Filled} {last : OrderId} {begun : Session}
    {processed : Processed} {order : Order}
    (turns : LastTurn now db market parimutuel sweep swept ids early last begun processed)
    (distinct : ids.Nodup) (isOrder : order.id = last) {tail : Tail}
    (isTail : tail = .silent ∨ ∃ update, update.market = market ∧
      tail = lastTail update (fillNotice market order swept.locals)) :
    (Batch.mk ids (early ++ (filledInTurn market begun.current processed.session.current
      last).toList) tail).Sound := by
  obtain ⟨before, rfl, listed⟩ := turns.isLast
  have all : ((early ++ (filledInTurn market begun.current processed.session.current
      last).toList).map Filled.orderId).Sublist (before ++ [last]) := by
    rw [List.map_append]
    refine listed.append ?_
    cases isOwn : filledInTurn market begun.current processed.session.current last with
    | none => exact List.nil_sublist _
    | some filled =>
        obtain ⟨_, _, _, _, _, _, rfl⟩ := filledInTurn_some isOwn
        exact List.Sublist.refl _
  have ofMarket : ∀ filled ∈ early ++ (filledInTurn market begun.current
      processed.session.current last).toList, filled.marketId = market := by
    intro filled member
    obtain first | later := List.mem_append.mp member
    · exact turns.ofMarket filled first
    · rw [Option.mem_toList] at later
      obtain ⟨_, _, _, _, _, _, rfl⟩ := filledInTurn_some later
      rfl
  refine ⟨fun filled member => all.subset (List.mem_map_of_mem member), all.nodup distinct, ?_, ?_⟩
  · intro notice published
    obtain rfl | ⟨_, -, rfl⟩ := isTail
    · simp [Tail.notices] at published
    · cases isNotice : fillNotice market order swept.locals with
      | none => simp [isNotice, lastTail, Tail.notices] at published
      | some other =>
          simp only [isNotice, lastTail, Tail.notices, List.mem_singleton] at published
          obtain ⟨_, _, _, _, _, _, _, _, rfl⟩ := fillNotice_some isNotice
          rw [published]
          exact List.mem_append_right _ (List.mem_singleton.mpr isOrder)
  · intro filled member published notice isTold
    dsimp only at isTold
    obtain rfl | ⟨_, priced, rfl⟩ := isTail
    · contradiction
    · cases isNotice : fillNotice market order swept.locals with
      | none => simp [isNotice, lastTail] at isTold
      | some other =>
          simp only [isNotice, lastTail, Tail.told.injEq] at isTold
          rw [← isTold.1, priced]
          exact (ofMarket filled member).symm

/-- A group whose last order is not filled is silent. -/
theorem LastTurn.good_of_open {early : List Filled} {last : OrderId} {begun : Session}
    {processed : Processed} {order : Order}
    (turns : LastTurn now db market parimutuel sweep swept ids early last begun processed)
    (found : processed.session.current.orders.find? last = some order)
    (notFilled : order.status ≠ .filled) :
    (Batch.mk ids (early ++ (filledInTurn market begun.current processed.session.current
      last).toList) .silent).Good ↔ LastByBook now market parimutuel ids sweep.session := by
  have not : ¬IsFilled processed.session.current last := by
    rintro ⟨row, rowFound, isFilled⟩
    cases found.symm.trans rowFound
    exact notFilled isFilled
  have noFill : filledInTurn market begun.current processed.session.current last = none := by
    by_contra some_
    obtain ⟨filled, isFilled⟩ := Option.ne_none_iff_exists'.mp some_
    obtain ⟨_, next, _, after, _, status, _⟩ := filledInTurn_some isFilled
    exact not ⟨next, after, status⟩
  rw [turns.byBook, noFill]
  unfold Batch.Good
  simp [not]

/-- A group whose last order is filled announces it right when it was filled by its own turn's book
leg. -/
theorem LastTurn.good_of_filled {early : List Filled} {last : OrderId} {begun : Session}
    {processed : Processed} {order : Order} {update : PriceUpdate}
    (turns : LastTurn now db market parimutuel sweep swept ids early last begun processed)
    (distinct : ids.Nodup)
    (found : processed.session.current.orders.find? last = some order)
    (isFilled : order.status = .filled) :
    (Batch.mk ids (early ++ (filledInTurn market begun.current processed.session.current
      last).toList) (lastTail update (fillNotice market order swept.locals))).Good ↔
        LastByBook now market parimutuel ids sweep.session := by
  have filled : IsFilled processed.session.current last := ⟨order, found, isFilled⟩
  rw [turns.byBook]
  simp only [filled, true_implies]
  have isId : order.id = last := Table.key_of_find? found
  obtain ⟨locals, isLocals⟩ := turns.locals
  -- The notice of an order that its own turn has filled.
  have own : ∀ fill, filledInTurn market begun.current processed.session.current last = some fill →
      ∃ remaining notice, fillNotice market order swept.locals = some notice ∧
        notice.orderId = fill.orderId ∧ notice.userId = fill.userId ∧ notice.side = fill.side ∧
        notice.shares = fill.quantity + order.remainingAmount - remaining ∧
        ((processed.ammLeg = none ∧ order.remainingAmount = remaining) ∨
          (processed.ammLeg ≠ none ∧ 0 < remaining ∧ order.remainingAmount = 0)) := by
    intro fill isFill
    obtain ⟨row, next, rowFound, nextFound, notYet, _, rfl⟩ := filledInTurn_some isFill
    cases found.symm.trans nextFound
    have fills := fillsOrder_of_filled turns.sweeping.consistent turns.ran rowFound nextFound notYet
      isFilled
    obtain ⟨remaining, ammPrice, isSide, isAmount, isRemaining, isPrice, legs⟩ :=
      fills.locals rowFound locals
    have isNotice : fillNotice market order swept.locals =
        some ⟨order.userId, order.id, market, order.status, row.side,
          row.remainingAmount - remaining, if 0 < ammPrice then ammPrice else order.price⟩ := by
      rw [isLocals]
      unfold fillNotice
      rw [isSide, isAmount, isRemaining, isPrice]
    refine ⟨remaining, _, isNotice, isId, fills.terms.userId, rfl, ?_, legs⟩
    dsimp only
    ring
  constructor
  · rintro (⟨-, silent⟩ | ⟨fill, published, notice, isFills, isTail, tells⟩)
    · cases isNotice : fillNotice market order swept.locals <;>
        simp [lastTail, isNotice] at silent
    have isNotice : fillNotice market order swept.locals = some notice := by
      cases isSome : fillNotice market order swept.locals with
      | none => simp [lastTail, isSome] at isTail
      | some other =>
          simp only [lastTail, isSome, Tail.told.injEq] at isTail
          rw [isTail.2]
    obtain ⟨_, _, _, _, _, _, _, _, isOther⟩ := fillNotice_some isNotice
    have isLast : fill.orderId = last := by
      rw [← tells.order, isOther]
      exact isId
    obtain ⟨before, rfl, listed⟩ := turns.isLast
    have nothing : early = [] := by
      cases early with
      | nil => rfl
      | cons first rest =>
          obtain ⟨rfl, -⟩ := List.cons.inj isFills
          rw [List.map_cons] at listed
          have early := listed.subset List.mem_cons_self
          rw [isLast] at early
          rw [List.nodup_append] at distinct
          exact absurd rfl (distinct.2.2 last early last (List.mem_singleton_self last))
    subst nothing
    have isFill : filledInTurn market begun.current processed.session.current last = some fill := by
      cases isSome : filledInTurn market begun.current processed.session.current last with
      | none => simp [isSome] at isFills
      | some other =>
          simp only [isSome, List.nil_append, Option.toList_some, List.cons.injEq, and_true]
            at isFills
          rw [isFills]
    obtain ⟨remaining, other, otherNotice, _, _, _, shares, legs⟩ := own fill isFill
    cases isNotice.symm.trans otherNotice
    refine ⟨rfl, Option.ne_none_iff_exists'.mpr ⟨fill, isFill⟩, ?_⟩
    obtain ⟨noLeg, -⟩ | ⟨-, more, none_⟩ := legs
    · exact noLeg
    · rw [tells.shares, none_] at shares
      linarith
  · rintro ⟨rfl, some_, noLeg⟩
    obtain ⟨fill, isFill⟩ := Option.ne_none_iff_exists'.mp some_
    obtain ⟨remaining, notice, isNotice, order_, user, side, shares, legs⟩ := own fill isFill
    refine .inr ⟨fill, update, notice, by rw [isFill]; rfl, by rw [isNotice]; rfl, order_, user,
      side, ?_⟩
    obtain ⟨-, left⟩ | ⟨leg, -⟩ := legs
    · rw [shares, left, add_sub_cancel_right]
    · exact absurd noLeg leg

/-- The loop leaves the session of `sweepOrders`, which commits at its end. -/
theorem sweepTurns_session (ran : sweepTurns now market parimutuel ids sweep = .ok swept) :
    sweepOrders now market parimutuel ids sweep.session = swept.session.commit := by
  induction ids generalizing sweep with
  | nil =>
      cases ran
      rfl
  | cons orderId rest ih =>
      unfold sweepTurns at ran
      unfold sweepOrders
      cases turned : processOrder now market parimutuel sweep.session orderId with
      | error raised =>
          rw [turned] at ran
          contradiction
      | ok processed =>
          rw [turned] at ran
          exact ih ran

theorem sweepTurns_raised :
    (∀ raising, sweepTurns now market parimutuel ids sweep = .error raising →
      raising.raised = sweep.raised) ∧
    ∀ swept, sweepTurns now market parimutuel ids sweep = .ok swept →
      swept.raised = sweep.raised := by
  induction ids generalizing sweep with
  | nil =>
      unfold sweepTurns
      refine ⟨fun _ ran => by contradiction, fun _ ran => ?_⟩
      cases ran
      rfl
  | cons orderId rest ih =>
      unfold sweepTurns
      split
      · refine ⟨fun _ ran => ?_, fun _ ran => by contradiction⟩
        cases ran
        rfl
      · exact ih

theorem publishedPrices_market {locals : Locals} {current : Database} {update : PriceUpdate}
    (priced : publishedPrices current market parimutuel locals = some update) :
    update.market = market := by
  unfold publishedPrices at priced
  split at priced
  · contradiction
  split at priced
  · split at priced
    · contradiction
    · cases priced
      rfl
  · split at priced
    · contradiction
    · cases priced
      rfl

theorem announce_ok {session : Session} {locals : Locals} {events : List Event} {count : ℕ}
    (announced : announce market parimutuel session locals = .ok (events, count)) :
    ∃ orderId order, locals.reLocked = some orderId ∧
      session.current.orders.find? orderId = some order ∧
      ((order.status ≠ .filled ∧ events = [] ∧ count = 0) ∨
        (order.status = .filled ∧ ∃ update, update.market = market ∧
          events = (lastTail update (fillNotice market order locals)).events ∧ count = 1)) := by
  unfold announce at announced
  split at announced
  · contradiction
  rename_i order found
  obtain ⟨orderId, locked, isOrder⟩ := Option.bind_eq_some_iff.mp found
  refine ⟨orderId, order, locked, isOrder, ?_⟩
  split at announced
  · rename_i notFilled
    cases announced
    exact .inl ⟨notFilled, rfl, rfl⟩
  rename_i filled
  split at announced
  · contradiction
  rename_i update priced
  cases announced
  refine .inr ⟨not_not.mp filled, update, publishedPrices_market priced, ?_, rfl⟩
  cases fillNotice market order locals <;> rfl

/-- The group is announced right. -/
def ByBook (now : Timestamp) (session : Session) (market : MarketId) (ids : List OrderId) : Prop :=
  ∀ row, session.current.markets.find? market = some row → row.status = .active →
    LastByBook now market (isParimutuel (outcomesOf session.current market)) ids session

theorem sweepBatch_described (sweeping : Sweeping now db sweep.session) (nonempty : ids ≠ [])
    (distinct : ids.Nodup) (quiet : (sweepBatch now sweep market ids).raised = sweep.raised) :
    ∃ batch : Batch, batch.ids = ids ∧ batch.Sound ∧
      (sweepBatch now sweep market ids).log = sweep.log ++ batch.events ∧
      (sweepBatch now sweep market ids).executed = sweep.executed + batch.tail.count ∧
      (sweepBatch now sweep market ids).session = sweepMarket now sweep.session market ids ∧
      (batch.Good ↔ ByBook now sweep.session market ids) := by
  have passed : ∀ rolled : Sweep, rolled = { sweep with session := sweep.session.rollback } →
      (¬∃ row, sweep.session.current.markets.find? market = some row ∧ row.status = .active) →
      ∃ batch : Batch, batch.ids = ids ∧ batch.Sound ∧ rolled.log = sweep.log ++ batch.events ∧
        rolled.executed = sweep.executed + batch.tail.count ∧
        rolled.session = sweep.session.rollback ∧
        (batch.Good ↔ ByBook now sweep.session market ids) := by
    rintro rolled rfl inactive
    refine ⟨⟨ids, [], .silent⟩, rfl, ⟨nofun, List.nodup_nil, nofun, nofun⟩,
      (List.append_nil _).symm, rfl, rfl, iff_of_true (.inl ⟨rfl, rfl⟩) ?_⟩
    intro row found active
    exact absurd ⟨row, found, active⟩ inactive
  unfold sweepBatch at quiet ⊢
  unfold sweepMarket
  cases found : sweep.session.current.markets.find? market with
  | none => exact passed _ rfl (by simp [found])
  | some row =>
      rw [found] at quiet
      dsimp only at quiet ⊢
      by_cases inactive : row.status ≠ .active
      · rw [if_pos inactive, if_pos inactive]
        exact passed _ rfl (by simpa [found] using inactive)
      rw [if_neg inactive] at quiet ⊢
      rw [if_neg inactive]
      have byBook : ByBook now sweep.session market ids ↔ LastByBook now market
          (isParimutuel (outcomesOf sweep.session.current market)) ids sweep.session := by
        constructor
        · intro all
          exact all row found (not_not.mp inactive)
        · intro last _ _ _
          exact last
      rw [byBook]
      generalize isParimutuel (outcomesOf sweep.session.current market) = parimutuel at quiet ⊢
      cases ran : sweepTurns now market parimutuel ids sweep with
      | error raising =>
          rw [ran] at quiet
          dsimp only at quiet
          rw [sweepTurns_raised.1 raising ran] at quiet
          omega
      | ok swept =>
          rw [ran] at quiet
          dsimp only at quiet ⊢
          obtain ⟨early, last, begun, processed, turns⟩ := sweepTurns_last nonempty sweeping ran
          cases announced : announce market parimutuel swept.session swept.locals with
          | error session =>
              rw [announced] at quiet
              dsimp only at quiet
              rw [turns.raised] at quiet
              omega
          | ok published =>
              obtain ⟨events, count⟩ := published
              obtain ⟨orderId, order, locked, isOrder, ways⟩ := announce_ok announced
              obtain ⟨locals, isLocals⟩ := turns.locals
              have isLast : orderId = last := by
                cases begunRow : begun.current.orders.find? last with
                | none =>
                    rw [isLocals, bindTurn_missing begunRow] at locked
                    contradiction
                | some row =>
                    rw [isLocals, bindTurn_reLocked begunRow] at locked
                    exact (Option.some.inj locked).symm
              rw [isLast, turns.session] at isOrder
              have isId : order.id = last := Table.key_of_find? isOrder
              have session := sweepTurns_session ran
              rcases ways with ⟨notFilled, rfl, rfl⟩ | ⟨filled, update, priced, rfl, rfl⟩
              · refine ⟨⟨ids, _, .silent⟩, rfl, turns.sound distinct isId (.inl rfl), ?_, ?_,
                  session.symm, turns.good_of_open isOrder notFilled⟩
                · dsimp only
                  rw [turns.log, List.append_nil]
                  simp [Batch.events, Tail.events]
                · exact turns.executed
              · refine ⟨⟨ids, _, lastTail update (fillNotice market order swept.locals)⟩, rfl,
                  turns.sound distinct isId (.inr ⟨update, priced, rfl⟩), ?_, ?_, session.symm,
                  turns.good_of_filled distinct isOrder filled⟩
                · dsimp only
                  rw [turns.log, List.append_assoc]
                  rfl
                · dsimp only
                  rw [turns.executed]
                  cases fillNotice market order swept.locals <;> rfl

theorem le_raised (now : Timestamp) (sweep : Sweep) (market : MarketId) (ids : List OrderId) :
    sweep.raised ≤ (sweepBatch now sweep market ids).raised := by
  unfold sweepBatch
  split
  · exact le_rfl
  split
  · exact le_rfl
  dsimp only
  split
  · rename_i raising ran
    exact (sweepTurns_raised.1 raising ran).ge.trans (Nat.le_succ _)
  · rename_i swept ran
    have same := sweepTurns_raised.2 swept ran
    split
    · exact same.ge.trans (Nat.le_succ _)
    · exact same.ge

end Group

/-! # The sweep -/

/-- Every group is announced right. -/
def GroupsByBook (now : Timestamp) : List (MarketId × List OrderId) → Session → Prop
  | [], _ => True
  | group :: rest, session =>
      ByBook now session group.1 group.2 ∧
        GroupsByBook now rest (sweepMarket now session group.1 group.2)

section Sweep

variable {now : Timestamp} {db : Database} {dirty : Option (List MarketId)} {scanned : List Order}

theorem le_raised_all (now : Timestamp) (batches : List (MarketId × List OrderId)) (sweep : Sweep) :
    sweep.raised ≤
      (batches.foldl (fun sweep group => sweepBatch now sweep group.1 group.2) sweep).raised := by
  induction batches generalizing sweep with
  | nil => exact le_rfl
  | cons group rest ih => exact (le_raised now sweep group.1 group.2).trans (ih _)

theorem sweepBatches_described (list : List (MarketId × List OrderId)) {sweep : Sweep}
    (sweeping : Sweeping now db sweep.session)
    (proper : ∀ group ∈ list, group.2 ≠ [] ∧ group.2.Nodup)
    (quiet : (list.foldl (fun sweep group => sweepBatch now sweep group.1 group.2) sweep).raised =
      sweep.raised) :
    ∃ batches : List Batch, batches.map Batch.ids = list.map Prod.snd ∧
      (∀ batch ∈ batches, batch.Sound) ∧
      (list.foldl (fun sweep group => sweepBatch now sweep group.1 group.2) sweep).log =
        sweep.log ++ batches.flatMap Batch.events ∧
      (list.foldl (fun sweep group => sweepBatch now sweep group.1 group.2) sweep).executed =
        sweep.executed + (batches.map fun batch => batch.tail.count).sum ∧
      (list.foldl (fun sweep group => sweepBatch now sweep group.1 group.2) sweep).session =
        list.foldl (fun session group => sweepMarket now session group.1 group.2) sweep.session ∧
      ((∀ batch ∈ batches, batch.Good) ↔ GroupsByBook now list sweep.session) := by
  induction list generalizing sweep with
  | nil =>
      refine ⟨[], rfl, List.forall_mem_nil _, ?_, ?_, ?_, ?_⟩
      · rw [List.foldl_nil, List.flatMap_nil, List.append_nil]
      · rw [List.foldl_nil, List.map_nil, List.sum_nil, Nat.add_zero]
      · rw [List.foldl_nil, List.foldl_nil]
      · exact iff_of_true (List.forall_mem_nil _) trivial
  | cons group rest ih =>
      rw [List.forall_mem_cons] at proper
      rw [List.foldl_cons] at quiet
      have here := le_raised now sweep group.1 group.2
      have later := le_raised_all now rest (sweepBatch now sweep group.1 group.2)
      obtain ⟨batch, isIds, sound, log, executed, session, good⟩ := sweepBatch_described sweeping
        proper.1.1 proper.1.2 (le_antisymm (later.trans quiet.le) here)
      obtain ⟨batches, allIds, allSound, allLog, allExecuted, allSession, allGood⟩ :=
        ih (session ▸ sweeping.market group.1 group.2) proper.2
          (le_antisymm (quiet.le.trans here) later)
      refine ⟨batch :: batches, ?_, ?_, ?_, ?_, ?_, ?_⟩
      · rw [List.map_cons, List.map_cons, isIds, allIds]
      · exact List.forall_mem_cons.mpr ⟨sound, allSound⟩
      · rw [List.foldl_cons, allLog, log, List.flatMap_cons, List.append_assoc]
      · rw [List.foldl_cons, allExecuted, executed, List.map_cons, List.sum_cons, Nat.add_assoc]
      · rw [List.foldl_cons, allSession, session]
        rfl
      · rw [List.forall_mem_cons, good, allGood, session]
        rfl

theorem nodup_eraseDups : ∀ markets : List MarketId, markets.eraseDups.Nodup
  | [] => List.nodup_nil
  | market :: rest => by
      have shorter : (rest.filter fun other => !other == market).length < rest.length + 1 :=
        Nat.lt_succ_of_le (List.length_filter_le _ rest)
      rw [List.eraseDups_cons, List.nodup_cons]
      exact ⟨by simp, nodup_eraseDups _⟩
termination_by markets => markets.length

/-- The groups are not empty, and no order is in two of them. -/
theorem groups_proper (distinct : (scanned.map Order.id).Nodup) :
    (∀ group ∈ groups scanned, group.2 ≠ [] ∧ group.2.Nodup) ∧
      (groups scanned).Pairwise fun left right => left.2.Disjoint right.2 := by
  constructor
  · intro group member
    obtain ⟨market, listed, rfl⟩ := List.mem_map.mp member
    rw [List.mem_eraseDups, List.mem_map] at listed
    obtain ⟨order, isScanned, isMarket⟩ := listed
    refine ⟨?_, distinct.sublist (List.filter_sublist.map _)⟩
    refine List.ne_nil_of_mem (List.mem_map_of_mem (List.mem_filter.mpr ⟨isScanned, ?_⟩))
    exact decide_eq_true isMarket
  · unfold groups
    rw [List.pairwise_map]
    refine (nodup_eraseDups _).imp ?_
    intro left right different orderId inLeft inRight
    obtain ⟨order, orderMember, isOrder⟩ := List.mem_map.mp inLeft
    obtain ⟨other, otherMember, isOther⟩ := List.mem_map.mp inRight
    rw [List.mem_filter, decide_eq_true_eq] at orderMember otherMember
    have same := List.inj_on_of_nodup_map distinct orderMember.1 otherMember.1
      (isOrder.trans isOther.symm)
    exact different (orderMember.2.symm.trans (same ▸ otherMember.2))

theorem scanned_distinct (reads : Scanned dirty db scanned) : (scanned.map Order.id).Nodup :=
  (reads.map Order.id).nodup_iff.mpr (db.orders.unique.sublist (List.filter_sublist.map _))

/-- A sweep in which no group raises leaves the database of `check_limit_order_execution`, and has
announced each order that its own turn filled exactly when every group is announced right. -/
theorem sweep_announces_iff (reads : Scanned dirty db scanned)
    (quiet : (sweepReport now scanned db).raised = 0) :
    (sweepReport now scanned db).session.committed = checkLimitOrderExecution now scanned db ∧
      (Announces (sweepReport now scanned db).log (sweepReport now scanned db).executed ↔
        GroupsByBook now (groups scanned) (.start db)) := by
  obtain ⟨proper, disjoint⟩ := groups_proper (scanned_distinct reads)
  obtain ⟨batches, isIds, sound, log, executed, session, good⟩ :=
    @sweepBatches_described now db (groups scanned) ⟨.start db, .unbound, [], 0, 0⟩ .start proper quiet
  have apart : batches.Pairwise Batch.Apart := by
    have ids : (batches.map Batch.ids).Pairwise List.Disjoint := by
      rw [isIds]
      exact List.pairwise_map.mpr disjoint
    rw [List.pairwise_map] at ids
    exact ids
  unfold sweepReport checkLimitOrderExecution
  rw [session, log, executed, List.nil_append, Nat.zero_add]
  refine ⟨rfl, ?_⟩
  rw [← good]
  exact ⟨good_of_announces sound apart rfl, announces_of_good sound apart rfl⟩

end Sweep

/-! # A buy of ten dollars that the AMM fills -/

theorem rested_scanned :
    Scanned none (restedMarket 100 100 (2 / 100)) [OrderService.restingBuy] := by
  unfold Scanned
  have only : (restedMarket 100 100 (2 / 100)).orders.rows.filter (isSwept none) =
      [OrderService.restingBuy] := by
    decide +kernel
  rw [only]

theorem rested_raised :
    (sweepReport 1 [OrderService.restingBuy] (restedMarket 100 100 (2 / 100))).raised = 0 := by
  decide +kernel

theorem sweep_announces_iff_rested :
    (sweepReport 1 [OrderService.restingBuy] (restedMarket 100 100 (2 / 100))).raised = 0 ∧
      (Announces (sweepReport 1 [OrderService.restingBuy] (restedMarket 100 100 (2 / 100))).log
          (sweepReport 1 [OrderService.restingBuy] (restedMarket 100 100 (2 / 100))).executed ↔
        GroupsByBook 1 (groups [OrderService.restingBuy]) (.start (restedMarket 100 100 (2 / 100)))) :=
  ⟨rested_raised, (sweep_announces_iff rested_scanned rested_raised).2⟩

/-- The notice says that no shares were filled. -/
theorem sweep_misreports :
    ∃ db scanned, Scanned none db scanned ∧ (sweepReport 1 scanned db).raised = 0 ∧
      ¬Announces (sweepReport 1 scanned db).log (sweepReport 1 scanned db).executed := by
  refine ⟨_, _, rested_scanned, rested_raised, fun announces => ?_⟩
  have isFill : fills (sweepReport 1 [OrderService.restingBuy] (restedMarket 100 100 (2 / 100))).log =
      [⟨1, 1, 1, .buy, 10⟩] := by
    decide +kernel
  have shares :
      (notices (sweepReport 1 [OrderService.restingBuy] (restedMarket 100 100 (2 / 100))).log).map
        FillNotice.shares = [0] := by
    decide +kernel
  obtain ⟨notice, only, tells⟩ := announces.told ⟨1, 1, 1, .buy, 10⟩
    (isFill ▸ List.mem_singleton_self _)
  have published := List.mem_map_of_mem (f := FillNotice.shares)
    (List.mem_of_mem_filter (only ▸ List.mem_singleton_self notice))
  rw [shares, List.mem_singleton, tells.shares] at published
  exact absurd published (by decide)

end PredictX.LimitSweep
