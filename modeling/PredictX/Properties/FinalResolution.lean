import PredictX.Client.MarketGrid
import PredictX.Data.Run

namespace PredictX.MarketGrid

open PredictX.Data PredictX.MarketFeed PredictX.GridFeed

/-! What a grid makes of a market that is resolved. -/

variable {π : Type}

/-- The markets whose resolution came in a batch. -/
def resolvedBy (events : List (Event π)) : List MarketKey :=
  events.flatMap fun event =>
    match event with
    | .prices batch => (batch.rows.filter fun frame => frame.prices.isNone).map GridFrame.market
    | _ => []

/-! # The ids -/

section Ids

variable {markets : List Card} {resolved : List MarketKey} {visibleIndices : List ℕ}

/-- A market that can still trade, as far as the page knows. -/
def isTradeable (resolved : List MarketKey) (card : Card) : Bool :=
  !isDead card && card.id ∉ resolved

/-- How many markets before a place in the list can still trade. -/
def rank (markets : List Card) (resolved : List MarketKey) (place : ℕ) : ℕ :=
  (markets.take place).countP (isTradeable resolved)

/-- A market with this id can still trade and has its place, or what `position` makes of the
place, among the visible indices. -/
def Shown (position : ℕ → ℕ) (markets : List Card) (resolved : List MarketKey)
    (visibleIndices : List ℕ) (id : MarketKey) : Prop :=
  ∃ place card, markets[place]? = some card ∧ isTradeable resolved card = true ∧ card.id = id ∧
    position place ∈ visibleIndices

theorem mem_zipIdx_filter {keeps : Card → Bool} {card : Card} {index start : ℕ} :
    (card, index) ∈ (markets.filter keeps).zipIdx start ↔
      ∃ place, markets[place]? = some card ∧ keeps card = true ∧
        start + (markets.take place).countP keeps = index := by
  induction markets generalizing start with
  | nil => simp
  | cons first rest ih =>
      by_cases keep : keeps first = true
      · rw [List.filter_cons_of_pos keep, List.zipIdx_cons, List.mem_cons, ih]
        constructor
        · rintro (here | ⟨place, found, keepsCard, isIndex⟩)
          · obtain ⟨rfl, rfl⟩ := Prod.mk.inj here
            exact ⟨0, rfl, keep, rfl⟩
          · refine ⟨place + 1, found, keepsCard, ?_⟩
            rw [List.take_succ_cons, List.countP_cons_of_pos keep, ← isIndex]
            omega
        · rintro ⟨_ | place, found, keepsCard, isIndex⟩
          · cases found
            exact .inl (Prod.ext rfl isIndex.symm)
          · rw [List.take_succ_cons, List.countP_cons_of_pos keep] at isIndex
            exact .inr ⟨place, found, keepsCard, by omega⟩
      · rw [List.filter_cons_of_neg keep, ih]
        constructor
        · rintro ⟨place, found, keepsCard, isIndex⟩
          refine ⟨place + 1, found, keepsCard, ?_⟩
          rw [List.take_succ_cons, List.countP_cons_of_neg keep]
          exact isIndex
        · rintro ⟨_ | place, found, keepsCard, isIndex⟩
          · cases found
            exact absurd keepsCard keep
          · rw [List.take_succ_cons, List.countP_cons_of_neg keep] at isIndex
            exact ⟨place, found, keepsCard, isIndex⟩

theorem mem_marketIds {id : MarketKey} :
    id ∈ marketIds markets resolved visibleIndices ↔
      Shown (rank markets resolved) markets resolved visibleIndices id := by
  have tradeable : (markets.filter fun card => !isDead card).filter (fun card => card.id ∉ resolved) =
      markets.filter (isTradeable resolved) := by
    rw [List.filter_filter]
    exact List.filter_congr fun card _ => Bool.and_comm _ _
  unfold marketIds Shown rank
  rw [tradeable, List.mem_map]
  constructor
  · rintro ⟨⟨card, index⟩, member, rfl⟩
    obtain ⟨listed, isVisible⟩ := List.mem_filter.mp member
    obtain ⟨place, found, keeps, isIndex⟩ := mem_zipIdx_filter.mp listed
    rw [Nat.zero_add] at isIndex
    exact ⟨place, card, found, keeps, rfl, isIndex ▸ of_decide_eq_true isVisible⟩
  · rintro ⟨place, card, found, keeps, rfl, isVisible⟩
    refine ⟨(card, _), List.mem_filter.mpr ⟨mem_zipIdx_filter.mpr ⟨place, found, keeps, rfl⟩, ?_⟩, rfl⟩
    rw [Nat.zero_add]
    exact decide_eq_true isVisible

/-- No market at a visible place or before one is dead or known to be resolved. -/
def Unbroken (markets : List Card) (resolved : List MarketKey) (visibleIndices : List ℕ) : Prop :=
  ∀ visible ∈ visibleIndices, ∀ place ≤ visible, ∀ card, markets[place]? = some card →
    isTradeable resolved card = true

theorem rank_le (place : ℕ) : rank markets resolved place ≤ place :=
  List.countP_le_length.trans (List.length_take_le _ _)

/-- Where nothing is left out before a place, it is its own rank. -/
theorem rank_eq {place : ℕ} (listed : place ≤ markets.length)
    (clear : ∀ index < place, ∀ card, markets[index]? = some card →
      isTradeable resolved card = true) : rank markets resolved place = place := by
  unfold rank
  rw [List.countP_eq_length.mpr, List.length_take_of_le listed]
  intro card member
  obtain ⟨index, before, isCard⟩ := List.mem_take_iff_getElem.mp member
  exact clear index (by omega) card (List.getElem?_eq_some_iff.mpr ⟨_, isCard⟩)

/-- A market that is counted at a visible place stands there. -/
theorem Unbroken.eq_of_rank (unbroken : Unbroken markets resolved visibleIndices) {place : ℕ}
    (listed : place < markets.length) (isVisible : rank markets resolved place ∈ visibleIndices) :
    rank markets resolved place = place := by
  by_contra apart
  have below : rank markets resolved place < place := lt_of_le_of_ne (rank_le place) apart
  -- One more market than is counted can trade among those before the place.
  have next : rank markets resolved (rank markets resolved place + 1) =
      rank markets resolved place + 1 :=
    rank_eq (by omega) fun index before => unbroken _ isVisible index (by omega)
  have grows : rank markets resolved (rank markets resolved place + 1) ≤
      rank markets resolved place :=
    (List.take_sublist_take_left (l := markets) below).countP_le
  omega

theorem Unbroken.shown_iff (unbroken : Unbroken markets resolved visibleIndices)
    (market : MarketKey) :
    Shown (rank markets resolved) markets resolved visibleIndices market ↔
      Shown id markets resolved visibleIndices market := by
  constructor
  · rintro ⟨place, card, found, tradeable, isMarket, isVisible⟩
    have listed : place < markets.length := (List.getElem?_eq_some_iff.mp found).1
    exact ⟨place, card, found, tradeable, isMarket, unbroken.eq_of_rank listed isVisible ▸ isVisible⟩
  · rintro ⟨place, card, found, tradeable, isMarket, isVisible⟩
    have listed : place < markets.length := (List.getElem?_eq_some_iff.mp found).1
    have ranked : rank markets resolved place = place :=
      rank_eq listed.le fun index before => unbroken place isVisible index before.le
    exact ⟨place, card, found, tradeable, isMarket, ranked.symm ▸ isVisible⟩

/-- Nothing that is known to be resolved is declared. -/
theorem resolved_undeclared {id : MarketKey} (isResolved : id ∈ resolved) :
    id ∉ marketIds markets resolved visibleIndices := by
  rw [mem_marketIds]
  rintro ⟨place, card, -, tradeable, rfl, -⟩
  exact of_decide_eq_true (Bool.and_eq_true_iff.mp tradeable).2 isResolved

end Ids

/-! # The overlay -/

section Overlay

variable {list : MarketList π} {batch : Batch π}

/-- Nothing is kept for a market that is known to be resolved. -/
def Settled (list : MarketList π) : Prop :=
  ∀ market ∈ list.resolvedRef, list.pendingRef market = none ∧ list.live market = none

/-- A frame does not price a market that is known to be resolved. -/
def InTime (resolved : List MarketKey) (frame : GridFrame π) : Prop :=
  frame.prices.isSome → frame.market ∉ resolved

theorem Settled.handleFrame (settled : Settled list) {frame : GridFrame π}
    (inTime : InTime list.resolvedRef frame) : Settled (list.handleFrame frame) := by
  unfold MarketList.handleFrame
  cases kind : frame.prices with
  | none =>
      intro market member
      dsimp only at member ⊢
      by_cases same : market = frame.market
      · rw [same, Function.update_self, Function.update_self]
        exact ⟨rfl, rfl⟩
      · rw [Function.update_of_ne same, Function.update_of_ne same]
        exact settled market ((List.mem_cons.mp member).resolve_left same)
  | some prices =>
      dsimp only
      split
      · exact settled
      · intro market member
        have apart : market ≠ frame.market := by
          rintro rfl
          exact inTime (kind ▸ rfl) member
        refine ⟨?_, (settled market member).2⟩
        dsimp only
        rw [Function.update_of_ne apart]
        exact (settled market member).1

theorem resolvedRef_handleFrame (frame : GridFrame π) :
    (list.handleFrame frame).resolvedRef =
      if frame.prices.isNone then frame.market :: list.resolvedRef else list.resolvedRef := by
  unfold MarketList.handleFrame
  cases frame.prices with
  | none => rfl
  | some prices =>
      dsimp only
      split <;> rfl

theorem mem_resolvedRef_foldl {frames : List (GridFrame π)} {market : MarketKey} :
    market ∈ (frames.foldl MarketList.handleFrame list).resolvedRef ↔
      market ∈ list.resolvedRef ∨ ∃ frame ∈ frames, frame.prices = none ∧ frame.market = market := by
  induction frames generalizing list with
  | nil => simp
  | cons frame rest ih =>
      rw [List.foldl_cons, ih, resolvedRef_handleFrame]
      cases kind : frame.prices with
      | none =>
          simp only [Option.isNone_none, if_true, List.mem_cons, exists_eq_or_imp, kind, true_and]
          rw [or_assoc, or_left_comm, eq_comm]
      | some prices => simp [kind]

/-- A batch has one frame of a market at most. -/
theorem Settled.foldl {frames : List (GridFrame π)} (settled : Settled list)
    (unique : (frames.map GridFrame.market).Nodup)
    (inTime : ∀ frame ∈ frames, InTime list.resolvedRef frame) :
    Settled (frames.foldl MarketList.handleFrame list) := by
  induction frames generalizing list with
  | nil => exact settled
  | cons frame rest ih =>
      obtain ⟨alone, unique⟩ := List.nodup_cons.mp unique
      refine ih (settled.handleFrame (inTime frame List.mem_cons_self)) unique fun later member => ?_
      intro priced
      have unresolved := inTime later (List.mem_cons_of_mem _ member) priced
      rw [resolvedRef_handleFrame]
      split
      · rw [List.mem_cons, not_or]
        exact ⟨fun same => alone (same ▸ List.mem_map_of_mem member), unresolved⟩
      · exact unresolved

theorem Settled.handlePrices (settled : Settled list)
    (inTime : ∀ frame ∈ batch.rows, InTime list.resolvedRef frame) :
    Settled (list.handlePrices batch) :=
  settled.foldl batch.unique inTime

theorem Settled.flush (settled : Settled list) : Settled list.flush := by
  unfold MarketList.flush
  split
  · exact fun market member => ⟨rfl, rfl⟩
  · intro market member
    obtain ⟨pending, live⟩ := settled market member
    refine ⟨rfl, ?_⟩
    dsimp only
    rw [pending, live]
    rfl

theorem Settled.forget (settled : Settled list) (ids : List MarketKey) :
    Settled (forget ids list) := by
  intro market member
  refine ⟨(settled market member).1, ?_⟩
  unfold MarketGrid.forget
  dsimp only
  rw [(settled market member).2, ite_self]

end Overlay

/-! # The page -/

section Pages

variable {page after : Page π} {event : Event π} {events : List (Event π)}
  {markets : List Card} {visibleIndices : List ℕ}

/-- No batch prices a market that an earlier one has resolved. -/
def Guard (page : Page π) (event : Event π) : Prop :=
  match event with
  | .prices batch => ∀ frame ∈ batch.rows, InTime page.list.resolvedRef frame
  | _ => True

theorem render_declared : (page.render markets visibleIndices).declared =
    marketIds markets page.list.resolvedRef visibleIndices := by
  unfold Page.render
  dsimp only
  split <;> rfl

theorem render_resolvedRef :
    (page.render markets visibleIndices).list.resolvedRef = page.list.resolvedRef := by
  unfold Page.render
  dsimp only
  split <;> rfl

theorem Settled.steps (settled : Settled page.list) (guarded : Guard page event)
    (step : Steps page event after) : Settled after.list := by
  cases step with
  | prices batch => exact settled.handlePrices guarded
  | flush _ => exact settled.flush
  | render markets visibleIndices =>
      unfold Page.render
      dsimp only
      split
      · exact settled
      · exact settled.forget _

theorem mem_resolvedRef_steps (step : Steps page event after) {market : MarketKey} :
    market ∈ after.list.resolvedRef ↔
      market ∈ page.list.resolvedRef ∨ market ∈ resolvedBy [event] := by
  unfold resolvedBy
  rw [List.flatMap_singleton]
  cases step with
  | prices batch =>
      dsimp only
      rw [MarketList.handlePrices, mem_resolvedRef_foldl, List.mem_map]
      simp only [List.mem_filter, Option.isNone_iff_eq_none, and_assoc]
  | flush _ =>
      dsimp only
      rw [MarketList.flush]
      split <;> simp
  | render markets visibleIndices =>
      dsimp only
      rw [render_resolvedRef]
      simp

theorem mem_resolvedRef_run {guard : Page π → Event π → Prop}
    (run : Run Steps guard page events after) {market : MarketKey} :
    market ∈ after.list.resolvedRef ↔
      market ∈ page.list.resolvedRef ∨ market ∈ resolvedBy events := by
  induction run with
  | stop => simp [resolvedBy]
  | @act page middle final event rest guarded acts later ih =>
      have split : resolvedBy (event :: rest) = resolvedBy [event] ++ resolvedBy rest := by
        unfold resolvedBy
        rw [List.flatMap_singleton, List.flatMap_cons]
      rw [ih, mem_resolvedRef_steps acts, split, List.mem_append, or_assoc]

theorem isTradeable_congr {left right : List MarketKey}
    (same : ∀ market, market ∈ left ↔ market ∈ right) : isTradeable left = isTradeable right := by
  funext card
  unfold isTradeable
  simp only [same]

/-- Once a batch has brought the resolution of a market, its price is never shown and it is never
declared again; and a render declares what it shows exactly when the places of the markets that
can still trade, in the list without the others, are as visible as in the whole list: so it does
when no other market stands at a visible place or before one. -/
theorem resolution_final (run : Run Steps Guard Page.mounted events page) :
    (∀ market ∈ resolvedBy events, page.list.live market = none ∧
      ∀ markets visibleIndices, market ∉ (page.render markets visibleIndices).declared) ∧
    ∀ markets visibleIndices,
      ((∀ market, market ∈ (page.render markets visibleIndices).declared ↔
          Shown id markets (resolvedBy events) visibleIndices market) ↔
        ∀ market,
          Shown (rank markets (resolvedBy events)) markets (resolvedBy events) visibleIndices
              market ↔
            Shown id markets (resolvedBy events) visibleIndices market) ∧
      (Unbroken markets (resolvedBy events) visibleIndices → ∀ market,
        market ∈ (page.render markets visibleIndices).declared ↔
          Shown id markets (resolvedBy events) visibleIndices market) := by
  have known : ∀ market, market ∈ page.list.resolvedRef ↔ market ∈ resolvedBy events := by
    intro market
    rw [mem_resolvedRef_run run]
    exact or_iff_right List.not_mem_nil
  have settled : Settled page.list :=
    run.invariant (fun page => Settled page.list)
      (fun _ _ _ guarded acts settled => settled.steps guarded acts)
      fun market member => absurd member List.not_mem_nil
  have sameCards := isTradeable_congr known
  have declares : ∀ markets visibleIndices market,
      market ∈ (page.render markets visibleIndices).declared ↔
        Shown (rank markets (resolvedBy events)) markets (resolvedBy events) visibleIndices
          market := by
    intro markets visibleIndices market
    rw [render_declared, mem_marketIds]
    unfold Shown rank
    rw [sameCards]
  refine ⟨fun market isResolved => ⟨?_, fun markets visibleIndices => ?_⟩,
    fun markets visibleIndices => ⟨?_, fun unbroken market => ?_⟩⟩
  · exact (settled market ((known market).mpr isResolved)).2
  · rw [render_declared]
    exact resolved_undeclared ((known market).mpr isResolved)
  · exact forall_congr' fun market => by rw [declares]
  · exact (declares _ _ market).trans (unbroken.shown_iff market)

end Pages

/-- The resolution of a market in a batch, and a price of it in the next one. -/
def resolution : Batch ℕ := Table.empty.insert ⟨"rain", none, 2, none⟩

def latePrice : Batch ℕ := Table.empty.insert ⟨"rain", some 70, 3, none⟩

theorem resolution_final_of_one :
    (∀ market ∈ resolvedBy [.prices resolution],
      MarketList.live ((MarketList.mounted : MarketList ℕ).handlePrices resolution) market = none ∧
      ∀ markets visibleIndices, market ∉
        (Page.render ⟨MarketList.mounted.handlePrices resolution, [], none⟩ markets
          visibleIndices).declared) ∧
    ∀ markets visibleIndices,
      ((∀ market, market ∈ (Page.render ⟨MarketList.mounted.handlePrices resolution, [], none⟩
            markets visibleIndices).declared ↔
          Shown id markets (resolvedBy [.prices resolution]) visibleIndices market) ↔
        ∀ market, Shown (rank markets (resolvedBy [.prices resolution])) markets
            (resolvedBy [.prices resolution]) visibleIndices market ↔
          Shown id markets (resolvedBy [.prices resolution]) visibleIndices market) ∧
      (Unbroken markets (resolvedBy [.prices resolution]) visibleIndices → ∀ market,
        market ∈ (Page.render ⟨MarketList.mounted.handlePrices resolution, [], none⟩ markets
            visibleIndices).declared ↔
          Shown id markets (resolvedBy [.prices resolution]) visibleIndices market) :=
  resolution_final (.act
    (show Guard Page.mounted (.prices resolution) from fun _ _ _ => List.not_mem_nil)
    (.prices resolution) (.stop _))

/-- A price that comes after the resolution is shown; and with a dead market at the top of the
list, the market below the window is declared with those in it. -/
theorem late_price_shown :
    (∃ page : Page ℕ, Run Steps (fun _ _ => True) .mounted
      [.prices resolution, .prices latePrice, .flush] page ∧
      "rain" ∈ resolvedBy [.prices resolution] ∧ page.list.live "rain" = some 70) ∧
    ¬ ∀ market, market ∈ ((Page.mounted : Page ℕ).render
        [⟨"hail", some "closed"⟩, ⟨"rain", some "active"⟩, ⟨"snow", some "active"⟩] [0, 1]).declared ↔
      Shown id [⟨"hail", some "closed"⟩, ⟨"rain", some "active"⟩, ⟨"snow", some "active"⟩] []
        [0, 1] market := by
  refine ⟨⟨_, .act trivial (.prices _) (.act trivial (.prices _) (.act trivial (.flush rfl)
    (.stop _))), by decide, by decide⟩, fun exact => ?_⟩
  obtain ⟨place, card, found, -, isSnow, isVisible⟩ := (exact "snow").mp (by decide)
  have upTo : place = 0 ∨ place = 1 := by simpa using isVisible
  rcases upTo with rfl | rfl
  · cases found
    exact absurd isSnow (by decide)
  · cases found
    exact absurd isSnow (by decide)

end PredictX.MarketGrid
