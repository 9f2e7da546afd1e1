import PredictX.Services.AlertEngine

namespace PredictX.AlertEngine

open PredictX.Data

/-! Which due alerts one run triggers.

The index is rebuilt from the rows only when the claim comes back empty.  One due member is
enough to skip the repair, and with it every due alert the index does not hold.
-/

/-- The run triggers every alert of the market that was due and untriggered. -/
def MissesNone (market : MarketId) (prices : Prices) (alerts : Table Alert.id) (index : Index) :
    Prop :=
  ∀ alert ∈ alerts.rows, alert.marketId = market → alert.triggered = false → alert.Due prices →
    ∃ after, (checkPriceAlerts market prices alerts index).alerts.find? alert.id = some after ∧
      after.triggered = true

/-- A due member of one of the sets has the id. -/
def Index.Claimable (prices : Prices) (index : Index) (id : AlertId) : Prop :=
  ∃ slot, ∃ member ∈ index slot, isDue prices slot member.score = true ∧ member.id = id

/-- Either nothing in the index is due, or every due alert is found through it. -/
def Index.Usable (market : MarketId) (prices : Prices) (alerts : Table Alert.id) (index : Index) :
    Prop :=
  (∀ id, ¬ index.Claimable prices id) ∨
    ∀ alert ∈ alerts.rows, alert.marketId = market → alert.triggered = false →
      alert.Due prices → index.Claimable prices alert.id

variable {market : MarketId} {prices : Prices} {alerts : Table Alert.id} {index : Index}
  {id : AlertId} {claimed : List AlertId}

theorem mem_claim {slot : Slot} : id ∈ (index.claim prices slot).1 ↔
    ∃ member ∈ index slot, isDue prices slot member.score = true ∧ member.id = id := by
  simp only [Index.claim, List.mem_map, List.mem_filter, and_assoc]

theorem mem_slots (slot : Slot) : slot ∈ slots := by
  rcases slot with ⟨_ | _, _ | _⟩ <;> simp [slots]

/-- The sets are claimed one after the other, each as it was at the beginning. -/
theorem mem_claimDueAlerts :
    id ∈ (claimDueAlerts prices index).1 ↔ index.Claimable prices id := by
  have sets : (claimDueAlerts prices index).1 = slots.flatMap fun slot =>
      (index.claim prices slot).1 := by
    simp [claimDueAlerts, slots, Index.claim, Function.update]
  rw [sets, List.mem_flatMap]
  constructor
  · rintro ⟨slot, _, claims⟩
    exact ⟨slot, mem_claim.mp claims⟩
  · rintro ⟨slot, claims⟩
    exact ⟨slot, mem_slots slot, mem_claim.mpr claims⟩

theorem claimDueAlerts_eq_nil :
    (claimDueAlerts prices index).1 = [] ↔ ∀ id, ¬ index.Claimable prices id := by
  rw [List.eq_nil_iff_forall_not_mem]
  exact forall_congr' fun id => not_congr mem_claimDueAlerts

/-- Adding another alert leaves a member where it is. -/
theorem Index.mem_add_of_ne {slot : Slot} {member : Member} {alert : Alert}
    (member_mem : member ∈ index slot) (different : member.id ≠ alert.id) :
    member ∈ index.add alert slot := by
  unfold Index.add
  by_cases same : slot = alert.slot
  · subst same
    simp [member_mem, different]
  · rwa [Function.update_of_ne same]

theorem Index.mem_addAll_of_ne {rows : List Alert} {slot : Slot} {member : Member}
    (member_mem : member ∈ index slot) (different : ∀ alert ∈ rows, member.id ≠ alert.id) :
    member ∈ index.addAll rows slot := by
  induction rows generalizing index with
  | nil => exact member_mem
  | cons alert rest ih =>
      rw [List.forall_mem_cons] at different
      exact ih (Index.mem_add_of_ne member_mem different.1) different.2

theorem Index.mem_addAll {rows : List Alert} {alert : Alert} (member : alert ∈ rows)
    (once : (rows.map Alert.id).Nodup) :
    (⟨alert.id, alert.score⟩ : Member) ∈ index.addAll rows alert.slot := by
  induction rows generalizing index with
  | nil => cases member
  | cons first rest ih =>
      rw [List.map_cons, List.nodup_cons] at once
      rcases List.mem_cons.mp member with rfl | later
      · have added : (⟨alert.id, alert.score⟩ : Member) ∈ index.add alert alert.slot := by
          simp [Index.add]
        have kept : (⟨alert.id, alert.score⟩ : Member) ∈ (index.add alert).addAll rest alert.slot :=
          Index.mem_addAll_of_ne added fun other otherMember same =>
            once.1 (List.mem_map.mpr ⟨other, otherMember, same.symm⟩)
        exact kept
      · exact ih later once.2

/-- After the repair every due alert can be claimed. -/
theorem claimable_reindexed {alert : Alert} (member : alert ∈ untriggered market alerts)
    (due : alert.Due prices) :
    (index.addAll (untriggered market alerts)).Claimable prices alert.id := by
  have once : ((untriggered market alerts).map Alert.id).Nodup :=
    alerts.unique.sublist (List.filter_sublist.map _)
  exact ⟨alert.slot, _, Index.mem_addAll member once, due, rfl⟩

theorem mem_untriggered {alert : Alert} : alert ∈ untriggered market alerts ↔
    alert ∈ alerts.rows ∧ alert.marketId = market ∧ alert.triggered = false := by
  simp [untriggered, List.mem_filter]

/-- The update triggers the claimed rows and no others. -/
theorem flipClaimed_triggers {alert : Alert} (member : alert ∈ alerts.rows)
    (pending : alert.triggered = false) :
    (∃ after, (flipClaimed alerts claimed index).alerts.find? alert.id = some after ∧
      after.triggered = true) ↔ alert.id ∈ claimed := by
  have found : alerts.find? alert.id = some alert := Table.find?_key_of_mem member
  unfold flipClaimed
  split
  · rename_i nothing
    simp [found, pending, nothing]
  · simp only [markTriggered, Table.find?_updateAll, found, Option.map_some, Option.some.injEq,
      exists_eq_left', Alert.flip, Alert.flips, pending]
    by_cases isClaimed : alert.id ∈ claimed <;> simp [isClaimed, pending]

/-- One run triggers every due alert exactly when its first claim is empty or misses none. -/
theorem no_due_alert_is_missed (market : MarketId) (prices : Prices) (alerts : Table Alert.id)
    (index : Index) :
    MissesNone market prices alerts index ↔ index.Usable market prices alerts := by
  unfold MissesNone Index.Usable
  by_cases empty : (claimDueAlerts prices index).1 = []
  · have nothing := claimDueAlerts_eq_nil.mp empty
    refine ⟨fun _ => .inl nothing, fun _ alert member ofMarket pending due => ?_⟩
    have selected : alert ∈ untriggered market alerts :=
      mem_untriggered.mpr ⟨member, ofMarket, pending⟩
    have some_ : (untriggered market alerts).length ≠ 0 :=
      (List.length_pos_of_mem selected).ne'
    unfold checkPriceAlerts reindexMarketAlerts
    dsimp only
    rw [if_pos empty, if_neg some_]
    exact (flipClaimed_triggers member pending).mpr
      (mem_claimDueAlerts.mpr (claimable_reindexed selected due))
  · have some_ : ¬ ∀ id, ¬ index.Claimable prices id :=
      fun nothing => empty (claimDueAlerts_eq_nil.mpr nothing)
    rw [or_iff_right some_]
    refine forall₂_congr fun alert member => forall₃_congr fun ofMarket pending due => ?_
    unfold checkPriceAlerts
    dsimp only
    rw [if_neg empty, flipClaimed_triggers member pending, mem_claimDueAlerts]

/-- An alert of user 1 that fires when YES reaches the price. -/
def risesTo (id : AlertId) (price : ℚ) : Alert := ⟨id, 1, 1, none, .above, price, false⟩

def twoAlerts : Table Alert.id :=
  ⟨[risesTo 1 (1 / 2), risesTo 2 (1 / 2)], by decide +kernel⟩

/-- Alert 2 has dropped out of the index: alert 1 is claimed, and alert 2 stays untriggered at
a price that meets it. -/
theorem partial_index_misses_an_alert :
    ¬ MissesNone 1 ⟨3 / 4, 1 / 4⟩ twoAlerts (Index.empty.add (risesTo 1 (1 / 2))) := by
  intro missesNone
  obtain ⟨after, found, triggered⟩ := missesNone (risesTo 2 (1 / 2)) (by decide +kernel) rfl rfl
    (by decide +kernel)
  have missed : ((checkPriceAlerts 1 ⟨3 / 4, 1 / 4⟩ twoAlerts
      (Index.empty.add (risesTo 1 (1 / 2)))).alerts.find? 2).map Alert.triggered = some false := by
    decide +kernel
  have found : (checkPriceAlerts 1 ⟨3 / 4, 1 / 4⟩ twoAlerts
      (Index.empty.add (risesTo 1 (1 / 2)))).alerts.find? 2 = some after := found
  rw [found, Option.map_some, triggered] at missed
  contradiction

end PredictX.AlertEngine
