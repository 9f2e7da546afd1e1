import PredictX.Data.Table

namespace PredictX.Data

/-! The identity map of a long-lived session.

A row is an object from the first query that returns it, and later queries give back that
object with the values it has.  The session sees its objects over the table as it is stored,
and writes those it has changed.  A map is current when its objects still show the stored
rows; then the session works on the table itself.
-/

universe u v

structure IdentityMap {ρ : Type u} {κ : Type v} (key : ρ → κ) where
  lookup : κ → Option ρ
  keyed : ∀ {k row}, lookup k = some row → key row = k

namespace IdentityMap

variable {ρ : Type u} {κ : Type v} {key : ρ → κ} [DecidableEq κ] {map : IdentityMap key}
  {table before after : Table key} {k : κ}

def empty : IdentityMap key := ⟨fun _ => none, fun found => absurd found (by simp)⟩

/-- A query that returns the row `k`; an object that is there is not refreshed. -/
def load (map : IdentityMap key) (table : Table key) (k : κ) : IdentityMap key where
  lookup := fun other =>
    if other = k then (map.lookup k).or (table.find? k) else map.lookup other
  keyed := by
    intro other row found
    split at found
    · rename_i same
      subst same
      rcases Option.or_eq_some_iff.mp found with loaded | ⟨_, stored⟩
      · exact map.keyed loaded
      · exact Table.key_of_find? stored
    · exact map.keyed found

/-- The rows as the session sees them. -/
def overlay (map : IdentityMap key) (table : Table key) : Table key where
  rows := table.rows.map fun row => (map.lookup (key row)).getD row
  unique := by
    have same : ∀ row, key ((map.lookup (key row)).getD row) = key row := by
      intro row
      cases found : map.lookup (key row) with
      | none => rfl
      | some loaded => exact map.keyed found
    rw [List.map_map]
    simpa only [Function.comp_def, same] using table.unique

/-- The objects after a flush: those the session had, and those it has changed. -/
def flushed [DecidableEq ρ] (map : IdentityMap key) (before after : Table key) :
    IdentityMap key where
  lookup := fun k =>
    if (map.lookup k).isSome || (before.find? k).isSome && before.find? k ≠ after.find? k then
      after.find? k
    else none
  keyed := by
    intro k row found
    split at found
    · exact Table.key_of_find? found
    · contradiction

/-- Every object shows the stored row. -/
def Current (map : IdentityMap key) (table : Table key) : Prop :=
  ∀ k row, map.lookup k = some row → table.find? k = some row

theorem Current.empty (table : Table key) : (empty : IdentityMap key).Current table :=
  fun _ _ found => absurd found (by simp [IdentityMap.empty])

theorem Current.load (current : map.Current table) (k : κ) : (map.load table k).Current table := by
  intro other row found
  unfold IdentityMap.load at found
  dsimp only at found
  split at found
  · rename_i same
    subst same
    rcases Option.or_eq_some_iff.mp found with loaded | ⟨_, stored⟩
    · exact current _ _ loaded
    · exact stored
  · exact current _ _ found

theorem Current.flushed [DecidableEq ρ] (map : IdentityMap key) (before after : Table key) :
    (map.flushed before after).Current after := by
  intro k row found
  unfold IdentityMap.flushed at found
  dsimp only at found
  split at found
  · exact found
  · contradiction

/-- What leaves the loaded rows alone leaves the map current. -/
theorem Current.step (current : map.Current before)
    (kept : ∀ k, (map.lookup k).isSome → after.find? k = before.find? k) : map.Current after := by
  intro k row found
  rw [kept k (by simp [found])]
  exact current k row found

theorem overlay_current (current : map.Current table) : map.overlay table = table := by
  have rows : (map.overlay table).rows = table.rows := by
    refine (List.map_congr_left fun row member => ?_).trans (List.map_id _)
    cases found : map.lookup (key row) with
    | none => rfl
    | some loaded =>
        exact Option.some.inj ((current _ _ found).symm.trans (Table.find?_key_of_mem member))
  unfold overlay at rows ⊢
  congr

end IdentityMap

section Flush

variable {ρ : Type u} {κ : Type v} {key : ρ → κ} [DecidableEq κ]

/-- The table after the UPDATEs of what the session has changed: `columns` merges a loaded
row, its value and the row that is stored. -/
def flushRows (columns : ρ → ρ → ρ → ρ)
    (keeps : ∀ loaded value stored, key (columns loaded value stored) = key stored)
    (before after stored : Table key) : Table key where
  rows := after.rows.map fun value =>
    match before.find? (key value), stored.find? (key value) with
    | some loaded, some row => columns loaded value row
    | _, _ => value
  unique := by
    have same : ∀ value, key (match before.find? (key value), stored.find? (key value) with
        | some loaded, some row => columns loaded value row
        | _, _ => value) = key value := by
      intro value
      split
      · rename_i found
        exact (keeps _ _ _).trans (Table.key_of_find? found)
      · rfl
    rw [List.map_map]
    simpa only [Function.comp_def, same] using after.unique

theorem flushRows_stored {columns : ρ → ρ → ρ → ρ}
    {keeps : ∀ loaded value stored, key (columns loaded value stored) = key stored}
    (merges : ∀ {loaded value}, key value = key loaded → columns loaded value loaded = value)
    (before after : Table key) : flushRows columns keeps before after before = after := by
  have rows : (flushRows columns keeps before after before).rows = after.rows := by
    refine (List.map_congr_left fun value _ => ?_).trans (List.map_id _)
    cases found : before.find? (key value) with
    | none => rfl
    | some loaded => exact merges (Table.key_of_find? found).symm
  unfold flushRows at rows ⊢
  congr

end Flush

end PredictX.Data
