import PredictX.Data.Table

namespace PredictX.Data.Table

/-! Statements that write many rows of a table at once, and what an insert leaves alone. -/

universe u v

variable {ρ : Type u} {κ : Type v} {key : ρ → κ}

/-- `UPDATE` without a key: every row is rewritten, the ones a `WHERE` leaves out by
themselves. -/
def updateAll (table : Table key) (update : ρ → ρ)
    (keeps : ∀ row, key (update row) = key row) : Table key where
  rows := table.rows.map update
  unique := by
    have same : key ∘ update = key := funext keeps
    rw [List.map_map, same]
    exact table.unique

variable {table : Table key} {update : ρ → ρ} {keeps : ∀ row, key (update row) = key row}

theorem find?_updateAll [DecidableEq κ] (k : κ) :
    (table.updateAll update keeps).find? k = (table.find? k).map update := by
  unfold find? updateAll
  rw [List.find?_map]
  congr 2
  funext row
  simp only [Function.comp_apply, keeps]

/-- `DELETE` by key. -/
def erase [DecidableEq κ] (table : Table key) (k : κ) : Table key where
  rows := table.rows.filter fun row => key row ≠ k
  unique := table.unique.sublist (List.filter_sublist.map key)

theorem mem_of_mem_erase [DecidableEq κ] {k : κ} {row : ρ} (member : row ∈ (table.erase k).rows) :
    row ∈ table.rows :=
  List.mem_of_mem_filter member

theorem mem_erase [DecidableEq κ] {k : κ} {row : ρ} :
    row ∈ (table.erase k).rows ↔ row ∈ table.rows ∧ key row ≠ k := by
  simp [erase]

/-- A row is found under its own key only. -/
theorem eq_of_mem [DecidableEq κ] {row other : ρ} (member : row ∈ table.rows)
    (otherMember : other ∈ table.rows) (same : key row = key other) : row = other := by
  have found := find?_key_of_mem member
  rw [same, find?_key_of_mem otherMember] at found
  exact (Option.some.inj found).symm

theorem find?_insert_of_find? [DecidableEq κ] {k : κ} {row : ρ} (new : ρ)
    (found : table.find? k = some row) : (table.insert new).find? k = some row := by
  by_cases same : k = key new
  · unfold insert
    rw [dif_pos]
    · exact found
    · obtain ⟨member, isKey⟩ := find?_eq_some.mp found
      exact List.mem_map.mpr ⟨row, member, isKey.trans same⟩
  · rwa [find?_insert_ne new same]

theorem find?_insert_cases [DecidableEq κ] {k : κ} {row new : ρ}
    (found : (table.insert new).find? k = some row) :
    k = key new ∧ row = new ∨ table.find? k = some row := by
  obtain ⟨member, isKey⟩ := find?_eq_some.mp found
  rcases mem_insert member with before | rfl
  · exact .inr (find?_eq_some.mpr ⟨before, isKey⟩)
  · exact .inl ⟨isKey.symm, rfl⟩

end PredictX.Data.Table
