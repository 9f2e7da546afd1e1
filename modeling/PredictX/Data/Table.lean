import Mathlib

namespace PredictX.Data

/-! Tables with a unique key.

The row list is the semantic model of a database table and the key is whatever
the schema declares unique.  Uniqueness travels with the rows, so a lookup has at
most one answer and a column sum changes by one row's difference when one row is
rewritten.
-/

universe u v w

structure Table {ρ : Type u} {κ : Type v} (key : ρ → κ) where
  rows : List ρ
  unique : (rows.map key).Nodup

namespace Table

variable {ρ : Type u} {κ : Type v} {key : ρ → κ}

def empty : Table key := ⟨[], List.nodup_nil⟩

def single (row : ρ) : Table key := ⟨[row], List.nodup_singleton _⟩

/-- The total of one column. -/
def sum {M : Type w} [AddCommMonoid M] (table : Table key) (column : ρ → M) : M :=
  (table.rows.map column).sum

section Order

variable {table : Table key} {row : ρ} {column : ρ → ℚ}

theorem sum_nonneg (nonneg : ∀ row ∈ table.rows, 0 ≤ column row) : 0 ≤ table.sum column :=
  List.sum_nonneg (by simpa using nonneg)

theorem le_sum (nonneg : ∀ row ∈ table.rows, 0 ≤ column row) (member : row ∈ table.rows) :
    column row ≤ table.sum column :=
  List.single_le_sum (by simpa using nonneg) _ (List.mem_map_of_mem member)

end Order

variable [DecidableEq κ]

def find? (table : Table key) (k : κ) : Option ρ :=
  table.rows.find? (fun row => key row = k)

/-- Rewrite the row with key `k`; a missing row leaves the table as it is. -/
def modify (table : Table key) (k : κ) (update : ρ → ρ)
    (keeps : ∀ row, key (update row) = key row := by exact fun _ => id rfl) : Table key where
  rows := table.rows.map (fun row => if key row = k then update row else row)
  unique := by
    have same : (fun row => key (if key row = k then update row else row)) = key := by
      funext row
      split
      · exact keeps row
      · rfl
    have unique := table.unique
    rw [List.map_map]
    simpa only [Function.comp_def, same] using unique

/-- Append a row; a duplicate key leaves the table as it is. -/
def insert (table : Table key) (row : ρ) : Table key :=
  if present : key row ∈ table.rows.map key then table
  else
    { rows := table.rows ++ [row]
      unique := by
        rw [List.map_append]
        exact List.Nodup.append table.unique (List.nodup_singleton _)
          (by simpa using present) }

/-- `INSERT ... ON CONFLICT (key) DO UPDATE`. -/
def upsert (table : Table key) (row : ρ) (merge : ρ → ρ)
    (keeps : ∀ row, key (merge row) = key row := by exact fun _ => id rfl) : Table key :=
  match table.find? (key row) with
  | some _ => table.modify (key row) merge keeps
  | none => table.insert row

section Lookup

variable {table : Table key} {k k' : κ} {row : ρ}

theorem find?_eq_some : table.find? k = some row ↔ row ∈ table.rows ∧ key row = k := by
  constructor
  · intro found
    exact ⟨List.mem_of_find?_eq_some found,
      by simpa using List.find?_some found⟩
  · rintro ⟨member, rfl⟩
    cases found : table.find? (key row) with
    | none =>
        have absent := List.find?_eq_none.mp found row member
        simp at absent
    | some other =>
        have otherMember : other ∈ table.rows := List.mem_of_find?_eq_some found
        have sameKey : key other = key row := by simpa using List.find?_some found
        rw [List.inj_on_of_nodup_map table.unique otherMember member sameKey]

theorem find?_eq_none : table.find? k = none ↔ ∀ row ∈ table.rows, key row ≠ k := by
  simp [find?, List.find?_eq_none]

theorem key_of_find? (found : table.find? k = some row) : key row = k :=
  (find?_eq_some.mp found).2

theorem mem_of_find? (found : table.find? k = some row) : row ∈ table.rows :=
  (find?_eq_some.mp found).1

theorem find?_key_of_mem (member : row ∈ table.rows) : table.find? (key row) = some row :=
  find?_eq_some.mpr ⟨member, rfl⟩

end Lookup

section Modify

variable {table : Table key} {k k' : κ} {row : ρ} {update : ρ → ρ}
  {keeps : ∀ row, key (update row) = key row}

theorem mem_modify : row ∈ (table.modify k update keeps).rows ↔
    ∃ old ∈ table.rows, (if key old = k then update old else old) = row :=
  List.mem_map

theorem find?_modify_self :
    (table.modify k update keeps).find? k = (table.find? k).map update := by
  cases found : table.find? k with
  | none =>
      rw [Option.map_none, find?_eq_none]
      intro row member
      obtain ⟨old, oldMember, rfl⟩ := mem_modify.mp member
      have other := find?_eq_none.mp found old oldMember
      rwa [if_neg other]
  | some old =>
      obtain ⟨member, rfl⟩ := find?_eq_some.mp found
      rw [Option.map_some, find?_eq_some]
      exact ⟨mem_modify.mpr ⟨old, member, if_pos rfl⟩, keeps old⟩

theorem find?_modify_ne (other : k' ≠ k) :
    (table.modify k update keeps).find? k' = table.find? k' := by
  cases found : table.find? k' with
  | none =>
      rw [find?_eq_none]
      intro row member
      obtain ⟨old, oldMember, rfl⟩ := mem_modify.mp member
      have different := find?_eq_none.mp found old oldMember
      split
      · rwa [keeps]
      · exact different
  | some old =>
      obtain ⟨member, rfl⟩ := find?_eq_some.mp found
      rw [find?_eq_some]
      exact ⟨mem_modify.mpr ⟨old, member, if_neg other⟩, rfl⟩

theorem isSome_find?_modify :
    ((table.modify k update keeps).find? k').isSome = (table.find? k').isSome := by
  by_cases same : k' = k
  · rw [same, find?_modify_self, Option.isSome_map]
  · rw [find?_modify_ne same]

theorem modify_of_find?_none (absent : table.find? k = none) :
    table.modify k update keeps = table := by
  have rows : (table.modify k update keeps).rows = table.rows := by
    have pointwise : ∀ row ∈ table.rows,
        (if key row = k then update row else row) = row := fun row member =>
      if_neg (find?_eq_none.mp absent row member)
    exact (List.map_congr_left pointwise).trans (List.map_id' _)
  cases table
  simpa only [modify, mk.injEq] using rows

/-- Only the stored row counts. -/
theorem modify_congr {update' : ρ → ρ} {keeps' : ∀ row, key (update' row) = key row}
    (found : table.find? k = some row) (same : update row = update' row) :
    table.modify k update keeps = table.modify k update' keeps' := by
  have rows : (table.modify k update keeps).rows = (table.modify k update' keeps').rows := by
    refine List.map_congr_left fun stored member => ?_
    split
    · rename_i here
      have only : stored = row :=
        Option.some.inj ((here ▸ find?_key_of_mem member).symm.trans found)
      rw [only, same]
    · rfl
  unfold modify at rows ⊢
  congr

theorem modify_eq_self (same : ∀ row, key row = k → update row = row) :
    table.modify k update keeps = table := by
  have rows : (table.modify k update keeps).rows = table.rows := by
    refine (List.map_congr_left fun row _ => ?_).trans (List.map_id _)
    split
    · rename_i here
      exact same row here
    · rfl
  unfold modify at rows ⊢
  congr

theorem keys_modify : (table.modify k update keeps).rows.map key = table.rows.map key := by
  simp only [modify, List.map_map, Function.comp_def]
  apply List.map_congr_left
  intro row _
  split
  · exact keeps row
  · rfl

variable {M : Type w} [AddCommMonoid M] {column : ρ → M}

private theorem sum_map_if (rows : List ρ) (unique : (rows.map key).Nodup)
    (member : row ∈ rows) (column : ρ → M) :
    (rows.map (fun r => column (if key r = key row then update r else r))).sum + column row =
      (rows.map column).sum + column (update row) := by
  induction rows with
  | nil => cases member
  | cons head tail ih =>
      simp only [List.map_cons, List.nodup_cons, List.mem_map, not_exists, not_and] at unique
      simp only [List.map_cons, List.sum_cons]
      rcases List.mem_cons.mp member with rfl | later
      · have tailSame : tail.map (fun r => column (if key r = key row then update r else r)) =
            tail.map column := List.map_congr_left fun r inTail => by
          rw [if_neg (unique.1 r inTail)]
        rw [tailSame, if_pos rfl]
        abel
      · have headOther : key head ≠ key row := fun same => unique.1 row later same.symm
        rw [if_neg headOther, add_assoc, ih unique.2 later, add_assoc]

/-- Rewriting one row moves a column total by that row's difference. -/
theorem sum_modify (found : table.find? k = some row) :
    (table.modify k update keeps).sum column + column row =
      table.sum column + column (update row) := by
  obtain ⟨member, rfl⟩ := find?_eq_some.mp found
  simpa only [sum, modify, List.map_map, Function.comp_def] using
    sum_map_if table.rows table.unique member column

/-- The same with the difference named. -/
theorem sum_modify_add {G : Type w} [AddCommGroup G] {column : ρ → G} {delta : G}
    (found : table.find? k = some row) (change : column (update row) = column row + delta) :
    (table.modify k update keeps).sum column = table.sum column + delta := by
  have total : (table.modify k update keeps).sum column + column row =
      table.sum column + column (update row) := sum_modify found
  rw [change, ← add_assoc, add_right_comm] at total
  exact add_right_cancel total

theorem sum_modify_eq (same : ∀ row, key row = k → column (update row) = column row) :
    (table.modify k update keeps).sum column = table.sum column := by
  simp only [sum, modify, List.map_map, Function.comp_def]
  congr 1
  apply List.map_congr_left
  intro row _
  split
  · exact same row ‹_›
  · rfl

theorem sum_modify_le {column : ρ → ℚ}
    (less : ∀ row ∈ table.rows, column (update row) ≤ column row) :
    (table.modify k update keeps).sum column ≤ table.sum column := by
  simp only [sum, modify, List.map_map]
  refine List.sum_le_sum fun row member => ?_
  dsimp only [Function.comp_apply]
  split
  · exact less row member
  · exact le_rfl

end Modify

section Insert

variable {table : Table key} {k : κ} {row : ρ}

theorem insert_rows (row : ρ) (fresh : table.find? (key row) = none) :
    (table.insert row).rows = table.rows ++ [row] := by
  have absent : key row ∉ table.rows.map key := by
    rintro present
    obtain ⟨old, member, same⟩ := List.mem_map.mp present
    exact find?_eq_none.mp fresh old member same
  rw [insert, dif_neg absent]

theorem find?_insert_self (row : ρ) (fresh : table.find? (key row) = none) :
    (table.insert row).find? (key row) = some row := by
  rw [find?_eq_some, insert_rows row fresh]
  exact ⟨by simp, rfl⟩

theorem find?_insert_ne (row : ρ) (other : k ≠ key row) :
    (table.insert row).find? k = table.find? k := by
  unfold insert
  split
  · rfl
  · simp only [find?, List.find?_append]
    cases table.rows.find? (fun row => decide (key row = k)) with
    | some _ => rfl
    | none => simp [Ne.symm other]

theorem sum_insert {M : Type w} [AddCommMonoid M] {column : ρ → M} (row : ρ)
    (fresh : table.find? (key row) = none) :
    (table.insert row).sum column = table.sum column + column row := by
  simp [sum, insert_rows row fresh]

theorem mem_insert {old : ρ} (member : old ∈ (table.insert row).rows) :
    old ∈ table.rows ∨ old = row := by
  unfold insert at member
  split at member
  · exact .inl member
  · simpa using member

end Insert

section Upsert

variable {table : Table key} {k : κ} {row : ρ} {merge : ρ → ρ}
  {keeps : ∀ row, key (merge row) = key row}

theorem upsert_of_some {old : ρ} (found : table.find? (key row) = some old) :
    table.upsert row merge keeps = table.modify (key row) merge keeps := by
  rw [upsert, found]

theorem upsert_of_none (fresh : table.find? (key row) = none) :
    table.upsert row merge keeps = table.insert row := by
  rw [upsert, fresh]

end Upsert

/-! # Tables with the same keys -/

section Linked

variable {related : ρ → ρ → Prop} {before middle after table : Table key} {k : κ} {row : ρ}

/-- The rows under each key are related, or there are none on either side. -/
def Linked (related : ρ → ρ → Prop) (before after : Table key) : Prop :=
  ∀ k, Option.Rel related (before.find? k) (after.find? k)

namespace Linked

theorem refl (reflexive : ∀ row, related row row) (table : Table key) :
    Linked related table table := by
  intro k
  cases table.find? k with
  | none => exact .none
  | some row => exact .some (reflexive row)

theorem forward (linked : Linked related before after) (found : before.find? k = some row) :
    ∃ row', after.find? k = some row' ∧ related row row' := by
  have here := linked k
  rw [found] at here
  cases afterwards : after.find? k with
  | none => simp [afterwards] at here
  | some row' =>
      rw [afterwards, Option.rel_some_some] at here
      exact ⟨row', rfl, here⟩

theorem backward (linked : Linked related before after) (found : after.find? k = some row) :
    ∃ row', before.find? k = some row' ∧ related row' row := by
  have here := linked k
  rw [found] at here
  cases earlier : before.find? k with
  | none => simp [earlier] at here
  | some row' =>
      rw [earlier, Option.rel_some_some] at here
      exact ⟨row', rfl, here⟩

theorem trans (transitive : ∀ {first second third}, related first second →
      related second third → related first third)
    (left : Linked related before middle) (right : Linked related middle after) :
    Linked related before after := by
  intro k
  cases found : before.find? k with
  | none =>
      cases last : after.find? k with
      | none => exact .none
      | some row =>
          obtain ⟨row', midFound, _⟩ := right.backward last
          obtain ⟨_, firstFound, _⟩ := left.backward midFound
          exact absurd (found.symm.trans firstFound) (by simp)
  | some row =>
      obtain ⟨row', midFound, leftStep⟩ := left.forward found
      obtain ⟨_, lastFound, rightStep⟩ := right.forward midFound
      rw [lastFound]
      exact .some (transitive leftStep rightStep)

theorem mono {weaker : ρ → ρ → Prop} (weaken : ∀ {row row'}, related row row' → weaker row row')
    (linked : Linked related before after) : Linked weaker before after := by
  intro k
  have here := linked k
  generalize before.find? k = old, after.find? k = new at here ⊢
  cases here with
  | none => exact .none
  | some step => exact .some (weaken step)

theorem modify {update : ρ → ρ} (reflexive : ∀ row, related row row)
    (keeps : ∀ row, key (update row) = key row) (found : table.find? k = some row)
    (step : related row (update row)) : Linked related table (table.modify k update keeps) := by
  intro other
  by_cases same : other = k
  · subst same
    rw [find?_modify_self, found]
    exact .some step
  · rw [find?_modify_ne same]
    exact refl reflexive table other

/-- A rewrite that may miss its row. -/
theorem modifyAny {update : ρ → ρ} (reflexive : ∀ row, related row row)
    (keeps : ∀ row, key (update row) = key row)
    (step : ∀ row, key row = k → related row (update row)) :
    Linked related table (table.modify k update keeps) := by
  cases found : table.find? k with
  | none =>
      rw [modify_of_find?_none found]
      exact refl reflexive table
  | some row => exact .modify reflexive keeps found (step row (key_of_find? found))

end Linked

end Linked

end Table

end PredictX.Data
