import PredictX.Data.Table

namespace PredictX.Data

/-! Dictionaries that keep the order in which their keys came in.

Setting a key that is there replaces its value where it stands.
-/

abbrev Dict (κ ν : Type) := Table (Prod.fst : κ × ν → κ)

namespace Dict

variable {κ ν : Type} [DecidableEq κ]

def get? (dict : Dict κ ν) (key : κ) : Option ν := (dict.find? key).map Prod.snd

/-- `dict[key] = value`. -/
def set (dict : Dict κ ν) (key : κ) (value : ν) : Dict κ ν :=
  dict.upsert (key, value) (fun item => (item.1, value)) (fun _ => rfl)

/-- `dict.setdefault(key, value)`. -/
def setDefault (dict : Dict κ ν) (key : κ) (value : ν) : Dict κ ν := dict.insert (key, value)

/-- A dictionary of some items: of two items with one key the later counts. -/
def ofItems (items : List (κ × ν)) : Dict κ ν :=
  items.foldl (fun dict item => dict.set item.1 item.2) .empty

variable {dict : Dict κ ν} {key other : κ} {value : ν}

@[simp] theorem get?_empty : get? (Table.empty : Dict κ ν) key = none := rfl

theorem get?_set_self : (dict.set key value).get? key = some value := by
  unfold get? set
  cases found : dict.find? key with
  | none =>
      rw [Table.upsert_of_none found, Table.find?_insert_self _ found]
      rfl
  | some item =>
      rw [Table.upsert_of_some found, Table.find?_modify_self, found]
      rfl

theorem get?_set_ne (apart : other ≠ key) : (dict.set key value).get? other = dict.get? other := by
  unfold get? set
  cases found : dict.find? key with
  | none => rw [Table.upsert_of_none found, Table.find?_insert_ne _ apart]
  | some item => rw [Table.upsert_of_some found, Table.find?_modify_ne apart]

theorem get?_set : (dict.set key value).get? other =
    if other = key then some value else dict.get? other := by
  by_cases same : other = key
  · rw [same, get?_set_self, if_pos rfl]
  · rw [get?_set_ne same, if_neg same]

theorem get?_setDefault : (dict.setDefault key value).get? other =
    if other = key then some ((dict.get? key).getD value) else dict.get? other := by
  unfold get? setDefault
  by_cases same : other = key
  · rw [if_pos same, same]
    cases found : dict.find? key with
    | none =>
        rw [Table.find?_insert_self _ found]
        rfl
    | some item =>
        have present : (key, value).1 ∈ dict.rows.map Prod.fst := by
          obtain ⟨member, isKey⟩ := Table.find?_eq_some.mp found
          exact List.mem_map.mpr ⟨item, member, isKey⟩
        rw [Table.insert, dif_pos present, found]
        rfl
  · rw [if_neg same, Table.find?_insert_ne _ same]

theorem mem_keys : key ∈ dict.rows.map Prod.fst ↔ (dict.get? key).isSome := by
  unfold get?
  rw [Option.isSome_map, Option.isSome_iff_exists]
  simp only [Table.find?_eq_some, List.mem_map]

theorem rows_filter_key (dict : Dict κ ν) (key : κ) :
    (dict.rows.filter fun item => item.1 = key) =
      ((dict.get? key).map fun value => (key, value)).toList := by
  unfold get?
  cases found : dict.find? key with
  | none =>
      rw [Option.map_none, Option.map_none, Option.toList_none, List.filter_eq_nil_iff]
      simpa using Table.find?_eq_none.mp found
  | some item =>
      obtain ⟨member, rfl⟩ := Table.find?_eq_some.mp found
      obtain ⟨front, back, split⟩ := List.append_of_mem member
      have unique := dict.unique
      rw [split, List.map_append, List.map_cons] at unique
      have apart := List.nodup_middle.mp unique
      have others : ∀ other ∈ front ++ back, ¬ other.1 = item.1 := by
        intro other isOther same
        rw [← List.map_append] at apart
        exact (List.nodup_cons.mp apart).1 (same ▸ List.mem_map_of_mem isOther)
      have none : ((front ++ back).filter fun other => other.1 = item.1) = [] := by
        rw [List.filter_eq_nil_iff]
        simpa using others
      rw [List.filter_append, List.append_eq_nil_iff] at none
      rw [split, List.filter_append, none.1, List.filter_cons_of_pos (by simp), none.2]
      rfl

/-- What a loop that sets the keys of some items leaves. -/
theorem get?_setItems (items : List (κ × ν)) (dict : Dict κ ν) :
    (items.foldl (fun dict item => dict.set item.1 item.2) dict).get? key =
      ((items.filter fun item => item.1 = key).getLast?.map Prod.snd).or (dict.get? key) := by
  induction items using List.reverseRecOn with
  | nil => rfl
  | append_singleton items item ih =>
      rw [List.foldl_append, List.foldl_cons, List.foldl_nil, get?_set, List.filter_append]
      by_cases same : key = item.1
      · simp [same]
      · rw [if_neg same, ih]
        simp [Ne.symm same]

theorem get?_ofItems (items : List (κ × ν)) :
    (ofItems items).get? key =
      (items.filter fun item => item.1 = key).getLast?.map Prod.snd := by
  unfold ofItems
  rw [get?_setItems, get?_empty, Option.or_none]

/-- The values of some rows, listed under the rows' keys. -/
def group {α : Type} (keyOf : α → κ) (valueOf : α → ν) (rows : List α) : Dict κ (List ν) :=
  rows.foldl (fun dict row =>
    dict.set (keyOf row) ((dict.get? (keyOf row)).getD [] ++ [valueOf row])) .empty

theorem get?_group {α : Type} (keyOf : α → κ) (valueOf : α → ν) (rows : List α) :
    (group keyOf valueOf rows).get? key =
      if rows.filter (fun row => keyOf row = key) = [] then none
      else some ((rows.filter fun row => keyOf row = key).map valueOf) := by
  induction rows using List.reverseRecOn with
  | nil => rfl
  | append_singleton rows row ih =>
      unfold group at ih ⊢
      rw [List.foldl_append, List.foldl_cons, List.foldl_nil, get?_set, List.filter_append]
      by_cases same : key = keyOf row
      · subst same
        rw [if_pos rfl, ih]
        by_cases empty : rows.filter (fun other => keyOf other = keyOf row) = []
        · simp [empty]
        · simp [empty]
      · rw [if_neg same, ih]
        simp [Ne.symm same]

theorem mem_keys_group {α : Type} (keyOf : α → κ) (valueOf : α → ν) (rows : List α) :
    key ∈ (group keyOf valueOf rows).rows.map Prod.fst ↔ ∃ row ∈ rows, keyOf row = key := by
  rw [mem_keys, get?_group]
  split
  · rename_i empty
    simpa [List.filter_eq_nil_iff] using empty
  · rename_i stocked
    simpa [List.filter_eq_nil_iff] using stocked

/-- What a loop of `setdefault` leaves. -/
theorem get?_setDefaults (other dict : Dict κ ν) :
    (other.rows.foldl (fun dict item => dict.setDefault item.1 item.2) dict).get? key =
      (dict.get? key).or (other.get? key) := by
  suffices loop : ∀ (items : List (κ × ν)) (dict : Dict κ ν),
      (items.foldl (fun dict item => dict.setDefault item.1 item.2) dict).get? key =
        (dict.get? key).or ((items.find? fun item => item.1 = key).map Prod.snd) from
    loop other.rows dict
  intro items
  induction items with
  | nil => simp
  | cons item rest ih =>
      intro dict
      rw [List.foldl_cons, ih, get?_setDefault]
      by_cases same : key = item.1
      · subst same
        cases dict.get? item.1 <;> simp
      · rw [if_neg same, List.find?_cons_of_neg (by simpa using Ne.symm same)]

/-- A look-up does not depend on the order of the items. -/
theorem get?_of_perm {items : List (κ × ν)} (perm : items.Perm dict.rows) :
    (items.find? fun item => item.1 = key).map Prod.snd = dict.get? key := by
  have unique : (items.map Prod.fst).Nodup := (perm.map Prod.fst).nodup_iff.mpr dict.unique
  have same : ∀ item, Table.find? (⟨items, unique⟩ : Dict κ ν) key = some item ↔
      dict.find? key = some item := by
    intro item
    rw [Table.find?_eq_some, Table.find?_eq_some, perm.mem_iff]
  exact congrArg (Option.map Prod.snd) (Option.ext same)

end Dict

end PredictX.Data
