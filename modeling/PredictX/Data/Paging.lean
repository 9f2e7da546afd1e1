import Mathlib

namespace PredictX.Data

/-! Walks through pages of a listing.

A query lists its rows by a descending key; rows with one key come in any order.  Whoever follows
a cursor asks for one page after another, and what a request answers may depend on everything that
has been answered before.
-/

/-- `ORDER BY key DESC`. -/
structure Listed {α κ : Type} [LE κ] (key : α → κ) (rows list : List α) : Prop where
  perm : list.Perm rows
  sorted : list.Pairwise fun left right => key right ≤ key left

namespace Listed

variable {α κ : Type} [LinearOrder κ] {key : α → κ} {rows other list left right : List α}

theorem insertionSort (key : α → κ) (rows : List α) :
    Listed key rows (rows.insertionSort fun left right => key right ≤ key left) := by
  have : IsTrans α fun left right => key right ≤ key left :=
    ⟨fun _ _ _ first second => second.trans first⟩
  have : Std.Total fun left right : α => key right ≤ key left :=
    ⟨fun _ _ => le_total _ _⟩
  exact ⟨List.perm_insertionSort _ rows, List.pairwise_insertionSort _ rows⟩

/-- The keys come in the same order however the rows do. -/
theorem map_key (listed : Listed key rows left) (again : Listed key rows right) :
    left.map key = right.map key := by
  have perm : (left.map key).Perm (right.map key) :=
    (listed.perm.trans again.perm.symm).map key
  refine perm.eq_of_pairwise (fun a b _ _ above below => le_antisymm below above) ?_ ?_
  · exact List.pairwise_map.mpr listed.sorted
  · exact List.pairwise_map.mpr again.sorted

/-- Rows with different keys are listed in one way. -/
theorem unique (distinct : (rows.map key).Nodup) (listed : Listed key rows left)
    (again : Listed key rows right) : left = right := by
  refine (listed.perm.trans again.perm.symm).eq_of_pairwise ?_ listed.sorted again.sorted
  intro a b inLeft inRight above below
  exact List.inj_on_of_nodup_map distinct (listed.perm.subset inLeft) (again.perm.subset inRight)
    (le_antisymm below above)

/-- What a keyset filter leaves behind the last row of a page. -/
theorem filter_below {front rest : List α} {last : α}
    (sorted : (front ++ last :: rest).Pairwise fun left right => key right ≤ key left) :
    ((front ++ last :: rest).filter fun row => key row < key last) =
      rest.filter fun row => key row < key last := by
  have earlier : ∀ row ∈ front, ¬ key row < key last := by
    intro row member
    exact not_lt.mpr ((List.pairwise_append.mp sorted).2.2 row member last List.mem_cons_self)
  have none : (front.filter fun row => key row < key last) = [] := by
    rw [List.filter_eq_nil_iff]
    intro row member
    simpa using not_lt.mp (earlier row member)
  rw [List.filter_append, none, List.nil_append, List.filter_cons_of_neg (by simp)]

/-- Where the next key is smaller, that is the whole rest. -/
theorem filter_below_of_apart {front rest : List α} {last : α}
    (sorted : (front ++ last :: rest).Pairwise fun left right => key right ≤ key left)
    (apart : ∀ row ∈ rest.head?, key row < key last) :
    ((front ++ last :: rest).filter fun row => key row < key last) = rest := by
  rw [filter_below sorted, List.filter_eq_self]
  intro row member
  cases rest with
  | nil => cases member
  | cons next rest =>
      have smaller : key next < key last := apart next rfl
      have tail := (List.pairwise_append.mp sorted).2.1
      rw [List.pairwise_cons, List.pairwise_cons] at tail
      rcases List.mem_cons.mp member with rfl | later
      · simpa using smaller
      · simpa using (tail.2.1 row later).trans_lt smaller

end Listed

/-! # Following a cursor -/

section Follow

variable {π γ ε α : Type} {goesOn : π → Bool} {next : π → Option γ}
  {request : List π → Option γ → Except ε π}

/-- Asks for pages until one says that it is the last; `none` when a request fails or the fuel
is used up. -/
def follow (goesOn : π → Bool) (next : π → Option γ)
    (request : List π → Option γ → Except ε π) : ℕ → List π → Option γ → Option (List π)
  | 0, _, _ => none
  | fuel + 1, history, cursor =>
      match request history cursor with
      | .error _ => none
      | .ok page =>
          if goesOn page then
            (follow goesOn next request fuel (history ++ [page]) (next page)).map (page :: ·)
          else some [page]

theorem follow_last {fuel : ℕ} {history : List π} {cursor : Option γ} {page : π}
    (served : request history cursor = .ok page) (ended : goesOn page = false) :
    follow goesOn next request (fuel + 1) history cursor = some [page] := by
  simp [follow, served, ended]

theorem follow_next {fuel : ℕ} {history : List π} {cursor : Option γ} {page : π}
    {pages : List π} (served : request history cursor = .ok page) (more : goesOn page = true)
    (later : follow goesOn next request fuel (history ++ [page]) (next page) = some pages) :
    follow goesOn next request (fuel + 1) history cursor = some (page :: pages) := by
  simp [follow, served, more, later]

/-- Fuel decides whether a walk ends, and nothing else. -/
theorem follow_unique {fuel other : ℕ} {history : List π} {cursor : Option γ}
    {pages again : List π} (walked : follow goesOn next request fuel history cursor = some pages)
    (walkedAgain : follow goesOn next request other history cursor = some again) :
    pages = again := by
  induction fuel generalizing other history cursor pages again with
  | zero => cases walked
  | succ fuel ih =>
      cases other with
      | zero => cases walkedAgain
      | succ other =>
          rw [follow] at walked walkedAgain
          cases served : request history cursor with
          | error _ => simp [served] at walked
          | ok page =>
              simp only [served] at walked walkedAgain
              by_cases more : goesOn page = true
              · rw [if_pos more] at walked walkedAgain
                obtain ⟨later, followed, rfl⟩ := Option.map_eq_some_iff.mp walked
                obtain ⟨laterAgain, followedAgain, rfl⟩ := Option.map_eq_some_iff.mp walkedAgain
                rw [ih followed followedAgain]
              · rw [if_neg more] at walked walkedAgain
                exact Option.some.inj (walked.symm.trans walkedAgain)

/-- What one request has to do for its walk to show the rows that are left: `left` says which
rows these are, after what has been answered and at the cursor. -/
theorem follow_shows (rowsOf : π → List α) (good : π → Prop)
    (left : List π → Option γ → List α → Prop)
    (serves : ∀ history cursor rest, left history cursor rest →
      ∃ page, request history cursor = .ok page ∧ good page ∧
        (goesOn page = false → rowsOf page = rest) ∧
        (goesOn page = true → rowsOf page ≠ [] ∧ ∃ later, rest = rowsOf page ++ later ∧
          left (history ++ [page]) (next page) later))
    {fuel : ℕ} {history : List π} {cursor : Option γ} {rest : List α}
    (begins : left history cursor rest) (enough : rest.length < fuel) :
    ∃ pages, follow goesOn next request fuel history cursor = some pages ∧
      pages.flatMap rowsOf = rest ∧ ∀ page ∈ pages, good page := by
  induction fuel generalizing history cursor rest with
  | zero => exact absurd enough (Nat.not_lt_zero _)
  | succ fuel ih =>
      obtain ⟨page, served, isGood, last, onward⟩ := serves history cursor rest begins
      cases more : goesOn page with
      | false =>
          refine ⟨[page], follow_last served more, ?_, by simpa using isGood⟩
          rw [List.flatMap_singleton, last more]
      | true =>
          obtain ⟨nonempty, later, rfl, continues⟩ := onward more
          have shorter : later.length < fuel := by
            have positive := List.length_pos_of_ne_nil nonempty
            rw [List.length_append] at enough
            omega
          obtain ⟨pages, followed, shown, allGood⟩ := ih continues shorter
          refine ⟨page :: pages, follow_next served more followed, ?_, ?_⟩
          · rw [List.flatMap_cons, shown]
          · exact List.forall_mem_cons.mpr ⟨isGood, allGood⟩

end Follow

/-! # Cursors that carry the key alone -/

/-- No page of `size` rows ends between two equal keys. -/
def Aligned {κ : Type} (size : ℕ) (keys : List κ) : Prop :=
  ∀ page, 0 < page → page * size < keys.length → keys[page * size]? ≠ keys[page * size - 1]?

namespace Aligned

variable {κ : Type} {size : ℕ} {keys : List κ}

theorem of_short (short : keys.length ≤ size) : Aligned size keys := by
  intro page positive inside
  exact absurd (inside.trans_le short) (not_lt.mpr (Nat.le_mul_of_pos_left size positive))

/-- The first boundary and those of the rest. -/
theorem iff_drop (positive : 0 < size) (long : size < keys.length) :
    Aligned size keys ↔ keys[size]? ≠ keys[size - 1]? ∧ Aligned size (keys.drop size) := by
  constructor
  · intro aligned
    refine ⟨by simpa using aligned 1 one_pos (by simpa using long),
      fun page positivePage inside => ?_⟩
    rw [List.length_drop] at inside
    have moved := aligned (page + 1) (Nat.succ_pos _) (by rw [Nat.succ_mul]; omega)
    have room : size ≤ page * size := Nat.le_mul_of_pos_left size positivePage
    rw [List.getElem?_drop, List.getElem?_drop]
    have here : size + page * size = (page + 1) * size := by ring
    have before : size + (page * size - 1) = (page + 1) * size - 1 := by omega
    rwa [here, before]
  · rintro ⟨first, rest⟩ page positivePage inside
    cases page with
    | zero => exact absurd positivePage (lt_irrefl 0)
    | succ page =>
        rcases Nat.eq_zero_or_pos page with rfl | positiveRest
        · simpa using first
        have room : size ≤ page * size := Nat.le_mul_of_pos_left size positiveRest
        have moved := rest page positiveRest (by
          rw [List.length_drop]
          rw [Nat.succ_mul] at inside
          omega)
        rw [List.getElem?_drop, List.getElem?_drop] at moved
        have here : size + page * size = (page + 1) * size := by ring
        have before : size + (page * size - 1) = (page + 1) * size - 1 := by omega
        rwa [here, before] at moved

theorem boundary {α : Type} {key : α → κ} {front tail : List α} {last head : α}
    (isSize : front.length + 1 = size) :
    Aligned size ((front ++ last :: head :: tail).map key) ↔
      key head ≠ key last ∧ Aligned size ((head :: tail).map key) := by
  have long : size < ((front ++ last :: head :: tail).map key).length := by
    rw [List.length_map, List.length_append, List.length_cons, List.length_cons]
    omega
  have dropped : ((front ++ last :: head :: tail).map key).drop size = (head :: tail).map key := by
    rw [← List.map_drop, ← isSize, List.drop_append]
    simp
  rw [iff_drop (isSize ▸ Nat.succ_pos _) long, dropped]
  have here : ((front ++ last :: head :: tail).map key)[size]? = some (key head) := by
    simp [← isSize]
  have before : ((front ++ last :: head :: tail).map key)[size - 1]? = some (key last) := by
    simp [← isSize]
  rw [here, before, Ne, Option.some_inj]

end Aligned

/-- A list that goes on behind its first `size` rows. -/
theorem exists_boundary {α : Type} {size : ℕ} {list : List α} (positive : 0 < size)
    (long : size < list.length) :
    ∃ front last head tail, list = front ++ last :: head :: tail ∧ front.length + 1 = size := by
  have before : size - 1 < list.length := (Nat.sub_le size 1).trans_lt long
  refine ⟨list.take (size - 1), list[size - 1], list[size], list.drop (size + 1), ?_, ?_⟩
  · rw [← List.drop_eq_getElem_cons long]
    have dropped := List.drop_eq_getElem_cons before
    rw [Nat.sub_add_cancel positive] at dropped
    rw [← dropped, List.take_append_drop]
  · rw [List.length_take, Nat.min_eq_left before.le, Nat.sub_add_cancel positive]

/-- A key and the text that it travels as. -/
structure CursorText (κ : Type) where
  write : κ → List Char
  read : List Char → Option κ
  read_write : ∀ key, read (write key) = some key
  write_ne_nil : ∀ key, write key ≠ []

/-- Numbers in unary, but for one that has a text of its own. -/
def CursorText.unaryBut (special : ℕ) (text : List Char) (mark : Char) (nonempty : text ≠ [])
    (fresh : mark ∉ text) : CursorText ℕ where
  write := fun key => if key = special then text else List.replicate (key + 1) mark
  read := fun other => if other = text then some special else some (other.length - 1)
  read_write := by
    intro key
    by_cases isSpecial : key = special
    · rw [if_pos isSpecial, if_pos rfl, isSpecial]
    · have other : List.replicate (key + 1) mark ≠ text := fun equal =>
        fresh (equal ▸ List.mem_cons_self)
      rw [if_neg isSpecial, if_neg other, List.length_replicate, Nat.add_sub_cancel]
  write_ne_nil := by
    intro key
    split
    · exact nonempty
    · exact List.cons_ne_nil _ _

section Keyset

variable {α κ π ε : Type} [LinearOrder κ] {key : α → κ} {text : CursorText κ} {size : ℕ}
  {rowsOf : π → List α} {goesOn : π → Bool} {next : π → Option (List Char)}
  {request : List π → Option (List Char) → Except ε π} {rows rest list : List α}

/-- The rows that a bound leaves. -/
def below (key : α → κ) (rows : List α) : Option κ → List α
  | none => rows
  | some bound => rows.filter fun row => key row < bound

/-- The first `size` of these rows, in an order of their keys, with the last key as the cursor where
there are more. -/
def IsPage (key : α → κ) (text : CursorText κ) (size : ℕ) (rowsOf : π → List α)
    (goesOn : π → Bool) (next : π → Option (List Char)) (rows : List α)
    (answer : Except ε π) : Prop :=
  ∃ list page, Listed key rows list ∧ answer = .ok page ∧ rowsOf page = list.take size ∧
    goesOn page = decide (size < list.length) ∧
    next page =
      if size < list.length then (list.take size).getLast?.map fun row => text.write (key row)
      else none

/-- A keyset filter on the key alone loses the rows that tie with the last one shown. -/
theorem below_last {bound : Option κ} {front later : List α} {last : α}
    (listed : Listed key (below key rows bound) (front ++ last :: later)) :
    (below key rows (some (key last))).Perm (later.filter fun row => key row < key last) := by
  have all := (listed.perm.filter fun row => decide (key row < key last)).symm
  rw [Listed.filter_below listed.sorted] at all
  refine List.Perm.trans (List.Perm.of_eq ?_) all
  cases bound with
  | none => rfl
  | some bound =>
      have member := listed.perm.subset (List.mem_append_right front List.mem_cons_self)
      have lastBelow : key last < bound := by simpa using (List.mem_filter.mp member).2
      rw [below, below, List.filter_filter]
      refine List.filter_congr fun row _ => ?_
      rw [Bool.eq_iff_iff, Bool.and_eq_true, decide_eq_true_iff, decide_eq_true_iff]
      exact ⟨fun small => ⟨small, small.trans lastBelow⟩, And.left⟩

/-- The first row of the rest is lost if it ties with the last one shown. -/
theorem length_below_last {bound : Option κ} {front tail : List α} {last head : α}
    (listed : Listed key (below key rows bound) (front ++ last :: head :: tail))
    (tied : key head = key last) :
    (below key rows (some (key last))).length ≤ tail.length := by
  rw [(below_last listed).length_eq, List.filter_cons_of_neg (by simp [tied])]
  exact List.length_filter_le _ _

/-- Nothing is lost if it does not. -/
theorem below_last_of_apart {bound : Option κ} {front tail : List α} {last head : α}
    (listed : Listed key (below key rows bound) (front ++ last :: head :: tail))
    (apart : key head ≠ key last) :
    Listed key (below key rows (some (key last))) (head :: tail) := by
  have above := (List.pairwise_append.mp listed.sorted).2.1
  have smaller : key head < key last :=
    lt_of_le_of_ne (List.rel_of_pairwise_cons above List.mem_cons_self) apart
  have kept : ((head :: tail).filter fun row => key row < key last) = head :: tail := by
    rw [← Listed.filter_below listed.sorted]
    exact Listed.filter_below_of_apart listed.sorted fun row isHead => by
      obtain rfl : head = row := by simpa using isHead
      exact smaller
  have left := below_last listed
  rw [kept] at left
  exact ⟨left.symm, above.tail⟩

/-- Such a walk ends and shows no row twice; it shows all of them if and only if no page ends
between two equal keys. -/
theorem follow_keyset_iff (positive : 0 < size)
    (answers : ∀ history bound, IsPage key text size rowsOf goesOn next (below key rows bound)
      (request history (bound.map text.write)))
    {fuel : ℕ} {history : List π} {bound : Option κ}
    (enough : (below key rows bound).length < fuel) :
    ∃ pages, follow goesOn next request fuel history (bound.map text.write) = some pages ∧
      (pages.flatMap rowsOf).Subperm (below key rows bound) ∧
      ∀ list, Listed key (below key rows bound) list →
        ((pages.flatMap rowsOf).Perm (below key rows bound) ↔ Aligned size (list.map key)) := by
  induction fuel generalizing history bound with
  | zero => exact absurd enough (Nat.not_lt_zero _)
  | succ fuel ih =>
      obtain ⟨list, page, listed, served, shown, more, nextIs⟩ := answers history bound
      have length := listed.perm.length_eq
      by_cases long : size < list.length
      · obtain ⟨front, last, head, tail, rfl, isSize⟩ := exists_boundary positive long
        have taken : (front ++ last :: head :: tail).take size = front ++ [last] := by
          rw [← isSize, List.take_length_add_append]
          rfl
        rw [taken] at shown nextIs
        rw [if_pos long, List.getLast?_concat, Option.map_some] at nextIs
        have left := below_last listed
        have fewer : ((head :: tail).filter fun row => key row < key last).length ≤
            (head :: tail).length := List.length_filter_le _ _
        have shorter : (below key rows (some (key last))).length < fuel := by
          rw [left.length_eq]
          rw [List.length_append, List.length_cons] at length
          omega
        obtain ⟨pages, followed, within, complete⟩ := @ih (history ++ [page]) _ shorter
        rw [decide_eq_true long] at more
        rw [Option.map_some, ← nextIs] at followed
        have through := follow_next served more followed
        have whole : (front ++ [last]) ++ (head :: tail) = front ++ last :: head :: tail :=
          List.append_assoc front [last] (head :: tail)
        refine ⟨page :: pages, through, ?_, fun other again => ?_⟩
        · rw [List.flatMap_cons, shown]
          refine List.Subperm.trans ?_ listed.perm.subperm
          rw [← whole]
          refine (List.Subperm.refl _).append (within.trans ?_)
          exact left.subperm.trans List.filter_sublist.subperm
        · rw [again.map_key listed, Aligned.boundary isSize, List.flatMap_cons, shown]
          by_cases tied : key head = key last
          · -- The pages that follow are too short.
            refine iff_of_false (fun all => ?_) fun holds => holds.1 tied
            have total := all.length_eq
            have atMost := within.length_le.trans (length_below_last listed tied)
            rw [← length] at total
            simp only [List.length_append, List.length_cons, List.length_nil] at total atMost
            omega
          · have rest := below_last_of_apart listed tied
            rw [← complete _ rest, ne_eq, and_iff_right tied]
            constructor
            · intro all
              have same := all.trans listed.perm.symm
              rw [← whole, List.perm_append_left_iff] at same
              exact same.trans rest.perm
            · intro all
              refine List.Perm.trans ?_ listed.perm
              rw [← whole, List.perm_append_left_iff]
              exact all.trans rest.perm.symm
      · have short : list.take size = list := List.take_of_length_le (not_lt.mp long)
        rw [short] at shown
        have followed : follow goesOn next request (fuel + 1) history (bound.map text.write) =
            some [page] := follow_last served (by simpa [long] using more)
        refine ⟨[page], followed, ?_, fun other again => ?_⟩
        · simpa [shown] using listed.perm.subperm
        · simp only [List.flatMap_singleton, shown, listed.perm, true_iff]
          refine Aligned.of_short ?_
          rw [List.length_map, again.perm.length_eq, ← length]
          exact not_lt.mp long

end Keyset

end PredictX.Data
