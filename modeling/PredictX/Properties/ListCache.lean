import PredictX.Api.MarketList
import Std.Data.String.ToNat

namespace PredictX.MarketList

open PredictX.Data

/-! When a cached list is the one a fresh query gives. -/

/-! # The key -/

section Key

theorem append_cons_inj {α : Type} {mark : α} {left right leftEnd rightEnd : List α}
    (leftFree : mark ∉ leftEnd) (rightFree : mark ∉ rightEnd)
    (same : left ++ mark :: leftEnd = right ++ mark :: rightEnd) :
    left = right ∧ leftEnd = rightEnd := by
  have tooLong : ∀ {first second between : List α}, mark ∉ first →
      mark :: first = between ++ mark :: second → between = [] ∧ first = second := by
    intro first second between free longer
    cases between with
    | nil => exact ⟨rfl, (List.cons.inj longer).2⟩
    | cons item between =>
        refine absurd ?_ free
        rw [(List.cons.inj longer).2]
        exact List.mem_append_right _ List.mem_cons_self
  rcases List.append_eq_append_iff.mp same with ⟨between, isRight, ends⟩ | ⟨between, isLeft, ends⟩
  · obtain ⟨rfl, sameEnd⟩ := tooLong leftFree ends
    exact ⟨(isRight.trans (List.append_nil _)).symm, sameEnd⟩
  · obtain ⟨rfl, sameEnd⟩ := tooLong rightFree ends
    exact ⟨isLeft.trans (List.append_nil _), sameEnd.symm⟩

/-- What stands before the last colon and what stands after it. -/
theorem append_colon_inj {left right leftEnd rightEnd : String} (leftFree : ':' ∉ leftEnd.toList)
    (rightFree : ':' ∉ rightEnd.toList)
    (same : left ++ ":" ++ leftEnd = right ++ ":" ++ rightEnd) :
    left = right ∧ leftEnd = rightEnd := by
  have colon : (":" : String).toList = [':'] := by decide
  have chars := congrArg String.toList same
  rw [String.toList_append, String.toList_append, String.toList_append, String.toList_append, colon,
    List.append_assoc, List.append_assoc] at chars
  obtain ⟨starts, ends⟩ := append_cons_inj leftFree rightFree chars
  exact ⟨String.toList_inj.mp starts, String.toList_inj.mp ends⟩

theorem toString_free (number : ℕ) : ':' ∉ (toString number).toList := by
  intro member
  rw [Nat.toString_eq_repr, Nat.toList_repr] at member
  exact absurd (Nat.isDigit_of_mem_toDigits (by decide) (by decide) member) (by decide)

theorem SortKey.text_free (sort : SortKey) : ':' ∉ sort.text.toList := by
  cases sort <;> decide

theorem SortKey.text_inj {left right : SortKey} : left.text = right.text ↔ left = right := by
  cases left <;> cases right <;> decide

/-- The search and the filters, as they stand in a key. -/
def Request.filters (request : Request) : String :=
  request.q ++ ":" ++ request.category ++ ":" ++ request.status

/-- Two requests that have one key. -/
structure Collide (left right : Request) : Prop where
  filters : left.filters = right.filters
  sort : left.sort = right.sort
  cursors : left.cursor = "" ↔ right.cursor = ""
  pages : left.cursor = "" → left.page = right.page ∧ left.pageSize = right.pageSize

theorem toString_inj {left right : ℕ} (same : toString left = toString right) : left = right :=
  Nat.repr_injective (by rwa [← Nat.toString_eq_repr, ← Nat.toString_eq_repr])

/-- A key that ends in a number is not one that ends in a sort. -/
theorem sort_ne_number (sort : SortKey) (number : ℕ) : sort.text ≠ toString number := by
  intro same
  obtain ⟨letter, member, notDigit⟩ : ∃ letter ∈ sort.text.toList, letter.isDigit = false := by
    cases sort with
    | volume => exact ⟨'v', by decide, rfl⟩
    | newest => exact ⟨'n', by decide, rfl⟩
    | closingSoon => exact ⟨'c', by decide, rfl⟩
    | liquidity => exact ⟨'l', by decide, rfl⟩
  rw [same, Nat.toString_eq_repr, Nat.toList_repr] at member
  rw [Nat.isDigit_of_mem_toDigits (by decide) (by decide) member] at notDigit
  exact absurd notDigit (by decide)

theorem cacheKey_eq_iff {left right : Request} :
    cacheKey left = cacheKey right ↔ Collide left right := by
  have ofFilters : ∀ request : Request, request.q ++ ":" ++ request.category ++ ":" ++
      request.status ++ ":" ++ request.sort.text = request.filters ++ ":" ++ request.sort.text :=
    fun _ => rfl
  unfold cacheKey
  rw [ofFilters, ofFilters]
  constructor
  · intro same
    by_cases leftPaged : left.cursor = "" <;> by_cases rightPaged : right.cursor = ""
    · rw [if_neg (not_not_intro leftPaged), if_neg (not_not_intro rightPaged)] at same
      obtain ⟨same, sizes⟩ := append_colon_inj (toString_free _) (toString_free _) same
      obtain ⟨same, pages⟩ := append_colon_inj (toString_free _) (toString_free _) same
      obtain ⟨filters, sorts⟩ :=
        append_colon_inj (SortKey.text_free _) (SortKey.text_free _) same
      exact ⟨filters, SortKey.text_inj.mp sorts, by simp [leftPaged, rightPaged],
        fun _ => ⟨toString_inj pages, toString_inj sizes⟩⟩
    · rw [if_neg (not_not_intro leftPaged), if_pos rightPaged] at same
      obtain ⟨-, ends⟩ := append_colon_inj (toString_free _) (SortKey.text_free _) same
      exact absurd ends.symm (sort_ne_number _ _)
    · rw [if_pos leftPaged, if_neg (not_not_intro rightPaged)] at same
      obtain ⟨-, ends⟩ := append_colon_inj (SortKey.text_free _) (toString_free _) same
      exact absurd ends (sort_ne_number _ _)
    · rw [if_pos leftPaged, if_pos rightPaged] at same
      obtain ⟨filters, sorts⟩ :=
        append_colon_inj (SortKey.text_free _) (SortKey.text_free _) same
      exact ⟨filters, SortKey.text_inj.mp sorts, by simp [leftPaged, rightPaged],
        fun paged => absurd paged leftPaged⟩
  · rintro ⟨filters, sorts, cursors, pages⟩
    by_cases paged : left.cursor = ""
    · rw [if_neg (not_not_intro paged), if_neg (not_not_intro (cursors.mp paged)), filters, sorts,
        (pages paged).1, (pages paged).2]
    · rw [if_pos paged, if_pos (fun other => paged (cursors.mpr other)), filters, sorts]

end Key

/-! # The page -/

section Page

variable {decodeCursor : String → Option Timestamp} {catalogue : Catalogue}
  {earlier later : Request}

/-- Two queries yield the same page. -/
structure SamePage (earlier later : Request) (rows laterRows : List ListedMarket) : Prop where
  page : earlier.page = later.page
  pageSize : earlier.pageSize = later.pageSize
  shown : rows.take earlier.pageSize = laterRows.take later.pageSize
  more : earlier.pageSize < rows.length ↔ later.pageSize < laterRows.length

theorem marketToResponse_injective : Function.Injective (marketToResponse catalogue) :=
  fun _ _ same => congrArg MarketResponse.market same

theorem respond_eq_iff {rows laterRows : List ListedMarket} :
    respond catalogue earlier rows = respond catalogue later laterRows ↔
      SamePage earlier later rows laterRows := by
  unfold respond
  rw [MarketListResponse.mk.injEq, List.map_inj_right marketToResponse_injective,
    decide_eq_decide]
  exact ⟨fun ⟨shown, page, size, more⟩ => ⟨page, size, shown, more⟩,
    fun same => ⟨same.shown, same.page, same.pageSize, same.more⟩⟩

/-- The later request may be answered with what the earlier one left in the cache. -/
def Harmless (decodeCursor : String → Option Timestamp) (catalogue : Catalogue)
    (earlier later : Request) : Prop :=
  Collide earlier later → isUnpublished earlier = false → isUnpublished later = false →
    ∀ rows, queryRows decodeCursor catalogue earlier = .ok rows →
      ∃ laterRows, queryRows decodeCursor catalogue later = .ok laterRows ∧
        SamePage earlier later rows laterRows

theorem listFresh_published (published : isUnpublished earlier = false) :
    listFresh decodeCursor catalogue earlier =
      (queryRows decodeCursor catalogue earlier).map (respond catalogue earlier) := by
  unfold listFresh
  rw [published, if_neg Bool.false_ne_true]

theorem listFresh_ok {response : MarketListResponse} :
    listFresh decodeCursor catalogue earlier = .ok response ↔
      isUnpublished earlier = false ∧ ∃ rows,
        queryRows decodeCursor catalogue earlier = .ok rows ∧
          respond catalogue earlier rows = response := by
  unfold listFresh
  cases isUnpublished earlier with
  | true => simp
  | false =>
      cases queryRows decodeCursor catalogue earlier with
      | error refusal => simp [Except.map]
      | ok rows => simp [Except.map]

/-- What the cache keeps of the earlier request is what the later one would be answered. -/
theorem harmless_iff : Harmless decodeCursor catalogue earlier later ↔
    (cacheKey earlier = cacheKey later → isUnpublished later = false →
      ∀ response, listFresh decodeCursor catalogue earlier = .ok response →
        listFresh decodeCursor catalogue later = .ok response) := by
  unfold Harmless
  constructor
  · intro harmless sameKey laterPublished response earlierOk
    obtain ⟨published, rows, queried, rfl⟩ := listFresh_ok.mp earlierOk
    obtain ⟨laterRows, laterQueried, samePage⟩ :=
      harmless (cacheKey_eq_iff.mp sameKey) published laterPublished rows queried
    exact listFresh_ok.mpr ⟨laterPublished, laterRows, laterQueried,
      (respond_eq_iff.mpr samePage).symm⟩
  · intro answered collide published laterPublished rows queried
    obtain ⟨-, laterRows, laterQueried, same⟩ := listFresh_ok.mp
      (answered (cacheKey_eq_iff.mpr collide) laterPublished _
        (listFresh_ok.mpr ⟨published, rows, queried, rfl⟩))
    exact ⟨laterRows, laterQueried, respond_eq_iff.mp same.symm⟩

end Page

/-! # What two requests have to share -/

section Requests

variable {decodeCursor : String → Option Timestamp} {request earlier later : Request}

/-- The request is not refused, whatever the catalogue holds. -/
def Servable (decodeCursor : String → Option Timestamp) (request : Request) : Prop :=
  isUnpublished request = false ∧
    (request.cursor ≠ "" → (decodeCursor request.cursor).isSome = true) ∧
    (request.cursor = "" → (request.page - 1) * request.pageSize ≤ 1000)

/-- The filters let a market with this status through. -/
def ListsStatus (request : Request) (status : MarketStatus) : Prop :=
  (if request.status ≠ "" then statusText status = request.status
    else status ∉ unpublishedStatuses) ∧
  (request.sort = .closingSoon → status ≠ .resolved)

/-- No market can be listed: none has the status asked for, or none that closes soon, or none stands
before the cursor. -/
def Barren (decodeCursor : String → Option Timestamp) (request : Request) : Prop :=
  (∀ status, ¬ ListsStatus request status) ∨
    request.cursor ≠ "" ∧ decodeCursor request.cursor = some 0

/-- Two requests ask for the same: search, filters and decoded cursor. -/
structure SameQuery (decodeCursor : String → Option Timestamp) (earlier later : Request) : Prop where
  q : earlier.q = later.q
  category : earlier.category = later.category
  status : earlier.status = later.status
  cursor : earlier.cursor ≠ "" → decodeCursor earlier.cursor = decodeCursor later.cursor

/-- If they have one key, the earlier is answered and the later is not refused for its status, then
the later is answered too, with the same page of the same query or of none. -/
def Separated (decodeCursor : String → Option Timestamp) (earlier later : Request) : Prop :=
  Collide earlier later → Servable decodeCursor earlier → isUnpublished later = false →
    Servable decodeCursor later ∧ earlier.page = later.page ∧ earlier.pageSize = later.pageSize ∧
      (SameQuery decodeCursor earlier later ∨
        Barren decodeCursor earlier ∧ Barren decodeCursor later)

/-- The markets that a request can list, by status, category and time. -/
def Selects (decodeCursor : String → Option Timestamp) (request : Request) (status : MarketStatus)
    (category : String) (createdAt : Timestamp) : Prop :=
  ListsStatus request status ∧ (request.category = "" ∨ category = request.category) ∧
    (request.cursor ≠ "" → ∀ time ∈ decodeCursor request.cursor, createdAt < time)

/-- How many rows the query passes over. -/
def offsetOf (request : Request) : ℕ :=
  if request.cursor ≠ "" then 0 else (request.page - 1) * request.pageSize

theorem selects_of_not_barren (listing : ¬ Barren decodeCursor request) :
    ∃ status category createdAt, Selects decodeCursor request status category createdAt := by
  unfold Barren at listing
  push Not at listing
  obtain ⟨⟨status, lists⟩, later⟩ := listing
  refine ⟨status, request.category, 0, lists, .inr rfl, fun paged time isTime => ?_⟩
  refine Nat.pos_of_ne_zero ?_
  rintro rfl
  exact later paged isTime

theorem Barren.not_selects (barren : Barren decodeCursor request) (status : MarketStatus)
    (category : String) (createdAt : Timestamp) :
    ¬ Selects decodeCursor request status category createdAt := by
  rintro ⟨lists, -, before⟩
  rcases barren with none_ | ⟨paged, isTime⟩
  · exact none_ status lists
  · exact Nat.not_lt_zero _ (before paged 0 isTime)

/-- Two requests that list the same statuses ask for the same status. -/
theorem status_eq_of_lists {status : MarketStatus} (lists : ListsStatus earlier status)
    (same : ∀ status, ListsStatus earlier status ↔ ListsStatus later status) :
    earlier.status = later.status := by
  have open_ : ∀ {request : Request}, request.status = "" →
      ListsStatus request .active ∧ ListsStatus request .closed := by
    intro request none_
    unfold ListsStatus
    rw [if_neg (not_not_intro none_), if_neg (not_not_intro none_)]
    exact ⟨⟨by decide, fun _ => by decide⟩, ⟨by decide, fun _ => by decide⟩⟩
  have named : ∀ {request : Request} {status : MarketStatus}, request.status ≠ "" →
      ListsStatus request status → statusText status = request.status := by
    intro request status some_ lists
    unfold ListsStatus at lists
    rw [if_pos some_] at lists
    exact lists.1
  have notBoth : ∀ {request : Request}, request.status ≠ "" →
      ¬ (ListsStatus request .active ∧ ListsStatus request .closed) := by
    rintro request some_ ⟨active, closed⟩
    have both := (named some_ active).trans (named some_ closed).symm
    exact absurd both (by decide)
  by_cases first : earlier.status = "" <;> by_cases second : later.status = ""
  · rw [first, second]
  · exact absurd ⟨(same _).mp (open_ first).1, (same _).mp (open_ first).2⟩ (notBoth second)
  · exact absurd ⟨(same _).mpr (open_ second).1, (same _).mpr (open_ second).2⟩ (notBoth first)
  · exact (named first lists).symm.trans (named second ((same status).mp lists))

theorem category_eq_of_selects
    (same : ∀ category : String, (earlier.category = "" ∨ category = earlier.category) ↔
      (later.category = "" ∨ category = later.category)) :
    earlier.category = later.category := by
  by_cases first : earlier.category = "" <;> by_cases second : later.category = ""
  · rw [first, second]
  · exact absurd (((same "").mp (.inl first)).resolve_left second).symm second
  · exact absurd (((same "").mpr (.inl second)).resolve_left first).symm first
  · exact ((same earlier.category).mp (.inr rfl)).resolve_left second

/-- Requests with one key that can list the same markets, and some, ask for the same. -/
theorem sameQuery_of_selects (collide : Collide earlier later)
    (earlierServable : Servable decodeCursor earlier) (laterServable : Servable decodeCursor later)
    (listing : ¬ Barren decodeCursor earlier)
    (same : ∀ status category createdAt, Selects decodeCursor earlier status category createdAt ↔
      Selects decodeCursor later status category createdAt) :
    SameQuery decodeCursor earlier later := by
  obtain ⟨status, category, createdAt, selected⟩ := selects_of_not_barren listing
  have alsoSelected := (same _ _ _).mp selected
  have isStatus : earlier.status = later.status := by
    refine status_eq_of_lists selected.1 fun other => ?_
    constructor
    · exact fun lists => ((same other category createdAt).mp ⟨lists, selected.2⟩).1
    · exact fun lists => ((same other category createdAt).mpr ⟨lists, alsoSelected.2⟩).1
  have isCategory : earlier.category = later.category := by
    refine category_eq_of_selects fun other => ?_
    constructor
    · exact fun here =>
        ((same status other createdAt).mp ⟨selected.1, here, selected.2.2⟩).2.1
    · exact fun here =>
        ((same status other createdAt).mpr ⟨alsoSelected.1, here, alsoSelected.2.2⟩).2.1
  have isQ : earlier.q = later.q := by
    have joined := collide.filters
    unfold Request.filters at joined
    rw [isStatus, isCategory] at joined
    simpa only [String.append_left_inj] using joined
  refine ⟨isQ, isCategory, isStatus, fun paged => ?_⟩
  have alsoPaged : later.cursor ≠ "" := fun none_ => paged (collide.cursors.mpr none_)
  obtain ⟨time, isTime⟩ := Option.isSome_iff_exists.mp (earlierServable.2.1 paged)
  obtain ⟨laterTime, isLaterTime⟩ := Option.isSome_iff_exists.mp (laterServable.2.1 alsoPaged)
  have before : ∀ moment : Timestamp, moment < time ↔ moment < laterTime := by
    intro moment
    have moved := same status category moment
    unfold Selects at moved
    simp only [selected.1, alsoSelected.1, selected.2.1, alsoSelected.2.1, true_and, paged,
      alsoPaged, ne_eq, not_false_eq_true, true_implies, isTime, isLaterTime, Option.mem_def,
      Option.some.injEq, forall_eq'] at moved
    exact moved
  rw [isTime, isLaterTime, eq_of_forall_lt_iff before]

end Requests

/-! # Catalogues that tell requests apart -/

section Crowd

variable {decodeCursor : String → Option Timestamp} {catalogue : Catalogue}
  {request earlier later : Request} {status : MarketStatus} {category : String}
  {createdAt : Timestamp}

theorem selects_of_isListed {market : ListedMarket}
    (listed : isListed catalogue request market = true) :
    ListsStatus request market.status ∧
      (request.category = "" ∨ market.category = request.category) := by
  unfold isListed at listed
  simp only [Bool.and_eq_true, Bool.or_eq_true, decide_eq_true_eq] at listed
  obtain ⟨⟨⟨-, named⟩, ofCategory⟩, notResolved⟩ := listed
  refine ⟨⟨?_, fun closing => notResolved.resolve_left (not_not_intro closing)⟩, ofCategory⟩
  split
  · rename_i some_
    rw [if_pos some_] at named
    exact of_decide_eq_true named
  · rename_i none_
    rw [if_neg none_] at named
    exact of_decide_eq_true named

/-- One market more than the page passes over, all of a kind. -/
def crowd (offset : ℕ) (status : MarketStatus) (category : String) (createdAt : Timestamp) :
    Catalogue where
  markets := (List.range (offset + 1)).map fun id =>
    ⟨id, "", "", category, status, 0, 0, createdAt, none⟩
  prices := fun _ => (0, 0)
  outcomes := fun _ => []
  isMatch := fun _ _ => true
  relevance := fun _ _ => 0

/-- The markets that the query pages through, before they are put in order. -/
def candidates (decodeCursor : String → Option Timestamp) (catalogue : Catalogue)
    (request : Request) : List ListedMarket :=
  (catalogue.markets.filter (isListed catalogue request)).filter fun market =>
    request.cursor = "" || (decodeCursor request.cursor).all fun time => market.createdAt < time

/-- The query answers a request that can be served, and pages through its candidates. -/
theorem queryRows_ok_iff (published : isUnpublished request = false) {rows : List ListedMarket} :
    queryRows decodeCursor catalogue request = .ok rows ↔
      Servable decodeCursor request ∧
        rows = ((ordered catalogue request (candidates decodeCursor catalogue request)).drop
          (offsetOf request)).take (request.pageSize + 1) := by
  unfold queryRows candidates Servable offsetOf
  dsimp only
  by_cases paged : request.cursor = ""
  · simp only [paged, ne_eq, not_true_eq_false, if_false, published, true_and, false_implies,
      true_implies, decide_true, Bool.true_or, List.filter_true]
    split
    · rename_i beyond
      simp [not_le.mpr beyond]
    · rename_i within
      simp [not_lt.mp within, eq_comm]
  · simp only [paged, ne_eq, not_false_eq_true, if_true, published, true_and, true_implies,
      false_implies, and_true, decide_false, Bool.false_or, List.drop_zero]
    cases decodeCursor request.cursor with
    | none => simp
    | some time => simp [eq_comm]

theorem selects_of_mem_candidates {market : ListedMarket}
    (member : market ∈ candidates decodeCursor catalogue request) :
    Selects decodeCursor request market.status market.category market.createdAt := by
  unfold candidates at member
  rw [List.mem_filter, List.mem_filter] at member
  obtain ⟨lists, ofCategory⟩ := selects_of_isListed member.1.2
  refine ⟨lists, ofCategory, fun paged time isTime => ?_⟩
  have before := member.2
  rw [Option.mem_def] at isTime
  simpa [paged, isTime] using before

/-- A barren request gets no rows. -/
theorem queryRows_barren (published : isUnpublished request = false)
    (barren : Barren decodeCursor request) {rows : List ListedMarket}
    (queried : queryRows decodeCursor catalogue request = .ok rows) : rows = [] := by
  have nobody : candidates decodeCursor catalogue request = [] :=
    List.eq_nil_iff_forall_not_mem.mpr fun market member =>
      barren.not_selects _ _ _ (selects_of_mem_candidates member)
  obtain ⟨-, rfl⟩ := (queryRows_ok_iff published).mp queried
  rw [nobody, ordered, List.insertionSort_nil, List.drop_nil, List.take_nil]

theorem mem_crowd {offset : ℕ} {market : ListedMarket}
    (member : market ∈ (crowd offset status category createdAt).markets) :
    market.status = status ∧ market.category = category ∧ market.createdAt = createdAt := by
  obtain ⟨id, -, rfl⟩ := List.mem_map.mp member
  exact ⟨rfl, rfl, rfl⟩

/-- A request that can list them has a crowd's markets for candidates. -/
theorem length_candidates_crowd {offset : ℕ}
    (selects : Selects decodeCursor request status category createdAt) :
    (candidates decodeCursor (crowd offset status category createdAt) request).length =
      offset + 1 := by
  obtain ⟨lists, ofCategory, before⟩ := selects
  have all : candidates decodeCursor (crowd offset status category createdAt) request =
      (crowd offset status category createdAt).markets := by
    unfold candidates
    rw [List.filter_filter, List.filter_eq_self]
    intro market member
    obtain ⟨rfl, rfl, rfl⟩ := mem_crowd member
    rw [Bool.and_eq_true]
    constructor
    · rw [Bool.or_eq_true, decide_eq_true_eq, Option.all_eq_true]
      by_cases paged : request.cursor = ""
      · exact .inl paged
      · exact .inr fun time isTime => decide_eq_true (before paged time isTime)
    · unfold isListed
      obtain ⟨named, notResolved⟩ := lists
      simp only [Bool.and_eq_true, Bool.or_eq_true, decide_eq_true_eq]
      refine ⟨⟨⟨.inr rfl, ?_⟩, ofCategory⟩, ?_⟩
      · split
        · rename_i some_
          rw [if_pos some_] at named
          exact decide_eq_true named
        · rename_i none_
          rw [if_neg none_] at named
          exact decide_eq_true named
      · by_cases closing : request.sort = .closingSoon
        · exact .inr (notResolved closing)
        · exact .inl closing
  rw [all, crowd, List.length_map, List.length_range]

/-- A crowd of markets reaches the page exactly when the request can list them. -/
theorem queryRows_crowd (published : isUnpublished request = false) {rows : List ListedMarket}
    (queried : queryRows decodeCursor (crowd (offsetOf request) status category createdAt) request =
      .ok rows) : rows ≠ [] ↔ Selects decodeCursor request status category createdAt := by
  obtain ⟨-, rfl⟩ := (queryRows_ok_iff published).mp queried
  constructor
  · intro reached
    obtain ⟨market, isRow⟩ := List.exists_mem_of_ne_nil _ reached
    have member := List.mem_of_mem_drop (List.mem_of_mem_take isRow)
    rw [ordered, List.mem_insertionSort] at member
    have selects := selects_of_mem_candidates member
    unfold candidates at member
    obtain ⟨rfl, rfl, rfl⟩ := mem_crowd (List.mem_of_mem_filter (List.mem_of_mem_filter member))
    exact selects
  · intro selects
    have enough : (candidates decodeCursor
        (crowd (offsetOf request) status category createdAt) request).length =
          offsetOf request + 1 := length_candidates_crowd selects
    refine List.ne_nil_of_length_pos ?_
    rw [List.length_take, List.length_drop, ordered, List.length_insertionSort, enough]
    omega

theorem queryRows_congr (collide : Collide earlier later)
    (same : SameQuery decodeCursor earlier later) (page : earlier.page = later.page)
    (pageSize : earlier.pageSize = later.pageSize) :
    queryRows decodeCursor catalogue later = queryRows decodeCursor catalogue earlier := by
  have listed : isListed catalogue later = isListed catalogue earlier := by
    funext market
    unfold isListed
    rw [same.q, same.category, same.status, collide.sort]
  have inOrder : ordered catalogue later = ordered catalogue earlier := by
    funext markets
    unfold ordered precedes
    rw [same.q, collide.sort]
  unfold queryRows
  rw [listed, inOrder, page, pageSize]
  by_cases paged : earlier.cursor = ""
  · rw [if_neg (not_not_intro paged), if_neg (not_not_intro (collide.cursors.mp paged))]
  · rw [if_pos paged, if_pos (mt collide.cursors.mpr paged), same.cursor paged]

/-- Requests that may share an answer over every catalogue ask for the same. -/
theorem separated_of_harmless
    (harmless : ∀ catalogue, Harmless decodeCursor catalogue earlier later) :
    Separated decodeCursor earlier later := by
  intro collide servable published
  have earlierPublished := servable.1
  -- the same rows of every catalogue, and of a crowd in particular
  have answered : ∀ catalogue, ∃ rows laterRows,
      queryRows decodeCursor catalogue earlier = .ok rows ∧
      queryRows decodeCursor catalogue later = .ok laterRows ∧
      SamePage earlier later rows laterRows := by
    intro catalogue
    have queried := (@queryRows_ok_iff decodeCursor catalogue _ earlierPublished _).mpr
      ⟨servable, rfl⟩
    obtain ⟨laterRows, laterQueried, samePage⟩ :=
      harmless catalogue collide earlierPublished published _ queried
    exact ⟨_, laterRows, queried, laterQueried, samePage⟩
  obtain ⟨_, _, _, anyQueried, page, pageSize, _, _⟩ := answered (crowd 0 .active "" 0)
  have laterServable := ((queryRows_ok_iff published).mp anyQueried).1
  have offsets : offsetOf earlier = offsetOf later := by
    unfold offsetOf
    simp only [page, pageSize, ne_eq, collide.cursors]
  have same : ∀ status category createdAt,
      Selects decodeCursor earlier status category createdAt ↔
        Selects decodeCursor later status category createdAt := by
    intro status category createdAt
    obtain ⟨rows, laterRows, queried, laterQueried, samePage⟩ :=
      answered (crowd (offsetOf earlier) status category createdAt)
    rw [← queryRows_crowd earlierPublished queried]
    rw [offsets] at laterQueried
    rw [← queryRows_crowd published laterQueried]
    have shown := congrArg List.length samePage.shown
    rw [List.length_take, List.length_take] at shown
    have first := earlier.sizeBounds.1
    have second := later.sizeBounds.1
    rw [← List.length_pos_iff, ← List.length_pos_iff]
    omega
  refine ⟨laterServable, page, pageSize, ?_⟩
  by_cases listing : Barren decodeCursor earlier
  · refine .inr ⟨listing, ?_⟩
    by_contra laterListing
    obtain ⟨_, _, _, selects⟩ := selects_of_not_barren laterListing
    exact listing.not_selects _ _ _ ((same _ _ _).mpr selects)
  · exact .inl (sameQuery_of_selects collide servable laterServable listing same)

/-- Separated requests have the same rows of any catalogue, or none. -/
theorem harmless_of_separated (separated : Separated decodeCursor earlier later)
    (catalogue : Catalogue) : Harmless decodeCursor catalogue earlier later := by
  intro collide earlierPublished published rows queried
  obtain ⟨servable, -⟩ := (queryRows_ok_iff earlierPublished).mp queried
  obtain ⟨laterServable, page, pageSize, either⟩ := separated collide servable published
  rcases either with same | ⟨barren, laterBarren⟩
  · have laterQueried := (queryRows_congr collide same page pageSize).trans queried
    exact ⟨rows, laterQueried, page, pageSize, by rw [pageSize], by rw [pageSize]⟩
  · have laterQueried := (@queryRows_ok_iff decodeCursor catalogue _ published _).mpr
      ⟨laterServable, rfl⟩
    have noRows := queryRows_barren earlierPublished barren queried
    have noLaterRows := queryRows_barren published laterBarren laterQueried
    refine ⟨_, laterQueried, page, pageSize, ?_, ?_⟩
    · rw [noRows, noLaterRows, List.take_nil, List.take_nil]
    · rw [noRows, noLaterRows, pageSize]

/-- Whatever the catalogue holds, the later request may be answered from the cache exactly when the
two are separated. -/
theorem harmless_forall_iff :
    (∀ catalogue, Harmless decodeCursor catalogue earlier later) ↔
      Separated decodeCursor earlier later :=
  ⟨separated_of_harmless, harmless_of_separated⟩

end Crowd

/-! # The cache -/

section Serve

variable {decodeCursor : String → Option Timestamp} {catalogue : Catalogue} {cache : Cache}

/-- The cache after some requests, each at its time. -/
def cacheAfter (decodeCursor : String → Option Timestamp) (catalogue : Catalogue)
    (visits : List (Timestamp × Request)) : Cache :=
  visits.foldl (fun cache visit =>
    (listMarkets decodeCursor catalogue cache visit.1 visit.2).1) .empty

/-- Every request is answered as it would be without the cache. -/
def AllFresh (decodeCursor : String → Option Timestamp) (catalogue : Catalogue)
    (visits : List (Timestamp × Request)) : Prop :=
  ∀ earlier now request later, visits = earlier ++ (now, request) :: later →
    (listMarkets decodeCursor catalogue (cacheAfter decodeCursor catalogue earlier) now request).2 =
      listFresh decodeCursor catalogue request

variable {now : Timestamp} {request : Request}

theorem listMarkets_unpublished (unpublished : isUnpublished request = true) :
    listMarkets decodeCursor catalogue cache now request =
      (cache, listFresh decodeCursor catalogue request) := by
  unfold listMarkets listFresh
  rw [if_pos unpublished, if_pos unpublished]

theorem listMarkets_hit {response : MarketListResponse} (published : isUnpublished request = false)
    (hit : cacheGet cache now (cacheKey request) = some response) :
    listMarkets decodeCursor catalogue cache now request = (cache, .ok response) := by
  unfold listMarkets
  rw [published, if_neg Bool.false_ne_true, hit]

theorem listMarkets_miss (published : isUnpublished request = false)
    (miss : cacheGet cache now (cacheKey request) = none) :
    listMarkets decodeCursor catalogue cache now request =
      match listFresh decodeCursor catalogue request with
      | .error refusal => (cache, .error refusal)
      | .ok response => (cacheSet cache now (cacheKey request) response, .ok response) := by
  unfold listMarkets
  rw [published, if_neg Bool.false_ne_true, miss, listFresh_published published]
  cases queryRows decodeCursor catalogue request <;> rfl

/-- A request leaves the cache as it is, or writes its own answer where there was none. -/
theorem listMarkets_cache :
    (listMarkets decodeCursor catalogue cache now request).1 = cache ∨
      cacheGet cache now (cacheKey request) = none ∧
      ∃ response, listFresh decodeCursor catalogue request = .ok response ∧
        (listMarkets decodeCursor catalogue cache now request).1 =
          cacheSet cache now (cacheKey request) response := by
  cases published : isUnpublished request with
  | true => exact .inl (congrArg Prod.fst (listMarkets_unpublished published))
  | false =>
      cases hit : cacheGet cache now (cacheKey request) with
      | some response => exact .inl (congrArg Prod.fst (listMarkets_hit published hit))
      | none =>
          have miss := @listMarkets_miss decodeCursor catalogue cache now request published hit
          cases fresh : listFresh decodeCursor catalogue request with
          | error refusal =>
              rw [fresh] at miss
              exact .inl (congrArg Prod.fst miss)
          | ok response =>
              rw [fresh] at miss
              exact .inr ⟨rfl, response, rfl, congrArg Prod.fst miss⟩

theorem get?_cacheSet {key other : String} {response : MarketListResponse} :
    (cacheSet cache now key response).get? other =
      if other = key then some ⟨response, now + 60⟩ else cache.get? other :=
  Dict.get?_set

/-- What an earlier request wrote stays for those that come at the same time. -/
theorem cacheGet_kept {key : String} {response : MarketListResponse}
    (held : cacheGet cache now key = some response) :
    cacheGet (listMarkets decodeCursor catalogue cache now request).1 now key = some response := by
  rcases @listMarkets_cache decodeCursor catalogue cache now request with same | ⟨miss, own, -, isSet⟩
  · rw [same, held]
  · have apart : key ≠ cacheKey request := by
      rintro rfl
      rw [held] at miss
      contradiction
    rw [isSet]
    unfold cacheGet
    rw [get?_cacheSet, if_neg apart]
    exact held

/-- What stands in the cache is the fresh answer to one of the requests. -/
theorem cacheAfter_kept {visits : List (Timestamp × Request)} {key : String} {entry : Entry}
    (stored : (cacheAfter decodeCursor catalogue visits).get? key = some entry) :
    ∃ visit ∈ visits, cacheKey visit.2 = key ∧ entry.expiresAt = visit.1 + 60 ∧
      listFresh decodeCursor catalogue visit.2 = .ok entry.response := by
  induction visits using List.reverseRecOn generalizing entry with
  | nil => cases stored
  | append_singleton visits visit ih =>
      unfold cacheAfter at stored ih
      rw [List.foldl_append, List.foldl_cons, List.foldl_nil] at stored
      rcases listMarkets_cache with same | ⟨-, response, fresh, isSet⟩
      · rw [same] at stored
        obtain ⟨writer, member, isWriter⟩ := ih stored
        exact ⟨writer, List.mem_append_left _ member, isWriter⟩
      · rw [isSet, get?_cacheSet] at stored
        split at stored
        · rename_i isKey
          cases stored
          exact ⟨visit, List.mem_append_right _ (List.mem_singleton_self _), isKey.symm, rfl, fresh⟩
        · obtain ⟨writer, member, isWriter⟩ := ih stored
          exact ⟨writer, List.mem_append_left _ member, isWriter⟩

/-- A request is answered freshly when no earlier one can have left another page under its key. -/
theorem fresh_of_harmless {earlier : List (Timestamp × Request)}
    (harmless : ∀ visit ∈ earlier, Harmless decodeCursor catalogue visit.2 request) :
    (listMarkets decodeCursor catalogue (cacheAfter decodeCursor catalogue earlier) now request).2 =
      listFresh decodeCursor catalogue request := by
  cases published : isUnpublished request with
  | true => rw [listMarkets_unpublished published]
  | false =>
      cases hit : cacheGet (cacheAfter decodeCursor catalogue earlier) now (cacheKey request) with
      | none =>
          rw [listMarkets_miss published hit]
          cases listFresh decodeCursor catalogue request <;> rfl
      | some response =>
          obtain ⟨entry, alive, rfl⟩ := Option.map_eq_some_iff.mp hit
          obtain ⟨stored, -⟩ := Option.filter_eq_some_iff.mp alive
          obtain ⟨writer, member, sameKey, -, fresh⟩ := cacheAfter_kept stored
          rw [listMarkets_hit published hit]
          exact (harmless_iff.mp (harmless writer member) sameKey published _ fresh).symm

/-- Nothing that was written a minute ago is served. -/
theorem cacheGet_expired {visits : List (Timestamp × Request)} {key : String}
    (old : ∀ visit ∈ visits, visit.1 + 60 ≤ now) :
    cacheGet (cacheAfter decodeCursor catalogue visits) now key = none := by
  cases hit : cacheGet (cacheAfter decodeCursor catalogue visits) now key with
  | none => rfl
  | some response =>
      obtain ⟨entry, alive, -⟩ := Option.map_eq_some_iff.mp hit
      obtain ⟨stored, unexpired⟩ := Option.filter_eq_some_iff.mp alive
      obtain ⟨writer, member, -, expires, -⟩ := cacheAfter_kept stored
      have before : now < entry.expiresAt := of_decide_eq_true unexpired
      rw [expires] at before
      exact absurd (old writer member) before.not_ge

/-- Requests that come at one time. -/
def together (now : Timestamp) (requests : List Request) : List (Timestamp × Request) :=
  requests.map fun request => (now, request)

theorem map_snd_together (requests : List Request) :
    (together now requests).map Prod.snd = requests := by
  unfold together
  rw [List.map_map]
  exact List.map_id requests

theorem map_fst_together (requests : List Request) :
    (together now requests).map Prod.fst = List.replicate requests.length now := by
  unfold together
  rw [List.map_map]
  exact List.map_const'

theorem cacheGet_cacheAfter_append {visits : List (Timestamp × Request)} {more : List Request}
    {key : String} {response : MarketListResponse}
    (held : cacheGet (cacheAfter decodeCursor catalogue visits) now key = some response) :
    cacheGet (cacheAfter decodeCursor catalogue (visits ++ together now more)) now key =
      some response := by
  induction more using List.reverseRecOn with
  | nil => rwa [together, List.map_nil, List.append_nil]
  | append_singleton more other ih =>
      unfold cacheAfter together at ih ⊢
      rw [List.map_append, ← List.append_assoc, List.foldl_append]
      exact cacheGet_kept ih

/-- Of one catalogue, the lists that a list of requests gets are fresh, whenever the requests come,
exactly when of any two of them the later one may be answered with what the earlier one was. -/
theorem catalogue_fresh_iff (decodeCursor : String → Option Timestamp) (catalogue : Catalogue)
    (requests : List Request) :
    (∀ visits : List (Timestamp × Request), visits.map Prod.snd = requests →
      (visits.map Prod.fst).Pairwise (· ≤ ·) → AllFresh decodeCursor catalogue visits) ↔
      requests.Pairwise (Harmless decodeCursor catalogue) := by
  constructor
  · intro allFresh
    rw [List.pairwise_iff_forall_sublist]
    intro first second sub
    obtain ⟨front, back, isList, inFront, inBack⟩ := List.cons_sublist_iff.mp sub
    obtain ⟨before, between, rfl⟩ := List.append_of_mem inFront
    obtain ⟨between', after, rfl⟩ := List.append_of_mem (List.singleton_sublist.mp inBack)
    refine harmless_iff.mpr fun sameKey published response fresh => ?_
    -- the first comes a minute after all that were before it, and the second with it
    have isVisits : together 0 before ++
        together 60 (first :: (between ++ between') ++ second :: after) =
          (together 0 before ++ (60, first) :: together 60 (between ++ between')) ++
            (60, second) :: together 60 after := by
      unfold together
      simp
    have isRequests : (together 0 before ++
        together 60 (first :: (between ++ between') ++ second :: after)).map Prod.snd =
          requests := by
      rw [List.map_append, map_snd_together, map_snd_together, isList]
      simp
    have inOrder : ((together 0 before ++
        together 60 (first :: (between ++ between') ++ second :: after)).map Prod.fst).Pairwise
          (· ≤ ·) := by
      rw [List.map_append, map_fst_together, map_fst_together]
      refine List.pairwise_append.mpr ⟨List.pairwise_replicate.mpr (.inr le_rfl),
        List.pairwise_replicate.mpr (.inr le_rfl), fun left isLeft right isRight => ?_⟩
      rw [List.eq_of_mem_replicate isLeft]
      exact Nat.zero_le _
    have answered := allFresh _ isRequests inOrder _ _ _ _ isVisits
    obtain ⟨firstPublished, -⟩ := listFresh_ok.mp fresh
    have miss : cacheGet (cacheAfter decodeCursor catalogue (together 0 before)) 60
        (cacheKey first) = none := by
      refine cacheGet_expired fun visit member => ?_
      obtain ⟨request, -, rfl⟩ := List.mem_map.mp member
      exact le_rfl
    have stored : cacheGet (cacheAfter decodeCursor catalogue (together 0 before ++ [(60, first)]))
        60 (cacheKey first) = some response := by
      have isStored := @listMarkets_miss decodeCursor catalogue _ _ _ firstPublished miss
      rw [fresh] at isStored
      unfold cacheAfter at isStored ⊢
      rw [List.foldl_append, List.foldl_cons, List.foldl_nil, isStored]
      unfold cacheGet
      dsimp only
      rw [get?_cacheSet, if_pos rfl]
      rfl
    have held := @cacheGet_cacheAfter_append decodeCursor catalogue 60 _ (between ++ between') _ _
      stored
    rw [List.append_assoc, List.singleton_append, sameKey] at held
    rw [listMarkets_hit published held] at answered
    exact answered.symm
  · intro pairwise visits isRequests _ earlier now request later isVisits
    refine fresh_of_harmless fun visit member => ?_
    rw [← isRequests, isVisits, List.map_append, List.pairwise_append] at pairwise
    exact pairwise.2.2 _ (List.mem_map_of_mem member) _ List.mem_cons_self

/-- The lists that a list of requests gets are fresh, whatever the catalogue holds and whenever the
requests come, exactly when any two of them with one key ask for the same page of the same query. -/
theorem lists_fresh_iff (decodeCursor : String → Option Timestamp) (requests : List Request) :
    (∀ (catalogue : Catalogue) (visits : List (Timestamp × Request)),
      visits.map Prod.snd = requests → (visits.map Prod.fst).Pairwise (· ≤ ·) →
        AllFresh decodeCursor catalogue visits) ↔
      requests.Pairwise (Separated decodeCursor) := by
  have each := fun catalogue => catalogue_fresh_iff decodeCursor catalogue requests
  rw [forall_congr' each]
  simp only [List.pairwise_iff_forall_sublist, ← harmless_forall_iff]
  exact ⟨fun all _ _ sub catalogue => all catalogue sub, fun all catalogue _ _ sub => all sub catalogue⟩

end Serve

/-- A market of 3 o'clock and one of 7 o'clock. -/
def twoMarkets : Catalogue where
  markets :=
    [⟨1, "rain", "Rain?", "weather", .active, 0, 10, 3, none⟩,
      ⟨2, "snow", "Snow?", "weather", .active, 0, 20, 7, none⟩]
  prices := fun _ => (1 / 2, 1 / 2)
  outcomes := fun _ => []
  isMatch := fun _ _ => true
  relevance := fun _ _ => 0

def noonOrFive (cursor : String) : Option Timestamp :=
  if cursor = "noon" then some 12 else if cursor = "five" then some 5 else none

/-- The markets before a cursor. -/
def newestBefore (cursor : String) : Request where
  q := ""
  category := ""
  status := ""
  sort := .newest
  cursor := cursor
  page := 1
  pageSize := 20

/-- The second page that is asked for is the first one again. -/
theorem second_page_stale :
    ¬ AllFresh noonOrFive twoMarkets [(0, newestBefore "noon"), (1, newestBefore "five")] := by
  intro allFresh
  have answered := allFresh [(0, newestBefore "noon")] 1 (newestBefore "five") [] rfl
  have shown := congrArg (fun answer => answer.toOption.map fun page => page.data.length) answered
  exact absurd shown (by decide +kernel)

end PredictX.MarketList
