import PredictX.Properties.ShareConservation
import PredictX.Services.FillFrames
import PredictX.Services.OrderCases
import PredictX.Services.OutcomePrices

namespace PredictX.OrderService

open PredictX.Data PredictX.MarketService PredictX.MatchingEngine

/-! What the participants of a fill are told. -/

/-! # The participants -/

section Participants

variable {notice : FillNotice} {user : UserId} {rest : List MatchDetails} {details : MatchDetails}

/-- The matches with one maker that were executed. -/
def matchesOf (details : List MatchDetails) (maker : UserId) : List MatchDetails :=
  details.filter fun details => !details.skipped && details.makerUserId = maker

/-- A maker's entry once some of her matches are added up. -/
def makerEntry (notice : FillNotice) (own : List MatchDetails) : Option Participant :=
  own.head?.map fun first =>
    { shares := (own.map MatchDetails.matchShares).sum
      price := (own.map MatchDetails.matchUsdc).sum
      orderIds := own.map MatchDetails.makerOrderId
      side := first.side
      role := .maker
      status := notice.status }

theorem makerEntry_snoc (own : List MatchDetails) :
    makerEntry notice (own ++ [details]) =
      let entry := (makerEntry notice own).getD ⟨0, 0, [], details.side, .maker, notice.status⟩
      some { entry with
        shares := entry.shares + details.matchShares
        price := entry.price + details.matchUsdc
        orderIds := entry.orderIds ++ [details.makerOrderId] } := by
  unfold makerEntry
  cases own with
  | nil => simp
  | cons first own => simp [add_assoc]

theorem get?_addMaker {participants : Dict UserId Participant} (apart : user ≠ notice.takerUser)
    (known : participants.get? user = makerEntry notice (matchesOf rest user)) :
    (addMaker notice participants details).get? user =
      makerEntry notice (matchesOf (rest ++ [details]) user) := by
  unfold addMaker matchesOf at *
  rw [List.filter_append]
  cases skipped : details.skipped with
  | true => simp [known, skipped]
  | false =>
      by_cases same : user = details.makerUserId
      · subst same
        rw [if_neg Bool.false_ne_true, if_neg apart, Dict.get?_set, if_pos rfl, known]
        rw [List.filter_cons_of_pos (by simp [skipped]), List.filter_nil, makerEntry_snoc]
      · rw [if_neg Bool.false_ne_true, List.filter_cons_of_neg (by simp [Ne.symm same]),
          List.filter_nil, List.append_nil]
        split
        · exact known
        · dsimp only
          rw [Dict.get?_set, if_neg same, known]

theorem get?_addMaker_taker {participants : Dict UserId Participant} :
    (addMaker notice participants details).get? notice.takerUser =
      participants.get? notice.takerUser := by
  unfold addMaker
  split
  · rfl
  · split
    · rfl
    · rename_i apart
      dsimp only
      rw [Dict.get?_set, if_neg (Ne.symm apart)]

theorem get?_participants (user : UserId) :
    (participants notice).get? user =
      if user = notice.takerUser then
        some ⟨notice.takerShares, notice.takerPrice, [notice.orderId], notice.side, .taker,
          notice.status⟩
      else makerEntry notice (matchesOf notice.matchDetails user) := by
  unfold participants
  by_cases isTaker : user = notice.takerUser
  · rw [if_pos isTaker, isTaker]
    induction notice.matchDetails using List.reverseRecOn with
    | nil => exact Dict.get?_set_self
    | append_singleton rest details ih =>
        rw [List.foldl_append, List.foldl_cons, List.foldl_nil, get?_addMaker_taker, ih]
  · rw [if_neg isTaker]
    induction notice.matchDetails using List.reverseRecOn with
    | nil =>
        rw [List.foldl_nil, Dict.get?_set, if_neg isTaker]
        rfl
    | append_singleton rest details ih =>
        rw [List.foldl_append, List.foldl_cons, List.foldl_nil]
        exact get?_addMaker isTaker ih

end Participants

/-! # The frames -/

section Frames

variable {notice : FillNotice} {user : UserId} {frame : FillFrame}

theorem frameOf_some {participant : UserId × Participant} :
    frameOf notice participant = some frame ↔ 0 < participant.2.shares ∧ frame =
      { userId := participant.1
        orderId := participant.2.orderIds.head?
        orderIds := participant.2.orderIds
        marketId := notice.marketId
        status := participant.2.status
        side := participant.2.side
        shares := participant.2.shares
        price := participant.2.price / participant.2.shares
        role := participant.2.role } := by
  unfold frameOf
  dsimp only
  by_cases none_ : participant.2.shares ≤ 0
  · rw [if_pos none_]
    simp [none_.not_gt]
  · rw [if_neg none_, Option.some.injEq]
    exact ⟨fun same => ⟨not_le.mp none_, same.symm⟩, fun both => both.2.symm⟩

theorem mem_frames : frame ∈ notifyFillParticipants notice ↔
    ∃ entry, (participants notice).get? frame.userId = some entry ∧
      frameOf notice (frame.userId, entry) = some frame := by
  unfold notifyFillParticipants
  rw [List.mem_filterMap]
  constructor
  · rintro ⟨⟨user, entry⟩, member, framed⟩
    obtain ⟨-, isFrame⟩ := frameOf_some.mp framed
    have isUser : frame.userId = user := by rw [isFrame]
    refine ⟨entry, ?_, isUser ▸ framed⟩
    unfold Dict.get?
    rw [Table.find?_eq_some.mpr ⟨member, isUser.symm⟩]
    rfl
  · rintro ⟨entry, found, framed⟩
    obtain ⟨⟨user, other⟩, stored, rfl⟩ := Option.map_eq_some_iff.mp found
    obtain ⟨member, isUser⟩ := Table.find?_eq_some.mp stored
    dsimp only at isUser
    subst isUser
    exact ⟨_, member, framed⟩

theorem mem_users : user ∈ (notifyFillParticipants notice).map FillFrame.userId ↔
    ∃ entry, (participants notice).get? user = some entry ∧ 0 < entry.shares := by
  rw [List.mem_map]
  constructor
  · rintro ⟨frame, member, rfl⟩
    obtain ⟨entry, found, framed⟩ := mem_frames.mp member
    exact ⟨entry, found, (frameOf_some.mp framed).1⟩
  · rintro ⟨entry, found, positive⟩
    obtain ⟨frame, framed⟩ : ∃ frame, frameOf notice (user, entry) = some frame :=
      ⟨_, frameOf_some.mpr ⟨positive, rfl⟩⟩
    have isUser : frame.userId = user := by rw [(frameOf_some.mp framed).2]
    subst isUser
    exact ⟨frame, mem_frames.mpr ⟨entry, found, framed⟩, rfl⟩

/-- Nobody gets two frames. -/
theorem frames_nodup : ((notifyFillParticipants notice).map FillFrame.userId).Nodup := by
  refine (participants notice).unique.sublist ?_
  refine filterMap_keys_sublist _ _ _ _ fun participant frame framed => ?_
  rw [(frameOf_some.mp framed).2]

end Frames

/-! # The call -/

section Call

variable {env : Env} {db : Database} {user : UserId} {data : OrderRequest}
  {execution : Execution}

/-- What a call that matched or filled has traded. -/
structure Traded (user : UserId) (data : OrderRequest) (execution : Execution) : Prop where
  executed : ∀ details ∈ execution.matchDetails, details.skipped = false ∧
    0 < details.matchShares ∧ 0 < details.matchUsdc ∧ details.makerUserId ≠ user
  leg : ∀ leg ∈ execution.ammLeg, leg.side = data.side ∧ 0 < leg.quantity
  matched : execution.ammLeg = none → execution.matchDetails ≠ []
  rested : execution.result.status = .partiallyFilled → execution.ammLeg = none

theorem deliveredDetails_executed {venue : Venue} {details : MatchDetails}
    (positive : ∀ offer ∈ bookPlan db user venue data, 0 < offer.quantity ∧ 0 < offer.maker.price)
    (member : details ∈ deliveredDetails db.outcomes (bookPlan db user venue data)) :
    details.skipped = false ∧ 0 < details.matchShares ∧ 0 < details.matchUsdc ∧
      details.makerUserId ≠ user := by
  obtain ⟨offer, delivered, rfl⟩ := List.mem_map.mp member
  have planned := (List.mem_filter.mp delivered).1
  obtain ⟨quantity, price⟩ := positive offer planned
  have apart := (isMatch_iff.mp (mem_bookPlan planned).2).2.2.2.2.2.2
  exact ⟨rfl, quantity, mul_pos quantity price, apart⟩

theorem deliveredDetails_sum (outcomes : Table Outcome.id) (offers : List Offer) :
    ((deliveredDetails outcomes offers).map MatchDetails.matchShares).sum =
        deliveredSum offers Offer.quantity ∧
      ((deliveredDetails outcomes offers).map MatchDetails.matchUsdc).sum =
        deliveredSum offers Offer.usdc := by
  unfold deliveredDetails
  induction offers with
  | nil => exact ⟨rfl, rfl⟩
  | cons offer offers ih =>
      rw [deliveredSum_cons, deliveredSum_cons]
      cases delivered : offer.delivered with
      | true =>
          rw [List.filter_cons_of_pos delivered, List.map_cons, List.map_cons, List.map_cons,
            List.sum_cons, List.sum_cons, ih.1, ih.2]
          exact ⟨rfl, rfl⟩
      | false =>
          rw [List.filter_cons_of_neg (by simp [delivered]), ih.1, ih.2]
          simp

theorem restOrder_status {venue : Venue} {matched : Database} {book : BookFill}
    (rested : restOrder env matched user venue data book = .ok execution)
    (partly : execution.result.status = .partiallyFilled) : 0 < book.matchedShares := by
  unfold restOrder at rested
  obtain ⟨locked, taken, rested⟩ := bind_eq_ok.mp rested
  split at rested
  · contradiction
  obtain ⟨orders, inserted, rested⟩ := bind_eq_ok.mp rested
  cases rested
  dsimp only at partly
  split at partly
  · assumption
  · contradiction

theorem executeOrder_traded (executed : executeOrder env db user data = .ok execution)
    (traded : execution.result.status = .filled ∨ execution.result.status = .partiallyFilled) :
    Traded user data execution := by
  obtain ⟨venue, -, -, -, ways⟩ := executeOrder_ok executed
  rcases ways with ⟨existing, -, rfl⟩ | ⟨-, -, filled⟩
  · exact absurd traded (by simp [duplicate])
  obtain ⟨matched, book, trace, ends⟩ := fillOrder_ok filled
  obtain ⟨shares, usdc, details⟩ := trace.bookFill
  have positive := bookPlan_positive trace
  obtain ⟨shareSum, usdcSum⟩ := deliveredDetails_sum db.outcomes (bookPlan db user venue data)
  simp only [BookFill.empty, zero_add, List.nil_append] at shares usdc details
  rw [← shareSum, ← details] at shares
  rw [← usdcSum, ← details] at usdc
  have executedAll : ∀ item ∈ book.matchDetails, item.skipped = false ∧
      0 < item.matchShares ∧ 0 < item.matchUsdc ∧ item.makerUserId ≠ user := by
    rw [details]
    exact fun item member => deliveredDetails_executed positive member
  rcases ends with ⟨-, -, rested⟩ | ⟨left, -, traded', leg, ran, finished⟩ | ⟨none_, finished⟩
  · obtain ⟨-, -, -, -, -, sameDetails, noLeg, notFilled⟩ := restOrder_ok rested
    have partly := traded.resolve_left notFilled
    have given := restOrder_status rested partly
    refine ⟨sameDetails ▸ executedAll, fun leg member => ?_, fun _ nothing => ?_, fun _ => noLeg⟩
    · rw [noLeg] at member
      contradiction
    · rw [sameDetails] at nothing
      rw [shares, nothing] at given
      exact absurd given (lt_irrefl 0)
  · obtain ⟨-, sameDetails, isLeg, isFilled⟩ := finish_ok finished
    obtain ⟨side, quantity, -⟩ := runAmmLeg_traded ran
    refine ⟨sameDetails ▸ executedAll, fun other member => ?_, fun noLeg => ?_, fun partly => ?_⟩
    · rw [isLeg] at member
      cases member
      exact ⟨side, quantity ▸ left⟩
    · rw [isLeg] at noLeg
      contradiction
    · rw [isFilled] at partly
      contradiction
  · obtain ⟨-, sameDetails, isLeg, isFilled⟩ := finish_ok finished
    refine ⟨sameDetails ▸ executedAll, fun other member => ?_, fun _ nothing => ?_, fun partly => ?_⟩
    · rw [isLeg] at member
      contradiction
    · rw [sameDetails] at nothing
      rw [nothing] at shares usdc
      have amount := data.amount_pos
      unfold remainder at none_
      cases side : data.side <;> rw [side] at none_ <;> dsimp only at none_
      · rw [usdc] at none_
        exact absurd ((le_max_left _ _).trans none_) (by simpa using amount)
      · rw [shares] at none_
        exact absurd ((le_max_left _ _).trans none_) (by simpa using amount)
    · rw [isFilled] at partly
      contradiction

/-- The totals of a call. -/
def fillOf (execution : Execution) : Fill := ⟨execution.book, execution.ammLeg⟩

theorem foldl_add (details : List MatchDetails) (fill : BookFill) :
    details.foldl BookFill.add fill =
      ⟨fill.matchedShares + (details.map MatchDetails.matchShares).sum,
        fill.matchedUsdc + (details.map MatchDetails.matchUsdc).sum,
        fill.matchDetails ++ details⟩ := by
  induction details generalizing fill with
  | nil => simp
  | cons first rest ih => simp [ih, BookFill.add, add_assoc]

theorem book_eq : execution.book =
    ⟨(execution.matchDetails.map MatchDetails.matchShares).sum,
      (execution.matchDetails.map MatchDetails.matchUsdc).sum, execution.matchDetails⟩ := by
  rw [Execution.book, foldl_add]
  simp [BookFill.empty]

/-- A call that matched or filled notifies with its totals, whichever way it went. -/
theorem fillFrames_traded (trades : Traded user data execution)
    (traded : execution.result.status = .filled ∨ execution.result.status = .partiallyFilled) :
    fillFrames user data execution = notifyFillParticipants
      { marketId := data.marketId
        takerUser := user
        orderId := execution.result.orderId
        side := data.side
        matchDetails := execution.matchDetails
        takerShares := (fillOf execution).totalShares
        takerPrice := (fillOf execution).averagePrice
        status := execution.result.status } := by
  unfold fillFrames fillNotice fillOf
  rcases traded with filled | partly
  · rw [filled]
    rfl
  · have noLeg := trades.rested partly
    rw [partly, noLeg]
    unfold Fill.averagePrice Fill.totalShares Fill.spent AmmLeg.total
    simp

/-- The shares that a user has moved in a call. -/
def sharesIn (user : UserId) (execution : Execution) (participant : UserId) : ℚ :=
  if participant = user then (fillOf execution).totalShares
  else ((matchesOf execution.matchDetails participant).map MatchDetails.matchShares).sum

/-- The USDC that a user has paid or received in a call. -/
def usdcIn (user : UserId) (data : OrderRequest) (execution : Execution) (participant : UserId) : ℚ :=
  if participant = user then
    match data.side with
    | .buy => (fillOf execution).spent
    | .sell => (fillOf execution).received
  else ((matchesOf execution.matchDetails participant).map MatchDetails.matchUsdc).sum

/-- One frame for the taker and for each maker, with what each has really traded. -/
structure TrueAggregate (user : UserId) (data : OrderRequest) (execution : Execution)
    (frames : List FillFrame) : Prop where
  once : (frames.map FillFrame.userId).Nodup
  everyone : ∀ participant, participant ∈ frames.map FillFrame.userId ↔
    participant = user ∨ ∃ details ∈ execution.matchDetails, details.makerUserId = participant
  shares : ∀ frame ∈ frames, frame.shares = sharesIn user execution frame.userId
  price : ∀ frame ∈ frames, frame.price =
    usdcIn user data execution frame.userId / sharesIn user execution frame.userId

theorem sum_map_pos {details : List MatchDetails} {column : MatchDetails → ℚ}
    (some_ : details ≠ []) (positive : ∀ item ∈ details, 0 < column item) :
    0 < (details.map column).sum := by
  refine List.sum_pos _ (fun value member => ?_) (by simpa using some_)
  obtain ⟨item, isItem, rfl⟩ := List.mem_map.mp member
  exact positive item isItem

theorem makerEntry_some {notice : FillNotice} {own : List MatchDetails} {entry : Participant}
    (found : makerEntry notice own = some entry) :
    own ≠ [] ∧ entry.shares = (own.map MatchDetails.matchShares).sum ∧
      entry.price = (own.map MatchDetails.matchUsdc).sum := by
  unfold makerEntry at found
  obtain ⟨first, isFirst, rfl⟩ := Option.map_eq_some_iff.mp found
  refine ⟨?_, rfl, rfl⟩
  rintro rfl
  contradiction

/-- A maker has an entry with shares exactly when she was matched. -/
theorem makerEntry_iff {notice : FillNotice} {participant : UserId}
    (trades : Traded user data execution) :
    (∃ entry, makerEntry notice (matchesOf execution.matchDetails participant) = some entry ∧
        0 < entry.shares) ↔
      ∃ details ∈ execution.matchDetails, details.makerUserId = participant := by
  have own : ∀ item, item ∈ matchesOf execution.matchDetails participant ↔
      item ∈ execution.matchDetails ∧ item.makerUserId = participant := by
    intro item
    unfold matchesOf
    rw [List.mem_filter]
    refine and_congr_right fun member => ?_
    rw [(trades.executed item member).1]
    simp
  constructor
  · rintro ⟨entry, found, -⟩
    obtain ⟨item, member⟩ := List.exists_mem_of_ne_nil _ (makerEntry_some found).1
    exact ⟨item, (own item).mp member⟩
  · rintro ⟨item, member, isMaker⟩
    have some_ := List.ne_nil_of_mem ((own item).mpr ⟨member, isMaker⟩)
    obtain ⟨first, isFirst⟩ := Option.ne_none_iff_exists'.mp (List.head?_eq_none_iff.not.mpr some_)
    refine ⟨_, by rw [makerEntry, isFirst]; rfl, ?_⟩
    exact sum_map_pos some_ fun other isOther => (trades.executed other ((own other).mp isOther).1).2.1

theorem matched_nonneg (trades : Traded user data execution) :
    0 ≤ execution.book.matchedShares ∧ 0 ≤ execution.book.matchedUsdc := by
  rw [book_eq]
  refine ⟨List.sum_nonneg fun value member => ?_, List.sum_nonneg fun value member => ?_⟩
  · obtain ⟨item, isItem, rfl⟩ := List.mem_map.mp member
    exact (trades.executed item isItem).2.1.le
  · obtain ⟨item, isItem, rfl⟩ := List.mem_map.mp member
    exact (trades.executed item isItem).2.2.1.le

theorem matched_pos (trades : Traded user data execution) (noLeg : execution.ammLeg = none) :
    0 < execution.book.matchedShares ∧ 0 < execution.book.matchedUsdc := by
  rw [book_eq]
  have some_ := trades.matched noLeg
  exact ⟨sum_map_pos some_ fun item member => (trades.executed item member).2.1,
    sum_map_pos some_ fun item member => (trades.executed item member).2.2.1⟩

/-- A buy spends something. -/
theorem spent_pos (trades : Traded user data execution) (side : data.side = .buy) :
    0 < (fillOf execution).spent := by
  unfold Fill.spent fillOf AmmLeg.total
  cases isLeg : execution.ammLeg with
  | none => simpa [isLeg] using (matched_pos trades isLeg).2
  | some leg =>
      obtain ⟨legSide, quantity⟩ := trades.leg leg isLeg
      have spent : leg.spent = leg.quantity := by rw [AmmLeg.spent, legSide, side]
      have matched := (matched_nonneg trades).2
      simp only [Option.map_some, Option.getD_some, spent]
      linarith

/-- A sale gives away shares, and what it spends is what was matched. -/
theorem sold_pos (trades : Traded user data execution) (side : data.side = .sell) :
    0 < (fillOf execution).totalShares ∧ (fillOf execution).spent = execution.book.matchedUsdc := by
  unfold Fill.totalShares Fill.spent fillOf AmmLeg.total
  cases isLeg : execution.ammLeg with
  | none => simpa [isLeg] using (matched_pos trades isLeg).1
  | some leg =>
      obtain ⟨legSide, quantity⟩ := trades.leg leg isLeg
      have shares : leg.shares = leg.quantity := by rw [AmmLeg.shares, legSide, side]
      have spent : leg.spent = 0 := by rw [AmmLeg.spent, legSide, side]
      have matched := (matched_nonneg trades).1
      simp only [Option.map_some, Option.getD_some, shares, spent, add_zero, and_true]
      linarith

/-- The taker's figures, and when her frame tells them. -/
theorem taker_true_iff (trades : Traded user data execution) :
    (0 < (fillOf execution).totalShares ∧
      (fillOf execution).averagePrice / (fillOf execution).totalShares =
        usdcIn user data execution user / (fillOf execution).totalShares) ↔
      match data.side with
      | .buy => (fillOf execution).totalShares = 1
      | .sell => execution.book.matchedUsdc =
          (fillOf execution).totalShares * (fillOf execution).received := by
  unfold usdcIn Fill.averagePrice
  rw [if_pos rfl]
  cases side : data.side with
  | buy =>
      have spent := spent_pos trades side
      dsimp only
      constructor
      · rintro ⟨positive, same⟩
        rw [if_pos positive, div_left_inj' positive.ne', div_eq_iff positive.ne'] at same
        exact (mul_eq_left₀ spent.ne').mp same.symm
      · intro one
        rw [one]
        norm_num
  | sell =>
      obtain ⟨positive, spent⟩ := sold_pos trades side
      dsimp only
      rw [if_pos positive, div_left_inj' positive.ne', div_eq_iff positive.ne', spent, mul_comm]
      exact and_iff_right positive

/-- The frames tell what was traded exactly when the taker's frame does. -/
theorem true_aggregate_iff (env : Env) (db : Database) (user : UserId) (data : OrderRequest)
    (execution : Execution) (executed : executeOrder env db user data = .ok execution)
    (traded : execution.result.status = .filled ∨ execution.result.status = .partiallyFilled) :
    TrueAggregate user data execution (fillFrames user data execution) ↔
      match data.side with
      | .buy => (fillOf execution).totalShares = 1
      | .sell => execution.book.matchedUsdc =
          (fillOf execution).totalShares * (fillOf execution).received := by
  have trades := executeOrder_traded executed traded
  rw [← taker_true_iff trades, fillFrames_traded trades traded]
  set notice : FillNotice := ⟨data.marketId, user, execution.result.orderId, data.side,
    execution.matchDetails, (fillOf execution).totalShares, (fillOf execution).averagePrice,
    execution.result.status⟩ with isNotice
  have ofTaker : (participants notice).get? user = some ⟨(fillOf execution).totalShares,
      (fillOf execution).averagePrice, [execution.result.orderId], data.side, .taker,
      execution.result.status⟩ := by
    rw [get?_participants]
    exact if_pos rfl
  have ofMaker : ∀ participant, participant ≠ user → (participants notice).get? participant =
      makerEntry notice (matchesOf execution.matchDetails participant) := by
    intro participant apart
    rw [get?_participants]
    exact if_neg apart
  constructor
  · intro aggregate
    obtain ⟨frame, member, isUser⟩ :=
      List.mem_map.mp ((aggregate.everyone user).mpr (.inl rfl))
    have told := aggregate.price frame member
    obtain ⟨entry, found, framed⟩ := mem_frames.mp member
    rw [isUser, ofTaker] at found
    cases found
    obtain ⟨positive, isFrame⟩ := frameOf_some.mp framed
    have shares : sharesIn user execution user = (fillOf execution).totalShares := if_pos rfl
    rw [isUser, shares, isFrame] at told
    exact ⟨positive, told⟩
  · rintro ⟨positive, told⟩
    refine ⟨frames_nodup, fun participant => ?_, fun frame member => ?_, fun frame member => ?_⟩
    · rw [mem_users]
      by_cases isTaker : participant = user
      · rw [isTaker]
        exact iff_of_true ⟨_, ofTaker, positive⟩ (.inl rfl)
      · rw [ofMaker participant isTaker, or_iff_right isTaker]
        exact makerEntry_iff trades
    · obtain ⟨entry, found, framed⟩ := mem_frames.mp member
      have isFrame := (frameOf_some.mp framed).2
      have shares : frame.shares = entry.shares := by rw [isFrame]
      unfold sharesIn
      rw [shares]
      by_cases isTaker : frame.userId = user
      · rw [isTaker, ofTaker] at found
        cases found
        rw [if_pos isTaker]
      · rw [ofMaker _ isTaker] at found
        rw [if_neg isTaker]
        exact (makerEntry_some found).2.1
    · obtain ⟨entry, found, framed⟩ := mem_frames.mp member
      have isFrame := (frameOf_some.mp framed).2
      have price : frame.price = entry.price / entry.shares := by rw [isFrame]
      rw [price]
      by_cases isTaker : frame.userId = user
      · rw [isTaker, ofTaker] at found
        cases found
        rw [isTaker]
        unfold sharesIn
        rw [if_pos rfl]
        exact told
      · rw [ofMaker _ isTaker] at found
        obtain ⟨-, isShares, isPrice⟩ := makerEntry_some found
        unfold sharesIn usdcIn
        rw [if_neg isTaker, if_neg isTaker, isShares, isPrice]

end Call

/-- Five USDC on YES at a maker's price of 0.50. -/
def fiveDollars : OrderRequest := marketOrder .buy 5 pos_five grid_five

theorem true_aggregate_of_ten :
    ∃ execution, executeOrder quietEnv quotedMarket 1 fiveDollars = .ok execution ∧
      (TrueAggregate 1 fiveDollars execution (fillFrames 1 fiveDollars execution) ↔
        (fillOf execution).totalShares = 1) := by
  have run : succeedsWith (executeOrder quietEnv quotedMarket 1 fiveDollars)
      (fun execution => decide (execution.result.status = .filled)) = true := by
    decide +kernel
  obtain ⟨execution, executed, filled⟩ := succeedsWith_iff.mp run
  exact ⟨execution, executed, true_aggregate_iff quietEnv quotedMarket 1 fiveDollars execution
    executed (.inl (of_decide_eq_true filled))⟩

/-- Ten shares for five USDC are reported to the buyer at a price of five cents. -/
theorem buyer_told_a_tenth :
    ∃ execution, executeOrder quietEnv quotedMarket 1 fiveDollars = .ok execution ∧
      execution.result.status = .filled ∧
      (fillFrames 1 fiveDollars execution).map
          (fun frame => (frame.userId, frame.shares, frame.price)) =
        [(1, 10, 1 / 20), (2, 10, 1 / 2)] ∧
      ¬ TrueAggregate 1 fiveDollars execution (fillFrames 1 fiveDollars execution) := by
  have run : succeedsWith (executeOrder quietEnv quotedMarket 1 fiveDollars)
      (fun execution => decide (execution.result.status = .filled ∧
        (fillFrames 1 fiveDollars execution).map
            (fun frame => (frame.userId, frame.shares, frame.price)) =
          [(1, 10, 1 / 20), (2, 10, 1 / 2)] ∧
        usdcIn 1 fiveDollars execution 1 = 5 ∧ sharesIn 1 execution 1 = 10)) = true := by
    decide +kernel
  obtain ⟨execution, executed, facts⟩ := succeedsWith_iff.mp run
  obtain ⟨filled, frames, usdc, shares⟩ := of_decide_eq_true facts
  refine ⟨execution, executed, filled, frames, fun aggregate => ?_⟩
  have first : ((1, 10, 1 / 20) : UserId × ℚ × ℚ) ∈ (fillFrames 1 fiveDollars execution).map
      (fun frame => (frame.userId, frame.shares, frame.price)) := by
    rw [frames]
    exact List.mem_cons_self
  obtain ⟨frame, member, isFrame⟩ := List.mem_map.mp first
  obtain ⟨isUser, -, isPrice⟩ : frame.userId = 1 ∧ frame.shares = 10 ∧ frame.price = 1 / 20 := by
    simpa using isFrame
  have told := aggregate.price frame member
  rw [isUser, isPrice, usdc, shares] at told
  norm_num at told

end PredictX.OrderService
