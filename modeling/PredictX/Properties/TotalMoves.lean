import PredictX.Client.PriceAnnouncer
import PredictX.Data.Run

namespace PredictX.PriceAnnouncer

open PredictX.Data PredictX.JavaScript

/-! The announcer speaks total moves, where it keeps its baseline.

A market's next message is judged from the price spoken last, or else from the first one staged.  A
flush that stays silent about a market that has never been spoken of forgets the latter.
-/

variable {rule : Option ℚ → ℚ → Bool}

theorem announcePrices_page {slug yesOutcomeName : String} {frame : PriceFrame} {now : ℕ}
    {change : PriceChange} (called : change ∈ announcePrices slug yesOutcomeName frame now) :
    change = pageChange change.marketId change.outcome change.toPrice now := by
  unfold announcePrices at called
  split at called
  · obtain ⟨entry, _, isChange⟩ := List.mem_filterMap.mp called
    obtain ⟨price, _, rfl⟩ := Option.map_eq_some_iff.mp isChange
    rfl
  · obtain ⟨price, _, rfl⟩ := Option.map_eq_some_iff.mp (Option.mem_toList.mp called)
    rfl

/-! # Runs -/

inductive Event where
  | stage (marketId outcome : String) (price : ℚ) (now : ℕ)
  | flush
deriving DecidableEq

/-- The announcer with all that it has been handed and all that it has said. -/
structure Session where
  state : AnnouncerState
  staged : List PriceChange
  said : List (String × PriceChange)

namespace Session

def opened : Session := ⟨emptyState, [], []⟩

def after (rule : Option ℚ → ℚ → Bool) (session : Session) : Event → Session
  | .stage marketId outcome price now =>
      { session with
        state := stagePriceChange session.state (pageChange marketId outcome price now)
        staged := session.staged ++ [pageChange marketId outcome price now] }
  | .flush =>
      { session with
        state := (flushAnnouncements rule session.state).state
        said := session.said ++ spoken rule session.state }

variable (session : Session) (market : String)

def frames : List PriceChange := session.staged.filter fun change => change.marketId = market

def messages : List (String × PriceChange) := session.said.filter fun entry => entry.1 = market

def firstStaged : Option ℚ := (session.frames market).head?.map PriceChange.toPrice

def newest : Option ℚ := (session.frames market).getLast?.map PriceChange.toPrice

def lastSpoken : Option ℚ := (session.messages market).getLast?.map fun entry => entry.2.toPrice

/-- The price spoken last or, if there was none, the first price staged. -/
def reference : Option ℚ := (session.lastSpoken market).or (session.firstStaged market)

end Session

/-- Two prices between which there is something to say. -/
def Moved (rule : Option ℚ → ℚ → Bool) (reference newest : ℚ) : Prop :=
  reference ≠ newest ∧ rule (some reference) newest = true

instance (rule : Option ℚ → ℚ → Bool) (reference newest : ℚ) :
    Decidable (Moved rule reference newest) :=
  inferInstanceAs (Decidable (_ ∧ _))

/-- What a flush should say of a market: its newest frame, if that has moved from the reference. -/
def due (rule : Option ℚ → ℚ → Bool) (session : Session) (market : String) :
    List (String × PriceChange) :=
  match (session.frames market).getLast?, session.reference market with
  | some frame, some reference =>
      if Moved rule reference frame.toPrice then
        [(market, { frame with fromPrice := some reference })]
      else []
  | _, _ => []

/-- The first message of a market starts at this price, and each later one where the one before it
has ended. -/
def Chained : Option ℚ → List (String × PriceChange) → Prop
  | _, [] => True
  | before, entry :: rest => entry.2.fromPrice = before ∧ Chained (some entry.2.toPrice) rest

/-- Where a silent flush has made the announcer forget a market, the market comes back with its
first price.  No market has a name that every record inherits. -/
def KeepsBaseline (session : Session) : Event → Prop
  | .stage marketId _ price _ =>
      marketId ∉ objectMembers ∧
        (session.state.pending.get? marketId = none → session.lastSpoken marketId = none →
          ∀ first ∈ session.firstStaged marketId, price = first)
  | .flush => True

theorem chained_snoc {before : Option ℚ} {said : List (String × PriceChange)}
    {entry : String × PriceChange} (chained : Chained before said)
    (goesOn : entry.2.fromPrice = (said.getLast?.map fun entry => entry.2.toPrice).or before) :
    Chained before (said ++ [entry]) := by
  induction said generalizing before with
  | nil => exact ⟨goesOn, trivial⟩
  | cons first rest ih =>
      refine ⟨chained.1, ih chained.2 ?_⟩
      rw [goesOn, List.getLast?_cons]
      cases rest.getLast? <;> rfl

theorem isSpoken_iff {change : PriceChange} {reference : ℚ}
    (isReference : change.fromPrice = some reference) :
    isSpoken rule change = true ↔ Moved rule reference change.toPrice := by
  simp [isSpoken, Moved, isReference]

/-! # What the state knows -/

structure Sound (rule : Option ℚ → ℚ → Bool) (session : Session) : Prop where
  announced : ∀ market, session.state.announced.get? market = session.lastSpoken market
  pending : ∀ market change, session.state.pending.get? market = some change →
    ∃ frame, (session.frames market).getLast? = some frame ∧
      change = { frame with fromPrice := session.reference market }
  silent : ∀ market reference newest, session.state.pending.get? market = none →
    session.reference market = some reference → session.newest market = some newest →
    ¬ Moved rule reference newest
  begun : ∀ market, session.frames market = [] → session.messages market = []
  chained : ∀ market, Chained (session.firstStaged market) (session.messages market)

theorem opened_sound : Sound rule Session.opened where
  announced := fun _ => rfl
  pending := fun _ _ => nofun
  silent := fun _ _ _ _ => nofun
  begun := fun _ _ => rfl
  chained := fun _ => trivial

theorem frames_stage (session : Session) (marketId outcome : String) (price : ℚ) (now : ℕ)
    (market : String) :
    (session.after rule (.stage marketId outcome price now)).frames market =
      if marketId = market then
        session.frames market ++ [pageChange marketId outcome price now]
      else session.frames market := by
  simp only [Session.after, Session.frames, List.filter_append]
  by_cases same : marketId = market
  · rw [if_pos same, List.filter_cons_of_pos (by simp [pageChange, same]),
      List.filter_nil]
  · rw [if_neg same, List.filter_cons_of_neg (by simp [pageChange, same]), List.filter_nil,
      List.append_nil]

theorem firstStaged_stage {session : Session} {marketId outcome : String} {price : ℚ} {now : ℕ}
    {market : String} :
    (session.after rule (.stage marketId outcome price now)).firstStaged market =
      (session.firstStaged market).or (if marketId = market then some price else none) := by
  rw [Session.firstStaged, Session.firstStaged, frames_stage]
  by_cases same : marketId = market
  · rw [if_pos same, if_pos same, List.head?_append]
    cases (session.frames market).head? <;> rfl
  · rw [if_neg same, if_neg same, Option.or_none]

theorem reference_stage {session : Session} {marketId outcome : String} {price : ℚ} {now : ℕ}
    {market : String} (begun : session.firstStaged market ≠ none ∨ marketId ≠ market) :
    (session.after rule (.stage marketId outcome price now)).reference market =
      session.reference market := by
  have same : (session.after rule (.stage marketId outcome price now)).lastSpoken market =
      session.lastSpoken market := rfl
  rw [Session.reference, Session.reference, same, firstStaged_stage]
  obtain already | other := begun
  · obtain ⟨first, isFirst⟩ := Option.ne_none_iff_exists'.mp already
    rw [isFirst]
    rfl
  · rw [if_neg other, Option.or_none]

theorem firstStaged_eq_none {session : Session} {market : String} :
    session.firstStaged market = none ↔ session.frames market = [] := by
  rw [Session.firstStaged, Option.map_eq_none_iff, List.head?_eq_none_iff]

theorem baseline_pageChange (state : AnnouncerState) (marketId outcome : String) (price : ℚ)
    (now : ℕ) :
    baseline state (pageChange marketId outcome price now) =
      match state.pending.get? marketId with
      | some existing => existing.fromPrice
      | none => (announcedPrice state.announced marketId).getD (some price) := rfl

/-- What a staged frame is judged from. -/
theorem Sound.baseline_eq {session : Session} (sound : Sound rule session)
    {marketId outcome : String} {price : ℚ} {now : ℕ}
    (keeps : KeepsBaseline session (.stage marketId outcome price now)) :
    baseline session.state (pageChange marketId outcome price now) =
      (session.after rule (.stage marketId outcome price now)).reference marketId := by
  obtain ⟨ordinary, remembered⟩ := keeps
  rw [baseline_pageChange]
  cases waiting : session.state.pending.get? marketId with
  | some existing =>
      obtain ⟨frame, isLast, rfl⟩ := sound.pending marketId existing waiting
      have begun : session.firstStaged marketId ≠ none := by
        rw [Ne, firstStaged_eq_none]
        rintro empty
        rw [empty] at isLast
        cases isLast
      exact (reference_stage (.inl begun)).symm
  | none =>
      have spoken := sound.announced marketId
      have same : (session.after rule (.stage marketId outcome price now)).lastSpoken marketId =
          session.lastSpoken marketId := rfl
      rw [Session.reference, same, firstStaged_stage, if_pos rfl, ← spoken]
      simp only [announcedPrice]
      cases announced : session.state.announced.get? marketId with
      | some last => rfl
      | none =>
          rw [announced] at spoken
          simp only [if_neg ordinary, Option.getD_none, Option.none_or]
          cases isFirst : session.firstStaged marketId with
          | none => rfl
          | some first => rw [remembered waiting spoken.symm first isFirst, Option.some_or]

theorem Sound.stage {session : Session} (sound : Sound rule session)
    {marketId outcome : String} {price : ℚ} {now : ℕ}
    (keeps : KeepsBaseline session (.stage marketId outcome price now)) :
    Sound rule (session.after rule (.stage marketId outcome price now)) := by
  have baselineIs := sound.baseline_eq keeps
  have pendingIs : ∀ market,
      (session.after rule (.stage marketId outcome price now)).state.pending.get? market =
        if market = marketId then some { pageChange marketId outcome price now with
          fromPrice := baseline session.state (pageChange marketId outcome price now) }
        else session.state.pending.get? market := fun _ => Dict.get?_set
  refine ⟨sound.announced, fun market change waiting => ?_, fun market => ?_,
    fun market empty => ?_, fun market => ?_⟩
  · rw [pendingIs] at waiting
    rw [frames_stage]
    by_cases same : market = marketId
    · subst same
      rw [if_pos rfl] at waiting
      rw [if_pos rfl, List.getLast?_concat, ← baselineIs]
      exact ⟨_, rfl, (Option.some.inj waiting).symm⟩
    · rw [if_neg same] at waiting
      rw [if_neg (Ne.symm same), reference_stage (.inr (Ne.symm same))]
      exact sound.pending market change waiting
  · intro reference newest quiet isReference isNewest
    rw [pendingIs] at quiet
    by_cases same : market = marketId
    · rw [if_pos same] at quiet
      cases quiet
    · rw [if_neg same] at quiet
      rw [reference_stage (.inr (Ne.symm same))] at isReference
      rw [Session.newest, frames_stage, if_neg (Ne.symm same)] at isNewest
      exact sound.silent market reference newest quiet isReference isNewest
  · rw [frames_stage] at empty
    by_cases same : marketId = market
    · rw [if_pos same] at empty
      cases List.append_ne_nil_of_right_ne_nil _ (List.cons_ne_nil _ _) empty
    · rw [if_neg same] at empty
      exact sound.begun market empty
  · rw [firstStaged_stage]
    change Chained _ (session.messages market)
    cases isFirst : session.firstStaged market with
    | none =>
        rw [sound.begun market (firstStaged_eq_none.mp isFirst)]
        exact trivial
    | some first =>
        rw [Option.some_or, ← isFirst]
        exact sound.chained market

theorem spoken_filter (state : AnnouncerState) (market : String) :
    ((spoken rule state).filter fun entry => entry.1 = market) =
      (((state.pending.get? market).filter (isSpoken rule)).map fun change =>
        (market, change)).toList := by
  rw [spoken, List.filter_comm, Dict.rows_filter_key]
  cases state.pending.get? market with
  | none => rfl
  | some change =>
      cases said : isSpoken rule change <;> simp [said, Option.filter_some]

theorem Sound.reference_of_pending {session : Session} (sound : Sound rule session)
    {market : String} {change : PriceChange}
    (waiting : session.state.pending.get? market = some change) :
    ∃ reference, session.reference market = some reference := by
  obtain ⟨frame, isLast, _⟩ := sound.pending market change waiting
  cases isFirst : session.firstStaged market with
  | none =>
      rw [firstStaged_eq_none.mp isFirst] at isLast
      cases isLast
  | some first =>
      rw [Session.reference, isFirst]
      cases session.lastSpoken market with
      | none => exact ⟨first, rfl⟩
      | some last => exact ⟨last, rfl⟩

/-- A flush says of a market what it should. -/
theorem Sound.spoken_eq_due {session : Session} (sound : Sound rule session) (market : String) :
    ((spoken rule session.state).filter fun entry => entry.1 = market) =
      due rule session market := by
  rw [spoken_filter]
  cases waiting : session.state.pending.get? market with
  | none =>
      cases isLast : (session.frames market).getLast? with
      | none => simp [due, isLast]
      | some frame =>
          cases isReference : session.reference market with
          | none => simp [due, isLast, isReference]
          | some reference =>
              have unmoved := sound.silent market reference frame.toPrice waiting isReference
                (by rw [Session.newest, isLast, Option.map_some])
              simp [due, isLast, isReference, unmoved]
  | some change =>
      obtain ⟨frame, isLast, isChange⟩ := sound.pending market change waiting
      obtain ⟨reference, isReference⟩ := sound.reference_of_pending waiting
      rw [isReference] at isChange
      have speaks : isSpoken rule change = true ↔ Moved rule reference frame.toPrice := by
        rw [isSpoken_iff (by rw [isChange]), isChange]
      simp only [due, isLast, isReference, ← speaks, ← isChange]
      cases said : isSpoken rule change <;> simp [said]

theorem messages_flush (session : Session) (market : String) :
    (session.after rule .flush).messages market = session.messages market ++
      (((session.state.pending.get? market).filter (isSpoken rule)).map fun change =>
        (market, change)).toList := by
  rw [← spoken_filter]
  exact List.filter_append ..

theorem lastSpoken_flush (session : Session) (market : String) :
    (session.after rule .flush).lastSpoken market =
      (((session.state.pending.get? market).filter (isSpoken rule)).map PriceChange.toPrice).or
        (session.lastSpoken market) := by
  rw [Session.lastSpoken, messages_flush, List.getLast?_append]
  cases (session.state.pending.get? market).filter (isSpoken rule) <;> rfl

/-- A flush in which nothing is said of a market leaves its reference. -/
theorem reference_flush {session : Session} {market : String}
    (unsaid : (session.state.pending.get? market).filter (isSpoken rule) = none) :
    (session.after rule .flush).reference market = session.reference market := by
  rw [Session.reference, lastSpoken_flush, unsaid, Option.map_none, Option.none_or]
  rfl

theorem Sound.flush_silent {session : Session} (sound : Sound rule session) {market : String}
    {reference newest : ℚ}
    (isReference : (session.after rule .flush).reference market = some reference)
    (isNewest : session.newest market = some newest) : ¬ Moved rule reference newest := by
  cases waiting : session.state.pending.get? market with
  | none =>
      rw [reference_flush (by rw [waiting, Option.filter_none])] at isReference
      exact sound.silent market reference newest waiting isReference isNewest
  | some change =>
      obtain ⟨frame, isLast, isChange⟩ := sound.pending market change waiting
      have price : change.toPrice = newest := by
        rw [Session.newest, isLast] at isNewest
        rw [isChange]
        exact Option.some.inj isNewest
      cases said : isSpoken rule change with
      | true =>
          rw [Session.reference, lastSpoken_flush, waiting, Option.filter_some_pos said,
            Option.map_some, Option.some_or] at isReference
          exact fun moved => moved.1 ((Option.some.inj isReference).symm.trans price)
      | false =>
          rw [reference_flush (by rw [waiting, Option.filter_some_neg (by simp [said])])]
            at isReference
          have from_ : change.fromPrice = some reference := by rw [isChange, isReference]
          rw [← price, ← isSpoken_iff from_, said]
          exact Bool.false_ne_true

theorem Sound.flush {session : Session} (sound : Sound rule session) :
    Sound rule (session.after rule .flush) := by
  refine ⟨fun market => ?_, fun market change waiting => ?_,
    fun market reference newest _ isReference isNewest => sound.flush_silent isReference isNewest,
    fun market empty => ?_, fun market => ?_⟩
  · have written : Dict.get? (((spoken rule session.state).map fun entry =>
        (entry.1, entry.2.toPrice)).foldl (fun dict item => dict.set item.1 item.2)
          session.state.announced) market = _ := Dict.get?_setItems _ _
    rw [List.foldl_map, List.filter_map, List.getLast?_map, Option.map_map] at written
    have set : (session.after rule .flush).state.announced.get? market =
        ((((spoken rule session.state).filter fun entry => entry.1 = market).getLast?.map
          fun entry => entry.2.toPrice)).or (session.state.announced.get? market) := written
    rw [set, lastSpoken_flush, spoken_filter, sound.announced]
    cases (session.state.pending.get? market).filter (isSpoken rule) <;> rfl
  · cases waiting
  · have none : session.state.pending.get? market = none := by
      cases waiting : session.state.pending.get? market with
      | none => rfl
      | some change =>
          obtain ⟨frame, isLast, _⟩ := sound.pending market change waiting
          have noFrames : session.frames market = [] := empty
          rw [noFrames] at isLast
          cases isLast
    rw [messages_flush, none]
    exact (List.append_nil _).trans (sound.begun market empty)
  · change Chained (session.firstStaged market) _
    rw [messages_flush]
    cases said : (session.state.pending.get? market).filter (isSpoken rule) with
    | none => simpa using sound.chained market
    | some change =>
        obtain ⟨frame, _, isChange⟩ :=
          sound.pending market change (Option.filter_eq_some_iff.mp said).1
        refine chained_snoc (sound.chained market) ?_
        rw [isChange]
        rfl

/-! # Guarded runs -/

theorem sound_after {session : Session} (sound : Sound rule session) {event : Event}
    (keeps : KeepsBaseline session event) : Sound rule (session.after rule event) := by
  cases event with
  | stage marketId outcome price now => exact sound.stage keeps
  | flush => exact sound.flush

def Runs (rule : Option ℚ → ℚ → Bool) : List Event → Session → Prop :=
  Run (fun session event after => session.after rule event = after) KeepsBaseline Session.opened

theorem Runs.sound {events : List Event} {session : Session} (run : Runs rule events session) :
    Sound rule session := by
  refine run.invariant (Sound rule) ?_ opened_sound
  rintro before event _ keeps rfl sound
  exact sound_after sound keeps

/-- In a guarded run a flush says of each market what is due; the messages of a market add up, from
its first price on, and what they leave unsaid after a flush is no move.  Another run over the same
frames says the same at its next flush if it has last spoken the same price. -/
theorem announces_total_moves (rule : Option ℚ → ℚ → Bool) (events : List Event)
    (session : Session) (run : Runs rule events session) (market : String) :
    ((spoken rule session.state).filter fun entry => entry.1 = market) =
        due rule session market ∧
      Chained (session.firstStaged market) (session.messages market) ∧
      (∀ reference newest, (session.after rule .flush).reference market = some reference →
        session.newest market = some newest → ¬ Moved rule reference newest) ∧
      ∀ others other, Runs rule others other → other.frames market = session.frames market →
        other.lastSpoken market = session.lastSpoken market →
        ((spoken rule other.state).filter fun entry => entry.1 = market) =
          (spoken rule session.state).filter fun entry => entry.1 = market := by
  have sound := run.sound
  refine ⟨sound.spoken_eq_due market, sound.chained market, fun _ _ => sound.flush_silent, ?_⟩
  intro others other otherRun sameFrames sameSpoken
  have sameReference : other.reference market = session.reference market := by
    rw [Session.reference, Session.reference, sameSpoken, Session.firstStaged, Session.firstStaged,
      sameFrames]
  rw [sound.spoken_eq_due, otherRun.sound.spoken_eq_due, due, due, sameFrames, sameReference]

/-! A market that moves by less than a displayed point in each of two windows. -/

def slowSession : Session :=
  ((Session.opened.after isSignificant (.stage "rain" "Yes" (1 / 2) 0)).after isSignificant
    .flush).after isSignificant (.stage "rain" "Yes" (506 / 1000) 2000)

theorem slow_drift_forgotten :
    ((spoken isSignificant slowSession.state).filter fun entry => entry.1 = "rain") ≠
      due isSignificant slowSession "rain" := by
  decide +kernel

def busySession : Session :=
  ((Session.opened.after isSignificant (.stage "rain" "Yes" (1 / 2) 0)).after isSignificant
    (.stage "rain" "Yes" (62 / 100) 100)).after isSignificant .flush

theorem busySession_runs : Runs isSignificant
    [.stage "rain" "Yes" (1 / 2) 0, .stage "rain" "Yes" (62 / 100) 100, .flush] busySession := by
  refine .act ⟨by decide, fun _ _ => nofun⟩ rfl (.act ⟨by decide, nofun⟩ rfl (.act trivial rfl ?_))
  exact .stop _

theorem busy_market_announced :
    ((spoken isSignificant busySession.state).filter fun entry => entry.1 = "rain") =
        due isSignificant busySession "rain" ∧
      Chained (busySession.firstStaged "rain") (busySession.messages "rain") ∧
      (∀ reference newest,
        (busySession.after isSignificant .flush).reference "rain" = some reference →
        busySession.newest "rain" = some newest → ¬ Moved isSignificant reference newest) ∧
      ∀ others other, Runs isSignificant others other →
        other.frames "rain" = busySession.frames "rain" →
        other.lastSpoken "rain" = busySession.lastSpoken "rain" →
        ((spoken isSignificant other.state).filter fun entry => entry.1 = "rain") =
          (spoken isSignificant busySession.state).filter fun entry => entry.1 = "rain" :=
  announces_total_moves isSignificant _ busySession busySession_runs "rain"

end PredictX.PriceAnnouncer
