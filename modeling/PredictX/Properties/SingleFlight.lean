import Mathlib.Data.Nat.Basic
import Mathlib.Order.Basic
import PredictX.Client.SessionMachine
import PredictX.Data.History

namespace PredictX.ApiClient

open PredictX.Data PredictX.Data.History

/-! One refresh at a time, and none that is known to fail.

A refresh whose `finally` has not run is the shared promise.  What the last verdict forbids is kept
in `sessionState` and in `refreshBlockedUntil`, and a request reads both when it asks.
-/

/-- The refresh is on its way. -/
def Client.InFlight (client : Client) (refresh : ℕ) : Prop :=
  ∃ flight, client.refreshes[refresh]? = some flight ∧ flight.result = none

/-- The entry is a refresh that the caller has issued or joined. -/
def Entry.asks (caller : ℕ) : Entry → Bool
  | .issued _ other => other = caller
  | .joined other => other = caller
  | _ => false

/-- How often a request has issued or joined a refresh. -/
def Client.asked (client : Client) (caller : ℕ) : ℕ :=
  (client.log.filter (Entry.asks caller)).length

/-! # What a step writes -/

/-- The entries that a step adds, and what they say of the state they are added in. -/
inductive Writes (client after : Client) : List Entry → Prop
  | nothing (verdict : after.sessionState = client.sessionState)
      (blocked : after.refreshBlockedUntil = client.refreshBlockedUntil)
      (now : client.now ≤ after.now) : Writes client after []
  | active (now : after.now = client.now) : Writes client after [.markSessionActive]
  | ended (ends : after.sessionState = .none) (now : after.now = client.now) :
      Writes client after [.markSessionEnded]
  | joined (caller : ℕ) (verdict : after.sessionState = client.sessionState)
      (blocked : after.refreshBlockedUntil = client.refreshBlockedUntil)
      (now : after.now = client.now) : Writes client after [.joined caller]
  | issued (caller : ℕ) (allowed : client.refreshSuppressed = false)
      (verdict : after.sessionState = client.sessionState)
      (blocked : after.refreshBlockedUntil = client.refreshBlockedUntil)
      (now : after.now = client.now) : Writes client after [.issued client.now caller]
  | ok (now : after.now = client.now) :
      Writes client after [.answered client.now .ok, .markSessionActive]
  | refused (ends : after.sessionState = .none) (now : after.now = client.now) :
      Writes client after [.answered client.now .refused, .markSessionEnded]
  | inconclusive (verdict : after.sessionState = client.sessionState)
      (blocked : after.refreshBlockedUntil = client.now + refreshCooldownMs)
      (now : after.now = client.now) :
      Writes client after [.answered client.now .inconclusive]

section Steps

variable {client after : Client} {event : Event}

theorem refreshSession_writes (caller : ℕ) (allowed : client.refreshSuppressed = false) :
    ∃ news, (client.refreshSession caller).log = client.log ++ news ∧
      Writes client (client.refreshSession caller) news := by
  unfold Client.refreshSession
  split
  · exact ⟨_, rfl, .joined caller rfl rfl rfl⟩
  · exact ⟨_, rfl, .issued caller allowed rfl rfl rfl⟩

theorem unauthorized_writes (caller : ℕ) (request : Request) :
    ∃ news, (client.unauthorized caller request).log = client.log ++ news ∧
      Writes client (client.unauthorized caller request) news := by
  have silent : ∃ news, (client.goTo caller .done).log = client.log ++ news ∧
      Writes client (client.goTo caller .done) news :=
    ⟨[], (List.append_nil _).symm, .nothing rfl rfl le_rfl⟩
  unfold Client.unauthorized
  split
  · exact silent
  split
  · exact silent
  split
  · exact ⟨_, rfl, .ended rfl rfl⟩
  split
  · exact silent
  · rename_i allowed
    exact refreshSession_writes caller (by simpa using allowed)

theorem Happens.writes (happens : Happens client event after) :
    ∃ news, after.log = client.log ++ news ∧ Writes client after news := by
  cases happens with
  | @unauthorized caller request made first => exact unauthorized_writes caller request
  | refreshAnswered verdict made out =>
      cases verdict with
      | ok => exact ⟨_, List.append_assoc _ _ _, .ok rfl⟩
      | refused => exact ⟨_, List.append_assoc _ _ _, .refused rfl rfl⟩
      | inconclusive => exact ⟨_, rfl, .inconclusive rfl rfl rfl⟩
  | markSessionActive => exact ⟨_, rfl, .active rfl⟩
  | markSessionEnded => exact ⟨_, rfl, .ended rfl rfl⟩
  | passes ms => exact ⟨[], (List.append_nil _).symm, .nothing rfl rfl (Nat.le_add_right _ _)⟩
  | begins | answered | finallyClears | resumes | answeredAgain =>
      exact ⟨[], (List.append_nil _).symm, .nothing rfl rfl le_rfl⟩

end Steps

/-! # What the verdicts forbid -/

/-- What is remembered of the verdicts in the log, and how the log has kept to them. -/
structure Obeyed (log : List Entry) (now : ℕ) (state : SessionState) (blockedUntil : ℕ) :
    Prop where
  past : ∀ time verdict, Entry.answered time verdict ∈ log → time ≤ now
  refused : ∀ time between, Since log (.answered time .refused) between →
    Entry.markSessionActive ∉ between → state = .none
  failed : ∀ time between, Since log (.answered time .inconclusive) between →
    Entry.markSessionActive ∉ between → Entry.markSessionEnded ∉ between →
      time + refreshCooldownMs ≤ blockedUntil
  afterRefusal : ∀ time between later caller,
    Between log (.answered time .refused) between (.issued later caller) →
      Entry.markSessionActive ∈ between
  afterFailure : ∀ time between later caller,
    Between log (.answered time .inconclusive) between (.issued later caller) →
      Entry.markSessionActive ∈ between ∨ Entry.markSessionEnded ∈ between ∨
        time + refreshCooldownMs ≤ later

section Obeyed

variable {log : List Entry} {now blockedUntil : ℕ} {state : SessionState}

namespace Obeyed

theorem initial : Obeyed [] 0 .unknown 0 := by
  constructor
  · intro time verdict member
    exact absurd member List.not_mem_nil
  · exact fun _ _ since => absurd since not_since_nil
  · exact fun _ _ since => absurd since not_since_nil
  · exact fun _ _ _ _ stands => absurd stands not_between_nil
  · exact fun _ _ _ _ stands => absurd stands not_between_nil

theorem moves (obeyed : Obeyed log now state blockedUntil) {later : ℕ} (forward : now ≤ later) :
    Obeyed log later state blockedUntil :=
  { obeyed with past := fun time verdict member => (obeyed.past time verdict member).trans forward }

/-- One entry more: an issued refresh must be allowed, and what the others forbid is kept. -/
theorem snoc (obeyed : Obeyed log now state blockedUntil) {new : Entry} {state' : SessionState}
    {blockedUntil' : ℕ} (present : ∀ time verdict, new = .answered time verdict → time = now)
    (refuses : ∀ time, new = .answered time .refused → state' = .none)
    (fails : ∀ time, new = .answered time .inconclusive → time + refreshCooldownMs ≤ blockedUntil')
    (ended : new ≠ .markSessionActive → state = .none → state' = .none)
    (blocked : new ≠ .markSessionActive → new ≠ .markSessionEnded →
      ∀ time ≤ now, time + refreshCooldownMs ≤ blockedUntil →
        time + refreshCooldownMs ≤ blockedUntil')
    (allowed : ∀ later caller, new = .issued later caller →
      state ≠ .none ∧ blockedUntil ≤ later) :
    Obeyed (log ++ [new]) now state' blockedUntil' := by
  constructor
  · intro time verdict member
    obtain before | isNew := List.mem_append.mp member
    · exact obeyed.past time verdict before
    · exact (present time verdict (List.mem_singleton.mp isNew).symm).le
  · intro time between since inactive
    obtain ⟨isNew, -⟩ | ⟨shorter, rfl, before⟩ := since.of_snoc
    · exact refuses time isNew.symm
    · rw [List.mem_append, List.mem_singleton, not_or] at inactive
      exact ended (Ne.symm inactive.2) (obeyed.refused time shorter before inactive.1)
  · intro time between since inactive unended
    obtain ⟨isNew, -⟩ | ⟨shorter, rfl, before⟩ := since.of_snoc
    · exact fails time isNew.symm
    · rw [List.mem_append, List.mem_singleton, not_or] at inactive unended
      have earlier : time ≤ now := by
        obtain ⟨first, isLog⟩ := before
        exact obeyed.past time .inconclusive (by simp [isLog])
      exact blocked (Ne.symm inactive.2) (Ne.symm unended.2) time earlier
        (obeyed.failed time shorter before inactive.1 unended.1)
  · intro time between later caller stands
    obtain before | ⟨isNew, since⟩ := stands.of_snoc
    · exact obeyed.afterRefusal time between later caller before
    · by_contra inactive
      exact (allowed later caller isNew.symm).1 (obeyed.refused time between since inactive)
  · intro time between later caller stands
    obtain before | ⟨isNew, since⟩ := stands.of_snoc
    · exact obeyed.afterFailure time between later caller before
    · by_cases inactive : Entry.markSessionActive ∈ between
      · exact .inl inactive
      by_cases unended : Entry.markSessionEnded ∈ between
      · exact .inr (.inl unended)
      have forbidden := obeyed.failed time between since inactive unended
      exact .inr (.inr (forbidden.trans (allowed later caller isNew.symm).2))

theorem active (obeyed : Obeyed log now state blockedUntil) (state' : SessionState)
    (blockedUntil' : ℕ) : Obeyed (log ++ [.markSessionActive]) now state' blockedUntil' :=
  obeyed.snoc (by simp) (by simp) (by simp) (fun other => absurd rfl other)
    (fun other => absurd rfl other) (by simp)

theorem ended (obeyed : Obeyed log now state blockedUntil) (blockedUntil' : ℕ) :
    Obeyed (log ++ [.markSessionEnded]) now .none blockedUntil' :=
  obeyed.snoc (by simp) (by simp) (by simp) (fun _ _ => rfl)
    (fun _ other => absurd rfl other) (by simp)

end Obeyed

/-- A refresh that is not suppressed meets no earlier verdict. -/
theorem allowed_of_unsuppressed {client : Client} (allowed : client.refreshSuppressed = false) :
    client.sessionState ≠ .none ∧ client.refreshBlockedUntil ≤ client.now := by
  simpa [Client.refreshSuppressed] using allowed

end Obeyed

def Client.Obeys (client : Client) : Prop :=
  Obeyed client.log client.now client.sessionState client.refreshBlockedUntil

section Flights

variable {client after : Client} {event : Event} {news : List Entry}

theorem Writes.obeys (writes : Writes client after news) (isLog : after.log = client.log ++ news)
    (obeys : client.Obeys) : after.Obeys := by
  unfold Client.Obeys
  rw [isLog]
  cases writes with
  | nothing verdict blocked now =>
      rw [verdict, blocked, List.append_nil]
      exact obeys.moves now
  | active now =>
      rw [now]
      exact obeys.active _ _
  | ended ends now =>
      rw [now, ends]
      exact obeys.ended _
  | joined caller verdict blocked now =>
      rw [verdict, blocked, now]
      exact obeys.snoc (by simp) (by simp) (by simp) (fun _ => id) (fun _ _ _ _ => id) (by simp)
  | issued caller allowed verdict blocked now =>
      rw [verdict, blocked, now]
      have free := allowed_of_unsuppressed allowed
      refine obeys.snoc (by simp) (by simp) (by simp) (fun _ => id) (fun _ _ _ _ => id) ?_
      rintro later other isNew
      obtain ⟨rfl, rfl⟩ := Entry.issued.inj isNew
      exact free
  | ok now =>
      have answered : Obeyed (client.log ++ [.answered client.now .ok]) client.now
          client.sessionState client.refreshBlockedUntil :=
        obeys.snoc (by simp) (by simp) (by simp) (fun _ => id) (fun _ _ _ _ => id) (by simp)
      have both := answered.active after.sessionState after.refreshBlockedUntil
      rw [List.append_assoc] at both
      rw [now]
      exact both
  | refused ends now =>
      have answered : Obeyed (client.log ++ [.answered client.now .refused]) client.now .none
          client.refreshBlockedUntil :=
        obeys.snoc (by simp) (fun _ _ => rfl) (by simp) (fun _ _ => rfl) (fun _ _ _ _ => id)
          (by simp)
      have both := answered.ended after.refreshBlockedUntil
      rw [List.append_assoc] at both
      rw [now, ends]
      exact both
  | inconclusive verdict blocked now =>
      rw [verdict, blocked, now]
      refine obeys.snoc (by simp) (by simp) ?_ (fun _ => id) ?_ (by simp)
      · rintro time isNew
        obtain ⟨rfl, -⟩ := Entry.answered.inj isNew
        exact le_rfl
      · intro _ _ time earlier _
        exact Nat.add_le_add_right earlier _

/-- The shared promise is the one refresh whose `finally` has not run, and no refresh finishes
unanswered. -/
structure Client.Flying (client : Client) : Prop where
  promised : ∀ refresh, client.refreshPromise = some refresh →
    ∃ flight, client.refreshes[refresh]? = some flight ∧ flight.finished = false
  shared : ∀ (refresh : ℕ) (flight : Refresh), client.refreshes[refresh]? = some flight →
    flight.finished = false → client.refreshPromise = some refresh
  answered : ∀ (refresh : ℕ) (flight : Refresh), client.refreshes[refresh]? = some flight →
    flight.finished = true → flight.result ≠ none

theorem made_modify {refreshes : List Refresh} {refresh other : ℕ} {update : Refresh → Refresh}
    {flight : Refresh} (made : (refreshes.modify refresh update)[other]? = some flight) :
    ∃ old, refreshes[other]? = some old ∧
      flight = if refresh = other then update old else old := by
  rw [List.getElem?_modify] at made
  obtain ⟨old, oldMade, isFlight⟩ := Option.map_eq_some_iff.mp made
  exact ⟨old, oldMade, isFlight.symm⟩

theorem Client.doRefreshAnswered_flights (client : Client) (refresh : ℕ) (verdict : Verdict) :
    (client.doRefreshAnswered refresh verdict).refreshes =
        client.refreshes.modify refresh (fun flight =>
          { flight with result := some (decide (verdict = .ok)) }) ∧
      (client.doRefreshAnswered refresh verdict).refreshPromise = client.refreshPromise := by
  cases verdict with
  | ok | refused | inconclusive => exact ⟨rfl, rfl⟩

theorem Client.Flying.issue (flying : client.Flying) (settled : client.refreshPromise = none) :
    ∀ (refresh : ℕ) (flight : Refresh),
      (client.refreshes ++ [Refresh.mk none false])[refresh]? = some flight →
        (flight.finished = false → some client.refreshes.length = some refresh) ∧
        (flight.finished = true → flight.result ≠ none) := by
  intro refresh flight made
  rw [List.getElem?_append] at made
  split at made
  · constructor
    · intro unfinished
      have shared := flying.shared refresh flight made unfinished
      exact absurd (settled.symm.trans shared) (Option.some_ne_none refresh).symm
    · exact flying.answered refresh flight made
  · have isLast : refresh - client.refreshes.length < 1 := (List.getElem?_eq_some_iff.mp made).1
    obtain rfl : flight = Refresh.mk none false := by
      simpa using List.mem_of_getElem? made
    constructor
    · intro _
      congr
      omega
    · intro finished
      contradiction

theorem Happens.flying (happens : Happens client event after) (flying : client.Flying) :
    after.Flying := by
  cases happens with
  | @unauthorized caller request made first =>
      have kept : ∀ phase, (client.goTo caller phase).Flying := fun phase =>
        ⟨flying.promised, flying.shared, flying.answered⟩
      unfold Client.unauthorized
      split
      · exact kept _
      split
      · exact kept _
      split
      · exact ⟨flying.promised, flying.shared, flying.answered⟩
      split
      · exact kept _
      unfold Client.refreshSession
      split
      · exact ⟨flying.promised, flying.shared, flying.answered⟩
      · rename_i settled
        refine ⟨?_, fun refresh flight made => (flying.issue settled refresh flight made).1,
          fun refresh flight made => (flying.issue settled refresh flight made).2⟩
        intro refresh isLast
        obtain rfl : client.refreshes.length = refresh := Option.some.inj isLast
        exact ⟨⟨none, false⟩, List.getElem?_concat_length, rfl⟩
  | @refreshAnswered refresh flight verdict made out =>
      obtain ⟨refreshes, shared⟩ := client.doRefreshAnswered_flights refresh verdict
      constructor
      · intro other isShared
        rw [shared] at isShared
        obtain ⟨old, oldMade, unfinished⟩ := flying.promised other isShared
        rw [refreshes, List.getElem?_modify, oldMade]
        refine ⟨_, rfl, ?_⟩
        dsimp only
        split
        · exact unfinished
        · exact unfinished
      · intro other now madeNow stillOut
        rw [refreshes] at madeNow
        rw [shared]
        obtain ⟨old, oldMade, rfl⟩ := made_modify madeNow
        split at stillOut
        · exact flying.shared other old oldMade stillOut
        · exact flying.shared other old oldMade stillOut
      · intro other now madeNow isFinished
        rw [refreshes] at madeNow
        obtain ⟨old, oldMade, rfl⟩ := made_modify madeNow
        split
        · exact Option.some_ne_none _
        · rename_i elsewhere
          rw [if_neg elsewhere] at isFinished
          exact flying.answered other old oldMade isFinished
  | @finallyClears refresh flight made answered unfinished =>
      constructor
      · intro other isShared
        contradiction
      · intro other now madeNow stillOut
        obtain ⟨old, oldMade, rfl⟩ := made_modify madeNow
        split at stillOut
        · contradiction
        · rename_i elsewhere
          have mine := flying.shared refresh flight made unfinished
          have theirs := flying.shared other old oldMade stillOut
          exact absurd (Option.some.inj (mine.symm.trans theirs)) elsewhere
      · intro other now madeNow isFinished
        obtain ⟨old, oldMade, rfl⟩ := made_modify madeNow
        split
        · rename_i here
          subst here
          obtain rfl : flight = old := Option.some.inj (made.symm.trans oldMade)
          exact answered
        · rename_i elsewhere
          rw [if_neg elsewhere] at isFinished
          exact flying.answered other old oldMade isFinished
  | begins | answered | resumes | answeredAgain | markSessionActive | markSessionEnded | passes =>
      exact ⟨flying.promised, flying.shared, flying.answered⟩

end Flights

/-! # How often a request asks -/

section Asking

variable {client after : Client} {event : Event} {caller other : ℕ}

/-- The request has not begun, or waits for its first answer. -/
def Client.Unasked (client : Client) (caller : ℕ) : Prop :=
  ∀ request ∈ client.requests[caller]?, request.phase = .first

/-- A request that asks has not asked before, and does not ask again. -/
def Asks (client after : Client) : Prop :=
  ∀ other, (after.Unasked other → client.Unasked other) ∧
    (after.asked other = client.asked other ∨
      (after.asked other = client.asked other + 1 ∧ client.Unasked other ∧ ¬after.Unasked other))

theorem unasked_goTo {phase : Phase} {request : Request}
    (made : client.requests[caller]? = some request) (moves : phase ≠ .first) :
    ¬(client.goTo caller phase).Unasked caller ∧
      ∀ other, (client.goTo caller phase).Unasked other → client.Unasked other := by
  have unasked : ∀ other, (client.goTo caller phase).Unasked other ↔
      ∀ request ∈ client.requests[other]?,
        (if caller = other then phase else request.phase) = .first := by
    intro other
    unfold Client.Unasked Client.goTo
    rw [List.getElem?_modify]
    cases client.requests[other]? with
    | none => simp
    | some request =>
        by_cases same : caller = other
        · simp [same]
        · simp [same]
  constructor
  · intro still
    have isFirst := (unasked caller).mp still request made
    rw [if_pos rfl] at isFirst
    exact moves isFirst
  · intro other still request' made'
    have isFirst := (unasked other).mp still request' made'
    split at isFirst
    · exact absurd isFirst moves
    · exact isFirst

theorem asks_goTo {phase : Phase} {request : Request}
    (made : client.requests[caller]? = some request) (moves : phase ≠ .first) :
    Asks client (client.goTo caller phase) :=
  fun other => ⟨(unasked_goTo made moves).2 other, .inl rfl⟩

theorem asked_note (client : Client) (entry : Entry) (other : ℕ) :
    (client.note entry).asked other = client.asked other + if entry.asks other then 1 else 0 := by
  unfold Client.asked Client.note
  rw [List.filter_append, List.length_append, List.filter_singleton]
  cases entry.asks other with
  | false | true => rfl

/-- The request asks for a refresh and waits for it. -/
theorem asks_note_goTo {phase : Phase} {request : Request} {entry : Entry}
    (made : client.requests[caller]? = some request) (first : request.phase = .first)
    (moves : phase ≠ .first) (asks : ∀ other, entry.asks other = decide (caller = other)) :
    Asks client ((client.note entry).goTo caller phase) := by
  intro other
  have noted : (client.note entry).requests[caller]? = some request := made
  refine ⟨(unasked_goTo noted moves).2 other, ?_⟩
  have counted : ((client.note entry).goTo caller phase).asked other =
      (client.note entry).asked other := rfl
  rw [counted, asked_note, asks]
  by_cases same : caller = other
  · subst same
    refine .inr ⟨by simp, ?_, (unasked_goTo noted moves).1⟩
    intro other otherMade
    obtain rfl := Option.some.inj (made.symm.trans otherMade)
    exact first
  · exact .inl (by simp [same])

theorem unauthorized_asks {request : Request} (made : client.requests[caller]? = some request)
    (first : request.phase = .first) : Asks client (client.unauthorized caller request) := by
  have gives : Asks client (client.goTo caller .done) := asks_goTo made (by simp)
  unfold Client.unauthorized
  split
  · exact gives
  split
  · exact gives
  split
  · intro other
    have ended : (client.markSessionEnded).requests[caller]? = some request := made
    refine ⟨(unasked_goTo ended (by simp)).2 other, .inl ?_⟩
    exact (asked_note client .markSessionEnded other).trans (by simp [Entry.asks])
  split
  · exact gives
  unfold Client.refreshSession
  split
  · exact asks_note_goTo made first (by simp) fun other => rfl
  · exact asks_note_goTo made first (by simp) fun other => rfl

theorem doRefreshAnswered_asks (client : Client) (refresh : ℕ) (verdict : Verdict) :
    Asks client (client.doRefreshAnswered refresh verdict) := by
  intro other
  cases verdict with
  | ok =>
      refine ⟨id, .inl ?_⟩
      refine (asked_note _ .markSessionActive other).trans ?_
      rw [asked_note]
      simp [Entry.asks]
  | refused =>
      refine ⟨id, .inl ?_⟩
      refine (asked_note _ .markSessionEnded other).trans ?_
      rw [asked_note]
      simp [Entry.asks]
  | inconclusive =>
      refine ⟨id, .inl ?_⟩
      exact (asked_note client _ other).trans (by simp [Entry.asks])

theorem Happens.asks (happens : Happens client event after) : Asks client after := by
  cases happens with
  | begins path authorization =>
      intro other
      refine ⟨fun still request made => still request ?_, .inl rfl⟩
      have bound := (List.getElem?_eq_some_iff.mp made).1
      rw [Option.mem_def, List.getElem?_append_left bound]
      exact made
  | unauthorized made first => exact unauthorized_asks made first
  | answered made first => exact asks_goTo made (by simp)
  | refreshAnswered verdict made out => exact doRefreshAnswered_asks client _ verdict
  | finallyClears | passes => exact fun other => ⟨id, .inl rfl⟩
  | @resumes caller refresh request flight refreshed made waits flown result finished =>
      refine asks_goTo made ?_
      split <;> simp
  | answeredAgain made again => exact asks_goTo made (by simp)
  | markSessionActive =>
      exact fun other => ⟨id, .inl ((asked_note client _ other).trans (by simp [Entry.asks]))⟩
  | markSessionEnded =>
      exact fun other => ⟨id, .inl ((asked_note client _ other).trans (by simp [Entry.asks]))⟩

/-- A request that has not been answered has not asked, and no request has asked twice. -/
def Client.Counted (client : Client) : Prop :=
  ∀ caller, client.asked caller ≤ 1 ∧ (client.Unasked caller → client.asked caller = 0)

theorem Asks.counted (asks : Asks client after) (counted : client.Counted) : after.Counted := by
  intro caller
  obtain ⟨atMost, never⟩ := counted caller
  obtain ⟨still, same | ⟨more, was, now⟩⟩ := asks caller
  · rw [same]
    exact ⟨atMost, fun unasked => never (still unasked)⟩
  · rw [more, never was]
    exact ⟨le_rfl, fun unasked => absurd unasked now⟩

end Asking

/-! # Every run -/

section Runs

variable {client : Client} {events : List Event}

/-- At most one refresh is on its way; none follows a refusal before the session is marked active,
nor an inconclusive answer within the cooldown unless the session is marked; and a request issues or
joins at most one. -/
theorem refresh_is_single_flight (run : Run Happens (fun _ _ => True) .initial events client) :
    (∀ first second, client.InFlight first → client.InFlight second → first = second) ∧
    (∀ time between later caller,
      Between client.log (.answered time .refused) between (.issued later caller) →
        Entry.markSessionActive ∈ between) ∧
    (∀ time between later caller,
      Between client.log (.answered time .inconclusive) between (.issued later caller) →
        Entry.markSessionActive ∈ between ∨ Entry.markSessionEnded ∈ between ∨
          time + refreshCooldownMs ≤ later) ∧
    ∀ caller, client.asked caller ≤ 1 := by
  have flying : client.Flying :=
    run.invariant Client.Flying (fun _ _ _ _ happens => happens.flying)
      (by constructor <;> simp [Client.initial])
  have obeys : client.Obeys := by
    refine run.invariant Client.Obeys ?_ Obeyed.initial
    rintro client event after - happens obeys
    obtain ⟨news, isLog, writes⟩ := happens.writes
    exact writes.obeys isLog obeys
  have counted : client.Counted :=
    run.invariant Client.Counted (fun _ _ _ _ happens => happens.asks.counted)
      fun caller => ⟨Nat.zero_le 1, fun _ => rfl⟩
  have shared : ∀ refresh, client.InFlight refresh → client.refreshPromise = some refresh := by
    rintro refresh ⟨flight, made, out⟩
    refine flying.shared refresh flight made ?_
    by_contra finished
    exact flying.answered refresh flight made (by simpa using finished) out
  refine ⟨?_, obeys.afterRefusal, obeys.afterFailure, fun caller => (counted caller).1⟩
  intro first second isFirst isSecond
  exact Option.some.inj ((shared first isFirst).symm.trans (shared second isSecond))

end Runs

/-- Two requests share a refresh that fails, and a third asks again after the cooldown. -/
theorem refresh_is_single_flight_of_three :
    ∃ events client, Run Happens (fun _ _ => True) .initial events client ∧
      client.log = [.issued 0 0, .joined 1, .answered 0 .inconclusive, .issued 30000 2] ∧
      ∀ caller, client.asked caller ≤ 1 := by
  have three : ∃ client, Run Happens (fun _ _ => True) .initial
      [.begins "/api/v1/orders" false, .begins "/api/v1/positions" false, .unauthorized 0,
        .unauthorized 1, .refreshAnswered 0 .inconclusive, .finallyClears 0, .resumes 0,
        .passes 30000, .begins "/api/v1/wallet" false, .unauthorized 2] client ∧
      client.log = [.issued 0 0, .joined 1, .answered 0 .inconclusive, .issued 30000 2] := by
    refine ⟨?client, ?run, ?log⟩
    case run =>
      apply Run.act trivial (.begins _ _)
      apply Run.act trivial (.begins _ _)
      apply Run.act trivial (.unauthorized rfl rfl)
      apply Run.act trivial (.unauthorized rfl rfl)
      apply Run.act trivial (.refreshAnswered _ rfl rfl)
      apply Run.act trivial (.finallyClears rfl (by decide) rfl)
      apply Run.act trivial (.resumes rfl rfl rfl rfl rfl)
      apply Run.act trivial (.passes _)
      apply Run.act trivial (.begins _ _)
      apply Run.act trivial (.unauthorized rfl rfl)
      exact .stop _
    case log => decide
  obtain ⟨client, run, log⟩ := three
  exact ⟨_, client, run, log, (refresh_is_single_flight run).2.2.2⟩

end PredictX.ApiClient
