import PredictX.Properties.SingleFlight

namespace PredictX.ApiClient

open PredictX.Data

/-! When the client gives a session up.

The tab keeps a session machine, and the browser keeps cookies that the server would refresh or
not.  The probe's 401 and a refresh that is refused are both taken as the end of the session,
whatever the cookies are by then.
-/

structure Tab where
  client : Client
  /-- The server would refresh the session of the browser's cookies. -/
  accepts : Bool
  /-- The user has signed out and not in again. -/
  signedOut : Bool

def Tab.initial (accepts : Bool) : Tab := ⟨.initial, accepts, false⟩

inductive Life where
  | client (event : Event)
  | signsIn
  | signsOut (accepts : Bool)
  | lapses
deriving DecidableEq, Repr

/-- The answer that brings new cookies. -/
def Event.rotates : Event → Bool
  | .refreshAnswered _ .ok => true
  | _ => false

inductive Lives : Tab → Life → Tab → Prop
  /-- The access token may have expired: any request may be answered 401. -/
  | client {tab : Tab} {event : Event} {after : Client} (happens : Happens tab.client event after)
      (own : event ≠ .markSessionEnded) :
      Lives tab (.client event) ⟨after, event.rotates || tab.accepts, tab.signedOut⟩
  /-- The answer to a sign-in, with its cookies and the call that it is wrapped in. -/
  | signsIn {tab : Tab} : Lives tab .signsIn ⟨tab.client.markSessionActive, true, false⟩
  /-- The server may not have heard of it. -/
  | signsOut {tab : Tab} (accepts : Bool) (left : accepts = true → tab.accepts = true) :
      Lives tab (.signsOut accepts) ⟨tab.client.markSessionEnded, accepts, true⟩
  /-- The refresh token has expired, or has been revoked. -/
  | lapses {tab : Tab} : Lives tab .lapses { tab with accepts := false }

/-- The client takes the answer for the end of its session. -/
def Client.WritesOff (client : Client) : Event → Prop
  | .unauthorized caller =>
      ∃ request ∈ client.requests[caller]?, request.authorization = false ∧
        isCredentialEndpoint request.path = false ∧ isSessionProbe request.path = true
  | .refreshAnswered _ verdict => verdict = .refused
  | _ => False

/-- A session is written off only while the server would refuse to refresh it. -/
def Rightful (tab : Tab) : Life → Prop
  | .client event =>
      tab.client.WritesOff event → tab.signedOut = true ∨ tab.accepts = false
  | _ => True

section Steps

variable {client after : Client} {event : Event} {tab next : Tab} {life : Life}

theorem unauthorized_state (caller : ℕ) (request : Request)
    (writesOff : ¬(request.authorization = false ∧ isCredentialEndpoint request.path = false ∧
      isSessionProbe request.path = true)) :
    (client.unauthorized caller request).sessionState = client.sessionState := by
  unfold Client.unauthorized
  split
  · rfl
  rename_i bare
  split
  · rfl
  rename_i ordinary
  split
  · rename_i probe
    exact absurd ⟨by simpa using bare, by simpa using ordinary, probe⟩ writesOff
  split
  · rfl
  unfold Client.refreshSession
  split <;> rfl

theorem Happens.ends (happens : Happens client event after) (ended : after.sessionState = .none) :
    client.sessionState = .none ∨ client.WritesOff event ∨ event = .markSessionEnded := by
  cases happens with
  | @unauthorized caller request made first =>
      by_cases writesOff : request.authorization = false ∧
          isCredentialEndpoint request.path = false ∧ isSessionProbe request.path = true
      · exact .inr (.inl ⟨request, made, writesOff⟩)
      · rw [unauthorized_state caller request writesOff] at ended
        exact .inl ended
  | refreshAnswered verdict made out =>
      cases verdict with
      | ok => contradiction
      | refused => exact .inr (.inl rfl)
      | inconclusive => exact .inl ended
  | markSessionActive => contradiction
  | markSessionEnded => exact .inr (.inr rfl)
  | begins | answered | finallyClears | resumes | answeredAgain | passes => exact .inl ended

theorem Happens.rotates_active (happens : Happens client event after)
    (rotates : event.rotates = true) : after.sessionState = .active := by
  cases happens with
  | refreshAnswered verdict made out =>
      cases verdict with
      | ok => rfl
      | refused | inconclusive => contradiction
  | begins | unauthorized | answered | finallyClears | resumes | answeredAgain
  | markSessionActive | markSessionEnded | passes => contradiction

/-- The session is given up only where it is lost. -/
def Tab.Justified (tab : Tab) : Prop :=
  tab.client.sessionState = .none → tab.signedOut = true ∨ tab.accepts = false

theorem Lives.justified (lives : Lives tab life next) (rightful : Rightful tab life)
    (justified : tab.Justified) : next.Justified := by
  cases lives with
  | @client event after happens own =>
      intro ended
      by_cases rotates : event.rotates = true
      · have active := happens.rotates_active rotates
        exact absurd (ended.symm.trans active) (by decide)
      have lost : tab.signedOut = true ∨ tab.accepts = false := by
        obtain before | writesOff | isEnd := happens.ends ended
        · exact justified before
        · exact rightful writesOff
        · exact absurd isEnd own
      simpa [rotates] using lost
  | signsIn =>
      intro ended
      contradiction
  | signsOut accepts left => exact fun _ => .inl rfl
  | lapses => exact fun _ => .inr rfl

theorem Lives.flying (lives : Lives tab life next) (flying : tab.client.Flying) :
    next.client.Flying := by
  cases lives with
  | client happens own => exact happens.flying flying
  | signsIn => exact Happens.markSessionActive.flying flying
  | signsOut accepts left => exact Happens.markSessionEnded.flying flying
  | lapses => exact flying

theorem Client.WritesOff.ends (writesOff : client.WritesOff event)
    (happens : Happens client event after) :
    after.sessionState = .none ∧ event.rotates = false := by
  cases happens with
  | @unauthorized caller request made first =>
      obtain ⟨other, otherMade, bare, ordinary, probe⟩ := writesOff
      obtain rfl : request = other := Option.some.inj (made.symm.trans otherMade)
      unfold Client.unauthorized
      rw [if_neg (by simp [bare]), if_neg (by simp [ordinary]), if_pos probe]
      exact ⟨rfl, rfl⟩
  | refreshAnswered verdict made out =>
      obtain rfl : verdict = .refused := writesOff
      exact ⟨rfl, rfl⟩
  | begins | answered | finallyClears | resumes | answeredAgain | markSessionActive
  | markSessionEnded | passes => exact absurd writesOff id

/-- A session that is written off while the server would refresh it is lost. -/
theorem Lives.lost (lives : Lives tab life next) (wrongful : ¬Rightful tab life) :
    ¬next.Justified := by
  cases lives with
  | client happens own =>
      obtain ⟨writesOff, kept⟩ := Classical.not_imp.mp wrongful
      rw [not_or, Bool.not_eq_true, Bool.not_eq_false] at kept
      obtain ⟨ended, stale⟩ := writesOff.ends happens
      intro justified
      simpa [kept.1, kept.2] using justified ended
  | signsIn | signsOut | lapses => exact absurd trivial wrongful

end Steps

/-! # Recovery -/

/-- A session that is not given up, and no refresh under way. -/
structure Tab.Ready (tab : Tab) : Prop where
  accepts : tab.accepts = true
  kept : tab.client.sessionState ≠ .none
  settled : tab.client.refreshPromise = none

section Recovery

variable {tab : Tab} {path : String}

/-- The refresh under way is answered, and its promise is cleared. -/
theorem settles (flying : tab.client.Flying) (accepts : tab.accepts = true)
    (kept : tab.client.sessionState ≠ .none) :
    ∃ lives next, Run Lives Rightful tab lives next ∧ next.Ready := by
  have clears : ∀ (between : Tab) (refresh : ℕ) (flight : Refresh),
      between.client.refreshes[refresh]? = some flight → flight.result ≠ none →
        flight.finished = false → between.accepts = true → between.client.sessionState ≠ .none →
          ∃ lives next, Run Lives Rightful between lives next ∧ next.Ready := by
    intro between refresh flight made answered unfinished accepts kept
    refine ⟨[.client (.finallyClears refresh)], _, .act False.elim
      (.client (.finallyClears made answered unfinished) (by simp)) (.stop _), ?_⟩
    exact ⟨by simp [accepts], kept, rfl⟩
  cases shared : tab.client.refreshPromise with
  | none => exact ⟨[], tab, .stop _, accepts, kept, shared⟩
  | some refresh =>
      obtain ⟨flight, made, unfinished⟩ := flying.promised refresh shared
      by_cases out : flight.result = none
      · have answers := Happens.refreshAnswered .ok made out
        obtain ⟨refreshes, -⟩ := tab.client.doRefreshAnswered_flights refresh .ok
        have answered : (tab.client.doRefreshAnswered refresh .ok).refreshes[refresh]? =
            some { flight with result := some true } := by
          rw [refreshes, List.getElem?_modify, made]
          simp
        obtain ⟨lives, next, run, ready⟩ :=
          clears ⟨tab.client.doRefreshAnswered refresh .ok, true, tab.signedOut⟩ refresh _ answered
            (by simp) unfinished rfl (by simp [Client.doRefreshAnswered, Client.markSessionActive])
        refine ⟨_, next, .act ?_ (.client answers (by simp)) run, ready⟩
        intro writesOff
        contradiction
      · exact clears tab refresh flight made out unfinished accepts kept

/-- Past the cooldown, a request that is answered 401 issues a refresh. -/
theorem unauthorized_issues {client : Client} {caller : ℕ}
    (ordinary : isCredentialEndpoint path = false ∧ isSessionProbe path = false)
    (kept : client.sessionState ≠ .none) (cool : client.refreshBlockedUntil ≤ client.now)
    (settled : client.refreshPromise = none)
    (made : client.requests[caller]? = some ⟨path, false, .first⟩) :
    (client.unauthorized caller ⟨path, false, .first⟩).refreshes =
        client.refreshes ++ [⟨none, false⟩] ∧
      (client.unauthorized caller ⟨path, false, .first⟩).requests[caller]? =
        some ⟨path, false, .refreshing client.refreshes.length⟩ := by
  have allowed : client.refreshSuppressed = false := by
    simp [Client.refreshSuppressed, kept, cool]
  unfold Client.unauthorized
  rw [if_neg (by simp), if_neg (by simp [ordinary.1]), if_neg (by simp [ordinary.2]),
    if_neg (by simp [allowed])]
  unfold Client.refreshSession
  rw [settled]
  refine ⟨rfl, ?_⟩
  simp [Client.goTo, Client.note, made]

/-- A later request is refused, rotates the session and is replayed. -/
theorem Tab.Ready.recovers (ready : tab.Ready)
    (ordinary : isCredentialEndpoint path = false ∧ isSessionProbe path = false) :
    ∃ lives next, Run Lives Rightful tab lives next ∧ next.client.sessionState = .active ∧
      ∃ caller : ℕ, next.client.requests[caller]? = some (Request.mk path false .again) := by
  let waited : Client :=
    { tab.client with now := tab.client.now + tab.client.refreshBlockedUntil }
  let begun : Client := { waited with requests := waited.requests ++ [Request.mk path false .first] }
  let caller := tab.client.requests.length
  let refresh := tab.client.refreshes.length
  have made : begun.requests[caller]? = some (Request.mk path false .first) :=
    List.getElem?_concat_length
  have kept : begun.sessionState ≠ .none := ready.kept
  have cool : begun.refreshBlockedUntil ≤ begun.now := Nat.le_add_left _ _
  obtain ⟨issued, waits⟩ := unauthorized_issues ordinary kept cool ready.settled made
  let asked := begun.unauthorized caller ⟨path, false, .first⟩
  have flying : asked.refreshes[refresh]? = some ⟨none, false⟩ := by
    rw [issued]
    exact List.getElem?_concat_length
  let answered := asked.doRefreshAnswered refresh .ok
  have rotated : answered.refreshes[refresh]? = some ⟨some true, false⟩ := by
    rw [(asked.doRefreshAnswered_flights refresh .ok).1, List.getElem?_modify, flying]
    simp
  let cleared : Client :=
    { answered with
      refreshPromise := none
      refreshes := answered.refreshes.modify refresh fun flight =>
        { flight with finished := true } }
  have finished : cleared.refreshes[refresh]? = some ⟨some true, true⟩ := by
    rw [List.getElem?_modify, rotated]
    simp
  have stillWaits : cleared.requests[caller]? = some ⟨path, false, .refreshing refresh⟩ := waits
  refine ⟨[.client (.passes tab.client.refreshBlockedUntil), .client (.begins path false),
    .client (.unauthorized caller), .client (.refreshAnswered refresh .ok),
    .client (.finallyClears refresh), .client (.resumes caller)],
    ⟨cleared.goTo caller .again, true, tab.signedOut⟩, ?run, rfl, caller, ?replayed⟩
  case run =>
    refine .act False.elim (.client (.passes tab.client.refreshBlockedUntil) (by simp)) ?_
    refine .act False.elim (.client (.begins path false) (by simp)) ?_
    refine .act ?notProbe (.client (.unauthorized made rfl) (by simp)) ?_
    case notProbe =>
      rintro ⟨other, otherMade, -, -, probe⟩
      obtain rfl := Option.some.inj (made.symm.trans otherMade)
      exact absurd (ordinary.2.symm.trans probe) (by decide)
    refine .act (fun refused => ?_) (.client (.refreshAnswered .ok flying rfl) (by simp)) ?_
    · contradiction
    refine .act False.elim (.client (.finallyClears rotated (by simp) rfl) (by simp)) ?_
    refine .act False.elim (.client (.resumes stillWaits rfl finished rfl rfl) (by simp)) ?_
    exact .stop _
  case replayed =>
    rw [Client.goTo, List.getElem?_modify, stillWaits]
    simp

end Recovery

/-! # Every run -/

section Runs

variable {tab : Tab} {lives : List Life} {accepts : Bool}

/-- Where each session that the client writes off is one that the server would not refresh, the
client has given up only such a session or one that the user has left; and a session that the
server would refresh is recovered through any ordinary request to come. -/
theorem session_is_given_up_rightly (run : Run Lives Rightful (.initial accepts) lives tab) :
    (tab.client.sessionState = .none → tab.signedOut = true ∨ tab.accepts = false) ∧
    (tab.signedOut = false → tab.accepts = true → ∀ path,
      isCredentialEndpoint path = false → isSessionProbe path = false →
        ∃ later next, Run Lives Rightful tab later next ∧ next.client.sessionState = .active ∧
          ∃ caller : ℕ, next.client.requests[caller]? = some (Request.mk path false .again)) := by
  have justified : tab.Justified :=
    run.invariant Tab.Justified (fun _ _ _ rightful lives => lives.justified rightful)
      fun ended => absurd ended (by simp [Tab.initial, Client.initial])
  have flying : tab.client.Flying :=
    run.invariant (fun tab => tab.client.Flying) (fun _ _ _ _ lives => lives.flying)
      (by constructor <;> simp [Tab.initial, Client.initial])
  refine ⟨justified, fun signedIn accepts path credential probe => ?_⟩
  have kept : tab.client.sessionState ≠ .none := by
    intro ended
    simpa [signedIn, accepts] using justified ended
  obtain ⟨first, between, settled, ready⟩ := settles flying accepts kept
  obtain ⟨rest, next, recovered, active, replayed⟩ := ready.recovers ⟨credential, probe⟩
  exact ⟨first ++ rest, next, settled.append recovered, active, replayed⟩

end Runs

/-- A request meets the expired access token, and the session is refreshed. -/
theorem session_is_given_up_rightly_of_refresh :
    ∃ lives tab, Run Lives Rightful (.initial true) lives tab ∧
      (tab.client.sessionState = .none → tab.signedOut = true ∨ tab.accepts = false) := by
  have refreshed : ∃ tab, Run Lives Rightful (.initial true)
      [.client (.begins "/api/v1/orders" false), .client (.unauthorized 0),
        .client (.refreshAnswered 0 .ok)] tab := by
    refine ⟨?tab, ?run⟩
    case run =>
      apply Run.act False.elim (.client (.begins _ _) (by decide))
      apply Run.act ?notProbe (.client (.unauthorized rfl rfl) (by decide))
      case notProbe =>
        rintro ⟨other, otherMade, -, -, probe⟩
        obtain rfl := Option.some.inj otherMade
        exact absurd probe (by decide)
      apply Run.act ?accepted (.client (.refreshAnswered .ok rfl rfl) (by decide))
      case accepted =>
        intro refused
        contradiction
      exact .stop _
  obtain ⟨tab, run⟩ := refreshed
  exact ⟨_, tab, run, (session_is_given_up_rightly run).1⟩

/-- The probe is the first request to meet the expired access token. -/
theorem session_is_written_off :
    ∃ tab, Run Lives (fun _ _ => True) (.initial true)
      [.client (.begins "/api/v1/auth/me" false), .client (.unauthorized 0)] tab ∧
      tab.client.sessionState = .none ∧ tab.signedOut = false ∧ tab.accepts = true := by
  refine ⟨?tab, ?run, ?ended, ?signedIn, ?accepts⟩
  case run =>
    apply Run.act trivial (.client (.begins _ _) (by decide))
    apply Run.act trivial (.client (.unauthorized rfl rfl) (by decide))
    exact .stop _
  case ended => decide
  case signedIn => rfl
  case accepts => decide

end PredictX.ApiClient
