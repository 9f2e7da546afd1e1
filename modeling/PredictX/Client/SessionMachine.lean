import PredictX.Data.Run

namespace PredictX.ApiClient

/-! The session tracking of the shared API client.

Each request runs up to its next `await`: a step is the answer to a fetch, a promise that
continues, or the clock.  `log` is kept for the statements only.  The shared promise of identical
GETs is one request here, and the redirect to the login page is left out.
-/

/-! # Endpoints -/

def sessionProbePaths : List String := ["/api/v1/auth/me"]

def credentialPaths : List String :=
  ["/api/v1/auth/login", "/api/v1/auth/refresh", "/api/v1/auth/verify-magic",
    "/api/v1/auth/verify-magic-2fa", "/api/v1/auth/verify-magic-url",
    "/api/v1/auth/verify-magic-url-2fa", "/api/v1/auth/verify-email",
    "/api/v1/auth/change-password", "/api/v1/auth/set-password", "/api/v1/auth/reset-password"]

def isSessionProbe (pathname : String) : Bool := decide (pathname ∈ sessionProbePaths)

def isCredentialEndpoint (pathname : String) : Bool :=
  let path := pathname.toList.takeWhile (· ≠ '?')
  credentialPaths.any fun p => decide (path = p.toList) || (p.toList ++ ['/']).isPrefixOf path

/-! # The machine -/

inductive SessionState where
  | unknown
  | active
  | none
deriving DecidableEq, Repr

/-- What a `/auth/refresh` comes to. -/
inductive Verdict where
  | ok
  /-- 401 or 403. -/
  | refused
  /-- Any other answer, or none. -/
  | inconclusive
deriving DecidableEq, Repr

structure Refresh where
  /-- What `doRefresh` has returned. -/
  result : Option Bool
  /-- Its `finally` has run. -/
  finished : Bool
deriving DecidableEq, Repr

inductive Phase where
  | first
  | refreshing (refresh : ℕ)
  | again
  | done
deriving DecidableEq, Repr

structure Request where
  path : String
  /-- The caller sends an `Authorization` header. -/
  authorization : Bool
  phase : Phase
deriving DecidableEq, Repr

inductive Entry where
  | issued (time caller : ℕ)
  | joined (caller : ℕ)
  | answered (time : ℕ) (verdict : Verdict)
  | markSessionActive
  | markSessionEnded
deriving DecidableEq, Repr

structure Client where
  now : ℕ
  sessionState : SessionState
  refreshPromise : Option ℕ
  refreshBlockedUntil : ℕ
  refreshes : List Refresh
  requests : List Request
  log : List Entry

def refreshCooldownMs : ℕ := 30000

namespace Client

def initial : Client := ⟨0, .unknown, none, 0, [], [], []⟩

def note (client : Client) (entry : Entry) : Client := { client with log := client.log ++ [entry] }

def markSessionActive (client : Client) : Client :=
  { client.note .markSessionActive with sessionState := .active, refreshBlockedUntil := 0 }

def markSessionEnded (client : Client) : Client :=
  { client.note .markSessionEnded with sessionState := .none, refreshBlockedUntil := 0 }

def refreshSuppressed (client : Client) : Bool :=
  client.sessionState = .none || client.now < client.refreshBlockedUntil

def goTo (client : Client) (caller : ℕ) (phase : Phase) : Client :=
  { client with
    requests := client.requests.modify caller fun request => { request with phase } }

/-- The part of `doRefresh` after its fetch. -/
def doRefreshAnswered (client : Client) (refresh : ℕ) (verdict : Verdict) : Client :=
  let answered := client.note (.answered client.now verdict)
  let judged :=
    match verdict with
    | .ok => answered.markSessionActive
    | .refused => answered.markSessionEnded
    | .inconclusive => { answered with refreshBlockedUntil := client.now + refreshCooldownMs }
  { judged with
    refreshes := judged.refreshes.modify refresh fun flight =>
      { flight with result := some (decide (verdict = .ok)) } }

/-- `refreshSession`, with the caller waiting for its promise. -/
def refreshSession (client : Client) (caller : ℕ) : Client :=
  match client.refreshPromise with
  | some refresh => (client.note (.joined caller)).goTo caller (.refreshing refresh)
  | none =>
      let issued :=
        { client.note (.issued client.now caller) with
          refreshes := client.refreshes ++ [Refresh.mk none false]
          refreshPromise := some client.refreshes.length }
      issued.goTo caller (.refreshing client.refreshes.length)

/-- The branch of `request` for an answer of 401. -/
def unauthorized (client : Client) (caller : ℕ) (request : Request) : Client :=
  if request.authorization then client.goTo caller .done
  else if isCredentialEndpoint request.path then client.goTo caller .done
  else if isSessionProbe request.path then client.markSessionEnded.goTo caller .done
  else if client.refreshSuppressed then client.goTo caller .done
  else client.refreshSession caller

end Client

inductive Event where
  | begins (path : String) (authorization : Bool)
  | unauthorized (caller : ℕ)
  | answered (caller : ℕ)
  | refreshAnswered (refresh : ℕ) (verdict : Verdict)
  | finallyClears (refresh : ℕ)
  | resumes (caller : ℕ)
  | answeredAgain (caller : ℕ)
  | markSessionActive
  | markSessionEnded
  | passes (ms : ℕ)
deriving DecidableEq, Repr

inductive Happens : Client → Event → Client → Prop
  | begins {client : Client} (path : String) (authorization : Bool) :
      Happens client (.begins path authorization)
        { client with requests := client.requests ++ [⟨path, authorization, .first⟩] }
  | unauthorized {client : Client} {caller : ℕ} {request : Request}
      (made : client.requests[caller]? = some request) (first : request.phase = .first) :
      Happens client (.unauthorized caller) (client.unauthorized caller request)
  /-- Any other answer, or an error. -/
  | answered {client : Client} {caller : ℕ} {request : Request}
      (made : client.requests[caller]? = some request) (first : request.phase = .first) :
      Happens client (.answered caller) (client.goTo caller .done)
  | refreshAnswered {client : Client} {refresh : ℕ} {flight : Refresh} (verdict : Verdict)
      (made : client.refreshes[refresh]? = some flight) (out : flight.result = none) :
      Happens client (.refreshAnswered refresh verdict) (client.doRefreshAnswered refresh verdict)
  | finallyClears {client : Client} {refresh : ℕ} {flight : Refresh}
      (made : client.refreshes[refresh]? = some flight) (answered : flight.result ≠ none)
      (unfinished : flight.finished = false) :
      Happens client (.finallyClears refresh)
        { client with
          refreshPromise := none
          refreshes := client.refreshes.modify refresh fun flight =>
            { flight with finished := true } }
  | resumes {client : Client} {caller refresh : ℕ} {request : Request} {flight : Refresh}
      {refreshed : Bool} (made : client.requests[caller]? = some request)
      (waits : request.phase = .refreshing refresh)
      (flown : client.refreshes[refresh]? = some flight) (result : flight.result = some refreshed)
      (finished : flight.finished = true) :
      Happens client (.resumes caller)
        (client.goTo caller (if refreshed then .again else .done))
  | answeredAgain {client : Client} {caller : ℕ} {request : Request}
      (made : client.requests[caller]? = some request) (again : request.phase = .again) :
      Happens client (.answeredAgain caller) (client.goTo caller .done)
  | markSessionActive {client : Client} :
      Happens client .markSessionActive client.markSessionActive
  | markSessionEnded {client : Client} :
      Happens client .markSessionEnded client.markSessionEnded
  | passes {client : Client} (ms : ℕ) :
      Happens client (.passes ms) { client with now := client.now + ms }

end PredictX.ApiClient
