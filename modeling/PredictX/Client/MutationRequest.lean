import Mathlib
import PredictX.Client.SessionMachine

namespace PredictX.ApiClient

/-! A POST of the shared API client, attempt by attempt.

`fate` says of each fetch, in the order they are sent, what the server and the network do with it.
The delays, the parsing of the answers and the aborting of a call are left out: a fetch that is
aborted before it is sent is lost.
-/

/-- What becomes of one fetch: a success commits, and a refusal does not. -/
inductive Exchange where
  | done
  | unauthorized
  | tooMany
  /-- Any other 4xx. -/
  | rejected (status : ℕ)
  /-- A 5xx, from the endpoint or on the way back from it. -/
  | failed (status : ℕ) (committed : Bool)
  /-- No answer: the connection or the timeout. -/
  | lost (committed : Bool)
deriving DecidableEq, Repr

namespace Exchange

/-- The server has executed the mutation. -/
def commits : Exchange → Bool
  | .done => true
  | .failed _ committed => committed
  | .lost committed => committed
  | _ => false

/-- `fetchWithRetry` tries again, if an attempt is left. -/
def retried : Exchange → Bool
  | .tooMany => true
  | .failed _ _ => true
  | .lost _ => true
  | _ => false

/-- The mutation is executed and the client is not told. -/
def unseen (exchange : Exchange) : Bool := exchange.commits && exchange.retried

end Exchange

/-- The loop with `retries` attempts left after this one, of which the first is fetch number `sent`:
the last exchange, and the fetches sent so far. -/
def fetchWithRetry (fate : ℕ → Exchange) : ℕ → ℕ → Exchange × ℕ
  | 0, sent => (fate sent, sent + 1)
  | retries + 1, sent =>
      if (fate sent).retried then fetchWithRetry fate retries (sent + 1) else (fate sent, sent + 1)

structure MutationRequest where
  path : String
  /-- The caller sends an `Authorization` header. -/
  authorization : Bool
  retries : ℕ
  /-- A 401 is followed by a refresh that succeeds. -/
  refreshed : Bool
deriving DecidableEq, Repr

namespace MutationRequest

/-- The default of `retries`. -/
def post (path : String) (refreshed : Bool) : MutationRequest := ⟨path, false, 3, refreshed⟩

/-- A 401 rotates the session, and the request is replayed. -/
def replays (request : MutationRequest) : Bool :=
  !request.authorization && !isCredentialEndpoint request.path &&
    !isSessionProbe request.path && request.refreshed

/-- `request`: the last exchange, and the number of fetches. -/
def run (request : MutationRequest) (fate : ℕ → Exchange) : Exchange × ℕ :=
  let (res, sent) := fetchWithRetry fate request.retries 0
  if res = .unauthorized ∧ request.replays then fetchWithRetry fate request.retries sent
  else (res, sent)

/-- How often the server executes the mutation. -/
def executions (request : MutationRequest) (fate : ℕ → Exchange) : ℕ :=
  ((Finset.range (request.run fate).2).filter fun index => (fate index).commits).card

/-- The server's state after the call, where nothing recognises a repeated request. -/
def serve {σ : Type} (mutate : σ → σ) (request : MutationRequest) (fate : ℕ → Exchange)
    (state : σ) : σ :=
  (List.range (request.run fate).2).foldl
    (fun state index => if (fate index).commits then mutate state else state) state

end MutationRequest

end PredictX.ApiClient
