import PredictX.Data.Bulk
import PredictX.Data.Run
import PredictX.Models

namespace PredictX.MagicLink

open PredictX.Data

/-! `verify_magic_url`, called any number of times at once with one token.

Each Redis command and the look-up of the user is one step.  `ipMatches` is `_ip_matches`, and
`accounts` the table of users; the key is not written again, as a token is drawn for every link.
-/

/-- The JSON under `magicurl:<token>`. -/
structure Link where
  userId : UserId
  ip : String
  expiresAt : ℚ
deriving DecidableEq, Repr

structure Account where
  isActive : Bool
  is2faEnabled : Bool
deriving DecidableEq, Repr

inductive Answer where
  | login
  | partialToken
  | unauthorized (message : String)
deriving DecidableEq, Repr

inductive Stage where
  | begun
  /-- The link was read and the address fits. -/
  | read (user : UserId)
  | deleted (user : UserId)
  | answered (answer : Answer)
deriving DecidableEq, Repr

structure LinkCall where
  id : ℕ
  ip : String
  stage : Stage
deriving DecidableEq, Repr

structure Desk where
  clock : ℚ
  link : Option Link
  calls : Table LinkCall.id

/-- The link is sent. -/
def Desk.start (link : Link) : Desk := ⟨0, some link, .empty⟩

def Desk.storedLink (desk : Desk) : Option Link :=
  desk.link.filter fun link => desk.clock < link.expiresAt

def Desk.setStage (desk : Desk) (callId : ℕ) (stage : Stage) : Table LinkCall.id :=
  desk.calls.modify callId fun call => { call with stage }

/-- `stored_ip and not _ip_matches(stored_ip, ip)`, the other way round. -/
def Link.fits (ipMatches : String → String → Bool) (link : Link) (ip : String) : Bool :=
  link.ip = "" || ipMatches link.ip ip

/-- What the user gets after the link is deleted. -/
def answerFor (account : Option Account) : Answer :=
  match account with
  | none => .unauthorized "Account not found or inactive"
  | some account =>
      if !account.isActive then .unauthorized "Account not found or inactive"
      else if account.is2faEnabled then .partialToken
      else .login

inductive Action where
  | wait (seconds : ℚ)
  | begin (id : ℕ) (ip : String)
  | read (id : ℕ)
  | delete (id : ℕ)
  | answer (id : ℕ)
deriving DecidableEq, Repr

inductive Moves (ipMatches : String → String → Bool) (accounts : UserId → Option Account)
    (desk : Desk) : Action → Desk → Prop
  | wait {seconds : ℚ} (forward : 0 ≤ seconds) :
      Moves ipMatches accounts desk (.wait seconds) { desk with clock := desk.clock + seconds }
  | begin {id : ℕ} (ip : String) (fresh : desk.calls.find? id = none) :
      Moves ipMatches accounts desk (.begin id ip)
        { desk with calls := desk.calls.insert ⟨id, ip, .begun⟩ }
  | missing {call : LinkCall} (found : desk.calls.find? call.id = some call)
      (stage : call.stage = .begun)
      (refused : ∀ link, desk.storedLink = some link → link.fits ipMatches call.ip = false) :
      Moves ipMatches accounts desk (.read call.id)
        { desk with
          calls := desk.setStage call.id (.answered (.unauthorized "Invalid or expired link")) }
  | read {call : LinkCall} {link : Link} (found : desk.calls.find? call.id = some call)
      (stage : call.stage = .begun) (stored : desk.storedLink = some link)
      (fits : link.fits ipMatches call.ip = true) :
      Moves ipMatches accounts desk (.read call.id)
        { desk with calls := desk.setStage call.id (.read link.userId) }
  | delete {call : LinkCall} {user : UserId} (found : desk.calls.find? call.id = some call)
      (stage : call.stage = .read user) :
      Moves ipMatches accounts desk (.delete call.id)
        { desk with link := none, calls := desk.setStage call.id (.deleted user) }
  | answer {call : LinkCall} {user : UserId} (found : desk.calls.find? call.id = some call)
      (stage : call.stage = .deleted user) :
      Moves ipMatches accounts desk (.answer call.id)
        { desk with calls := desk.setStage call.id (.answered (answerFor (accounts user))) }

end PredictX.MagicLink
