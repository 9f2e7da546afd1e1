import PredictX.Data.Bulk
import PredictX.Data.Run
import Mathlib.Data.Rat.Defs
import Mathlib.Algebra.Order.Ring.Rat

namespace PredictX.OtpService

open PredictX.Data

/-! `OTPService.verify_code`, called any number of times at once for one email and purpose.

Each Redis command is one step.  Codes are numbered as they are sent; the limit on sending is
left out, it only takes runs away.  Beside the keys the state lists the attempt windows that were
opened, and the guesses that were compared with a code.
-/

/-- `CODE_TTL`. -/
def codeTtl : ℚ := 600

/-- `RATE_LIMIT_KEY_TTL`. -/
def attemptWindow : ℚ := 300

def maxAttempts : ℕ := 5

/-- The value under `otp:<purpose>:<email>`. -/
inductive Stored where
  | hashed (hash : String)
  /-- `<code>:<hash>`, which older releases wrote. -/
  | legacy (plain hash : String)
deriving DecidableEq, Repr

/-- `hmac.compare_digest` on what is stored; `hashCode` is `_hash_code` with the secret. -/
def Stored.accepts (hashCode : String → String) (code : String) : Stored → Bool
  | .hashed hash => hashCode code = hash
  | .legacy plain hash => hashCode plain = hash && plain = code

structure Code where
  serial : ℕ
  value : Stored
  expiresAt : ℚ
deriving DecidableEq, Repr

/-- The value under `otp_attempts:<purpose>:<email>`. -/
structure Counter where
  count : ℕ
  expiresAt : ℚ
deriving DecidableEq, Repr

/-- `_RATE_LIMIT_SCRIPT`: the counter it leaves, and whether it is within the limit. -/
def rateLimitScript (now : ℚ) (limit : ℕ) (ttl : ℚ) (stored : Option Counter) : Counter × Bool :=
  match stored.filter fun counter => now < counter.expiresAt with
  | none => (⟨1, now + ttl⟩, 1 ≤ limit)
  | some counter => (⟨counter.count + 1, counter.expiresAt⟩, counter.count + 1 ≤ limit)

/-- The life of a counter, as long as no success deletes it; `generation` numbers the deletions
before it. -/
structure Window where
  generation : ℕ
  start : ℚ
deriving DecidableEq, Repr

inductive Stage where
  | begun
  /-- The script has counted the attempt. -/
  | counted (window : Window) (time : ℚ)
  /-- The code was read and it is right. -/
  | matched (serial : ℕ)
  /-- The code is deleted. -/
  | deleted (serial : ℕ)
  | returnedTrue (serial : ℕ)
  | returnedFalse
deriving DecidableEq, Repr

structure VerifyCall where
  id : ℕ
  guess : String
  stage : Stage
deriving DecidableEq, Repr

structure Guess where
  serial : ℕ
  window : Window
  time : ℚ
  right : Bool
deriving DecidableEq, Repr

structure Inbox where
  clock : ℚ
  code : Option Code
  attempts : Option Counter
  calls : Table VerifyCall.id
  sent : ℕ
  generation : ℕ
  windows : List Window
  guesses : List Guess

/-- Before the first call; a code may be waiting. -/
def Inbox.start (waiting : Option (Stored × ℚ)) : Inbox where
  clock := 0
  code := waiting.map fun (value, expiresAt) => ⟨0, value, expiresAt⟩
  attempts := none
  calls := .empty
  sent := 1
  generation := 0
  windows := []
  guesses := []

namespace Inbox

/-- `GET otp:<purpose>:<email>`. -/
def storedCode (inbox : Inbox) : Option Code :=
  inbox.code.filter fun code => inbox.clock < code.expiresAt

def setStage (inbox : Inbox) (callId : ℕ) (stage : Stage) : Table VerifyCall.id :=
  inbox.calls.modify callId fun call => { call with stage }

/-- The script of `verify_code`. -/
def countAttempt (inbox : Inbox) : Counter × Bool :=
  rateLimitScript inbox.clock maxAttempts attemptWindow inbox.attempts

/-- The window a counter belongs to. -/
def window (inbox : Inbox) (counter : Counter) : Window :=
  ⟨inbox.generation, counter.expiresAt - attemptWindow⟩

end Inbox

inductive Action where
  | wait (seconds : ℚ)
  | send (code : String)
  | begin (id : ℕ) (guess : String)
  | count (id : ℕ)
  | read (id : ℕ)
  | deleteCode (id : ℕ)
  | deleteCounter (id : ℕ)
deriving DecidableEq, Repr

inductive Moves (hashCode : String → String) (inbox : Inbox) : Action → Inbox → Prop
  | wait {seconds : ℚ} (forward : 0 ≤ seconds) :
      Moves hashCode inbox (.wait seconds) { inbox with clock := inbox.clock + seconds }
  | send (code : String) :
      Moves hashCode inbox (.send code)
        { inbox with
          code := some ⟨inbox.sent, .hashed (hashCode code), inbox.clock + codeTtl⟩
          sent := inbox.sent + 1 }
  | begin {id : ℕ} (guess : String) (fresh : inbox.calls.find? id = none) :
      Moves hashCode inbox (.begin id guess)
        { inbox with calls := inbox.calls.insert ⟨id, guess, .begun⟩ }
  | count {call : VerifyCall} (found : inbox.calls.find? call.id = some call)
      (stage : call.stage = .begun) :
      Moves hashCode inbox (.count call.id)
        { inbox with
          attempts := some inbox.countAttempt.1
          calls := inbox.setStage call.id
            (if inbox.countAttempt.2 then
              .counted (inbox.window inbox.countAttempt.1) inbox.clock
            else .returnedFalse)
          windows := if inbox.countAttempt.1.count = 1 then
              inbox.windows ++ [inbox.window inbox.countAttempt.1]
            else inbox.windows }
  /-- `if not stored: return False`. -/
  | missing {call : VerifyCall} {window : Window} {time : ℚ}
      (found : inbox.calls.find? call.id = some call) (stage : call.stage = .counted window time)
      (nothing : inbox.storedCode = none) :
      Moves hashCode inbox (.read call.id)
        { inbox with calls := inbox.setStage call.id .returnedFalse }
  | read {call : VerifyCall} {window : Window} {time : ℚ} {code : Code}
      (found : inbox.calls.find? call.id = some call) (stage : call.stage = .counted window time)
      (stored : inbox.storedCode = some code) :
      Moves hashCode inbox (.read call.id)
        { inbox with
          calls := inbox.setStage call.id
            (if code.value.accepts hashCode call.guess then .matched code.serial
            else .returnedFalse)
          guesses := inbox.guesses ++
            [⟨code.serial, window, time, code.value.accepts hashCode call.guess⟩] }
  | deleteCode {call : VerifyCall} {serial : ℕ} (found : inbox.calls.find? call.id = some call)
      (stage : call.stage = .matched serial) :
      Moves hashCode inbox (.deleteCode call.id)
        { inbox with code := none, calls := inbox.setStage call.id (.deleted serial) }
  | deleteCounter {call : VerifyCall} {serial : ℕ} (found : inbox.calls.find? call.id = some call)
      (stage : call.stage = .deleted serial) :
      Moves hashCode inbox (.deleteCounter call.id)
        { inbox with
          attempts := none
          calls := inbox.setStage call.id (.returnedTrue serial)
          generation := inbox.generation + 1 }

end PredictX.OtpService
