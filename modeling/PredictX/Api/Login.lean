import PredictX.Services.RateLimitService

namespace PredictX.Login

open PredictX.RateLimitService

/-! `login`, and the friction service with any `rate_limit_auth_max_attempts`.

One request is handled at one moment.  The account that a request finds is the one the database
holds then; tokens, cookies and the audit log are left out.
-/

/-- `PROGRESSIVE_FRICTION_SCRIPT`. -/
def progressiveFrictionOf (maxAttempts : ℕ) (now : ℚ) (keys : Keys) : Keys × Verdict :=
  let attempts := ((keys.frictionAt now).map Friction.attempts).getD 0
  let unlockAt := ((keys.frictionAt now).map Friction.unlockAt).getD 0
  if now < unlockAt then (keys, ⟨0, ⌊unlockAt - now⌋, true⟩)
  else if maxAttempts ≤ attempts then
    let delay := min (2 ^ (attempts - maxAttempts)) 16
    ({ keys with friction := some ⟨attempts + 1, now + (delay : ℕ), now + lockoutSeconds⟩ },
      ⟨attempts + 1, (delay : ℕ), true⟩)
  else
    ({ keys with friction := some ⟨attempts + 1, unlockAt, now + lockoutSeconds⟩ },
      ⟨attempts + 1, 0, false⟩)

/-- `check_with_friction`; the flag is `was_slowed`. -/
def checkWithFrictionOf (maxAttempts : ℕ) (now : ℚ) (keys : Keys) (limitType : LimitType) :
    Keys × RateLimitResult × Bool :=
  let (slowed, verdict) := progressiveFrictionOf maxAttempts now keys
  if verdict.isLocked then
    (slowed, ⟨true, maxAttempts, 0, some (max 1 verdict.delay), true⟩, true)
  else
    let (counted, result) := check now slowed limitType
    if result.allowed then
      let (accounted, accountResult) := check now counted .accountAuth
      (accounted, if accountResult.allowed then result else accountResult, false)
    else (counted, result, false)

/-- `record_failure`. -/
def recordFailureOf (maxAttempts : ℕ) (now : ℚ) (keys : Keys) : Keys :=
  (progressiveFrictionOf maxAttempts now keys).1

/-- The columns of `users` that a login reads. -/
structure User where
  passwordHash : String
  isActive : Bool
  banReason : Option String
  isDeleted : Bool
  isEmailVerified : Bool
  is2faEnabled : Bool
  totpSecretEncrypted : Option String
deriving DecidableEq, Repr

structure LoginRequest where
  password : String
  totpCode : Option String
deriving DecidableEq, Repr

/-- `bcrypt.checkpw`, `Fernet.decrypt` and `TOTPService.verify_code`. -/
structure Crypto where
  checkpw : String → String → Bool
  decrypt : String → Option String
  verifyCode : String → String → Bool

inductive Refusal where
  | unauthorized (message : String) (errorCode : Option String)
  | forbidden (message : String)
  | validation (message : String)
  /-- An exception that nothing handles. -/
  | internal
deriving DecidableEq, Repr

inductive Answer where
  /-- "Too many attempts. Slow down." -/
  | slowed (retryAfter : ℤ)
  /-- "Rate limit exceeded". -/
  | limited (retryAfter : ℤ)
  | refused (refusal : Refusal)
  | welcome
deriving DecidableEq, Repr

def verifyPassword (crypto : Crypto) (plain hashed : String) : Bool :=
  hashed ≠ "" && crypto.checkpw plain hashed

def decryptSecret (crypto : Crypto) (encrypted : Option String) : Except Refusal String :=
  if (encrypted.getD "").length < 32 then .error (.validation "Invalid 2FA configuration")
  else
    match crypto.decrypt (encrypted.getD "") with
    | none => .error .internal
    | some secret => .ok secret

/-- What an account that is not active is told. -/
def inactiveRefusal (user : User) : Refusal :=
  match user.banReason with
  | some reason =>
      if reason ≠ "" ∧ user.isDeleted = false then .forbidden s!"Account suspended: {reason}"
      else .unauthorized "Account is inactive" none
  | none => .unauthorized "Account is inactive" none

/-- The refusal of a login with the right password before its code is looked at. -/
def accountRefusal (user : User) : Option Refusal :=
  if user.isActive = false then some (inactiveRefusal user)
  else if user.isEmailVerified = false then
    some (.forbidden "Email not verified • check your inbox for the verification code")
  else if user.passwordHash = "" then
    some (.unauthorized "No password set for this account. Use magic link login." none)
  else none

/-- What a login comes to after `record_failure`: how often that is called again, and the
refusal, if it is refused. -/
def verify (crypto : Crypto) (found : Option User) (data : LoginRequest) : ℕ × Option Refusal :=
  match found with
  | none => (0, some (.unauthorized "Invalid email or password" none))
  | some user =>
      if verifyPassword crypto data.password user.passwordHash = false then
        (1, some (.unauthorized "Invalid email or password" none))
      else
        match accountRefusal user with
        | some refusal => (0, some refusal)
        | none =>
            if user.is2faEnabled = false then (0, none)
            else if data.totpCode.getD "" = "" then
              (1, some (.unauthorized "2FA code required" (some "LOGIN_2FA_REQUIRED")))
            else
              match decryptSecret crypto user.totpSecretEncrypted with
              | .error refusal => (0, some refusal)
              | .ok secret =>
                  if crypto.verifyCode secret (data.totpCode.getD "") then (0, none)
                  else (1, some (.unauthorized "Invalid 2FA code" (some "LOGIN_2FA_INVALID")))

def login (crypto : Crypto) (maxAttempts : ℕ) (now : ℚ) (found : Option User)
    (data : LoginRequest) (keys : Keys) : Keys × Answer :=
  let (checked, result, isSlowed) := checkWithFrictionOf maxAttempts now keys .authDecision
  let retryAfter := result.retryAfter.getD 0
  if isSlowed = true ∧ retryAfter ≠ 0 then (checked, .slowed retryAfter)
  else if result.allowed = false then (checked, .limited retryAfter)
  else
    let recorded := recordFailureOf maxAttempts now checked
    let (again, refusal) := verify crypto found data
    match refusal with
    | some refusal => ((recordFailureOf maxAttempts now)^[again] recorded, .refused refusal)
    | none => (resetFriction recorded, .welcome)

/-- The service as it is configured. -/
theorem progressiveFrictionOf_maxAttempts (now : ℚ) (keys : Keys) :
    progressiveFrictionOf maxAttempts now keys = progressiveFriction now keys := rfl

theorem checkWithFrictionOf_maxAttempts (now : ℚ) (keys : Keys) (limitType : LimitType) :
    checkWithFrictionOf maxAttempts now keys limitType = checkWithFriction now keys limitType := rfl

end PredictX.Login
