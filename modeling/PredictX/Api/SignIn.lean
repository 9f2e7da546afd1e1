import PredictX.Api.Login
import PredictX.Api.MagicLink
import PredictX.Services.OtpService

namespace PredictX.SignIn

open PredictX.Data

/-! Every way to sign in, and what is mailed and stored on the way.

A request goes on by one Redis command or one look-up at a time; requests of any kind run at once,
keys expire whenever they like and the rows of users change under them.  Where the rate limits and
the limit on guesses turn a request away, or where one fails, it just stops.  The log is newest
first.
-/

abbrev Token := String

abbrev CallId := ℕ

/-- The columns of `users` that a way to sign in reads. -/
structure Account extends Login.User where
  id : UserId
  email : String
deriving DecidableEq, Repr

inductive Request where
  | login (email password : String) (totpCode : Option String)
  | magicLink (email : String)
  | magicLinkUrl (email ip : String)
  | verifyMagicUrl (token : Token) (ip : String)
  | verifyMagicUrl2fa (partialToken : Token) (totpCode ip : String)
  | verifyMagic (email code : String) (totpCode : Option String)
  | verifyMagic2fa (partialToken : Token) (totpCode : String)
deriving DecidableEq, Repr

/-- The code of the second factor that comes with a request. -/
def Request.totpCode : Request → Option String
  | .login _ _ code | .verifyMagic _ _ code => code
  | .verifyMagicUrl2fa _ code _ | .verifyMagic2fa _ code => some code
  | _ => none

/-- The value under `magicurl:<token>` or `partial:<token>`. -/
structure Link where
  userId : UserId
  ip : String
deriving DecidableEq, Repr

/-- The value under `magic_partial:<token>`. -/
structure MagicPartial where
  userId : UserId
  email : String
deriving DecidableEq, Repr

inductive Key where
  | otp (email : String)
  | magicurl (token : Token)
  | partialLogin (token : Token)
  | magicPartial (token : Token)
deriving DecidableEq, Repr

inductive Stage where
  | idle
  | begun (request : Request)
  | mayMailCode (email : String)
  | mayMailLink (account : Account) (ip : String)
  /-- The link is read and its address fits. -/
  | linkRead (token : Token) (link : Link) (ip : String)
  | linkSpent (token : Token) (link : Link) (ip : String)
  | linkNeeds2fa (account : Account) (ip : String)
  | codeMatched (email code : String) (totpCode : Option String)
  | codeSpent (email code : String) (totpCode : Option String)
  | codeNeeds2fa (account : Account) (email : String)
  | partialRead (key : Key) (user : UserId) (totpCode : String)
  | wrongTotp (key : Key)
  | partialAccepted (key : Key) (account : Account)
  /-- Only the token pair is left to issue. -/
  | issuing (account : Account)
  | sent
  | needs2fa (token : Token)
  | welcome
  | refused (refusal : Login.Refusal)

inductive Entry where
  | received (call : CallId) (request : Request)
  | codeIssued (email code : String)
  | linkIssued (token : Token) (account : Account) (ip : String)
  | partialGranted (call : CallId) (account : Account)
  | signedIn (call : CallId) (account : Account)

structure Desk where
  users : Table Account.id
  codes : String → Option OtpService.Stored
  links : Token → Option Link
  partials : Token → Option Link
  magicPartials : Token → Option MagicPartial
  stages : CallId → Stage
  log : List Entry

/-- No request has come in. -/
def Desk.start (users : Table Account.id) : Desk :=
  ⟨users, fun _ => none, fun _ => none, fun _ => none, fun _ => none, fun _ => .idle, []⟩

/-- `bcrypt`, `Fernet` and `TOTPService.verify_code`; `_hash_code` with the secret of an address;
`_ip_matches`. -/
structure Checks where
  crypto : Login.Crypto
  hashCode : String → String → String
  ipMatches : String → String → Bool

def unauthorized (message : String) : Stage := .refused (.unauthorized message none)

/-! # What is decided on a row -/

section Decisions

variable (checks : Checks)

/-- `decrypt_secret` and `verify_code`. -/
def verifyTotp (account : Account) (totpCode : String) : Except Login.Refusal Bool :=
  (Login.decryptSecret checks.crypto account.totpSecretEncrypted).map fun secret =>
    checks.crypto.verifyCode secret totpCode

/-- `login`, but for its friction. -/
def afterPassword (found : Option Account) (password : String) (totpCode : Option String) : Stage :=
  match found with
  | none => unauthorized "Invalid email or password"
  | some account =>
      match (Login.verify checks.crypto (some account.toUser) ⟨password, totpCode⟩).2 with
      | some refusal => .refused refusal
      | none => .issuing account

/-- `verify_magic_url` after the link is deleted. -/
def afterLink (found : Option Account) (ip : String) : Stage :=
  match found with
  | none => unauthorized "Account not found or inactive"
  | some account =>
      if !account.isActive then unauthorized "Account not found or inactive"
      else if account.is2faEnabled then .linkNeeds2fa account ip
      else .issuing account

/-- `verify_magic` after the code is accepted. -/
def afterCode (found : Option Account) (email : String) (totpCode : Option String) : Stage :=
  match found with
  | none => unauthorized "Account not found or inactive"
  | some account =>
      if !account.isActive then unauthorized "Account not found or inactive"
      else if account.is2faEnabled then
        if totpCode.getD "" = "" then .codeNeeds2fa account email
        else
          match verifyTotp checks account (totpCode.getD "") with
          | .error refusal => .refused refusal
          | .ok false => unauthorized "Invalid 2FA code"
          | .ok true => .issuing account
      else .issuing account

/-- Both ways to complete a sign-in with a partial token. -/
def afterPartial (key : Key) (found : Option Account) (totpCode : String) : Stage :=
  match found with
  | none => unauthorized "Account not found or inactive"
  | some account =>
      if !account.isActive then unauthorized "Account not found or inactive"
      else if account.is2faEnabled ∧ account.totpSecretEncrypted.getD "" ≠ "" then
        match verifyTotp checks account totpCode with
        | .error refusal => .refused refusal
        | .ok false => .wrongTotp key
        | .ok true => .partialAccepted key account
      else unauthorized "2FA not enabled for this account"

end Decisions

/-! # Steps -/

namespace Desk

variable (checks : Checks) (desk : Desk) (call : CallId)

/-- `scalar_one_or_none` by the address, which is unique. -/
def userByEmail (email : String) : Option Account :=
  desk.users.rows.find? (·.email = email)

def stage (stage : Stage) : Desk := { desk with stages := Function.update desk.stages call stage }

def delete : Key → Desk
  | .otp email => { desk with codes := Function.update desk.codes email none }
  | .magicurl token => { desk with links := Function.update desk.links token none }
  | .partialLogin token => { desk with partials := Function.update desk.partials token none }
  | .magicPartial token =>
      { desk with magicPartials := Function.update desk.magicPartials token none }

/-- `magic_link` and `magic_link_url` once the row is read; `next` is for a verified address. -/
def mayMail (email : String) (next : Account → Stage) : Stage :=
  match desk.userByEmail email with
  | none => .sent
  | some account =>
      if account.isEmailVerified then next account
      else unauthorized "Email not verified. Please register first."

/-- What a request does first. -/
def begin : Request → Stage
  | .login email password totpCode =>
      afterPassword checks (desk.userByEmail email) password totpCode
  | .magicLink email => desk.mayMail email fun _ => .mayMailCode email
  | .magicLinkUrl email ip => desk.mayMail email fun account => .mayMailLink account ip
  | .verifyMagicUrl token ip =>
      if token = "" then unauthorized "Missing token"
      else
        match desk.links token with
        | none => unauthorized "Invalid or expired link"
        | some link =>
            if link.ip ≠ "" ∧ checks.ipMatches link.ip ip = false then
              unauthorized "Invalid or expired link"
            else .linkRead token link ip
  | .verifyMagicUrl2fa partialToken totpCode ip =>
      match desk.partials partialToken with
      | none => unauthorized "Session expired or invalid"
      | some link =>
          if link.ip = "" ∨ checks.ipMatches link.ip ip = false then
            unauthorized "Session expired or invalid"
          else .partialRead (.partialLogin partialToken) link.userId totpCode
  | .verifyMagic email code totpCode =>
      match desk.codes email with
      | none => unauthorized "Invalid or expired code"
      | some stored =>
          if stored.accepts (checks.hashCode email) code then .codeMatched email code totpCode
          else unauthorized "Invalid or expired code"
  | .verifyMagic2fa partialToken totpCode =>
      match desk.magicPartials partialToken with
      | none => unauthorized "Session expired. Please sign in again."
      | some granted => .partialRead (.magicPartial partialToken) granted.userId totpCode

/-- The next step of a request; `token` and `code` are what it draws. -/
def advance (token : Token) (code : String) : Desk :=
  match desk.stages call with
  | .begun request => desk.stage call (desk.begin checks request)
  | .mayMailCode email =>
      { desk.stage call .sent with
        codes := Function.update desk.codes email (some (.hashed (checks.hashCode email code)))
        log := .codeIssued email code :: desk.log }
  | .mayMailLink account ip =>
      { desk.stage call .sent with
        links := Function.update desk.links token (some ⟨account.id, ip⟩)
        log := .linkIssued token account ip :: desk.log }
  | .linkRead token link ip =>
      (desk.delete (.magicurl token)).stage call (.linkSpent token link ip)
  | .linkSpent _ link ip => desk.stage call (afterLink (desk.users.find? link.userId) ip)
  | .linkNeeds2fa account ip =>
      { desk.stage call (.needs2fa token) with
        partials := Function.update desk.partials token (some ⟨account.id, ip⟩)
        log := .partialGranted call account :: desk.log }
  | .codeMatched email code totpCode =>
      (desk.delete (.otp email)).stage call (.codeSpent email code totpCode)
  | .codeSpent email _ totpCode =>
      desk.stage call (afterCode checks (desk.userByEmail email) email totpCode)
  | .codeNeeds2fa account email =>
      { desk.stage call (.needs2fa token) with
        magicPartials := Function.update desk.magicPartials token (some ⟨account.id, email⟩)
        log := .partialGranted call account :: desk.log }
  | .partialRead key user totpCode =>
      desk.stage call (afterPartial checks key (desk.users.find? user) totpCode)
  | .wrongTotp key => (desk.delete key).stage call (unauthorized "Invalid 2FA code")
  | .partialAccepted key account => (desk.delete key).stage call (.issuing account)
  | .issuing account =>
      { desk.stage call .welcome with log := .signedIn call account :: desk.log }
  | _ => desk

end Desk

inductive Action where
  | receive (call : CallId) (request : Request)
  | advance (call : CallId) (token : Token) (code : String)
  /-- A limit turns the request away, or it fails. -/
  | stop (call : CallId) (refusal : Login.Refusal)
  | expire (key : Key)
  /-- Other requests register accounts, ban them, or switch the second factor. -/
  | changeUsers (users : Table Account.id)

inductive Moves (checks : Checks) (desk : Desk) : Action → Desk → Prop
  | receive {call : CallId} (request : Request) (fresh : desk.stages call = .idle) :
      Moves checks desk (.receive call request)
        { desk.stage call (.begun request) with log := .received call request :: desk.log }
  | advance (call : CallId) (token : Token) (code : String) :
      Moves checks desk (.advance call token code) (desk.advance checks call token code)
  | stop (call : CallId) (refusal : Login.Refusal) (busy : desk.stages call ≠ .idle) :
      Moves checks desk (.stop call refusal) (desk.stage call (.refused refusal))
  | expire (key : Key) : Moves checks desk (.expire key) (desk.delete key)
  | changeUsers (users : Table Account.id) :
      Moves checks desk (.changeUsers users) { desk with users }

end PredictX.SignIn
