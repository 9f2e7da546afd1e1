import PredictX.Data.Bulk
import PredictX.Data.Run
import PredictX.Models

namespace PredictX.Auth

open PredictX.Data

/-! Refresh tokens, the sessions bound to them, and the requests that issue and revoke them.

Each request runs in one transaction and at one instant, in seconds.  A refresh token is known by
its id: the hash that is stored is the hash of the id.  The deadline of a login chain is a Redis
key per token that expires by itself.
-/

abbrev TokenId := ℕ

abbrev SessionId := ℕ

/-- `jwt_access_expire`. -/
def jwtAccessExpire : ℚ := 900

/-- `jwt_refresh_expire`. -/
def jwtRefreshExpire : ℚ := 2592000

/-- `refresh_chain_max_seconds`. -/
def refreshChainMaxSeconds : ℚ := 2592000

/-- `refresh_reuse_grace_seconds`. -/
def refreshReuseGraceSeconds : ℚ := 30

structure User where
  id : UserId
  isActive : Bool
deriving DecidableEq, Repr

structure RefreshToken where
  id : TokenId
  userId : UserId
  expiresAt : ℚ
  revoked : Bool
  revokedAt : Option ℚ
  deviceInfo : Option String
deriving DecidableEq, Repr

structure Session where
  id : SessionId
  userId : UserId
  refreshTokenId : TokenId
  expiresAt : ℚ
  revoked : Bool
deriving DecidableEq, Repr

/-- `refresh_chain:<hash>`; the key is gone from `expiresAt` on. -/
structure Anchor where
  deadline : ℚ
  expiresAt : ℚ
deriving DecidableEq, Repr

/-- The payload of a decoded access token; `exp` is a whole number of seconds. -/
structure AccessToken where
  sub : UserId
  sid : Option SessionId
  jti : ℕ
  exp : ℤ
deriving DecidableEq, Repr

structure Accounts where
  users : Table User.id
  tokens : Table RefreshToken.id
  sessions : Table Session.id
  anchors : TokenId → Option Anchor
  /-- `blacklist:<jti>`, with the time it expires. -/
  blacklist : ℕ → Option ℚ

/-- Nobody has signed in. -/
def Accounts.start (users : Table User.id) : Accounts :=
  ⟨users, .empty, .empty, fun _ => none, fun _ => none⟩

inductive Refusal where
  | unauthorized (message : String)
  | forbidden (message : String)
  | notFound (message : String)
  /-- `MultipleResultsFound`. -/
  | internal
deriving DecidableEq, Repr

inductive Response where
  | issued (access : AccessToken) (refreshToken : TokenId)
  | done
  | refused (refusal : Refusal)
deriving DecidableEq, Repr

/-- The random ids a request draws when it issues a pair. -/
structure Fresh where
  token : TokenId
  session : SessionId
  jti : ℕ
deriving DecidableEq, Repr

def Fresh.Unused (fresh : Fresh) (accounts : Accounts) : Prop :=
  accounts.tokens.find? fresh.token = none ∧ accounts.sessions.find? fresh.session = none

instance (fresh : Fresh) (accounts : Accounts) : Decidable (fresh.Unused accounts) :=
  inferInstanceAs (Decidable (_ ∧ _))

namespace Accounts

/-- What `GET refresh_chain:<hash>` finds. -/
def refreshChainDeadline (accounts : Accounts) (now : ℚ) (token : TokenId) : Option ℚ :=
  ((accounts.anchors token).filter fun anchor => now < anchor.expiresAt).map Anchor.deadline

/-- `_anchor_refresh_chain`.  A rotation inherits the deadline and deletes the key it came
from; without one it starts anew. -/
def anchorRefreshChain (accounts : Accounts) (now : ℚ) (new : TokenId)
    (previous : Option TokenId) : TokenId → Option Anchor :=
  let freshDeadline := now + refreshChainMaxSeconds
  match previous with
  | none =>
      Function.update accounts.anchors new
        (some ⟨freshDeadline, now + refreshChainMaxSeconds⟩)
  | some previous =>
      let inherited := (accounts.refreshChainDeadline now previous).getD freshDeadline
      let remaining : ℤ := max 1 ⌊inherited - now⌋
      Function.update
        (Function.update accounts.anchors new (some ⟨inherited, now + remaining⟩)) previous none

/-- `_issue_tokens`. -/
def issueTokens (accounts : Accounts) (now : ℚ) (user : UserId) (ua : Option String)
    (fresh : Fresh) (previous : Option TokenId) : Response × Accounts :=
  let expiresAt := now + jwtRefreshExpire
  (.issued ⟨user, some fresh.session, fresh.jti, ⌊now + jwtAccessExpire⌋⟩ fresh.token,
    { accounts with
      tokens := accounts.tokens.insert ⟨fresh.token, user, expiresAt, false, none, ua⟩
      sessions := accounts.sessions.insert ⟨fresh.session, user, fresh.token, expiresAt, false⟩
      anchors := accounts.anchorRefreshChain now fresh.token previous })

end Accounts

/-- `_revoke_refresh`: the stamp is set once. -/
def RefreshToken.revoke (now : ℚ) (token : RefreshToken) : RefreshToken :=
  { token with revoked := true, revokedAt := some (token.revokedAt.getD now) }

/-- A row the bulk update of `_revoke_all_refresh_tokens` finds, or leaves; there is no stamp. -/
def RefreshToken.revokeFor (user : UserId) (token : RefreshToken) : RefreshToken :=
  if token.userId = user ∧ token.revoked = false then { token with revoked := true } else token

def Session.revoke (session : Session) : Session := { session with revoked := true }

def Session.revokeFor (user : UserId) (session : Session) : Session :=
  if session.userId = user ∧ session.revoked = false then session.revoke else session

namespace Accounts

def revokeRefresh (accounts : Accounts) (now : ℚ) (tokenId : TokenId) : Accounts :=
  { accounts with tokens := accounts.tokens.modify tokenId (RefreshToken.revoke now) }

def revokeSessionRow (accounts : Accounts) (sessionId : SessionId) : Accounts :=
  { accounts with sessions := accounts.sessions.modify sessionId Session.revoke }

/-- `_revoke_all_refresh_tokens`; no caller keeps a token. -/
def revokeAllRefreshTokens (accounts : Accounts) (user : UserId) : Accounts :=
  { accounts with
    tokens := accounts.tokens.updateAll (RefreshToken.revokeFor user)
      fun token => by unfold RefreshToken.revokeFor; split <;> rfl }

/-- The loop over a user's live sessions. -/
def revokeSessionsOf (accounts : Accounts) (user : UserId) : Accounts :=
  { accounts with
    sessions := accounts.sessions.updateAll (Session.revokeFor user)
      fun session => by unfold Session.revokeFor; split <;> rfl }

/-- `_revoke_chain`. -/
def revokeChain (accounts : Accounts) (user : UserId) : Accounts :=
  (accounts.revokeAllRefreshTokens user).revokeSessionsOf user

end Accounts

/-! # The caller of a request -/

/-- The access token of a request, from its cookie or from the `Authorization` header. -/
structure Caller where
  access : AccessToken
  cookie : Bool
deriving DecidableEq, Repr

namespace Accounts

def isTokenBlacklisted (accounts : Accounts) (now : ℚ) (jti : ℕ) : Bool :=
  (accounts.blacklist jti).any fun expiresAt => now < expiresAt

/-- `_validate_session`. -/
def validateSession (accounts : Accounts) (now : ℚ) (access : AccessToken) (user : User) :
    Except Refusal Unit :=
  match access.sid with
  | none => .error (.unauthorized "Token is not bound to a session")
  | some sid =>
      match accounts.sessions.find? sid with
      | none => .error (.unauthorized "Session not found")
      | some session =>
          if session.userId ≠ user.id then .error (.unauthorized "Session not found")
          else if session.revoked then .error (.unauthorized "Session has been revoked")
          else if session.expiresAt ≤ now then .error (.unauthorized "Session expired")
          else .ok ()

/-- `decode_token` and `_load_user`. -/
def loadUser (accounts : Accounts) (now : ℚ) (access : AccessToken) : Except Refusal User :=
  if access.exp < ⌊now⌋ then .error (.unauthorized "Invalid token: Signature has expired.")
  else if accounts.isTokenBlacklisted now access.jti then
    .error (.unauthorized "Token has been revoked")
  else
    match accounts.users.find? access.sub with
    | none => .error (.unauthorized "User not found")
    | some user =>
        if user.isActive then do
          accounts.validateSession now access user
          return user
        else .error (.forbidden "Account is inactive")

def getCurrentUser (accounts : Accounts) (now : ℚ) (caller : Option Caller) :
    Except Refusal User :=
  match caller with
  | none => .error (.unauthorized "No access token provided")
  | some caller => accounts.loadUser now caller.access

/-- `_blacklist_access_token`: only a cookie is looked at. -/
def blacklistAccessToken (accounts : Accounts) (now : ℚ) (caller : Option Caller) : Accounts :=
  match caller with
  | none => accounts
  | some caller =>
      let ttl := ⌊caller.access.exp - now⌋
      if caller.cookie ∧ 0 < ttl then
        { accounts with
          blacklist := Function.update accounts.blacklist caller.access.jti (some (now + ttl)) }
      else accounts

end Accounts

/-! # Requests -/

section Requests

variable (accounts : Accounts) (now : ℚ) (ua : Option String) (fresh : Fresh)

/-- The end of `login` and of the other ways to sign in; `verified` says that the checks of the
credentials before it have passed. -/
def login (user : UserId) (verified : Bool) : Response × Accounts :=
  match accounts.users.find? user with
  | none => (.refused (.unauthorized "Invalid email or password"), accounts)
  | some found =>
      if !verified then (.refused (.unauthorized "Invalid email or password"), accounts)
      else if !found.isActive then (.refused (.unauthorized "Account is inactive"), accounts)
      else accounts.issueTokens now user ua fresh none

def logout (caller : Option Caller) (token : Option TokenId) : Response × Accounts :=
  match accounts.getCurrentUser now caller with
  | .error refusal => (.refused refusal, accounts)
  | .ok _ =>
      let blacklisted := accounts.blacklistAccessToken now caller
      match token.bind accounts.tokens.find? with
      | none => (.done, blacklisted)
      | some record =>
          let revoked := blacklisted.revokeRefresh now record.id
          match accounts.sessions.rows.filter (·.refreshTokenId = record.id) with
          | [] => (.done, revoked)
          | [session] => (.done, revoked.revokeSessionRow session.id)
          | _ => (.refused .internal, blacklisted)

def logoutAll (caller : Option Caller) : Response × Accounts :=
  match accounts.getCurrentUser now caller with
  | .error refusal => (.refused refusal, accounts)
  | .ok user => (.done, (accounts.blacklistAccessToken now caller).revokeChain user.id)

def revokeSession (caller : Option Caller) (session : SessionId) : Response × Accounts :=
  match accounts.getCurrentUser now caller with
  | .error refusal => (.refused refusal, accounts)
  | .ok user =>
      match (accounts.sessions.find? session).filter fun row => row.userId = user.id with
      | none => (.refused (.notFound "Session not found"), accounts)
      | some row =>
          (.done, (accounts.revokeSessionRow session).revokeRefresh now row.refreshTokenId)

/-- `change_password`; `verified` says that the old password, the second factor and the new
password have been accepted.  The sessions are left as they are. -/
def changePassword (caller : Option Caller) (verified : Bool) : Response × Accounts :=
  match accounts.getCurrentUser now caller with
  | .error refusal => (.refused refusal, accounts)
  | .ok user =>
      if !verified then (.refused (.unauthorized "Current password is incorrect"), accounts)
      else
        ((accounts.blacklistAccessToken now caller).revokeAllRefreshTokens user.id).issueTokens
          now user.id ua fresh none

/-- `reset_password`; `verified` says that the code and the new password have been accepted. -/
def resetPassword (user : UserId) (verified : Bool) : Response × Accounts :=
  if !verified then (.refused (.unauthorized "Invalid or expired code"), accounts)
  else
    match accounts.users.find? user with
    | none => (.refused (.unauthorized "User not found"), accounts)
    | some _ => (.done, accounts.revokeAllRefreshTokens user)

/-- The token was revoked at most `refresh_reuse_grace_seconds` ago. -/
def RefreshToken.withinGrace (token : RefreshToken) (now : ℚ) : Bool :=
  token.revokedAt.any fun revokedAt => now - revokedAt ≤ refreshReuseGraceSeconds

def RefreshToken.sameDevice (token : RefreshToken) (ua : Option String) : Bool :=
  token.deviceInfo.getD "" = ua.getD ""

/-- A revoked token that is not taken for a duplicate. -/
def RefreshToken.reused (token : RefreshToken) (now : ℚ) (ua : Option String) : Bool :=
  token.revoked && !(token.withinGrace now && token.sameDevice ua)

/-- `refresh`.  `token_record.current_session` is a list, so that `current_session.revoked = True`
sets an attribute of the list and leaves the session of the rotated token as it is. -/
def refresh (presented : Option TokenId) : Response × Accounts :=
  match presented with
  | none => (.refused (.unauthorized "No refresh token"), accounts)
  | some id =>
      match accounts.tokens.find? id with
      | none => (.refused (.unauthorized "Invalid or expired refresh token"), accounts)
      | some token =>
          if token.reused now ua then
            (.refused (.unauthorized "Invalid or expired refresh token"),
              accounts.revokeChain token.userId)
          else if (accounts.refreshChainDeadline now id).any (· < now) then
            (.refused (.unauthorized "Session expired • please sign in again"),
              accounts.revokeChain token.userId)
          else if token.expiresAt ≤ now then
            (.refused (.unauthorized "Invalid or expired refresh token"),
              accounts.revokeRefresh now id)
          else if !(accounts.users.find? token.userId).any User.isActive then
            (.refused (.forbidden "Account is inactive"), accounts)
          else if token.expiresAt - jwtRefreshExpire + refreshChainMaxSeconds ≤ now then
            (.refused (.unauthorized "Refresh token expired"), accounts.revokeRefresh now id)
          else if !token.sameDevice ua then
            (.refused (.unauthorized "Device mismatch • please re-authenticate"),
              accounts.revokeRefresh now id)
          else (accounts.revokeRefresh now id).issueTokens now token.userId ua fresh (some id)

end Requests

inductive Request where
  | login (user : UserId) (verified : Bool)
  | refresh (presented : Option TokenId)
  | logout (caller : Option Caller) (token : Option TokenId)
  | logoutAll (caller : Option Caller)
  | revokeSession (caller : Option Caller) (session : SessionId)
  | changePassword (caller : Option Caller) (verified : Bool)
  | resetPassword (user : UserId) (verified : Bool)
deriving DecidableEq, Repr

structure Call where
  now : ℚ
  ua : Option String
  fresh : Fresh
  request : Request
deriving DecidableEq, Repr

def handle (accounts : Accounts) (call : Call) : Response × Accounts :=
  match call.request with
  | .login user verified => login accounts call.now call.ua call.fresh user verified
  | .refresh presented => refresh accounts call.now call.ua call.fresh presented
  | .logout caller token => logout accounts call.now caller token
  | .logoutAll caller => logoutAll accounts call.now caller
  | .revokeSession caller session => revokeSession accounts call.now caller session
  | .changePassword caller verified =>
      changePassword accounts call.now call.ua call.fresh caller verified
  | .resetPassword user verified => resetPassword accounts user verified

def Serves (accounts : Accounts) (call : Call) (after : Accounts) : Prop :=
  call.fresh.Unused accounts ∧ (handle accounts call).2 = after

end PredictX.Auth
