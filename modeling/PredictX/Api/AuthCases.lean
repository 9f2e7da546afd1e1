import PredictX.Api.Auth

namespace PredictX.Auth

open PredictX.Data

/-! What a request can do to the tables, and what becomes of a row. -/

/-- The row lets the request through: every check of `refresh` but the reuse detection and the
deadline of the chain. -/
structure RefreshToken.Admits (token : RefreshToken) (accounts : Accounts) (call : Call) :
    Prop where
  current : call.now < token.expiresAt
  active : (accounts.users.find? token.userId).any User.isActive = true
  young : call.now < token.expiresAt - jwtRefreshExpire + refreshChainMaxSeconds
  device : token.sameDevice call.ua = true

/-- The answers to a request and what they leave in the tables. -/
inductive Did (accounts : Accounts) (call : Call) : Response × Accounts → Prop
  | kept (refusal : Refusal) : Did accounts call (.refused refusal, accounts)
  | login {user : UserId} (request : call.request = .login user true)
      (active : (accounts.users.find? user).any User.isActive = true) :
      Did accounts call (accounts.issueTokens call.now user call.ua call.fresh none)
  /-- `logout` without a token it knows, or with one that has several sessions. -/
  | signedOff {caller : Option Caller} {token : Option TokenId} {response : Response}
      (request : call.request = .logout caller token)
      (unknown : response = .done → token.bind accounts.tokens.find? = none)
      (silent : ∀ access new, response ≠ .issued access new) :
      Did accounts call (response, accounts.blacklistAccessToken call.now caller)
  | loggedOutAlone {caller : Option Caller} {record : RefreshToken}
      (request : call.request = .logout caller (some record.id))
      (found : accounts.tokens.find? record.id = some record)
      (unlinked : accounts.sessions.rows.filter (·.refreshTokenId = record.id) = []) :
      Did accounts call
        (.done, (accounts.blacklistAccessToken call.now caller).revokeRefresh call.now record.id)
  | loggedOut {caller : Option Caller} {record : RefreshToken} {session : Session}
      (request : call.request = .logout caller (some record.id))
      (found : accounts.tokens.find? record.id = some record)
      (linked : accounts.sessions.rows.filter (·.refreshTokenId = record.id) = [session]) :
      Did accounts call
        (.done, ((accounts.blacklistAccessToken call.now caller).revokeRefresh call.now
          record.id).revokeSessionRow session.id)
  | loggedOutAll {caller : Option Caller} {user : User}
      (request : call.request = .logoutAll caller)
      (known : accounts.getCurrentUser call.now caller = .ok user) :
      Did accounts call
        (.done, (accounts.blacklistAccessToken call.now caller).revokeChain user.id)
  | revoked {caller : Option Caller} {session : Session}
      (request : call.request = .revokeSession caller session.id)
      (found : accounts.sessions.find? session.id = some session) :
      Did accounts call (.done, (accounts.revokeSessionRow session.id).revokeRefresh call.now
        session.refreshTokenId)
  | changed {caller : Option Caller} {user : User}
      (request : call.request = .changePassword caller true)
      (known : accounts.getCurrentUser call.now caller = .ok user) :
      Did accounts call
        (((accounts.blacklistAccessToken call.now caller).revokeAllRefreshTokens
          user.id).issueTokens call.now user.id call.ua call.fresh none)
  | reset {user : UserId} (request : call.request = .resetPassword user true)
      (known : accounts.users.find? user ≠ none) :
      Did accounts call (.done, accounts.revokeAllRefreshTokens user)
  | ended {token : RefreshToken} {refusal : Refusal}
      (request : call.request = .refresh (some token.id))
      (found : accounts.tokens.find? token.id = some token)
      (reason : token.reused call.now call.ua = true ∨
        (accounts.refreshChainDeadline call.now token.id).any (· < call.now) = true) :
      Did accounts call (.refused refusal, accounts.revokeChain token.userId)
  | dropped {token : RefreshToken} {refusal : Refusal}
      (request : call.request = .refresh (some token.id))
      (found : accounts.tokens.find? token.id = some token)
      (fair : token.reused call.now call.ua = false)
      (inTime : (accounts.refreshChainDeadline call.now token.id).any (· < call.now) = false)
      (judged : token.expiresAt ≤ call.now ∨
        (accounts.users.find? token.userId).any User.isActive = true) :
      Did accounts call (.refused refusal, accounts.revokeRefresh call.now token.id)
  | rotated {token : RefreshToken} (request : call.request = .refresh (some token.id))
      (found : accounts.tokens.find? token.id = some token)
      (fair : token.reused call.now call.ua = false)
      (inTime : (accounts.refreshChainDeadline call.now token.id).any (· < call.now) = false)
      (admits : token.Admits accounts call) :
      Did accounts call ((accounts.revokeRefresh call.now token.id).issueTokens call.now
        token.userId call.ua call.fresh (some token.id))

section Cases

variable {accounts : Accounts} {call : Call}

theorem login_did {user : UserId} {verified : Bool}
    (request : call.request = .login user verified) :
    Did accounts call (login accounts call.now call.ua call.fresh user verified) := by
  unfold login
  split
  · exact .kept _
  · rename_i found isFound
    cases verified with
    | false => exact .kept _
    | true =>
        by_cases active : found.isActive = true
        · simp only [Bool.not_true, Bool.false_eq_true, if_false, active]
          exact .login request (by rw [isFound]; exact active)
        · simp only [Bool.not_true, Bool.false_eq_true, if_false, active, Bool.not_false, if_true]
          exact .kept _

theorem logout_did {caller : Option Caller} {token : Option TokenId}
    (request : call.request = .logout caller token) :
    Did accounts call (logout accounts call.now caller token) := by
  unfold logout
  split
  · exact .kept _
  · dsimp only
    split
    · rename_i unknown
      exact .signedOff request (fun _ => unknown) (by simp)
    · rename_i record isRecord
      obtain ⟨id, rfl, found⟩ := Option.bind_eq_some_iff.mp isRecord
      obtain rfl := Table.key_of_find? found
      split
      · rename_i unlinked
        exact .loggedOutAlone request found unlinked
      · rename_i session linked
        exact .loggedOut request found linked
      · exact .signedOff request (by simp) (by simp)

theorem logoutAll_did {caller : Option Caller} (request : call.request = .logoutAll caller) :
    Did accounts call (logoutAll accounts call.now caller) := by
  unfold logoutAll
  split
  · exact .kept _
  · rename_i user known
    exact .loggedOutAll request known

theorem revokeSession_did {caller : Option Caller} {session : SessionId}
    (request : call.request = .revokeSession caller session) :
    Did accounts call (revokeSession accounts call.now caller session) := by
  unfold revokeSession
  split
  · exact .kept _
  · split
    · exact .kept _
    · rename_i row isRow
      obtain ⟨found, _⟩ := Option.filter_eq_some_iff.mp isRow
      obtain rfl := Table.key_of_find? found
      exact .revoked request found

theorem changePassword_did {caller : Option Caller} {verified : Bool}
    (request : call.request = .changePassword caller verified) :
    Did accounts call (changePassword accounts call.now call.ua call.fresh caller verified) := by
  unfold changePassword
  split
  · exact .kept _
  · rename_i user known
    cases verified with
    | false => exact .kept _
    | true => exact .changed request known

theorem resetPassword_did {user : UserId} {verified : Bool}
    (request : call.request = .resetPassword user verified) :
    Did accounts call (resetPassword accounts user verified) := by
  unfold resetPassword
  cases verified with
  | false => exact .kept _
  | true =>
      simp only [Bool.not_true, Bool.false_eq_true, if_false]
      split
      · exact .kept _
      · rename_i found isFound
        exact .reset request (by rw [isFound]; simp)

theorem refresh_did {presented : Option TokenId} (request : call.request = .refresh presented) :
    Did accounts call (refresh accounts call.now call.ua call.fresh presented) := by
  unfold refresh
  split
  · exact .kept _
  rename_i id
  split
  · exact .kept _
  rename_i token found
  obtain rfl := Table.key_of_find? found
  split
  · rename_i reused
    exact .ended request found (.inl reused)
  rename_i fair
  split
  · rename_i passed
    exact .ended request found (.inr passed)
  rename_i inTime
  rw [Bool.not_eq_true] at fair inTime
  split
  · rename_i expired
    exact .dropped request found fair inTime (.inl expired)
  rename_i current
  split
  · exact .kept _
  rename_i inactive
  have active : (accounts.users.find? token.userId).any User.isActive = true := by
    simpa using inactive
  split
  · exact .dropped request found fair inTime (.inr active)
  rename_i young
  split
  · exact .dropped request found fair inTime (.inr active)
  rename_i device
  exact .rotated request found fair inTime
    ⟨not_le.mp current, active, not_le.mp young, by simpa using device⟩

theorem handle_did : Did accounts call (handle accounts call) := by
  unfold handle
  split
  · rename_i request
    exact login_did request
  · rename_i request
    exact refresh_did request
  · rename_i request
    exact logout_did request
  · rename_i request
    exact logoutAll_did request
  · rename_i request
    exact revokeSession_did request
  · rename_i request
    exact changePassword_did request
  · rename_i request
    exact resetPassword_did request

/-- A refresh issues a pair when nothing speaks against it. -/
theorem refresh_issues_iff {token : RefreshToken}
    (request : call.request = .refresh (some token.id))
    (found : accounts.tokens.find? token.id = some token) :
    (∃ access new, (handle accounts call).1 = .issued access new) ↔
      token.reused call.now call.ua = false ∧
      (accounts.refreshChainDeadline call.now token.id).any (· < call.now) = false ∧
      token.Admits accounts call := by
  constructor
  · rintro ⟨access, new, issued⟩
    have did : Did accounts call (handle accounts call) := handle_did
    generalize handle accounts call = result at did issued
    cases did with
    | rotated isRequest isFound fair inTime admits =>
        have sameId := Request.refresh.inj (request.symm.trans isRequest)
        rw [← Option.some.inj sameId, found] at isFound
        cases isFound
        exact ⟨fair, inTime, admits⟩
    | login isRequest active => cases request.symm.trans isRequest
    | changed isRequest known => cases request.symm.trans isRequest
    | signedOff isRequest unknown silent => exact absurd issued (silent access new)
    | kept | loggedOutAlone | loggedOut | loggedOutAll | revoked | reset | ended | dropped =>
        cases issued
  · rintro ⟨fair, inTime, current, active, young, device⟩
    simp only [handle, request, refresh, found, fair, inTime, active, device, Bool.not_true,
      Bool.false_eq_true, if_false, not_le.mpr current, not_le.mpr young]
    exact ⟨_, _, rfl⟩

end Cases

/-! # Tokens -/

section Tokens

variable {accounts : Accounts} {now : ℚ} {user : UserId} {id other : TokenId}
  {caller : Option Caller} {ua : Option String} {fresh : Fresh} {previous : Option TokenId}
  {row : RefreshToken}

@[simp] theorem blacklistAccessToken_tokens :
    (accounts.blacklistAccessToken now caller).tokens = accounts.tokens := by
  unfold Accounts.blacklistAccessToken
  split
  · rfl
  · dsimp only
    split <;> rfl

@[simp] theorem blacklistAccessToken_sessions :
    (accounts.blacklistAccessToken now caller).sessions = accounts.sessions := by
  unfold Accounts.blacklistAccessToken
  split
  · rfl
  · dsimp only
    split <;> rfl

@[simp] theorem blacklistAccessToken_anchors :
    (accounts.blacklistAccessToken now caller).anchors = accounts.anchors := by
  unfold Accounts.blacklistAccessToken
  split
  · rfl
  · dsimp only
    split <;> rfl

theorem find?_revokeRefresh_self :
    (accounts.revokeRefresh now id).tokens.find? id =
      (accounts.tokens.find? id).map (RefreshToken.revoke now) := by
  unfold Accounts.revokeRefresh
  dsimp only
  rw [Table.find?_modify_self]

theorem find?_revokeRefresh_ne (different : other ≠ id) :
    (accounts.revokeRefresh now id).tokens.find? other = accounts.tokens.find? other := by
  unfold Accounts.revokeRefresh
  dsimp only
  rw [Table.find?_modify_ne different]

theorem find?_revokeAllRefreshTokens :
    (accounts.revokeAllRefreshTokens user).tokens.find? id =
      (accounts.tokens.find? id).map (RefreshToken.revokeFor user) := by
  unfold Accounts.revokeAllRefreshTokens
  dsimp only
  rw [Table.find?_updateAll]

theorem find?_issueTokens (found : accounts.tokens.find? id = some row) :
    (accounts.issueTokens now user ua fresh previous).2.tokens.find? id = some row :=
  Table.find?_insert_of_find? _ found

/-- The token is there and it is revoked. -/
def Accounts.Revoked (accounts : Accounts) (token : TokenId) : Prop :=
  ∃ row, accounts.tokens.find? token = some row ∧ row.revoked = true

theorem revokeSessionRow_revoked {session : SessionId} :
    (accounts.revokeSessionRow session).Revoked id ↔ accounts.Revoked id := Iff.rfl

theorem revokeRefresh_revokes (found : accounts.tokens.find? id = some row) :
    (accounts.revokeRefresh now id).Revoked id := by
  refine ⟨row.revoke now, ?_, rfl⟩
  rw [find?_revokeRefresh_self, found]
  rfl

theorem revokeAllRefreshTokens_revokes (found : accounts.tokens.find? id = some row)
    (owner : row.userId = user) : (accounts.revokeAllRefreshTokens user).Revoked id := by
  refine ⟨row.revokeFor user, by rw [find?_revokeAllRefreshTokens, found]; rfl, ?_⟩
  unfold RefreshToken.revokeFor
  split
  · rfl
  · rename_i untouched
    simpa [owner] using untouched

theorem Accounts.Revoked.revokeRefresh (revoked : accounts.Revoked id) :
    (accounts.revokeRefresh now other).Revoked id := by
  by_cases same : id = other
  · subst same
    obtain ⟨row, found, _⟩ := revoked
    exact revokeRefresh_revokes found
  · obtain ⟨row, found, isRevoked⟩ := revoked
    exact ⟨row, (find?_revokeRefresh_ne same).trans found, isRevoked⟩

theorem Accounts.Revoked.revokeAll (revoked : accounts.Revoked id) :
    (accounts.revokeAllRefreshTokens user).Revoked id := by
  obtain ⟨row, found, isRevoked⟩ := revoked
  refine ⟨row, ?_, isRevoked⟩
  rw [find?_revokeAllRefreshTokens, found]
  simp [RefreshToken.revokeFor, isRevoked]

/-- No request takes a revocation back. -/
theorem Did.keeps_revoked {call : Call} {result : Response × Accounts}
    (did : Did accounts call result) (revoked : accounts.Revoked id) : result.2.Revoked id := by
  have issue : ∀ {middle : Accounts} {owner previous}, middle.Revoked id →
      (middle.issueTokens call.now owner call.ua call.fresh previous).2.Revoked id := by
    rintro middle owner previous ⟨row, found, isRevoked⟩
    exact ⟨row, find?_issueTokens found, isRevoked⟩
  have blacklisted : ∀ {caller}, (accounts.blacklistAccessToken call.now caller).Revoked id := by
    intro caller
    unfold Accounts.Revoked
    rwa [blacklistAccessToken_tokens]
  cases did with
  | kept => exact revoked
  | login => exact issue revoked
  | signedOff => exact blacklisted
  | loggedOutAlone => exact blacklisted.revokeRefresh
  | loggedOut => exact blacklisted.revokeRefresh
  | loggedOutAll => exact blacklisted.revokeAll
  | revoked => exact revoked.revokeRefresh
  | changed => exact issue blacklisted.revokeAll
  | reset => exact revoked.revokeAll
  | ended => exact revoked.revokeAll
  | dropped => exact revoked.revokeRefresh
  | rotated => exact issue revoked.revokeRefresh

end Tokens

end PredictX.Auth
