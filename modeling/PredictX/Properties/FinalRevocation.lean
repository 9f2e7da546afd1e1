import PredictX.Api.AuthCases

namespace PredictX.Auth

open PredictX.Data

/-! Is a revocation final?

`refresh` forgives a revoked token for `refresh_reuse_grace_seconds` on the device it was issued
to, whatever it was revoked for: the stamp of a logout counts like the stamp of a rotation, and
the bulk revocations leave the stamp of an earlier rotation in place.
-/

/-- The request, served now, revokes every token of the user. -/
inductive RevokesAll (accounts : Accounts) (call : Call) : UserId → Prop
  | logoutAll {caller : Option Caller} {user : User} (request : call.request = .logoutAll caller)
      (known : accounts.getCurrentUser call.now caller = .ok user) : RevokesAll accounts call user.id
  | changePassword {caller : Option Caller} {user : User}
      (request : call.request = .changePassword caller true)
      (known : accounts.getCurrentUser call.now caller = .ok user) : RevokesAll accounts call user.id
  | resetPassword {user : UserId} (request : call.request = .resetPassword user true)
      (known : accounts.users.find? user ≠ none) : RevokesAll accounts call user
  | reuse {token : RefreshToken} (request : call.request = .refresh (some token.id))
      (found : accounts.tokens.find? token.id = some token)
      (reused : token.reused call.now call.ua = true) : RevokesAll accounts call token.userId
  | chainCap {token : RefreshToken} (request : call.request = .refresh (some token.id))
      (found : accounts.tokens.find? token.id = some token)
      (fair : token.reused call.now call.ua = false)
      (passed : (accounts.refreshChainDeadline call.now token.id).any (· < call.now) = true) :
      RevokesAll accounts call token.userId

/-- The request, served now, revokes the token otherwise than by rotating it. -/
inductive Kills (accounts : Accounts) (call : Call) : TokenId → Prop
  | logout {caller : Option Caller} {token : RefreshToken}
      (request : call.request = .logout caller (some token.id))
      (found : accounts.tokens.find? token.id = some token)
      (served : (handle accounts call).1 = .done) : Kills accounts call token.id
  | revokeSession {caller : Option Caller} {session : Session} {token : RefreshToken}
      (request : call.request = .revokeSession caller session.id)
      (linked : accounts.sessions.find? session.id = some session)
      (found : accounts.tokens.find? session.refreshTokenId = some token)
      (served : (handle accounts call).1 = .done) : Kills accounts call token.id
  | all {user : UserId} {token : RefreshToken} (revokes : RevokesAll accounts call user)
      (found : accounts.tokens.find? token.id = some token) (owner : token.userId = user) :
      Kills accounts call token.id

/-- The check that a later request with the token would have to fail. -/
def Forgiven (accounts : Accounts) (call : Call) (token : TokenId) : Prop :=
  ∃ row, accounts.tokens.find? token = some row ∧ row.withinGrace call.now = true ∧
    (accounts.refreshChainDeadline call.now token).any (· < call.now) = false ∧
    row.Admits accounts call

section Kills

variable {accounts : Accounts} {call : Call} {token : TokenId} {user : UserId}

theorem RevokesAll.revokes {row : RefreshToken} (revokes : RevokesAll accounts call user)
    (found : accounts.tokens.find? token = some row) (owner : row.userId = user) :
    (handle accounts call).2.Revoked token := by
  have blacklisted : ∀ {caller},
      (accounts.blacklistAccessToken call.now caller).tokens.find? token = some row := by
    intro caller
    rwa [blacklistAccessToken_tokens]
  cases revokes with
  | logoutAll request known =>
      simp only [handle, request, Auth.logoutAll, known]
      exact revokeAllRefreshTokens_revokes blacklisted owner
  | changePassword request known =>
      simp only [handle, request, Auth.changePassword, known, Bool.not_true, Bool.false_eq_true,
        if_false]
      obtain ⟨after, isAfter, revoked⟩ := revokeAllRefreshTokens_revokes blacklisted owner
      exact ⟨after, find?_issueTokens isAfter, revoked⟩
  | resetPassword request known =>
      obtain ⟨account, isAccount⟩ := Option.ne_none_iff_exists'.mp known
      simp only [handle, request, Auth.resetPassword, isAccount, Bool.not_true, Bool.false_eq_true,
        if_false]
      exact revokeAllRefreshTokens_revokes found owner
  | reuse request isFound reused =>
      simp only [handle, request, refresh, isFound, reused, if_true]
      exact revokeAllRefreshTokens_revokes found owner
  | chainCap request isFound fair passed =>
      simp only [handle, request, refresh, isFound, fair, passed, Bool.false_eq_true, if_false,
        if_true]
      exact revokeAllRefreshTokens_revokes found owner

theorem Kills.revokes (kills : Kills accounts call token) :
    (handle accounts call).2.Revoked token := by
  cases kills with
  | @logout caller row request found served =>
      have blacklisted : ∀ {caller},
          (accounts.blacklistAccessToken call.now caller).tokens.find? row.id = some row := by
        intro caller
        rwa [blacklistAccessToken_tokens]
      have did : Did accounts call (handle accounts call) := handle_did
      generalize handle accounts call = result at did served
      cases did with
      | signedOff isRequest unknown silent =>
          cases request.symm.trans isRequest
          rw [Option.bind_some, found] at unknown
          cases unknown served
      | loggedOutAlone isRequest isFound unlinked =>
          have same := (Request.logout.inj (request.symm.trans isRequest)).2
          rw [← Option.some.inj same]
          exact revokeRefresh_revokes blacklisted
      | loggedOut isRequest isFound linked =>
          have same := (Request.logout.inj (request.symm.trans isRequest)).2
          rw [← Option.some.inj same]
          exact revokeSessionRow_revoked.mpr (revokeRefresh_revokes blacklisted)
      | kept | ended | dropped => cases served
      | login isRequest | loggedOutAll isRequest | revoked isRequest | changed isRequest
      | reset isRequest | rotated isRequest => cases request.symm.trans isRequest
  | @revokeSession caller session row request linked found served =>
      obtain isLinked := Table.key_of_find? found
      have did : Did accounts call (handle accounts call) := handle_did
      generalize handle accounts call = result at did served
      cases did with
      | revoked isRequest isFound =>
          have same := (Request.revokeSession.inj (request.symm.trans isRequest)).2
          rw [← same, linked] at isFound
          cases isFound
          rw [isLinked]
          exact revokeRefresh_revokes found
      | kept | ended | dropped => cases served
      | login isRequest | loggedOutAll isRequest | signedOff isRequest | changed isRequest
      | reset isRequest | rotated isRequest | loggedOut isRequest | loggedOutAlone isRequest =>
          cases request.symm.trans isRequest
  | all revokes found owner => exact revokes.revokes found owner

end Kills

/-- A refresh with a token that an earlier request has revoked for good is refused unless the
grace window forgives it. -/
theorem revoked_token_refused_iff {accounts current : Accounts} {call again : Call}
    {calls : List Call} {token : TokenId} (kills : Kills accounts call token)
    (later : Run Serves (fun _ _ => True) (handle accounts call).2 calls current)
    (request : again.request = .refresh (some token)) :
    (∀ access new, (handle current again).1 ≠ .issued access new) ↔
      ¬ Forgiven current again token := by
  have revoked : current.Revoked token := by
    refine later.invariant (fun accounts : Accounts => accounts.Revoked token) ?_ kills.revokes
    rintro before step after _ ⟨_, rfl⟩ holds
    exact handle_did.keeps_revoked holds
  obtain ⟨row, found, isRevoked⟩ := revoked
  obtain rfl := Table.key_of_find? found
  have issues := refresh_issues_iff request found
  rw [← not_iff_not, not_not]
  push Not
  rw [issues]
  constructor
  · rintro ⟨fair, inTime, admits⟩
    refine ⟨row, found, ?_, inTime, admits⟩
    simpa [RefreshToken.reused, isRevoked, admits.device] using fair
  · rintro ⟨other, isOther, grace, inTime, admits⟩
    cases found.symm.trans isOther
    exact ⟨by simp [RefreshToken.reused, grace, admits.device], inTime, admits⟩

/-! # Replays that are forgiven -/

def oneUser : Table User.id := ⟨[⟨1, true⟩], by decide⟩

/-- A call of user 1 from her browser, at `now`; the ids it may draw are `draw`. -/
def fromBrowser (now : ℚ) (draw : ℕ) (request : Request) : Call :=
  ⟨now, some "browser", ⟨draw, draw, draw⟩, request⟩

/-- The cookie of the pair issued at `now` with the ids `draw`. -/
def cookieOf (now : ℚ) (draw : ℕ) : Option Caller :=
  some ⟨⟨1, some draw, draw, ⌊now + jwtAccessExpire⌋⟩, true⟩

/-- After the calls, a call that kills the token is served, and the next call presents the token
and is issued a new pair. -/
def Survives (calls : List Call) (kill again : Call) (token : TokenId) : Prop :=
  ∃ accounts, Run Serves (fun _ _ => True) (.start oneUser) calls accounts ∧
    kill.fresh.Unused accounts ∧ Kills accounts kill token ∧
    again.request = .refresh (some token) ∧ kill.now < again.now ∧
    again.fresh.Unused (handle accounts kill).2 ∧
    ∃ access new, (handle (handle accounts kill).2 again).1 = .issued access new

def signIn : Call := fromBrowser 0 1 (.login 1 true)

def rotate : Call := fromBrowser 10 2 (.refresh (some 1))

def signedIn : Accounts := (handle (.start oneUser) signIn).2

def rotatedOnce : Accounts := (handle signedIn rotate).2

theorem signedIn_run : Run Serves (fun _ _ => True) (.start oneUser) [signIn] signedIn :=
  .act trivial ⟨by decide, rfl⟩ (.stop _)

theorem rotatedOnce_run :
    Run Serves (fun _ _ => True) (.start oneUser) [signIn, rotate] rotatedOnce :=
  .act trivial ⟨by decide, rfl⟩ (.act trivial ⟨by decide +kernel, rfl⟩ (.stop _))

def signOut : Call := fromBrowser 20 0 (.logout (cookieOf 0 1) (some 1))

theorem signOut_kills : Kills signedIn signOut 1 :=
  @Kills.logout _ _ (cookieOf 0 1) ⟨1, 1, 2592000, false, none, some "browser"⟩ rfl
    (by decide +kernel) (by decide +kernel)

/-- Forty seconds after the logout the token is refused. -/
theorem late_replay_is_refused :
    Kills signedIn signOut 1 ∧ ∀ access new,
      (handle (handle signedIn signOut).2 (fromBrowser 60 2 (.refresh (some 1)))).1 ≠
        .issued access new := by
  refine ⟨signOut_kills, (revoked_token_refused_iff signOut_kills (.stop _) rfl).mpr ?_⟩
  rintro ⟨row, found, grace, _⟩
  have stored : (handle signedIn signOut).2.tokens.find? 1 =
      some ⟨1, 1, 2592000, true, some 20, some "browser"⟩ := by decide +kernel
  cases stored.symm.trans found
  exact absurd grace (by decide +kernel)

/-- The token of a logout ten seconds ago still refreshes, and so does a token that was rotated
just before the password was changed. -/
theorem grace_outlives_revocation :
    Survives [signIn] signOut (fromBrowser 30 2 (.refresh (some 1))) 1 ∧
    Survives [signIn, rotate] (fromBrowser 20 3 (.changePassword (cookieOf 10 2) true))
      (fromBrowser 30 4 (.refresh (some 1))) 1 := by
  constructor
  · exact ⟨signedIn, signedIn_run, by decide +kernel, signOut_kills, rfl, by decide +kernel,
      by decide +kernel, ⟨1, some 2, 2, 930⟩, 2, by decide +kernel⟩
  · refine ⟨rotatedOnce, rotatedOnce_run, by decide +kernel, ?_, rfl, by decide +kernel,
      by decide +kernel, ?_⟩
    · exact @Kills.all _ _ 1 ⟨1, 1, 2592000, true, some 10, some "browser"⟩
        (@RevokesAll.changePassword _ _ (cookieOf 10 2) ⟨1, true⟩ rfl (by decide +kernel))
        (by decide +kernel) rfl
    · exact ⟨⟨1, some 4, 4, 930⟩, 4, by decide +kernel⟩

end PredictX.Auth
