import PredictX.Properties.FinalRevocation

namespace PredictX.Auth

open PredictX.Data

/-! Do sessions die with their tokens?

`logout`, `revoke_session`, `logout_all` and `_revoke_chain` revoke both rows.  The password
requests and every revocation by `refresh` of the token it was shown leave the sessions alone, and
an access token is checked against its session only.
-/

/-- A session that is not revoked has a token that is not revoked. -/
def Accounts.SessionsLive (accounts : Accounts) : Prop :=
  ∀ session ∈ accounts.sessions.rows, session.revoked = false →
    ∃ token, accounts.tokens.find? session.refreshTokenId = some token ∧ token.revoked = false

/-- The request is about to give the user a new password. -/
inductive ChangesPassword (accounts : Accounts) (call : Call) : UserId → Prop
  | change {caller : Option Caller} {user : User}
      (request : call.request = .changePassword caller true)
      (known : accounts.getCurrentUser call.now caller = .ok user) :
      ChangesPassword accounts call user.id
  | reset {user : UserId} (request : call.request = .resetPassword user true)
      (known : accounts.users.find? user ≠ none) : ChangesPassword accounts call user

/-- The request is about to revoke the token and no session. -/
inductive Orphans (accounts : Accounts) (call : Call) : TokenId → Prop
  | password {user : UserId} {token : RefreshToken} (changes : ChangesPassword accounts call user)
      (found : accounts.tokens.find? token.id = some token) (owner : token.userId = user) :
      Orphans accounts call token.id
  | refresh {token : RefreshToken} (request : call.request = .refresh (some token.id))
      (found : accounts.tokens.find? token.id = some token)
      (fair : token.reused call.now call.ua = false)
      (inTime : (accounts.refreshChainDeadline call.now token.id).any (· < call.now) = false)
      (judged : token.expiresAt ≤ call.now ∨
        (accounts.users.find? token.userId).any User.isActive = true) :
      Orphans accounts call token.id

/-- No live session hangs on a token that the request revokes alone. -/
def Orderly (accounts : Accounts) (call : Call) : Prop :=
  ∀ token, Orphans accounts call token →
    ∀ session ∈ accounts.sessions.rows, session.refreshTokenId = token → session.revoked = true

structure Kept (accounts : Accounts) : Prop where
  linked : ∀ session ∈ accounts.sessions.rows,
    ∃ token, accounts.tokens.find? session.refreshTokenId = some token ∧
      token.userId = session.userId ∧ (session.revoked = false → token.revoked = false)
  single : ∀ session ∈ accounts.sessions.rows, ∀ other ∈ accounts.sessions.rows,
    session.refreshTokenId = other.refreshTokenId → session = other

theorem Kept.live {accounts : Accounts} (kept : Kept accounts) : accounts.SessionsLive := by
  intro session member live
  obtain ⟨token, found, _, alive⟩ := kept.linked session member
  exact ⟨token, found, alive live⟩

theorem kept_start (users : Table User.id) : Kept (.start users) := by
  refine ⟨?_, ?_⟩
  · intro session member
    cases member
  · intro session member
    cases member

section Tables

variable {accounts after : Accounts}

/-- Sessions may be revoked at any time. -/
theorem Kept.sessions (kept : Kept accounts) (update : Session → Session)
    (sameTokens : after.tokens = accounts.tokens)
    (updated : after.sessions.rows = accounts.sessions.rows.map update)
    (keeps : ∀ session, (update session).refreshTokenId = session.refreshTokenId ∧
      (update session).userId = session.userId ∧
      ((update session).revoked = false → session.revoked = false)) : Kept after := by
  constructor
  · intro session member
    rw [updated] at member
    obtain ⟨old, oldMember, rfl⟩ := List.mem_map.mp member
    obtain ⟨token, found, owner, alive⟩ := kept.linked old oldMember
    obtain ⟨sameToken, sameUser, wasLive⟩ := keeps old
    rw [sameTokens, sameToken, sameUser]
    exact ⟨token, found, owner, fun live => alive (wasLive live)⟩
  · intro session member other otherMember same
    rw [updated] at member otherMember
    obtain ⟨old, oldMember, rfl⟩ := List.mem_map.mp member
    obtain ⟨otherOld, otherOldMember, rfl⟩ := List.mem_map.mp otherMember
    rw [(keeps old).1, (keeps otherOld).1] at same
    rw [kept.single old oldMember otherOld otherOldMember same]

theorem Kept.revokeSessionRow (kept : Kept accounts) (session : SessionId) :
    Kept (accounts.revokeSessionRow session) := by
  refine kept.sessions (fun row => if row.id = session then row.revoke else row) rfl rfl ?_
  intro row
  split
  · exact ⟨rfl, rfl, fun live => by cases live⟩
  · exact ⟨rfl, rfl, id⟩

theorem Kept.revokeSessionsOf (kept : Kept accounts) (user : UserId) :
    Kept (accounts.revokeSessionsOf user) := by
  refine kept.sessions (Session.revokeFor user) rfl rfl ?_
  intro row
  unfold Session.revokeFor
  split
  · exact ⟨rfl, rfl, fun live => by cases live⟩
  · exact ⟨rfl, rfl, id⟩

/-- A token may be revoked when its sessions are. -/
theorem Kept.tokens (kept : Kept accounts) (sameSessions : after.sessions = accounts.sessions)
    (updated : ∀ id token, accounts.tokens.find? id = some token →
      ∃ next, after.tokens.find? id = some next ∧ next.userId = token.userId ∧
        (next.revoked = token.revoked ∨ ∀ session ∈ accounts.sessions.rows,
          session.refreshTokenId = id → session.revoked = true)) : Kept after := by
  constructor
  · intro session member
    rw [sameSessions] at member
    obtain ⟨token, found, owner, alive⟩ := kept.linked session member
    obtain ⟨next, isNext, sameUser, same | ended⟩ := updated _ token found
    · exact ⟨next, isNext, sameUser.trans owner, fun live => same.trans (alive live)⟩
    · refine ⟨next, isNext, sameUser.trans owner, fun live => ?_⟩
      rw [ended session member rfl] at live
      contradiction
  · rw [sameSessions]
    exact kept.single

theorem Kept.revokeRefresh {now : ℚ} {id : TokenId} (kept : Kept accounts)
    (ended : ∀ session ∈ accounts.sessions.rows, session.refreshTokenId = id →
      session.revoked = true) : Kept (accounts.revokeRefresh now id) := by
  refine kept.tokens rfl ?_
  intro other token found
  by_cases same : other = id
  · subst same
    refine ⟨token.revoke now, ?_, rfl, .inr ended⟩
    rw [find?_revokeRefresh_self, found]
    rfl
  · exact ⟨token, (find?_revokeRefresh_ne same).trans found, rfl, .inl rfl⟩

theorem Kept.revokeAll {user : UserId} (kept : Kept accounts)
    (ended : ∀ id token, accounts.tokens.find? id = some token → token.userId = user →
      ∀ session ∈ accounts.sessions.rows, session.refreshTokenId = id → session.revoked = true) :
    Kept (accounts.revokeAllRefreshTokens user) := by
  refine kept.tokens rfl ?_
  intro id token found
  refine ⟨token.revokeFor user, by rw [find?_revokeAllRefreshTokens, found]; rfl, ?_⟩
  unfold RefreshToken.revokeFor
  split
  · rename_i owned
    exact ⟨rfl, .inr (ended id token found owned.1)⟩
  · exact ⟨rfl, .inl rfl⟩

theorem Kept.revokeChain (kept : Kept accounts) (user : UserId) :
    Kept (accounts.revokeChain user) := by
  have sessionsFirst : Kept ((accounts.revokeSessionsOf user).revokeAllRefreshTokens user) := by
    refine (kept.revokeSessionsOf user).revokeAll ?_
    intro id token found owner session member isLinked
    obtain ⟨old, oldMember, rfl⟩ := List.mem_map.mp member
    have link : (old.revokeFor user).refreshTokenId = old.refreshTokenId := by
      unfold Session.revokeFor
      split <;> rfl
    rw [link] at isLinked
    obtain ⟨linkedToken, isLinkedToken, sameUser, _⟩ := kept.linked old oldMember
    rw [isLinked] at isLinkedToken
    cases isLinkedToken.symm.trans found
    unfold Session.revokeFor
    split
    · rfl
    · rename_i untouched
      simpa [← sameUser, owner] using untouched
  exact sessionsFirst

theorem Kept.issueTokens {now : ℚ} {user : UserId} {ua : Option String} {fresh : Fresh}
    {previous : Option TokenId} (kept : Kept accounts) (unused : fresh.Unused accounts) :
    Kept (accounts.issueTokens now user ua fresh previous).2 := by
  have rows : (accounts.issueTokens now user ua fresh previous).2.sessions.rows =
      accounts.sessions.rows ++ [⟨fresh.session, user, fresh.token, now + jwtRefreshExpire, false⟩] :=
    Table.insert_rows _ unused.2
  have older : ∀ session ∈ accounts.sessions.rows, session.refreshTokenId ≠ fresh.token := by
    intro session member same
    obtain ⟨token, found, _⟩ := kept.linked session member
    rw [same, unused.1] at found
    contradiction
  constructor
  · intro session member
    rw [rows] at member
    rcases List.mem_append.mp member with before | last
    · obtain ⟨token, found, facts⟩ := kept.linked session before
      exact ⟨token, find?_issueTokens found, facts⟩
    · obtain rfl := List.mem_singleton.mp last
      exact ⟨_, Table.find?_insert_self _ unused.1, rfl, fun _ => rfl⟩
  · intro session member other otherMember same
    rw [rows] at member otherMember
    rcases List.mem_append.mp member with before | last <;>
      rcases List.mem_append.mp otherMember with otherBefore | otherLast
    · exact kept.single session before other otherBefore same
    · obtain rfl := List.mem_singleton.mp otherLast
      exact absurd same (older session before)
    · obtain rfl := List.mem_singleton.mp last
      exact absurd same.symm (older other otherBefore)
    · rw [List.mem_singleton.mp last, List.mem_singleton.mp otherLast]

/-- With its session, nothing hangs on a token any more. -/
theorem Kept.revokeSessionRow_ends {session : Session} (kept : Kept accounts)
    (member : session ∈ accounts.sessions.rows) :
    ∀ row ∈ (accounts.revokeSessionRow session.id).sessions.rows,
      row.refreshTokenId = session.refreshTokenId → row.revoked = true := by
  intro row rowMember isLinked
  obtain ⟨old, oldMember, rfl⟩ := List.mem_map.mp rowMember
  split
  · rfl
  · rename_i different
    rw [if_neg different] at isLinked
    exact absurd (congrArg Session.id (kept.single old oldMember session member isLinked)) different

theorem Fresh.Unused.revokeRefresh {now : ℚ} {id : TokenId} {fresh : Fresh}
    (unused : fresh.Unused accounts) : fresh.Unused (accounts.revokeRefresh now id) := by
  refine ⟨?_, unused.2⟩
  by_cases same : fresh.token = id
  · rw [← same, find?_revokeRefresh_self, unused.1]
    rfl
  · rw [find?_revokeRefresh_ne same, unused.1]

theorem Fresh.Unused.revokeAll {user : UserId} {fresh : Fresh} (unused : fresh.Unused accounts) :
    fresh.Unused (accounts.revokeAllRefreshTokens user) := by
  refine ⟨?_, unused.2⟩
  rw [find?_revokeAllRefreshTokens, unused.1]
  rfl

theorem Fresh.Unused.blacklisted {now : ℚ} {caller : Option Caller} {fresh : Fresh}
    (unused : fresh.Unused accounts) : fresh.Unused (accounts.blacklistAccessToken now caller) := by
  unfold Fresh.Unused
  rwa [blacklistAccessToken_tokens, blacklistAccessToken_sessions]

theorem Kept.blacklisted {now : ℚ} {caller : Option Caller} (kept : Kept accounts) :
    Kept (accounts.blacklistAccessToken now caller) := by
  refine kept.tokens blacklistAccessToken_sessions ?_
  intro id token found
  rw [blacklistAccessToken_tokens]
  exact ⟨token, found, rfl, .inl rfl⟩

end Tables

section Steps

variable {accounts : Accounts} {call : Call}

/-- The tokens of a user who changes her password, in an orderly request. -/
theorem Orderly.password {user : UserId} (orderly : Orderly accounts call)
    (changes : ChangesPassword accounts call user) :
    ∀ id token, accounts.tokens.find? id = some token → token.userId = user →
      ∀ session ∈ accounts.sessions.rows, session.refreshTokenId = id →
        session.revoked = true := by
  intro id token found owner
  obtain rfl := Table.key_of_find? found
  exact orderly token.id (.password changes found owner)

theorem Kept.serve (kept : Kept accounts) (unused : call.fresh.Unused accounts)
    (orderly : Orderly accounts call) : Kept (handle accounts call).2 := by
  have did : Did accounts call (handle accounts call) := handle_did
  generalize handle accounts call = result at did
  cases did with
  | kept => exact kept
  | login => exact kept.issueTokens unused
  | signedOff => exact kept.blacklisted
  | @loggedOutAlone caller record request found unlinked =>
      refine kept.blacklisted.revokeRefresh ?_
      intro session member isLinked
      rw [blacklistAccessToken_sessions] at member
      have listed : session ∈ accounts.sessions.rows.filter (·.refreshTokenId = record.id) :=
        List.mem_filter.mpr ⟨member, decide_eq_true isLinked⟩
      rw [unlinked] at listed
      cases listed
  | @loggedOut caller record session request found linked =>
      -- The two updates are of different tables, so the session may come first.
      have sessionFirst : Kept (((accounts.blacklistAccessToken call.now caller).revokeSessionRow
          session.id).revokeRefresh call.now record.id) := by
        have listed : session ∈ accounts.sessions.rows.filter (·.refreshTokenId = record.id) := by
          rw [linked]
          exact List.mem_singleton_self session
        obtain ⟨member, isLinked⟩ := List.mem_filter.mp listed
        rw [← of_decide_eq_true isLinked]
        refine (kept.blacklisted.revokeSessionRow session.id).revokeRefresh ?_
        exact kept.blacklisted.revokeSessionRow_ends (by rwa [blacklistAccessToken_sessions])
      exact sessionFirst
  | loggedOutAll => exact kept.blacklisted.revokeChain _
  | @revoked caller session request found =>
      exact (kept.revokeSessionRow session.id).revokeRefresh
        (kept.revokeSessionRow_ends (Table.mem_of_find? found))
  | changed request known =>
      refine Kept.issueTokens (kept.blacklisted.revokeAll ?_) unused.blacklisted.revokeAll
      rw [blacklistAccessToken_tokens, blacklistAccessToken_sessions]
      exact orderly.password (.change request known)
  | reset request known => exact kept.revokeAll (orderly.password (.reset request known))
  | ended => exact kept.revokeChain _
  | dropped request found fair inTime judged =>
      exact kept.revokeRefresh (orderly _ (.refresh request found fair inTime judged))
  | rotated request found fair inTime admits =>
      exact Kept.issueTokens (kept.revokeRefresh
        (orderly _ (.refresh request found fair inTime (.inr admits.active))))
        unused.revokeRefresh

end Steps

/-! # Access tokens -/

/-- The session is there and it is revoked. -/
def Accounts.SessionRevoked (accounts : Accounts) (id : SessionId) : Prop :=
  ∃ session, accounts.sessions.find? id = some session ∧ session.revoked = true

section Access

variable {accounts : Accounts} {call : Call} {id : SessionId}

theorem getCurrentUser_refuses {now : ℚ} {caller : Caller} (revoked : accounts.SessionRevoked id)
    (bound : caller.access.sid = some id) :
    ∃ refusal, accounts.getCurrentUser now (some caller) = .error refusal := by
  obtain ⟨session, found, isRevoked⟩ := revoked
  simp only [Accounts.getCurrentUser, Accounts.loadUser]
  split
  · exact ⟨_, rfl⟩
  split
  · exact ⟨_, rfl⟩
  split
  · exact ⟨_, rfl⟩
  rename_i user isUser
  split
  · simp only [Accounts.validateSession, bound, found, isRevoked, if_true]
    split <;> exact ⟨_, rfl⟩
  · exact ⟨_, rfl⟩

theorem Accounts.SessionRevoked.revokeRow {other : SessionId}
    (revoked : accounts.SessionRevoked id) : (accounts.revokeSessionRow other).SessionRevoked id := by
  obtain ⟨session, found, isRevoked⟩ := revoked
  unfold Accounts.SessionRevoked Accounts.revokeSessionRow
  dsimp only
  by_cases same : id = other
  · subst same
    exact ⟨session.revoke, by rw [Table.find?_modify_self, found]; rfl, rfl⟩
  · exact ⟨session, by rw [Table.find?_modify_ne same, found], isRevoked⟩

theorem Accounts.SessionRevoked.revokeAll {user : UserId} (revoked : accounts.SessionRevoked id) :
    (accounts.revokeSessionsOf user).SessionRevoked id := by
  obtain ⟨session, found, isRevoked⟩ := revoked
  unfold Accounts.SessionRevoked Accounts.revokeSessionsOf
  dsimp only
  refine ⟨session, ?_, isRevoked⟩
  rw [Table.find?_updateAll, found]
  simp [Session.revokeFor, isRevoked]

/-- No request brings a session back. -/
theorem Did.keeps_session {result : Response × Accounts} (did : Did accounts call result)
    (revoked : accounts.SessionRevoked id) : result.2.SessionRevoked id := by
  have issue : ∀ {middle : Accounts} {owner previous}, middle.SessionRevoked id →
      (middle.issueTokens call.now owner call.ua call.fresh previous).2.SessionRevoked id := by
    rintro middle owner previous ⟨session, found, isRevoked⟩
    exact ⟨session, Table.find?_insert_of_find? _ found, isRevoked⟩
  have blacklisted : ∀ {caller},
      (accounts.blacklistAccessToken call.now caller).SessionRevoked id := by
    intro caller
    unfold Accounts.SessionRevoked
    rwa [blacklistAccessToken_sessions]
  cases did with
  | kept | reset | dropped => exact revoked
  | login | rotated => exact issue revoked
  | signedOff | loggedOutAlone => exact blacklisted
  | loggedOut => exact blacklisted.revokeRow
  | loggedOutAll => exact blacklisted.revokeAll
  | revoked => exact revoked.revokeRow
  | changed => exact issue blacklisted
  | ended => exact revoked.revokeAll

end Access

/-- As long as no request revokes a token under a live session, sessions live as long as their
tokens, and a new password ends every session of the user. -/
theorem orderly_sessions_end_with_tokens {users : Table User.id} {calls rest : List Call}
    {before final : Accounts} (earlier : Run Serves Orderly (.start users) calls before)
    (later : Run Serves Orderly before rest final) :
    final.SessionsLive ∧
    ∀ call others user, rest = call :: others → ChangesPassword before call user →
      ∀ session ∈ before.sessions.rows, session.userId = user →
      ∀ now (caller : Caller), caller.access.sid = some session.id →
        ∃ refusal, final.getCurrentUser now (some caller) = .error refusal := by
  have step : ∀ accounts call after, Orderly accounts call → Serves accounts call after →
      Kept accounts → Kept after := by
    rintro accounts call after orderly ⟨unused, rfl⟩ kept
    exact kept.serve unused orderly
  have kept : Kept before := earlier.invariant Kept step (kept_start users)
  refine ⟨(later.invariant Kept step kept).live, ?_⟩
  rintro call others user rfl changes session member owner now caller bound
  obtain ⟨token, found, sameUser, _⟩ := kept.linked session member
  cases later with
  | act orderly serves later =>
      have isRevoked := orderly.password changes _ token found (sameUser.trans owner)
        session member rfl
      have revoked : before.SessionRevoked session.id :=
        ⟨session, Table.find?_key_of_mem member, isRevoked⟩
      have keeps : ∀ accounts call after, Orderly accounts call → Serves accounts call after →
          accounts.SessionRevoked session.id → after.SessionRevoked session.id := by
        rintro accounts call after _ ⟨_, rfl⟩ revoked
        exact handle_did.keeps_session revoked
      exact getCurrentUser_refuses
        (later.invariant (·.SessionRevoked session.id) keeps (keeps _ _ _ orderly serves revoked))
        bound

def signedOut : Accounts := (handle signedIn signOut).2

/-- A reset after the only session was signed out. -/
theorem signed_out_session_is_refused :
    ∃ final, Run Serves Orderly (.start oneUser) [signIn, signOut] signedOut ∧
      Run Serves Orderly signedOut [fromBrowser 30 3 (.resetPassword 1 true)] final ∧
      final.SessionsLive ∧ ∃ refusal, final.getCurrentUser 40 (cookieOf 0 1) = .error refusal := by
  have known : signedOut.users.find? 1 ≠ none := by decide +kernel
  have unrelated : ∀ accounts, Orderly accounts signIn ∧ Orderly accounts signOut := by
    intro accounts
    constructor <;> intro token orphans <;> cases orphans with
    | password changes found owner => cases changes with
      | change request known => cases request
      | reset request known => cases request
    | refresh request => cases request
  have ended : ∀ session ∈ signedOut.sessions.rows, session.revoked = true := by decide +kernel
  have earlier : Run Serves Orderly (.start oneUser) [signIn, signOut] signedOut :=
    .act (unrelated _).1 ⟨by decide, rfl⟩
      (.act (unrelated _).2 ⟨by decide +kernel, rfl⟩ (.stop _))
  have later : Run Serves Orderly signedOut [fromBrowser 30 3 (.resetPassword 1 true)] _ :=
    .act (fun _ _ session member _ => ended session member) ⟨by decide +kernel, rfl⟩ (.stop _)
  obtain ⟨live, refused⟩ := orderly_sessions_end_with_tokens earlier later
  exact ⟨_, earlier, later, live, refused _ [] 1 rfl (.reset rfl known)
    ⟨1, 1, 1, 2592000, true⟩ (by decide +kernel) rfl 40 _ rfl⟩

/-! # Orphaned sessions -/

/-- The same user on a second device. -/
def signInAgain : Call := fromBrowser 5 2 (.login 1 true)

/-- The session of the first device outlives a change of the password from the second, a reset,
and its own rotation. -/
theorem sessions_outlive_their_tokens :
    (∃ final, Run Serves (fun _ _ => True) (.start oneUser)
        [signIn, signInAgain, fromBrowser 20 3 (.changePassword (cookieOf 5 2) true)] final ∧
      final.getCurrentUser 30 (cookieOf 0 1) = .ok ⟨1, true⟩) ∧
    (∃ final, Run Serves (fun _ _ => True) (.start oneUser)
        [signIn, fromBrowser 20 3 (.resetPassword 1 true)] final ∧
      final.getCurrentUser 30 (cookieOf 0 1) = .ok ⟨1, true⟩) ∧
    ∃ session token, rotatedOnce.sessions.find? 1 = some session ∧ session.revoked = false ∧
      rotatedOnce.tokens.find? session.refreshTokenId = some token ∧ token.revoked = true := by
  have changed : Run Serves (fun _ _ => True) (.start oneUser)
      [signIn, signInAgain, fromBrowser 20 3 (.changePassword (cookieOf 5 2) true)] _ :=
    .act trivial ⟨by decide, rfl⟩ (.act trivial ⟨by decide +kernel, rfl⟩
      (.act trivial ⟨by decide +kernel, rfl⟩ (.stop _)))
  have reset : Run Serves (fun _ _ => True) (.start oneUser)
      [signIn, fromBrowser 20 3 (.resetPassword 1 true)] _ :=
    .act trivial ⟨by decide, rfl⟩ (.act trivial ⟨by decide +kernel, rfl⟩ (.stop _))
  exact ⟨⟨_, changed, by decide +kernel⟩, ⟨_, reset, by decide +kernel⟩,
    ⟨1, 1, 1, 2592000, false⟩, ⟨1, 1, 2592000, true, some 10, some "browser"⟩,
    by decide +kernel, rfl, by decide +kernel, rfl⟩

end PredictX.Auth
