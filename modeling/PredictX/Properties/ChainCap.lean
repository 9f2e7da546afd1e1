import PredictX.Properties.FinalRevocation

namespace PredictX.Auth

open PredictX.Data

/-! Is the cap on a login chain absolute?

The deadline is handed from token to token, but the key that holds it expires when the deadline
comes, and is deleted when its token rotates; a token without a key is not capped, and what it
rotates into starts a new chain.
-/

structure Chronicle where
  accounts : Accounts
  /-- When the login took place that a token descends from; of no meaning for other ids. -/
  login : TokenId → ℚ
  /-- The refreshes that issued a pair: the time of that login and their own. -/
  renewals : List (ℚ × ℚ)

namespace Chronicle

def start (users : Table User.id) : Chronicle := ⟨.start users, fun _ => 0, []⟩

def record (chronicle : Chronicle) (call : Call) : Response × Accounts → Chronicle
  | (.issued _ new, after) =>
      match call.request with
      | .refresh (some old) =>
          { accounts := after
            login := Function.update chronicle.login new (chronicle.login old)
            renewals := chronicle.renewals ++ [(chronicle.login old, call.now)] }
      | _ =>
          { accounts := after
            login := Function.update chronicle.login new call.now
            renewals := chronicle.renewals }
  | (_, after) => { chronicle with accounts := after }

def Serves (chronicle : Chronicle) (call : Call) (after : Chronicle) : Prop :=
  call.fresh.Unused chronicle.accounts ∧
    chronicle.record call (handle chronicle.accounts call) = after

/-- A refresh that the row of its token admits finds the deadline of the chain. -/
def Anchored (chronicle : Chronicle) (call : Call) : Prop :=
  ∀ token, call.request = .refresh (some token.id) →
    chronicle.accounts.tokens.find? token.id = some token →
    token.reused call.now call.ua = false → token.Admits chronicle.accounts call →
    chronicle.accounts.refreshChainDeadline call.now token.id ≠ none

structure Capped (chronicle : Chronicle) : Prop where
  deadlines : ∀ token anchor, chronicle.accounts.anchors token = some anchor →
    anchor.deadline ≤ chronicle.login token + refreshChainMaxSeconds
  renewals : ∀ renewal ∈ chronicle.renewals, renewal.2 ≤ renewal.1 + refreshChainMaxSeconds

section Steps

variable {chronicle : Chronicle} {call : Call}

theorem record_silent {response : Response} {after : Accounts}
    (silent : ∀ access new, response ≠ .issued access new) :
    chronicle.record call (response, after) = { chronicle with accounts := after } := by
  cases response with
  | issued access new => exact absurd rfl (silent access new)
  | done => rfl
  | refused => rfl

theorem Capped.silent (capped : chronicle.Capped) {response : Response} {after : Accounts}
    (silent : ∀ access new, response ≠ .issued access new)
    (same : after.anchors = chronicle.accounts.anchors) :
    (chronicle.record call (response, after)).Capped := by
  rw [record_silent silent]
  refine ⟨?_, capped.renewals⟩
  dsimp only
  rw [same]
  exact capped.deadlines

/-- A login starts a chain. -/
theorem Capped.begin (capped : chronicle.Capped) {middle : Accounts} {user : UserId}
    (same : middle.anchors = chronicle.accounts.anchors)
    (request : ∀ token, call.request ≠ .refresh (some token)) :
    (chronicle.record call
      (middle.issueTokens call.now user call.ua call.fresh none)).Capped := by
  have recorded : chronicle.record call
      (middle.issueTokens call.now user call.ua call.fresh none) =
      { accounts := (middle.issueTokens call.now user call.ua call.fresh none).2
        login := Function.update chronicle.login call.fresh.token call.now
        renewals := chronicle.renewals } := by
    unfold record Accounts.issueTokens
    dsimp only
    split
    · rename_i old isRequest
      exact absurd isRequest (request old)
    · rfl
  rw [recorded]
  refine ⟨?_, capped.renewals⟩
  intro token anchor stored
  simp only [Accounts.issueTokens, Accounts.anchorRefreshChain, same] at stored
  dsimp only
  by_cases new : token = call.fresh.token
  · subst new
    rw [Function.update_self] at stored
    cases stored
    rw [Function.update_self]
  · rw [Function.update_of_ne new] at stored
    rw [Function.update_of_ne new]
    exact capped.deadlines token anchor stored

theorem Capped.renew (capped : chronicle.Capped) {token : RefreshToken} {deadline : ℚ}
    (request : call.request = .refresh (some token.id))
    (read : chronicle.accounts.refreshChainDeadline call.now token.id = some deadline)
    (inTime : ¬ deadline < call.now) :
    (chronicle.record call ((chronicle.accounts.revokeRefresh call.now token.id).issueTokens
      call.now token.userId call.ua call.fresh (some token.id))).Capped := by
  have held : deadline ≤ chronicle.login token.id + refreshChainMaxSeconds := by
    obtain ⟨anchor, isStored, rfl⟩ := Option.map_eq_some_iff.mp read
    exact capped.deadlines token.id anchor (Option.filter_eq_some_iff.mp isStored).1
  simp only [record, request, Accounts.issueTokens]
  constructor
  · intro other anchor stored
    have inherited : (chronicle.accounts.revokeRefresh call.now token.id).refreshChainDeadline
        call.now token.id = some deadline := read
    simp only [Accounts.anchorRefreshChain, inherited, Option.getD_some] at stored
    by_cases old : other = token.id
    · subst old
      rw [Function.update_self] at stored
      cases stored
    · rw [Function.update_of_ne old] at stored
      dsimp only
      by_cases new : other = call.fresh.token
      · subst new
        rw [Function.update_self] at stored
        cases stored
        rwa [Function.update_self]
      · rw [Function.update_of_ne new] at stored
        rw [Function.update_of_ne new]
        exact capped.deadlines other anchor stored
  · intro renewal member
    rcases List.mem_append.mp member with before | last
    · exact capped.renewals renewal before
    · obtain rfl := List.mem_singleton.mp last
      exact (not_lt.mp inTime).trans held

theorem Capped.serve (capped : chronicle.Capped) (anchored : chronicle.Anchored call) :
    (chronicle.record call (handle chronicle.accounts call)).Capped := by
  have did : Did chronicle.accounts call (handle chronicle.accounts call) := handle_did
  generalize handle chronicle.accounts call = result at did
  cases did with
  | kept => exact capped.silent (by simp) rfl
  | login request active => exact capped.begin rfl (by simp [request])
  | signedOff request unknown silent =>
      exact capped.silent silent blacklistAccessToken_anchors
  | loggedOutAlone => exact capped.silent (by simp) blacklistAccessToken_anchors
  | loggedOut => exact capped.silent (by simp) blacklistAccessToken_anchors
  | loggedOutAll => exact capped.silent (by simp) blacklistAccessToken_anchors
  | revoked => exact capped.silent (by simp) rfl
  | changed request known =>
      exact capped.begin blacklistAccessToken_anchors (by simp [request])
  | reset => exact capped.silent (by simp) rfl
  | ended => exact capped.silent (by simp) rfl
  | dropped => exact capped.silent (by simp) rfl
  | rotated request found fair inTime admits =>
      obtain ⟨deadline, read⟩ :=
        Option.ne_none_iff_exists'.mp (anchored _ request found fair admits)
      rw [read] at inTime
      exact capped.renew request read (by simpa using inTime)

end Steps

end Chronicle

/-- As long as every admitted refresh finds its deadline, no chain outlives its login by more
than `refresh_chain_max_seconds`. -/
theorem anchored_chains_are_capped {users : Table User.id} {calls : List Call}
    {final : Chronicle} (run : Run Chronicle.Serves Chronicle.Anchored (.start users) calls final) :
    final.Capped := by
  refine run.invariant Chronicle.Capped ?_ ⟨?_, ?_⟩
  · rintro before call after anchored ⟨_, rfl⟩ capped
    exact capped.serve anchored
  · intro token anchor stored
    cases stored
  · intro renewal member
    cases member

/-- A sign-in and a rotation. -/
theorem rotation_is_capped :
    ∃ final, Run Chronicle.Serves Chronicle.Anchored (.start oneUser) [signIn, rotate] final ∧
      final.renewals = [(0, 10)] ∧ final.Capped := by
  have anchored : (Chronicle.start oneUser |>.record signIn
      (handle (.start oneUser) signIn)).Anchored rotate := by
    intro token request found _ _
    rw [← Option.some.inj (Request.refresh.inj request)]
    decide +kernel
  have run : Run Chronicle.Serves Chronicle.Anchored (.start oneUser) [signIn, rotate] _ :=
    .act (by rintro token ⟨⟩) ⟨by decide, rfl⟩
      (.act anchored ⟨by decide +kernel, rfl⟩ (.stop _))
  exact ⟨_, run, by decide +kernel, anchored_chains_are_capped run⟩

/-- 29 days after the login, and two days later. -/
def lastDays : List Call :=
  [signIn, fromBrowser 2505600 2 (.refresh (some 1)), fromBrowser 2678400 3 (.refresh (some 2))]

/-- A second tab presents the token that the first one has just rotated. -/
def twoTabs : List Call :=
  [signIn, fromBrowser 100 2 (.refresh (some 1)), fromBrowser 110 3 (.refresh (some 1))]

/-- The key is gone when the deadline has passed, so a young token of an old chain is renewed on
day 31; and the second tab gets a token that may live until 110 seconds after the deadline. -/
theorem chain_outlives_its_cap :
    (∃ final, Run Chronicle.Serves (fun _ _ => True) (.start oneUser) lastDays final ∧
      (0, 2678400) ∈ final.renewals ∧ 0 + refreshChainMaxSeconds < 2678400) ∧
    ∃ final, Run Chronicle.Serves (fun _ _ => True) (.start oneUser) twoTabs final ∧
      final.login 3 = 0 ∧
      (final.accounts.anchors 3).map Anchor.deadline = some (110 + refreshChainMaxSeconds) := by
  have late : Run Chronicle.Serves (fun _ _ => True) (.start oneUser) lastDays _ :=
    .act trivial ⟨by decide, rfl⟩ (.act trivial ⟨by decide +kernel, rfl⟩
      (.act trivial ⟨by decide +kernel, rfl⟩ (.stop _)))
  have reseeded : Run Chronicle.Serves (fun _ _ => True) (.start oneUser) twoTabs _ :=
    .act trivial ⟨by decide, rfl⟩ (.act trivial ⟨by decide +kernel, rfl⟩
      (.act trivial ⟨by decide +kernel, rfl⟩ (.stop _)))
  exact ⟨⟨_, late, by decide +kernel, by decide +kernel⟩,
    _, reseeded, by decide +kernel, by decide +kernel⟩

end PredictX.Auth
