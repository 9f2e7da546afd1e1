import PredictX.Client.MutationRequest

namespace PredictX.ApiClient

/-! How often a mutation without a key takes effect.

The client tries again after an answer that it has not seen, or that says the server has failed,
and the server takes the repeated request for a new one.
-/

section Attempts

variable {fate : ℕ → Exchange} {retries sent index first last : ℕ}

/-- Fetch number `index` is one of the attempts of a loop that starts with fetch `first`. -/
def Attempted (fate : ℕ → Exchange) (retries first index : ℕ) : Prop :=
  first ≤ index ∧ index ≤ first + retries ∧
    ∀ earlier, first ≤ earlier → earlier < index → (fate earlier).retried = true

/-- The first attempt is made, and it decides whether the others are. -/
theorem attempted_succ : Attempted fate (retries + 1) first index ↔
    index = first ∨ ((fate first).retried = true ∧ Attempted fate retries (first + 1) index) := by
  constructor
  · rintro ⟨above, upTo, tries⟩
    by_cases isFirst : index = first
    · exact .inl isFirst
    · refine .inr ⟨tries first le_rfl (by omega), by omega, by omega, ?_⟩
      intro earlier after before
      exact tries earlier (by omega) before
  · rintro (rfl | ⟨again, above, upTo, tries⟩)
    · exact ⟨le_rfl, by omega, fun earlier above below => by omega⟩
    · refine ⟨by omega, by omega, fun earlier above below => ?_⟩
      by_cases isFirst : earlier = first
      · exact isFirst ▸ again
      · exact tries earlier (by omega) below

/-- The loop sends its attempts and no others. -/
theorem lt_fetchWithRetry :
    index < (fetchWithRetry fate retries first).2 ↔
      index < first ∨ Attempted fate retries first index := by
  induction retries generalizing first with
  | zero =>
      have only : Attempted fate 0 first index ↔ index = first := by
        constructor
        · rintro ⟨above, upTo, -⟩
          omega
        · rintro rfl
          exact ⟨le_rfl, le_rfl, fun earlier above below => by omega⟩
      rw [fetchWithRetry, only]
      omega
  | succ retries ih =>
      rw [fetchWithRetry, attempted_succ]
      split
      · rename_i again
        rw [ih, Nat.lt_succ_iff_lt_or_eq, or_assoc]
        simp only [again, true_and]
      · rename_i stops
        simp only [stops, false_and, or_false, Bool.false_eq_true]
        omega

/-- The loop's last attempt is the one whose answer it returns. -/
theorem fetchWithRetry_last :
    ∃ last, Attempted fate retries first last ∧
      fetchWithRetry fate retries first = (fate last, last + 1) := by
  induction retries generalizing first with
  | zero => exact ⟨first, ⟨le_rfl, le_rfl, fun earlier above below => by omega⟩, rfl⟩
  | succ retries ih =>
      rw [fetchWithRetry]
      split
      · rename_i again
        obtain ⟨last, attempted, isLast⟩ := @ih (first + 1)
        exact ⟨last, attempted_succ.mpr (.inr ⟨again, attempted⟩), isLast⟩
      · exact ⟨first, attempted_succ.mpr (.inl rfl), rfl⟩

end Attempts

section Requests

variable {request : MutationRequest} {fate : ℕ → Exchange} {index : ℕ}

/-- The schedule has fetch number `index` sent: an attempt of the first loop, or of the loop after
the 401 that the first one ends with. -/
def MutationRequest.Sends (request : MutationRequest) (fate : ℕ → Exchange) (index : ℕ) : Prop :=
  Attempted fate request.retries 0 index ∨
    ∃ refused, Attempted fate request.retries 0 refused ∧ fate refused = .unauthorized ∧
      request.replays = true ∧ Attempted fate request.retries (refused + 1) index

/-- An attempt that is answered 401 is the last of its loop. -/
theorem attempted_unauthorized {retries first refused last : ℕ}
    (attempted : Attempted fate retries first refused) (answer : fate refused = .unauthorized)
    (other : Attempted fate retries first last) : last ≤ refused := by
  by_contra beyond
  have again := other.2.2 refused attempted.1 (by omega)
  rw [answer] at again
  contradiction

theorem lt_run : index < (request.run fate).2 ↔ request.Sends fate index := by
  obtain ⟨last, attempted, isLast⟩ :=
    @fetchWithRetry_last fate request.retries 0
  have sent : ∀ index, index < last + 1 ↔ Attempted fate request.retries 0 index := by
    intro index
    have sends := @lt_fetchWithRetry fate request.retries index 0
    rw [isLast] at sends
    simpa using sends
  have only : ∀ refused, Attempted fate request.retries 0 refused → fate refused = .unauthorized →
      refused = last := by
    intro refused isSent answer
    have upTo := (sent refused).mpr isSent
    have beyond := attempted_unauthorized isSent answer attempted
    omega
  unfold MutationRequest.run MutationRequest.Sends
  rw [isLast]
  dsimp only
  split
  · rename_i replayed
    rw [lt_fetchWithRetry, sent]
    refine or_congr_right ⟨fun again => ⟨last, attempted, replayed.1, replayed.2, again⟩, ?_⟩
    rintro ⟨refused, isSent, answer, -, again⟩
    rwa [only refused isSent answer] at again
  · rename_i stops
    rw [sent]
    refine ⟨.inl, ?_⟩
    rintro (isSent | ⟨refused, isSent, answer, replays, -⟩)
    · exact isSent
    · exact absurd ⟨only refused isSent answer ▸ answer, replays⟩ stops

/-- An execution that is followed by another fetch has not been seen. -/
theorem MutationRequest.Sends.unseen {later : ℕ} (sends : request.Sends fate later)
    (earlier : index < later) (commits : (fate index).commits = true) :
    (fate index).unseen = true := by
  have retried : (fate index).retried = true := by
    obtain attempted | ⟨refused, isSent, answer, -, again⟩ := sends
    · exact attempted.2.2 index (Nat.zero_le index) earlier
    obtain before | isRefused | after := lt_trichotomy index refused
    · exact isSent.2.2 index (Nat.zero_le index) before
    · rw [isRefused, answer] at commits
      contradiction
    · exact again.2.2 index after earlier
  rw [Exchange.unseen, commits, retried, Bool.and_true]

/-- On one schedule a mutation is executed at most once exactly when no execution that the client
does not see is followed by an attempt that executes it again. -/
theorem executions_le_one_iff (request : MutationRequest) (fate : ℕ → Exchange) :
    request.executions fate ≤ 1 ↔
      ∀ earlier later, earlier < later → request.Sends fate later →
        (fate earlier).unseen = true → (fate later).commits = false := by
  have counted : ∀ index, index ∈ ((Finset.range (request.run fate).2).filter
      fun index => (fate index).commits = true) ↔
      request.Sends fate index ∧ (fate index).commits = true := by
    intro index
    rw [Finset.mem_filter, Finset.mem_range, lt_run]
  unfold MutationRequest.executions
  rw [Finset.card_le_one]
  constructor
  · intro alone earlier later before sends unseen
    by_contra commits
    have committed : (fate earlier).commits = true := (Bool.and_eq_true_iff.mp unseen).1
    have sendsEarlier : request.Sends fate earlier := lt_run.mp (before.trans (lt_run.mpr sends))
    have same := alone earlier ((counted earlier).mpr ⟨sendsEarlier, committed⟩)
      later ((counted later).mpr ⟨sends, by simpa using commits⟩)
    omega
  · intro never first isFirst second isSecond
    obtain ⟨sendsFirst, firstCommits⟩ := (counted first).mp isFirst
    obtain ⟨sendsSecond, secondCommits⟩ := (counted second).mp isSecond
    obtain before | same | after := lt_trichotomy first second
    · have silent := never first second before sendsSecond (sendsSecond.unseen before firstCommits)
      exact absurd (secondCommits.symm.trans silent) (by decide)
    · exact same
    · have silent := never second first after sendsFirst (sendsFirst.unseen after secondCommits)
      exact absurd (firstCommits.symm.trans silent) (by decide)

/-- A request that is not tried again sends another fetch only after a 401, which commits nothing. -/
theorem executions_of_no_retries (single : request.retries = 0) (fate : ℕ → Exchange) :
    request.executions fate ≤ 1 := by
  rw [executions_le_one_iff]
  intro earlier later before sends unseen
  unfold MutationRequest.Sends at sends
  rw [single] at sends
  obtain ⟨-, upTo, -⟩ | ⟨refused, isSent, answer, -, again⟩ := sends
  · omega
  · have isFirst : earlier = refused := by
      have := isSent.2.1
      have := again.2.1
      omega
    rw [isFirst, answer] at unseen
    contradiction

/-- The first answer is lost after the commit, and every later fetch succeeds. -/
def answerLost (index : ℕ) : Exchange := if index = 0 then .lost true else .done

/-- One attempt more is enough for a second execution. -/
theorem one_lt_executions_answerLost (tried : request.retries ≠ 0) :
    1 < request.executions answerLost := by
  rw [← not_le, executions_le_one_iff]
  intro never
  have sends : request.Sends answerLost 1 := by
    refine .inl ⟨Nat.zero_le 1, by omega, fun earlier _ before => ?_⟩
    rw [Nat.lt_one_iff.mp before]
    rfl
  exact absurd (never 0 1 Nat.zero_lt_one sends rfl) (by decide)

/-- A mutation is executed at most once exactly on the schedules on which no execution that the
client does not see is followed by an attempt that executes it again; those are all schedules
exactly for a request without retries. -/
theorem executed_once_iff (request : MutationRequest) :
    (∀ fate, request.executions fate ≤ 1 ↔
      ∀ earlier later, earlier < later → request.Sends fate later →
        (fate earlier).unseen = true → (fate later).commits = false) ∧
    ((∀ fate, request.executions fate ≤ 1) ↔ request.retries = 0) := by
  refine ⟨executions_le_one_iff request, fun once => ?_, executions_of_no_retries⟩
  by_contra tried
  exact absurd (once answerLost) (not_le.mpr (one_lt_executions_answerLost tried))

/-- Where nothing recognises a repeated request, the server's state moves with every execution. -/
theorem serve_eq {σ : Type} (mutate : σ → σ) (request : MutationRequest) (fate : ℕ → Exchange)
    (state : σ) :
    request.serve mutate fate state = mutate^[request.executions fate] state := by
  unfold MutationRequest.serve MutationRequest.executions
  induction (request.run fate).2 with
  | zero => rfl
  | succ sent ih =>
      rw [List.range_succ, List.foldl_append, ih, Finset.range_add_one, Finset.filter_insert]
      dsimp only [List.foldl_cons, List.foldl_nil]
      split
      · rw [Finset.card_insert_of_notMem (by simp), Function.iterate_succ_apply']
      · rfl

end Requests

/-- The answer to a split is lost after the commit, and the retry splits again. -/
theorem split_is_executed_twice :
    (MutationRequest.post "/api/v1/split-merge/split" false).executions answerLost = 2 := by
  decide

end PredictX.ApiClient
