import PredictX.Services.RateLimitService

namespace PredictX.RateLimitService

open PredictX.Data

/-! Whether waiting helps.

A slowed caller is told how long to wait.  The script that answers her next check finds the
counter still at the threshold and locks again; only `lockoutSeconds` without a call, when
the key expires, let her in.
-/

/-- Every lock leaves the counter at the threshold and ends long before the key does. -/
structure Friction.Sound (friction : Friction) : Prop where
  counted : friction.unlockAt = 0 ∨ maxAttempts ≤ friction.attempts
  outlived : friction.unlockAt + (lockoutSeconds - 16) ≤ friction.expiresAt

def Keys.Sound (keys : Keys) : Prop := ∀ friction, keys.friction = some friction → friction.Sound

variable {now : ℚ} {keys : Keys}

theorem backoff_le (attempts : ℕ) : backoff attempts ≤ 16 := min_le_right _ _

/-- A hash that has not expired answers with its own numbers. -/
theorem frictionAt_eq {friction : Friction} (found : keys.friction = some friction)
    (alive : now ≤ friction.expiresAt) : keys.frictionAt now = some friction := by
  simp [Keys.frictionAt, found, alive]

theorem frictionAt_cases (keys : Keys) (now : ℚ) :
    keys.frictionAt now = none ∨ ∃ friction, keys.frictionAt now = some friction ∧
      keys.friction = some friction ∧ now ≤ friction.expiresAt := by
  cases found : keys.frictionAt now with
  | none => exact .inl rfl
  | some friction =>
      obtain ⟨stored, alive⟩ := Option.filter_eq_some_iff.mp found
      exact .inr ⟨friction, rfl, stored, by simpa using alive⟩

theorem Keys.Sound.progressiveFriction (sound : keys.Sound) :
    (progressiveFriction now keys).1.Sound := by
  have known : ∀ friction, keys.frictionAt now = some friction → friction.Sound := by
    intro friction found
    exact sound friction (Option.filter_eq_some_iff.mp found).1
  unfold RateLimitService.progressiveFriction
  dsimp only
  split
  · exact sound
  rename_i passed
  split
  · rename_i reached
    rintro _ ⟨⟩
    refine ⟨.inr (reached.trans (Nat.le_succ _)), ?_⟩
    have small : (backoff (((keys.frictionAt now).map Friction.attempts).getD 0) : ℚ) ≤ 16 := by
      exact_mod_cast backoff_le _
    dsimp only
    linarith
  · rintro _ ⟨⟩
    refine ⟨?_, ?_⟩
    · cases found : keys.frictionAt now with
      | none => exact .inl rfl
      | some friction =>
          exact (known friction found).counted.imp_right fun reached => reached.trans (Nat.le_succ _)
    · have unlocked : ((keys.frictionAt now).map Friction.unlockAt).getD 0 ≤ now := not_lt.mp passed
      dsimp only
      linarith

theorem Keys.Sound.perform {action : Action} (sound : keys.Sound) :
    (perform now keys action).Sound := by
  have written : (RateLimitService.progressiveFriction now keys).1.Sound :=
    sound.progressiveFriction
  cases action with
  | check limitType =>
      intro friction found
      exact written friction ((checkWithFriction_friction now keys limitType).symm.trans found)
  | fail => exact written
  | reset =>
      rintro friction ⟨⟩

/-- Reachable keys are sound and the clock has started. -/
theorem reachable_sound {calls : List (ℚ × Action)} {state : State}
    (run : Run Steps (fun _ _ => True) ⟨0, .empty⟩ calls state) :
    0 ≤ state.clock ∧ state.keys.Sound := by
  refine run.invariant (fun state : State => 0 ≤ state.clock ∧ state.keys.Sound) ?_
    ⟨le_rfl, fun friction found => by cases found⟩
  rintro state ⟨now, action⟩ after _ ⟨later, rfl⟩ ⟨started, sound⟩
  exact ⟨started.trans later, sound.perform⟩

/-- A hash at the threshold slows every check until it expires. -/
theorem locked_until_expiry {friction : Friction} (found : keys.friction = some friction)
    (reached : maxAttempts ≤ friction.attempts) (alive : now ≤ friction.expiresAt) :
    (progressiveFriction now keys).2.isLocked = true := by
  unfold progressiveFriction
  rw [frictionAt_eq found alive]
  dsimp only [Option.map_some, Option.getD_some]
  rw [if_pos reached]
  split <;> rfl

/-- What a slowed check leaves: the threshold is reached, and the hash outlives the wait. -/
theorem slowed_leaves (sound : keys.Sound) (started : 0 ≤ now)
    (locked : (progressiveFriction now keys).2.isLocked = true) :
    ∃ friction, (progressiveFriction now keys).1.friction = some friction ∧
      maxAttempts ≤ friction.attempts ∧
      now + max 1 ((progressiveFriction now keys).2.delay : ℚ) ≤ friction.expiresAt := by
  unfold progressiveFriction at locked ⊢
  dsimp only at locked ⊢
  split
  · rename_i pending
    rcases frictionAt_cases keys now with absent | ⟨friction, found, stored, alive⟩
    · rw [absent] at pending
      exact absurd (started.trans_lt pending) (lt_irrefl 0)
    · rw [found] at pending ⊢
      dsimp only [Option.map_some, Option.getD_some] at pending ⊢
      have known := sound friction stored
      refine ⟨friction, stored, ?_, ?_⟩
      · rcases known.counted with zero | reached
        · rw [zero] at pending
          exact absurd (started.trans_lt pending) (lt_irrefl 0)
        · exact reached
      · have floor := Int.floor_le (friction.unlockAt - now)
        have outlived := known.outlived
        rcases max_choice (1 : ℚ) (⌊friction.unlockAt - now⌋ : ℚ) with isOne | isFloor
        · rw [isOne]
          norm_num [lockoutSeconds] at outlived
          linarith
        · rw [isFloor]
          norm_num [lockoutSeconds] at outlived
          linarith
  · rename_i passed
    rw [if_neg passed] at locked
    split
    · rename_i reached
      refine ⟨_, rfl, reached.trans (Nat.le_succ _), ?_⟩
      have small : (backoff (((keys.frictionAt now).map Friction.attempts).getD 0) : ℚ) ≤ 16 := by
        exact_mod_cast backoff_le _
      have wait : max 1 (backoff (((keys.frictionAt now).map Friction.attempts).getD 0) : ℚ) ≤ 16 :=
        max_le (by norm_num) small
      have long : (16 : ℚ) ≤ lockoutSeconds := by norm_num [lockoutSeconds]
      dsimp only
      rw [Int.cast_natCast]
      linarith
    · rename_i below
      rw [if_neg below] at locked
      contradiction

/-- Whoever comes back when she was told to is slowed again. -/
theorem waiting_never_unlocks {calls : List (ℚ × Action)} {state : State} {now : ℚ}
    {limitType : LimitType} {wait : ℤ}
    (run : Run Steps (fun _ _ => True) ⟨0, .empty⟩ calls state) (later : state.clock ≤ now)
    (slowed : (checkWithFriction now state.keys limitType).2.2 = true)
    (told : (checkWithFriction now state.keys limitType).2.1.retryAfter = some wait) :
    ¬ ∀ again, now + wait ≤ again → ∀ nextType,
      (checkWithFriction again (checkWithFriction now state.keys limitType).1 nextType).2.2 =
        false := by
  intro unlocked
  obtain ⟨clock, sound⟩ := reachable_sound run
  have locked := (checkWithFriction_slowed now state.keys limitType).symm.trans slowed
  obtain ⟨friction, found, reached, outlived⟩ := slowed_leaves sound (clock.trans later) locked
  have isWait : max 1 (progressiveFriction now state.keys).2.delay = wait :=
    Option.some.inj ((checkWithFriction_retry locked).symm.trans told)
  have alive : now + wait ≤ friction.expiresAt := by
    rw [← isWait]
    exact_mod_cast outlived
  have again := unlocked (now + wait) le_rfl .authDecision
  rw [checkWithFriction_slowed] at again
  have lockedAgain := locked_until_expiry
    ((checkWithFriction_friction now state.keys limitType).trans found) reached alive
  rw [again] at lockedAgain
  contradiction

/-- Five failures, one every second. -/
def typos : List (ℚ × Action) := [(1, .fail), (2, .fail), (3, .fail), (4, .fail), (5, .fail)]

def afterTypos : State :=
  typos.foldl (fun state call => ⟨call.1, perform call.1 state.keys call.2⟩) ⟨0, .empty⟩

theorem typos_run : Run Steps (fun _ _ => True) ⟨0, .empty⟩ typos afterTypos :=
  .act trivial ⟨by decide +kernel, rfl⟩ (.act trivial ⟨by decide +kernel, rfl⟩
    (.act trivial ⟨by decide +kernel, rfl⟩ (.act trivial ⟨by decide +kernel, rfl⟩
      (.act trivial ⟨by decide +kernel, rfl⟩ (.stop _)))))

/-- She is told to wait for a second, waits, and is slowed again. -/
theorem second_of_waiting_is_not_enough :
    Run Steps (fun _ _ => True) ⟨0, .empty⟩ typos afterTypos ∧ afterTypos.clock ≤ 6 ∧
      (checkWithFriction 6 afterTypos.keys .authDecision).2 =
        (⟨true, 5, 0, some 1, true⟩, true) ∧
      (checkWithFriction 7 (checkWithFriction 6 afterTypos.keys .authDecision).1
        .authDecision).2.2 = true := by
  exact ⟨typos_run, by decide +kernel, by decide +kernel, by decide +kernel⟩

theorem typos_keep_her_out :
    (checkWithFriction 6 afterTypos.keys .authDecision).2.2 = true ∧
    ¬ ∀ again, (6 : ℚ) + (1 : ℤ) ≤ again → ∀ nextType,
      (checkWithFriction again (checkWithFriction 6 afterTypos.keys .authDecision).1
        nextType).2.2 = false := by
  have slowed : (checkWithFriction 6 afterTypos.keys .authDecision).2.2 = true := by
    decide +kernel
  exact ⟨slowed, waiting_never_unlocks typos_run (by decide +kernel) slowed (by decide +kernel)⟩

end PredictX.RateLimitService
