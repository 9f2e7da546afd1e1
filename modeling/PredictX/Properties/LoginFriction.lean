import PredictX.Api.Login

namespace PredictX.Login

open PredictX.RateLimitService

/-! When logins are slowed.

Every call of the friction script counts once, and a failed login calls it up to three times.
Until the first login is slowed, the counter stands at what the logins before it were charged.
-/

/-- A login request when it is handled, and the account it finds then. -/
structure Visit where
  time : ℚ
  started : 0 ≤ time
  found : Option User
  data : LoginRequest

def logins (crypto : Crypto) (maxAttempts : ℕ) : List Visit → Keys → List Answer
  | [], _ => []
  | visit :: rest, keys =>
      let (after, answer) := login crypto maxAttempts visit.time visit.found visit.data keys
      answer :: logins crypto maxAttempts rest after

def Answer.isSlowed : Answer → Bool
  | .slowed _ => true
  | _ => false

def Answer.hasFailed (answer : Answer) : Bool := answer ≠ .welcome

/-- Nobody is slowed before `maxAttempts` requests have failed. -/
def Patient (maxAttempts : ℕ) (answers : List Answer) : Prop :=
  ∀ earlier answer later, answers = earlier ++ answer :: later → answer.isSlowed →
    maxAttempts ≤ earlier.countP Answer.hasFailed

/-! # What a login is charged -/

theorem lockoutSeconds_nonneg : 0 ≤ lockoutSeconds := by norm_num [lockoutSeconds]

/-- A sliding window turns the request away. -/
def refuses (now : ℚ) (keys : Keys) (limitType : LimitType) : Bool :=
  limitType.limits.1 ≤
    ((keys.windows limitType).filter fun stamp => now - limitType.limits.2 < stamp).length

/-- How often a login that is not slowed calls the friction script. -/
def charge (crypto : Crypto) (keys : Keys) (visit : Visit) : ℕ :=
  if refuses visit.time keys .authDecision || refuses visit.time keys .accountAuth then 1
  else 2 + (verify crypto visit.found visit.data).1

/-- What was charged since the counter last expired, and when it will expire. -/
structure Tally where
  total : ℕ
  expiresAt : ℚ
deriving DecidableEq, Repr

def Tally.start : Tally := ⟨0, 0⟩

/-- What is charged at a moment: after a pause, nothing. -/
def Tally.at (tally : Tally) (now : ℚ) : ℕ := if now ≤ tally.expiresAt then tally.total else 0

def Tally.add (tally : Tally) (now : ℚ) (charge : ℕ) : Tally :=
  ⟨tally.at now + charge, now + lockoutSeconds⟩

theorem Tally.at_add {tally : Tally} {now : ℚ} (charge : ℕ) :
    (tally.add now charge).at now = tally.at now + charge :=
  if_pos (le_add_of_nonneg_right lockoutSeconds_nonneg)

theorem Tally.add_add {tally : Tally} {now : ℚ} (charge more : ℕ) :
    (tally.add now charge).add now more = tally.add now (charge + more) := by
  rw [Tally.add, Tally.at_add, Nat.add_assoc]
  rfl

/-- What some logins were charged. -/
def charged (crypto : Crypto) (maxAttempts : ℕ) : List Visit → Keys → Tally → Tally
  | [], _, tally => tally
  | visit :: rest, keys, tally =>
      charged crypto maxAttempts rest
        (login crypto maxAttempts visit.time visit.found visit.data keys).1
        (tally.add visit.time (charge crypto keys visit))

/-- The counter under the friction key is what was charged, up to the threshold. -/
inductive Counted (maxAttempts : ℕ) (tally : Tally) : Option Friction → Prop
  | absent (free : tally.total = 0) : Counted maxAttempts tally none
  | stored {friction : Friction} (expires : friction.expiresAt = tally.expiresAt)
      (below : tally.total < maxAttempts →
        friction.attempts = tally.total ∧ friction.unlockAt = 0)
      (reached : maxAttempts ≤ tally.total → maxAttempts ≤ friction.attempts) :
      Counted maxAttempts tally (some friction)

section Script

variable {maxAttempts : ℕ} {tally : Tally} {now : ℚ} {keys : Keys}

/-- What the script finds. -/
theorem Counted.found (counted : Counted maxAttempts tally keys.friction) :
    (tally.at now < maxAttempts →
      ((keys.frictionAt now).map Friction.attempts).getD 0 = tally.at now ∧
      ((keys.frictionAt now).map Friction.unlockAt).getD 0 = 0) ∧
    (maxAttempts ≤ tally.at now →
      maxAttempts ≤ ((keys.frictionAt now).map Friction.attempts).getD 0) := by
  unfold Keys.frictionAt Tally.at
  cases isFriction : keys.friction with
  | none =>
      rw [isFriction] at counted
      cases counted with
      | absent free =>
          rw [free, ite_self]
          exact ⟨fun _ => ⟨rfl, rfl⟩, fun reached => reached⟩
  | some friction =>
      rw [isFriction] at counted
      cases counted with
      | stored expires below reached =>
          rw [Option.filter_some, expires]
          by_cases alive : now ≤ tally.expiresAt
          · rw [if_pos alive, if_pos (decide_eq_true alive)]
            exact ⟨below, reached⟩
          · rw [if_neg alive, if_neg (by simpa using alive)]
            exact ⟨fun _ => ⟨rfl, rfl⟩, fun reached => reached⟩

/-- The script locks when `maxAttempts` are charged. -/
theorem Counted.isLocked_iff (counted : Counted maxAttempts tally keys.friction)
    (started : 0 ≤ now) :
    (progressiveFrictionOf maxAttempts now keys).2.isLocked = true ↔
      maxAttempts ≤ tally.at now := by
  obtain ⟨below, reached⟩ := @Counted.found _ _ now _ counted
  unfold progressiveFrictionOf
  rcases Nat.lt_or_ge (tally.at now) maxAttempts with under | full
  · obtain ⟨attempts, unlockAt⟩ := below under
    rw [attempts, unlockAt, if_neg started.not_gt, if_neg under.not_ge]
    simpa using under
  · dsimp only
    rw [if_pos (reached full)]
    split <;> simpa using full

/-- A call of the script counts once, the first one of a request as long as it does not lock, and
every further one at the same moment. -/
theorem Counted.strike (counted : Counted maxAttempts tally keys.friction) (started : 0 ≤ now)
    (open_ : tally.at now < maxAttempts ∨ tally.expiresAt = now + lockoutSeconds) :
    Counted maxAttempts (tally.add now 1) (progressiveFrictionOf maxAttempts now keys).1.friction := by
  obtain ⟨below, reached⟩ := @Counted.found _ _ now _ counted
  unfold progressiveFrictionOf
  rcases Nat.lt_or_ge (tally.at now) maxAttempts with under | full
  · obtain ⟨attempts, unlockAt⟩ := below under
    rw [attempts, unlockAt, if_neg started.not_gt, if_neg under.not_ge]
    exact .stored rfl (fun _ => ⟨rfl, rfl⟩) id
  · dsimp only
    rw [if_pos (reached full)]
    have counts : maxAttempts ≤ (tally.add now 1).total := full.trans (Nat.le_succ _)
    split
    · -- an earlier call at this moment has locked
      rename_i pending
      have expires := open_.resolve_left full.not_gt
      cases isFriction : keys.friction with
      | none =>
          rw [Keys.frictionAt, isFriction] at pending
          exact absurd pending started.not_gt
      | some friction =>
          rw [isFriction] at counted
          cases counted with
          | stored same _ whole =>
              have alive : tally.at now = tally.total :=
                if_pos (expires ▸ le_add_of_nonneg_right lockoutSeconds_nonneg)
              exact .stored (same.trans expires) (fun under => absurd counts under.not_ge)
                fun _ => whole (alive ▸ full)
    · exact .stored rfl (fun under => absurd counts under.not_ge)
        fun _ => (reached full).trans (Nat.le_succ _)

/-- Calls at one moment. -/
theorem Counted.strikes {before : ℕ}
    (counted : Counted maxAttempts (tally.add now before) keys.friction) (started : 0 ≤ now)
    (times : ℕ) :
    Counted maxAttempts (tally.add now (before + times))
      ((recordFailureOf maxAttempts now)^[times] keys).friction := by
  induction times with
  | zero => exact counted
  | succ times ih =>
      rw [Function.iterate_succ_apply', ← Nat.add_assoc, ← Tally.add_add]
      exact ih.strike started (.inr rfl)

end Script

/-! # One login -/

section Login

variable {crypto : Crypto} {maxAttempts : ℕ} {tally : Tally} {visit : Visit} {keys : Keys}

theorem check_allowed (now : ℚ) (limitType : LimitType) :
    (check now keys limitType).2.allowed = !refuses now keys limitType := by
  unfold check refuses
  dsimp only
  split
  · rename_i full
    rw [decide_eq_true full]
    rfl
  · rename_i free
    rw [decide_eq_false free]
    rfl

theorem check_friction (now : ℚ) (limitType : LimitType) :
    (check now keys limitType).1.friction = keys.friction := by
  unfold check
  dsimp only
  split <;> rfl

theorem check_windows {other limitType : LimitType} (apart : other ≠ limitType) (now : ℚ) :
    (check now keys limitType).1.windows other = keys.windows other := by
  unfold check
  dsimp only
  split <;> exact Function.update_of_ne apart _ _

theorem progressiveFrictionOf_windows (now : ℚ) :
    (progressiveFrictionOf maxAttempts now keys).1.windows = keys.windows := by
  unfold progressiveFrictionOf
  dsimp only
  split
  · rfl
  · split <;> rfl

/-- The windows of a request that the script lets through. -/
theorem checkWithFrictionOf_open {now : ℚ}
    (unlocked : (progressiveFrictionOf maxAttempts now keys).2.isLocked = false) :
    (checkWithFrictionOf maxAttempts now keys .authDecision).1.friction =
        (progressiveFrictionOf maxAttempts now keys).1.friction ∧
      (checkWithFrictionOf maxAttempts now keys .authDecision).2.1.allowed =
        !(refuses now keys .authDecision || refuses now keys .accountAuth) ∧
      (checkWithFrictionOf maxAttempts now keys .authDecision).2.2 = false := by
  set slowed := (progressiveFrictionOf maxAttempts now keys).1 with isSlowed
  have sameWindows : ∀ limitType, refuses now slowed limitType = refuses now keys limitType := by
    intro limitType
    unfold refuses
    rw [isSlowed, progressiveFrictionOf_windows]
  have account : refuses now (check now slowed .authDecision).1 .accountAuth =
      refuses now keys .accountAuth := by
    rw [← sameWindows]
    unfold refuses
    rw [check_windows (by decide)]
  unfold checkWithFrictionOf
  dsimp only
  rw [unlocked, if_neg Bool.false_ne_true, ← isSlowed]
  cases refused : refuses now keys .authDecision with
  | true =>
      have isRefused : (check now slowed .authDecision).2.allowed = false := by
        rw [check_allowed, sameWindows, refused]
        rfl
      rw [isRefused, if_neg Bool.false_ne_true]
      exact ⟨check_friction _ _, isRefused, rfl⟩
  | false =>
      have isAllowed : (check now slowed .authDecision).2.allowed = true := by
        rw [check_allowed, sameWindows, refused]
        rfl
      rw [isAllowed, if_pos rfl]
      refine ⟨(check_friction _ _).trans (check_friction _ _), ?_, rfl⟩
      have second := @check_allowed (check now slowed .authDecision).1 now .accountAuth
      rw [account] at second
      rw [Bool.false_or, ← second]
      dsimp only
      split
      · rename_i both
        rw [isAllowed, both]
      · rfl

theorem checkWithFrictionOf_locked {now : ℚ} {limitType : LimitType}
    (locked : (progressiveFrictionOf maxAttempts now keys).2.isLocked = true) :
    (checkWithFrictionOf maxAttempts now keys limitType).2.2 = true ∧
      0 < (checkWithFrictionOf maxAttempts now keys limitType).2.1.retryAfter.getD 0 := by
  unfold checkWithFrictionOf
  dsimp only
  rw [if_pos locked]
  exact ⟨rfl, lt_max_of_lt_left Int.one_pos⟩

theorem login_isSlowed :
    (login crypto maxAttempts visit.time visit.found visit.data keys).2.isSlowed =
      (progressiveFrictionOf maxAttempts visit.time keys).2.isLocked := by
  unfold login
  cases locked : (progressiveFrictionOf maxAttempts visit.time keys).2.isLocked with
  | true =>
      obtain ⟨slowed, positive⟩ :=
        @checkWithFrictionOf_locked maxAttempts keys visit.time .authDecision locked
      dsimp only
      rw [if_pos ⟨slowed, positive.ne'⟩]
      rfl
  | false =>
      obtain ⟨-, -, unslowed⟩ := checkWithFrictionOf_open locked
      dsimp only
      rw [unslowed, if_neg (fun both => Bool.false_ne_true both.1)]
      split
      · rfl
      · split <;> rfl

/-- A login that is neither slowed nor welcome counts with its charge. -/
theorem Counted.login (counted : Counted maxAttempts tally keys.friction)
    (unlocked : tally.at visit.time < maxAttempts)
    (failed : (login crypto maxAttempts visit.time visit.found visit.data keys).2 ≠ .welcome) :
    Counted maxAttempts (tally.add visit.time (charge crypto keys visit))
      (login crypto maxAttempts visit.time visit.found visit.data keys).1.friction := by
  have first := counted.strike visit.started (.inl unlocked)
  have isOpen : (progressiveFrictionOf maxAttempts visit.time keys).2.isLocked = false := by
    rw [← Bool.not_eq_true, counted.isLocked_iff visit.started]
    exact unlocked.not_ge
  obtain ⟨friction, allowed, unslowed⟩ := checkWithFrictionOf_open isOpen
  rw [← friction] at first
  unfold Login.login at failed ⊢
  dsimp only at failed ⊢
  rw [unslowed, if_neg (fun both => Bool.false_ne_true both.1)] at failed ⊢
  unfold charge
  cases refused : (refuses visit.time keys .authDecision || refuses visit.time keys .accountAuth) with
  | true =>
      rw [refused, Bool.not_true] at allowed
      rw [if_pos allowed, if_pos rfl]
      exact first
  | false =>
      rw [refused, Bool.not_false] at allowed
      rw [allowed, if_neg (by decide : ¬ true = false)] at failed ⊢
      rw [if_neg Bool.false_ne_true]
      cases verified : (verify crypto visit.found visit.data).2 with
      | none =>
          rw [verified] at failed
          exact absurd rfl failed
      | some refusal =>
          have second := first.strike visit.started (.inr rfl)
          rw [Tally.add_add] at second
          exact second.strikes visit.started _

end Login

/-! # A sequence of logins -/

section Sequence

variable {crypto : Crypto} {maxAttempts : ℕ} {tally : Tally} {keys : Keys} {visits : List Visit}

theorem logins_cons (visit : Visit) (rest : List Visit) :
    logins crypto maxAttempts (visit :: rest) keys =
      (login crypto maxAttempts visit.time visit.found visit.data keys).2 ::
        logins crypto maxAttempts rest
          (login crypto maxAttempts visit.time visit.found visit.data keys).1 := rfl

theorem logins_length (visits : List Visit) (keys : Keys) :
    (logins crypto maxAttempts visits keys).length = visits.length := by
  induction visits generalizing keys with
  | nil => rfl
  | cons visit rest ih => exact congrArg (· + 1) (ih _)

theorem exists_parts {α : Type} {list : List α} {place : ℕ} (inside : place < list.length) :
    ∃ before item after, list = before ++ item :: after ∧ before.length = place := by
  refine ⟨list.take place, list[place], list.drop (place + 1), ?_, ?_⟩
  · rw [← List.drop_eq_getElem_cons inside, List.take_append_drop]
  · rw [List.length_take, min_eq_left inside.le]

/-- A request of a sequence in which nobody was slowed before it. -/
theorem slowed_iff {earlier later : List Visit} {visit : Visit}
    {before : List Answer} {answer : Answer} {after : List Answer}
    (counted : Counted maxAttempts tally keys.friction)
    (answers : logins crypto maxAttempts (earlier ++ visit :: later) keys =
      before ++ answer :: after)
    (place : before.length = earlier.length)
    (failed : ∀ other ∈ before, other ≠ .welcome)
    (unslowed : ∀ other ∈ before, other.isSlowed = false) :
    answer.isSlowed = true ↔
      maxAttempts ≤ (charged crypto maxAttempts earlier keys tally).at visit.time := by
  induction earlier generalizing before tally keys with
  | nil =>
      rw [List.eq_nil_of_length_eq_zero place, List.nil_append, List.nil_append, logins_cons,
        List.cons.injEq] at answers
      obtain ⟨isAnswer, -⟩ := answers
      rw [← isAnswer, login_isSlowed, counted.isLocked_iff visit.started]
      rfl
  | cons first rest ih =>
      cases before with
      | nil => exact absurd place (Nat.succ_ne_zero _).symm
      | cons other before =>
          rw [List.cons_append, List.cons_append, logins_cons, List.cons.injEq] at answers
          obtain ⟨isOther, answers⟩ := answers
          have isOpen := unslowed other List.mem_cons_self
          rw [← isOther, login_isSlowed, ← Bool.not_eq_true,
            counted.isLocked_iff first.started, not_le] at isOpen
          refine ih (counted.login isOpen ?_) answers (Nat.succ.inj place)
            (fun next member => failed next (List.mem_cons_of_mem _ member))
            fun next member => unslowed next (List.mem_cons_of_mem _ member)
          rw [isOther]
          exact failed other List.mem_cons_self

end Sequence

/-- Since the last login that succeeded, nobody is slowed before `maxAttempts` requests have
failed exactly when each of the first `maxAttempts` requests finds less than that charged. -/
theorem patient_iff (crypto : Crypto) (maxAttempts : ℕ) (windows : LimitType → List ℚ)
    (visits : List Visit)
    (failed : ∀ answer ∈ logins crypto maxAttempts visits ⟨none, windows⟩, answer ≠ .welcome) :
    Patient maxAttempts (logins crypto maxAttempts visits ⟨none, windows⟩) ↔
      ∀ earlier visit later, visits = earlier ++ visit :: later → earlier.length < maxAttempts →
        (charged crypto maxAttempts earlier ⟨none, windows⟩ .start).at visit.time < maxAttempts := by
  have counted : Counted maxAttempts .start (⟨none, windows⟩ : Keys).friction := .absent rfl
  set keys : Keys := ⟨none, windows⟩
  have countFailed : ∀ {before answer after},
      logins crypto maxAttempts visits keys = before ++ answer :: after →
      (∀ other ∈ before, other ≠ .welcome) ∧ before.countP Answer.hasFailed = before.length := by
    intro before answer after isSequence
    have none_ : ∀ other ∈ before, other ≠ .welcome :=
      fun other member => failed other (isSequence ▸ List.mem_append_left _ member)
    exact ⟨none_, List.countP_eq_length.mpr fun other member => decide_eq_true (none_ other member)⟩
  constructor
  · intro patient earlier visit later isVisits short
    have inside : earlier.length < (logins crypto maxAttempts visits keys).length := by
      rw [logins_length, isVisits, List.length_append, List.length_cons]
      omega
    obtain ⟨before, answer, after, isSequence, place⟩ := exists_parts inside
    have unslowed : ∀ other ∈ before, other.isSlowed = false := by
      intro other member
      by_contra isSlowed
      obtain ⟨front, back, rfl⟩ := List.append_of_mem member
      rw [List.append_assoc, List.cons_append] at isSequence
      have enough := patient _ _ _ isSequence (by simpa using isSlowed)
      rw [(countFailed isSequence).2] at enough
      rw [List.length_append] at place
      omega
    rw [← not_le, ← slowed_iff counted (isVisits ▸ isSequence) place (countFailed isSequence).1
      unslowed]
    intro isSlowed
    have enough := patient _ _ _ isSequence isSlowed
    rw [(countFailed isSequence).2, place] at enough
    exact short.not_ge enough
  · intro small earlier
    -- the first slowed request before the end of `earlier` decides
    induction length : earlier.length using Nat.strong_induction_on generalizing earlier with
    | _ length ih =>
        intro answer later isSequence isSlowed
        obtain ⟨allFailed, isLength⟩ := countFailed isSequence
        rw [isLength]
        by_cases sooner : ∃ other ∈ earlier, other.isSlowed = true
        · obtain ⟨other, member, slowedToo⟩ := sooner
          obtain ⟨front, back, rfl⟩ := List.append_of_mem member
          rw [List.append_assoc, List.cons_append] at isSequence
          rw [List.length_append, List.length_cons] at length
          have enough := ih front.length (by omega) front rfl other _ isSequence slowedToo
          rw [(countFailed isSequence).2] at enough
          rw [List.length_append]
          omega
        · have inside : earlier.length < visits.length := by
            rw [← @logins_length crypto maxAttempts visits keys, isSequence, List.length_append,
              List.length_cons]
            omega
          obtain ⟨front, visit, back, isVisits, place⟩ := exists_parts inside
          have reached := (slowed_iff counted (isVisits ▸ isSequence) place.symm allFailed
            fun other member => by simpa using fun slowedToo => sooner ⟨other, member, slowedToo⟩).mp
              isSlowed
          by_contra short
          exact reached.not_gt (small front visit back isVisits (place ▸ not_le.mp short))

/-- Logins with an address that has no account, one every second. -/
def unknownVisits : List Visit :=
  [⟨1, by norm_num, none, ⟨"secret", none⟩⟩, ⟨2, by norm_num, none, ⟨"secret", none⟩⟩,
    ⟨3, by norm_num, none, ⟨"secret", none⟩⟩, ⟨4, by norm_num, none, ⟨"secret", none⟩⟩]

def noCrypto : Crypto := ⟨fun _ _ => false, fun _ => none, fun _ _ => false⟩

/-- Two logins of an unknown address. -/
theorem patient_iff_of_two :
    Patient 5 (logins noCrypto 5 (unknownVisits.take 2) ⟨none, fun _ => []⟩) ↔
      ∀ earlier visit later, unknownVisits.take 2 = earlier ++ visit :: later →
        earlier.length < 5 →
        (charged noCrypto 5 earlier ⟨none, fun _ => []⟩ .start).at visit.time < 5 :=
  patient_iff noCrypto 5 (fun _ => []) (unknownVisits.take 2) (by decide +kernel)

/-- The fourth login is slowed when three have failed. -/
theorem fourth_login_slowed :
    logins noCrypto 5 unknownVisits ⟨none, fun _ => []⟩ =
        List.replicate 3 (.refused (.unauthorized "Invalid email or password" none)) ++
          [.slowed 2] ∧
      ¬ Patient 5 (logins noCrypto 5 unknownVisits ⟨none, fun _ => []⟩) := by
  have answers : logins noCrypto 5 unknownVisits ⟨none, fun _ => []⟩ =
      List.replicate 3 (.refused (.unauthorized "Invalid email or password" none)) ++
        [.slowed 2] := by
    decide +kernel
  refine ⟨answers, fun patient => ?_⟩
  have enough := patient _ _ _ answers rfl
  exact absurd enough (by decide)

end PredictX.Login
