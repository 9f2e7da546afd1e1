import PredictX.Services.SlidingWindow

namespace PredictX.SlidingWindow

open PredictX.Data PredictX.RateLimitService

/-! The sliding window counts what it says.

The set holds the calls that were allowed, as far as a later call can still count them.  What the
script has removed is too old, and the key outlives its last member's stay in the window.
-/

/-- The calls of a list that came after `start`, and at `stop` at the latest. -/
def callsIn (calls : List Call) (start stop : ℚ) : ℕ :=
  calls.countP fun call => start < call.now ∧ call.now ≤ stop

/-- The calls of a list from `start` on, and before `stop`. -/
def callsFrom (calls : List Call) (start stop : ℚ) : ℕ :=
  calls.countP fun call => start ≤ call.now ∧ call.now < stop

/-- Times of which no two are as far apart as the window is long. -/
def Narrow (window : ℕ) (interval : ℚ → Bool) : Prop :=
  ∀ {first second : ℚ}, interval first = true → interval second = true → second - first < window

section Key

variable {now later top : ℚ} {key : Option Stored} {stored : Stored}

theorem live_some : live now (some stored) = if now ≤ stored.expiresAt then some stored else none := by
  simp [live, Option.filter_some]

theorem trim_some : trim top (some stored) =
    if 0 < (stored.members.removeUpTo top).card then
      some { stored with members := stored.members.removeUpTo top }
    else none := by
  simp [trim, Option.filter_some]

theorem live_live (ordered : now ≤ later) : live later (live now key) = live later key := by
  unfold live
  rw [Option.filter_filter]
  congr 1
  funext stored
  have implied : later ≤ stored.expiresAt → now ≤ stored.expiresAt := ordered.trans
  simpa using implied

/-- What is removed does not change when the key expires. -/
theorem live_trim : live later (trim top key) = trim top (live later key) := by
  cases key with
  | none => rfl
  | some stored =>
      rw [live_some, trim_some]
      by_cases nonempty : 0 < (stored.members.removeUpTo top).card
      · rw [if_pos nonempty, live_some]
        by_cases alive : later ≤ stored.expiresAt
        · rw [if_pos alive, if_pos alive, trim_some, if_pos nonempty]
        · rw [if_neg alive, if_neg alive]
          rfl
      · rw [if_neg nonempty]
        by_cases alive : later ≤ stored.expiresAt
        · rw [if_pos alive, trim_some, if_neg nonempty]
          rfl
        · rw [if_neg alive]
          rfl

theorem scores_trim (top : ℚ) (key : Option Stored) :
    (membersOf (trim top key)).scores =
      (membersOf key).scores.filter fun score => top < score := by
  cases key with
  | none => rfl
  | some stored =>
      have isScores := SortedSet.scores_removeUpTo stored.members top
      rw [trim_some]
      by_cases nonempty : 0 < (stored.members.removeUpTo top).card
      · rw [if_pos nonempty]
        exact isScores
      · rw [if_neg nonempty]
        rw [SortedSet.card_eq, isScores] at nonempty
        exact (List.length_eq_zero_iff.mp (Nat.eq_zero_of_not_pos nonempty)).symm

theorem mem_of_trim {entry : String × ℚ} (member : entry ∈ (membersOf (trim top key)).rows) :
    entry ∈ (membersOf key).rows := by
  cases key with
  | none => exact member
  | some stored =>
      rw [trim_some] at member
      split at member
      · exact SortedSet.mem_of_removeUpTo member
      · exact absurd member List.not_mem_nil

theorem mem_of_live {entry : String × ℚ} (member : entry ∈ (membersOf (live now key)).rows) :
    entry ∈ (membersOf key).rows := by
  cases key with
  | none => exact member
  | some stored =>
      rw [live_some] at member
      split at member
      · exact member
      · exact absurd member List.not_mem_nil

end Key

section Serve

variable {limit window : ℕ} {log : Log} {served : List Call} {call : Call}

/-- What the script finds in the window. -/
def found (window : ℕ) (now : ℚ) (key : Option Stored) : SortedSet String :=
  membersOf (trim (now - window) (live now key))

section Check

variable {now later : ℚ} {key : Option Stored} {member : String}

theorem check_over (over_ : limit ≤ (found window now key).card) :
    check limit window now member key =
      (trim (now - window) (live now key), ⟨false, limit, 0, some window, false⟩) := by
  unfold found at over_
  simp only [check, slidingWindow, if_pos over_, if_true]

theorem check_under (under : (found window now key).card < limit) :
    check limit window now member key =
      (some ⟨(found window now key).add member now, now + (window + 1 : ℕ)⟩,
        ⟨true, limit, limit - (found window now key).card - 1, none, false⟩) := by
  unfold found at under ⊢
  simp only [check, slidingWindow, if_neg (not_le.mpr under), Nat.zero_max, Bool.false_eq_true,
    if_false]

/-- What has left the window does not come back. -/
theorem still_counted {stamps : List ℚ} (ordered : now ≤ later) :
    (stamps.filter fun stamp => now - window < stamp).filter (fun stamp => later - window < stamp) =
      stamps.filter fun stamp => later - window < stamp := by
  have earlier : now - window ≤ later - window := by linarith
  rw [List.filter_filter]
  refine List.filter_congr fun stamp _ => ?_
  have implied : later - window < stamp → now - window < stamp := earlier.trans_lt
  simpa using implied

/-- A call that is refused leaves what later calls find. -/
theorem found_trim (ordered : now ≤ later) :
    (found window later (trim (now - window) (live now key))).scores =
      (found window later key).scores := by
  unfold found
  rw [live_trim, live_live ordered, scores_trim, scores_trim, scores_trim, still_counted ordered]

/-- A call that is allowed is found until it leaves the window: the key lives a second longer. -/
theorem found_added (past : ∀ score ∈ (found window now key).scores, score ≤ now)
    (fresh : ∀ entry ∈ (found window now key).rows, entry.1 ≠ member) :
    (found window later (some ⟨(found window now key).add member now,
        now + (window + 1 : ℕ)⟩)).scores =
      ((found window now key).scores ++ [now]).filter fun score => later - window < score := by
  have isScores := @SortedSet.scores_add String _ (found window now key) member now fresh
  unfold found at isScores ⊢
  rw [scores_trim, live_some]
  by_cases alive : later ≤ now + (window + 1 : ℕ)
  · rw [if_pos alive]
    exact congrArg _ isScores
  · rw [if_neg alive]
    refine (List.filter_eq_nil_iff.mpr fun score isScore => ?_).symm
    have before : score ≤ now := by
      rcases List.mem_append.mp isScore with kept | isNow
      · exact past score kept
      · exact (List.mem_singleton.mp isNow).le
    push_cast at alive
    simp only [decide_eq_true_eq, not_lt]
    linarith

end Check

/-- What holds of the key and of the allowed calls once `served` have been served. -/
structure Log.Sound (limit window : ℕ) (served : List Call) (log : Log) : Prop where
  /-- Later calls count the allowed ones. -/
  counted : ∀ later, (∀ call ∈ served, call.now ≤ later) →
    (found window later log.key).scores =
      (log.allowed.map Call.now).filter fun stamp => later - window < stamp
  known : ∀ entry ∈ (membersOf log.key).rows, ∃ call ∈ served, call.member = entry.1
  served : ∀ call ∈ log.allowed, call ∈ served
  bounded : ∀ interval, Narrow window interval →
    (log.allowed.countP fun call => interval call.now) ≤ limit

theorem Log.Sound.empty : Log.empty.Sound limit window [] where
  counted _ _ := rfl
  known _ member := absurd member List.not_mem_nil
  served _ member := absurd member List.not_mem_nil
  bounded _ _ := Nat.zero_le _

/-- What a call finds are the allowed calls of its window. -/
theorem Log.Sound.card_found (sound : log.Sound limit window served)
    (ordered : ∀ earlier ∈ served, earlier.now ≤ call.now) :
    (found window call.now log.key).card =
      callsIn log.allowed (call.now - window) call.now := by
  rw [SortedSet.card_eq, sound.counted call.now ordered, List.filter_map, List.length_map,
    ← List.countP_eq_length_filter]
  refine List.countP_congr fun earlier member => ?_
  have before := ordered earlier (sound.served earlier member)
  simp [before]

theorem Log.Sound.refuse (sound : log.Sound limit window served)
    (ordered : ∀ earlier ∈ served, earlier.now ≤ call.now) :
    Log.Sound limit window (served ++ [call])
      ⟨trim (call.now - window) (live call.now log.key), log.allowed⟩ where
  counted later after := by
    have isLater : call.now ≤ later := after call (by simp)
    rw [found_trim isLater]
    exact sound.counted later fun earlier member => (ordered earlier member).trans isLater
  known entry member := by
    obtain ⟨earlier, isEarlier, same⟩ := sound.known entry (mem_of_live (mem_of_trim member))
    exact ⟨earlier, List.mem_append_left _ isEarlier, same⟩
  served earlier member := List.mem_append_left _ (sound.served earlier member)
  bounded := sound.bounded

theorem Log.Sound.allow (sound : log.Sound limit window served)
    (ordered : ∀ earlier ∈ served, earlier.now ≤ call.now)
    (fresh : ∀ earlier ∈ served, earlier.member ≠ call.member)
    (under : callsIn log.allowed (call.now - window) call.now < limit) :
    Log.Sound limit window (served ++ [call])
      ⟨some ⟨(found window call.now log.key).add call.member call.now,
        call.now + (window + 1 : ℕ)⟩, log.allowed ++ [call]⟩ where
  counted later after := by
    have isLater : call.now ≤ later := after call (by simp)
    have here := sound.counted call.now ordered
    have past : ∀ score ∈ (found window call.now log.key).scores, score ≤ call.now := by
      intro score member
      rw [here] at member
      obtain ⟨earlier, isEarlier, rfl⟩ := List.mem_map.mp (List.mem_of_mem_filter member)
      exact ordered earlier (sound.served earlier isEarlier)
    have unseen : ∀ entry ∈ (found window call.now log.key).rows, entry.1 ≠ call.member := by
      intro entry member
      obtain ⟨earlier, isEarlier, same⟩ := sound.known entry (mem_of_live (mem_of_trim member))
      rw [← same]
      exact fresh earlier isEarlier
    rw [found_added past unseen, here, List.map_append, List.filter_append, List.filter_append,
      still_counted isLater]
    rfl
  known entry member := by
    have unseen : ∀ entry ∈ (found window call.now log.key).rows, entry.1 ≠ call.member := by
      intro entry member
      obtain ⟨earlier, isEarlier, same⟩ := sound.known entry (mem_of_live (mem_of_trim member))
      rw [← same]
      exact fresh earlier isEarlier
    change entry ∈ ((found window call.now log.key).add call.member call.now).rows at member
    rw [SortedSet.rows_add unseen] at member
    rcases List.mem_append.mp member with kept | isNew
    · obtain ⟨earlier, isEarlier, same⟩ := sound.known entry (mem_of_live (mem_of_trim kept))
      exact ⟨earlier, List.mem_append_left _ isEarlier, same⟩
    · rw [List.mem_singleton.mp isNew]
      exact ⟨call, by simp, rfl⟩
  served earlier member := by
    rcases List.mem_append.mp member with before | isCall
    · exact List.mem_append_left _ (sound.served earlier before)
    · exact List.mem_append_right _ isCall
  bounded interval narrow := by
    rw [List.countP_append, List.countP_singleton]
    by_cases inside : interval call.now = true
    · have fewer : (log.allowed.countP fun earlier => interval earlier.now) ≤
          callsIn log.allowed (call.now - window) call.now := by
        refine List.countP_mono_left fun earlier member within => ?_
        have before := ordered earlier (sound.served earlier member)
        have near := narrow within inside
        simp only [decide_eq_true_eq]
        exact ⟨by linarith, before⟩
      rw [if_pos inside]
      omega
    · rw [if_neg inside, add_zero]
      exact sound.bounded interval narrow

theorem Log.Sound.serve (sound : log.Sound limit window served)
    (ordered : ∀ earlier ∈ served, earlier.now ≤ call.now)
    (fresh : ∀ earlier ∈ served, earlier.member ≠ call.member) :
    (log.serve limit window call).Sound limit window (served ++ [call]) := by
  have isCard := sound.card_found ordered
  by_cases over_ : limit ≤ (found window call.now log.key).card
  · have isServed : log.serve limit window call =
        ⟨trim (call.now - window) (live call.now log.key), log.allowed⟩ := by
      simp only [Log.serve, Log.answer, check_over over_, Bool.false_eq_true, if_false]
    rw [isServed]
    exact sound.refuse ordered
  · have under := not_le.mp over_
    have isServed : log.serve limit window call =
        ⟨some ⟨(found window call.now log.key).add call.member call.now,
          call.now + (window + 1 : ℕ)⟩, log.allowed ++ [call]⟩ := by
      simp only [Log.serve, Log.answer, check_under under, if_true]
    rw [isServed]
    exact sound.allow ordered fresh (isCard ▸ under)

/-- What a list of calls leaves, from a key that is not there. -/
def logOf (limit window : ℕ) (calls : List Call) : Log :=
  calls.foldl (Log.serve limit window) .empty

theorem logOf_snoc (before : List Call) (call : Call) :
    logOf limit window (before ++ [call]) = (logOf limit window before).serve limit window call := by
  simp [logOf]

theorem Log.Sound.run {calls : List Call}
    (ordered : calls.Pairwise fun earlier later => earlier.now ≤ later.now)
    (distinct : (calls.map Call.member).Nodup) :
    (logOf limit window calls).Sound limit window calls := by
  induction calls using List.reverseRecOn with
  | nil => exact .empty
  | append_singleton before call ih =>
      rw [List.pairwise_append] at ordered
      rw [List.map_append, List.nodup_append] at distinct
      rw [logOf_snoc]
      refine (ih ordered.1 distinct.1).serve ?_ ?_
      · exact fun earlier member => ordered.2.2 earlier member call (List.mem_singleton_self _)
      · exact fun earlier member =>
          distinct.2.2 earlier.member (List.mem_map_of_mem member) call.member (by simp)

theorem narrow_after (start : ℚ) :
    Narrow window fun now => decide (start < now ∧ now ≤ start + window) := by
  intro first second isFirst isSecond
  simp only [decide_eq_true_eq] at isFirst isSecond
  linarith [isFirst.1, isSecond.2]

theorem narrow_from (start : ℚ) :
    Narrow window fun now => decide (start ≤ now ∧ now < start + window) := by
  intro first second isFirst isSecond
  simp only [decide_eq_true_eq] at isFirst isSecond
  linarith [isFirst.1, isSecond.2]

theorem Log.Sound.answer (positive : 0 < window) (sound : log.Sound limit window served)
    (ordered : ∀ earlier ∈ served, earlier.now ≤ call.now) :
    ((log.answer limit window call).allowed = true ↔
      callsIn log.allowed (call.now - window) call.now < limit) ∧
    ((log.answer limit window call).remaining : ℤ) =
      limit - callsIn (log.serve limit window call).allowed (call.now - window) call.now := by
  have isCard := sound.card_found ordered
  have most : callsIn log.allowed (call.now - window) call.now ≤ limit := by
    have bounded := sound.bounded _ (narrow_after (call.now - window))
    rwa [sub_add_cancel] at bounded
  by_cases over_ : limit ≤ (found window call.now log.key).card
  · have isAnswer : log.answer limit window call = ⟨false, limit, 0, some window, false⟩ := by
      rw [Log.answer, check_over over_]
    have same : (log.serve limit window call).allowed = log.allowed := by
      rw [Log.serve, isAnswer]
      rfl
    rw [isAnswer, same]
    rw [isCard] at over_
    refine ⟨?_, ?_⟩
    · simpa using over_
    · have exact_ := le_antisymm most over_
      rw [exact_]
      simp
  · have under := not_le.mp over_
    have isAnswer : log.answer limit window call =
        ⟨true, limit, limit - (found window call.now log.key).card - 1, none, false⟩ := by
      rw [Log.answer, check_under under]
    have more : (log.serve limit window call).allowed = log.allowed ++ [call] := by
      rw [Log.serve, isAnswer]
      rfl
    have inside : call.now - window < call.now := by
      have cast : (0 : ℚ) < window := Nat.cast_pos.mpr positive
      linarith
    have counted : callsIn (log.allowed ++ [call]) (call.now - window) call.now =
        callsIn log.allowed (call.now - window) call.now + 1 := by
      simp [callsIn, inside]
    rw [isAnswer, more, counted]
    rw [isCard] at under ⊢
    refine ⟨iff_of_true rfl under, ?_⟩
    dsimp only
    omega

end Serve

/-! # The list of time stamps -/

section Stamps

variable {now : ℚ} {keys : Keys} {limitType : LimitType} {key : Option Stored} {member : String}

/-- A list of time stamps stands for a key in all that is left to be asked of it. -/
def StandsFor (window : ℕ) (now : ℚ) (stamps : List ℚ) (key : Option Stored) : Prop :=
  (∀ stamp ∈ stamps, stamp ≤ now) ∧ ∀ later, now ≤ later →
    (found window later key).scores = stamps.filter fun stamp => later - window < stamp

/-- `RateLimitService.check` on a bare list of time stamps answers as on the sorted set, whose key
expires. -/
theorem check_stands (stands : StandsFor limitType.limits.2 now (keys.windows limitType) key)
    (fresh : ∀ entry ∈ (membersOf key).rows, entry.1 ≠ member) :
    (check limitType.limits.1 limitType.limits.2 now member key).2 =
      (RateLimitService.check now keys limitType).2 ∧
    StandsFor limitType.limits.2 now
      ((RateLimitService.check now keys limitType).1.windows limitType)
      (check limitType.limits.1 limitType.limits.2 now member key).1 := by
  obtain ⟨past, same⟩ := stands
  have here := same now le_rfl
  have isCard : (found limitType.limits.2 now key).card =
      ((keys.windows limitType).filter fun stamp => now - limitType.limits.2 < stamp).length := by
    rw [SortedSet.card_eq, here]
  by_cases over_ : limitType.limits.1 ≤ (found limitType.limits.2 now key).card
  · rw [check_over over_]
    rw [isCard] at over_
    simp only [RateLimitService.check, if_pos over_, Function.update_self]
    refine ⟨trivial, fun stamp isStamp => past stamp (List.mem_of_mem_filter isStamp),
      fun later after => ?_⟩
    rw [found_trim after, same later after, still_counted after]
  · have under := not_le.mp over_
    rw [check_under under]
    rw [isCard] at over_
    simp only [RateLimitService.check, if_neg over_, Function.update_self]
    refine ⟨by rw [isCard], fun stamp isStamp => ?_, fun later after => ?_⟩
    · rcases List.mem_append.mp isStamp with kept | isNow
      · exact past stamp (List.mem_of_mem_filter kept)
      · exact (List.mem_singleton.mp isNow).le
    · have past' : ∀ score ∈ (found limitType.limits.2 now key).scores, score ≤ now := by
        intro score isScore
        rw [here] at isScore
        exact past score (List.mem_of_mem_filter isScore)
      have unseen : ∀ entry ∈ (found limitType.limits.2 now key).rows, entry.1 ≠ member :=
        fun entry isEntry => fresh entry (mem_of_live (mem_of_trim isEntry))
      rw [found_added past' unseen, here]

end Stamps

/-- A call is allowed when the window before it has room, and is told how much room it leaves. -/
theorem window_is_exact (limit window : ℕ) (positive : 0 < window) {calls : List Call}
    (ordered : calls.Pairwise fun earlier later => earlier.now ≤ later.now)
    (distinct : (calls.map Call.member).Nodup) :
    (∀ before call after, calls = before ++ call :: after →
      (((logOf limit window before).answer limit window call).allowed = true ↔
        callsIn (logOf limit window before).allowed (call.now - window) call.now < limit) ∧
      (((logOf limit window before).answer limit window call).remaining : ℤ) =
        limit - callsIn (logOf limit window (before ++ [call])).allowed
          (call.now - window) call.now) ∧
    ∀ start, callsIn (logOf limit window calls).allowed start (start + window) ≤ limit ∧
      callsFrom (logOf limit window calls).allowed start (start + window) ≤ limit := by
  refine ⟨fun before call after isCalls => ?_, fun start => ?_⟩
  · rw [isCalls, List.pairwise_append] at ordered
    rw [isCalls, List.map_append, List.nodup_append] at distinct
    have sound : (logOf limit window before).Sound limit window before :=
      Log.Sound.run ordered.1 distinct.1
    rw [logOf_snoc]
    exact sound.answer positive fun earlier member =>
      ordered.2.2 earlier member call List.mem_cons_self
  · have sound : (logOf limit window calls).Sound limit window calls :=
      Log.Sound.run ordered distinct
    exact ⟨sound.bounded _ (narrow_after start), sound.bounded _ (narrow_from start)⟩

/-- The second of two calls a window apart, with a limit of one. -/
theorem window_is_exact_of_two :
    callsIn (logOf 1 60 [⟨0, "0:0.17"⟩]).allowed (60 - (60 : ℕ)) 60 < 1 ∧
    ((logOf 1 60 [⟨0, "0:0.17"⟩]).answer 1 60 ⟨60, "60:0.17"⟩).allowed = true := by
  have free : callsIn (logOf 1 60 [⟨0, "0:0.17"⟩]).allowed (60 - (60 : ℕ)) 60 < 1 := by
    decide +kernel
  have exact_ := (@window_is_exact 1 60 (by decide) [⟨0, "0:0.17"⟩, ⟨60, "60:0.17"⟩]
    (by decide +kernel) (by decide)).1 [⟨0, "0:0.17"⟩] ⟨60, "60:0.17"⟩ [] rfl
  exact ⟨free, exact_.1.mpr free⟩

end PredictX.SlidingWindow
