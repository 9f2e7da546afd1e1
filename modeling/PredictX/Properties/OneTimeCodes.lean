import PredictX.Services.OtpService
import Mathlib.Tactic

namespace PredictX.OtpService

open PredictX.Data

/-! Is a code used once, and guessed five times at most?

Reading the code, comparing it and deleting it are separate commands, and so are the deletion of
the code and of the counter.  The counter alone keeps every window to five attempts; what a
success can break is which code the attempts of a window are spent on.
-/

section Calls

variable {inbox : Inbox} {call : VerifyCall} {stage : Stage}

/-- The call has read the code as its own. -/
def VerifyCall.uses (serial : ℕ) (call : VerifyCall) : ℕ :=
  match call.stage with
  | .matched used | .deleted used | .returnedTrue used => if used = serial then 1 else 0
  | _ => 0

/-- The call holds an attempt of the window that it has not spent. -/
def VerifyCall.seat (window : Window) (call : VerifyCall) : ℕ :=
  match call.stage with
  | .counted counted _ => if counted = window then 1 else 0
  | _ => 0

theorem mem_setStage {other : VerifyCall}
    (member : other ∈ (inbox.setStage call.id stage).rows) :
    other.stage = stage ∨ other ∈ inbox.calls.rows := by
  obtain ⟨old, oldMember, rfl⟩ := List.mem_map.mp member
  split
  · exact .inl rfl
  · exact .inr oldMember

theorem sum_setStage (column : VerifyCall → ℕ) (stage : Stage)
    (found : inbox.calls.find? call.id = some call) :
    (inbox.setStage call.id stage).sum column + column call =
      inbox.calls.sum column + column { call with stage } := by
  unfold Inbox.setStage
  rw [Table.sum_modify found]

end Calls

/-! # Windows -/

/-- An attempt counted at `time` belongs to the window. -/
structure Placed (windows : List Window) (clock : ℚ) (window : Window) (time : ℚ) : Prop where
  opened : window ∈ windows
  after : window.start ≤ time
  within : time < window.start + attemptWindow
  past : time ≤ clock
  before : ∀ later ∈ windows, window.generation < later.generation → time ≤ later.start

/-- Five attempts to a window, and windows that do not overlap unless a success lies between
them. -/
structure Timely (inbox : Inbox) : Prop where
  apart : ∀ window ∈ inbox.windows, ∀ other ∈ inbox.windows,
    window.generation = other.generation → window = other ∨
      window.start + attemptWindow ≤ other.start ∨ other.start + attemptWindow ≤ window.start
  later : ∀ window ∈ inbox.windows, ∀ other ∈ inbox.windows,
    window.generation < other.generation → window.start ≤ other.start
  reached : ∀ window ∈ inbox.windows,
    window.generation ≤ inbox.generation ∧ window.start ≤ inbox.clock
  uncounted : inbox.attempts = none →
    ∀ window ∈ inbox.windows, window.generation < inbox.generation
  counter : ∀ counter, inbox.attempts = some counter → 1 ≤ counter.count ∧
    inbox.window counter ∈ inbox.windows ∧
    ∀ window ∈ inbox.windows, window.generation = inbox.generation →
      window.start + attemptWindow ≤ counter.expiresAt
  calls : ∀ call ∈ inbox.calls.rows, ∀ window time, call.stage = .counted window time →
    Placed inbox.windows inbox.clock window time
  guesses : ∀ guess ∈ inbox.guesses,
    Placed inbox.windows inbox.clock guess.window guess.time
  room : ∀ window, inbox.guesses.countP (·.window = window) +
    inbox.calls.sum (VerifyCall.seat window) ≤ maxAttempts
  taken : ∀ counter, inbox.attempts = some counter →
    inbox.guesses.countP (·.window = inbox.window counter) +
      inbox.calls.sum (VerifyCall.seat (inbox.window counter)) ≤ counter.count

theorem timely_start (waiting : Option (Stored × ℚ)) : Timely (.start waiting) := by
  constructor <;> simp [Inbox.start, Table.empty, Table.sum]

section Windows

variable {inbox : Inbox} {call : VerifyCall}

theorem Placed.wait {windows : List Window} {clock seconds time : ℚ} {window : Window}
    (placed : Placed windows clock window time) (forward : 0 ≤ seconds) :
    Placed windows (clock + seconds) window time :=
  { placed with past := placed.past.trans (le_add_of_nonneg_right forward) }

/-- A window that opens now is later than what was counted before. -/
theorem Placed.open {windows : List Window} {clock time : ℚ} {window : Window}
    (placed : Placed windows clock window time) (generation : ℕ) :
    Placed (windows ++ [⟨generation, clock⟩]) clock window time := by
  refine { placed with opened := List.mem_append_left _ placed.opened, before := ?_ }
  intro later member younger
  rcases List.mem_append.mp member with earlier | last
  · exact placed.before later earlier younger
  · rw [List.mem_singleton.mp last]
    exact placed.past

/-- The script opens a window, or goes on with the one there is. -/
theorem countAttempt_cases (inbox : Inbox) :
    (inbox.countAttempt = (⟨1, inbox.clock + attemptWindow⟩, true) ∧
      ∀ counter, inbox.attempts = some counter → counter.expiresAt ≤ inbox.clock) ∨
    ∃ counter, inbox.attempts = some counter ∧ inbox.clock < counter.expiresAt ∧
      inbox.countAttempt =
        (⟨counter.count + 1, counter.expiresAt⟩, decide (counter.count + 1 ≤ maxAttempts)) := by
  unfold Inbox.countAttempt rateLimitScript
  split
  · rename_i expired
    refine .inl ⟨rfl, fun counter isCounter => ?_⟩
    rw [isCounter, Option.filter_some_eq_none] at expired
    simpa using expired
  · rename_i counter live
    obtain ⟨isCounter, alive⟩ := Option.filter_eq_some_iff.mp live
    exact .inr ⟨counter, isCounter, of_decide_eq_true alive, rfl⟩

/-- A step that neither counts nor compares, and gives no attempt away. -/
theorem Timely.frame {calls : Table VerifyCall.id} (timely : Timely inbox) (code : Option Code)
    (sent : ℕ) (placed : ∀ call ∈ calls.rows, ∀ window time, call.stage = .counted window time →
      Placed inbox.windows inbox.clock window time)
    (seats : ∀ window, calls.sum (VerifyCall.seat window) ≤
      inbox.calls.sum (VerifyCall.seat window)) :
    Timely { inbox with calls, code, sent } := by
  refine { timely with calls := placed, room := ?_, taken := ?_ }
  · intro window
    exact (Nat.add_le_add_left (seats window) _).trans (timely.room window)
  · intro counter isCounter
    exact (Nat.add_le_add_left (seats _) _).trans (timely.taken counter isCounter)

theorem seat_of_not_counted {stage : Stage} {window : Window}
    (spent : ∀ window time, stage ≠ .counted window time) :
    VerifyCall.seat window { call with stage } = 0 := by
  unfold VerifyCall.seat
  split
  · rename_i counted time isCounted
    exact absurd isCounted (spent counted time)
  · rfl

/-- A call that has been counted leaves, or one that has not stays uncounted. -/
theorem Timely.leave (stage : Stage) (timely : Timely inbox)
    (found : inbox.calls.find? call.id = some call)
    (spent : ∀ window time, stage ≠ .counted window time) (code : Option Code) :
    Timely { inbox with calls := inbox.setStage call.id stage, code } := by
  refine timely.frame code inbox.sent ?_ ?_
  · intro other member window time counted
    rcases mem_setStage member with isStage | before
    · exact absurd (isStage.symm.trans counted) (spent window time)
    · exact timely.calls other before window time counted
  · intro window
    have total := sum_setStage (VerifyCall.seat window) stage found
    rw [seat_of_not_counted spent] at total
    omega

theorem Timely.wait {seconds : ℚ} (timely : Timely inbox) (forward : 0 ≤ seconds) :
    Timely { inbox with clock := inbox.clock + seconds } where
  apart := timely.apart
  later := timely.later
  reached window member := by
    obtain ⟨generation, start⟩ := timely.reached window member
    exact ⟨generation, start.trans (le_add_of_nonneg_right forward)⟩
  uncounted := timely.uncounted
  counter := timely.counter
  calls other member window time counted :=
    (timely.calls other member window time counted).wait forward
  guesses guess member := (timely.guesses guess member).wait forward
  room := timely.room
  taken := timely.taken

theorem Timely.begin {id : ℕ} {guess : String} (timely : Timely inbox)
    (fresh : inbox.calls.find? id = none) :
    Timely { inbox with calls := inbox.calls.insert ⟨id, guess, .begun⟩ } := by
  refine timely.frame inbox.code inbox.sent ?_ ?_
  · intro other member window time counted
    rcases Table.mem_insert member with before | rfl
    · exact timely.calls other before window time counted
    · cases counted
  · intro window
    rw [Table.sum_insert _ fresh]
    exact le_of_eq (add_zero _)

theorem Timely.deleteCounter {serial : ℕ} (timely : Timely inbox)
    (found : inbox.calls.find? call.id = some call) :
    Timely { inbox with
      attempts := none
      calls := inbox.setStage call.id (.returnedTrue serial)
      generation := inbox.generation + 1 } := by
  have left := timely.leave (.returnedTrue serial) found (by simp) inbox.code
  refine { left with reached := ?_, uncounted := ?_, counter := ?_, taken := ?_ }
  · intro window member
    obtain ⟨generation, start⟩ := timely.reached window member
    exact ⟨generation.trans (Nat.le_succ _), start⟩
  · intro _ window member
    exact Nat.lt_succ_of_le (timely.reached window member).1
  · intro counter isCounter
    cases isCounter
  · intro counter isCounter
    cases isCounter

theorem Timely.read {window : Window} {time : ℚ} {serial : ℕ} {right : Bool} {stage : Stage}
    (timely : Timely inbox) (found : inbox.calls.find? call.id = some call)
    (counted : call.stage = .counted window time)
    (spent : ∀ window time, stage ≠ .counted window time) :
    Timely { inbox with
      calls := inbox.setStage call.id stage
      guesses := inbox.guesses ++ [⟨serial, window, time, right⟩] } := by
  have left := timely.leave stage found spent inbox.code
  have placed := timely.calls call (Table.mem_of_find? found) window time counted
  have moved : ∀ other : Window,
      (inbox.guesses ++ [(⟨serial, window, time, right⟩ : Guess)]).countP (·.window = other) +
        (inbox.setStage call.id stage).sum (VerifyCall.seat other) =
      inbox.guesses.countP (·.window = other) + inbox.calls.sum (VerifyCall.seat other) := by
    intro other
    have total := sum_setStage (VerifyCall.seat other) stage found
    have seated : VerifyCall.seat other call = if window = other then 1 else 0 := by
      rw [VerifyCall.seat, counted]
    rw [seat_of_not_counted spent, seated] at total
    rw [List.countP_append, List.countP_singleton]
    simp only [decide_eq_true_eq]
    omega
  refine { left with guesses := ?_, room := ?_, taken := ?_ }
  · intro guess member
    rcases List.mem_append.mp member with before | last
    · exact timely.guesses guess before
    · rw [List.mem_singleton.mp last]
      exact placed
  · intro other
    exact (moved other).trans_le (timely.room other)
  · intro counter isCounter
    exact (moved _).trans_le (timely.taken counter isCounter)

/-- The first attempt of a window. -/
theorem Timely.open (timely : Timely inbox) (found : inbox.calls.find? call.id = some call)
    (begun : call.stage = .begun)
    (expired : ∀ counter, inbox.attempts = some counter → counter.expiresAt ≤ inbox.clock) :
    Timely { inbox with
      attempts := some ⟨1, inbox.clock + attemptWindow⟩
      calls := inbox.setStage call.id (.counted ⟨inbox.generation, inbox.clock⟩ inbox.clock)
      windows := inbox.windows ++ [⟨inbox.generation, inbox.clock⟩] } := by
  set new : Window := ⟨inbox.generation, inbox.clock⟩ with isNew
  have passed : ∀ window ∈ inbox.windows, window.generation = inbox.generation →
      window.start + attemptWindow ≤ inbox.clock := by
    intro window member same
    cases isAttempts : inbox.attempts with
    | none => exact absurd same (timely.uncounted isAttempts window member).ne
    | some counter =>
        exact ((timely.counter counter isAttempts).2.2 window member same).trans
          (expired counter isAttempts)
  have positive : (0 : ℚ) < attemptWindow := by norm_num [attemptWindow]
  have unopened : new ∉ inbox.windows := by
    intro member
    have ended := passed new member rfl
    rw [isNew] at ended
    dsimp only at ended
    linarith
  have unguessed : inbox.guesses.countP (·.window = new) = 0 := by
    rw [List.countP_eq_zero]
    intro guess member
    simp only [decide_eq_true_eq]
    intro same
    exact unopened (same ▸ (timely.guesses guess member).opened)
  have unseated : inbox.calls.sum (VerifyCall.seat new) = 0 := by
    refine List.sum_eq_zero fun seats member => ?_
    obtain ⟨other, otherMember, rfl⟩ := List.mem_map.mp member
    unfold VerifyCall.seat
    split
    · rename_i window time counted
      refine if_neg fun same => unopened ?_
      exact same ▸ (timely.calls other otherMember window time counted).opened
    · rfl
  have seats : ∀ window, (inbox.setStage call.id (.counted new inbox.clock)).sum
      (VerifyCall.seat window) = inbox.calls.sum (VerifyCall.seat window) +
        if new = window then 1 else 0 := by
    intro window
    have total := sum_setStage (VerifyCall.seat window) (.counted new inbox.clock) found
    have before : VerifyCall.seat window call = 0 := by rw [VerifyCall.seat, begun]
    rw [before] at total
    exact total
  have isWindow : ∀ counter : Counter, some ⟨1, inbox.clock + attemptWindow⟩ = some counter →
      (⟨inbox.generation, counter.expiresAt - attemptWindow⟩ : Window) = new := by
    rintro counter ⟨⟩
    simp [isNew]
  constructor
  · intro window member other otherMember same
    rcases List.mem_append.mp member with before | last <;>
      rcases List.mem_append.mp otherMember with otherBefore | otherLast
    · exact timely.apart window before other otherBefore same
    · obtain rfl := List.mem_singleton.mp otherLast
      exact .inr (.inl (passed window before same))
    · obtain rfl := List.mem_singleton.mp last
      exact .inr (.inr (passed other otherBefore same.symm))
    · exact .inl ((List.mem_singleton.mp last).trans (List.mem_singleton.mp otherLast).symm)
  · intro window member other otherMember less
    rcases List.mem_append.mp member with before | last <;>
      rcases List.mem_append.mp otherMember with otherBefore | otherLast
    · exact timely.later window before other otherBefore less
    · obtain rfl := List.mem_singleton.mp otherLast
      exact (timely.reached window before).2
    · obtain rfl := List.mem_singleton.mp last
      exact absurd (timely.reached other otherBefore).1 (not_le.mpr less)
    · rw [List.mem_singleton.mp last, List.mem_singleton.mp otherLast]
  · intro window member
    rcases List.mem_append.mp member with before | last
    · exact timely.reached window before
    · rw [List.mem_singleton.mp last]
      exact ⟨le_rfl, le_rfl⟩
  · intro absent
    cases absent
  · intro counter isCounter
    refine ⟨by cases isCounter; exact le_rfl, ?_, ?_⟩
    · exact List.mem_append_right _ (List.mem_singleton.mpr (isWindow counter isCounter))
    · intro window member same
      cases isCounter
      rcases List.mem_append.mp member with before | last
      · exact (passed window before same).trans (le_add_of_nonneg_right positive.le)
      · rw [List.mem_singleton.mp last]
  · intro other member window time counted
    rcases mem_setStage member with isStage | before
    · cases isStage.symm.trans counted
      refine ⟨List.mem_append_right _ (List.mem_singleton_self new), le_rfl,
        lt_add_of_pos_right _ positive, le_rfl, ?_⟩
      intro later isLater younger
      rcases List.mem_append.mp isLater with earlier | last
      · exact absurd (timely.reached later earlier).1 (not_le.mpr younger)
      · rw [List.mem_singleton.mp last]
    · exact (timely.calls other before window time counted).open inbox.generation
  · intro guess member
    exact (timely.guesses guess member).open inbox.generation
  · intro window
    dsimp only
    rw [seats window]
    split
    · rename_i same
      subst same
      rw [unguessed, unseated]
      decide
    · exact timely.room window
  · intro counter isCounter
    unfold Inbox.window
    dsimp only
    rw [isWindow counter isCounter, seats new, unguessed, unseated, if_pos rfl]
    cases isCounter
    exact le_rfl

/-- A further attempt of the window. -/
theorem Timely.goOn {counter : Counter} (timely : Timely inbox)
    (found : inbox.calls.find? call.id = some call) (begun : call.stage = .begun)
    (isCounter : inbox.attempts = some counter) (alive : inbox.clock < counter.expiresAt) :
    Timely { inbox with
      attempts := some ⟨counter.count + 1, counter.expiresAt⟩
      calls := inbox.setStage call.id
        (if counter.count + 1 ≤ maxAttempts then .counted (inbox.window counter) inbox.clock
        else .returnedFalse) } := by
  obtain ⟨positive, opened, last⟩ := timely.counter counter isCounter
  have taken := timely.taken counter isCounter
  have counterKept : ∀ next : Counter,
      some ⟨counter.count + 1, counter.expiresAt⟩ = some next → 1 ≤ next.count ∧
        inbox.window next ∈ inbox.windows ∧ ∀ window ∈ inbox.windows,
          window.generation = inbox.generation →
          window.start + attemptWindow ≤ next.expiresAt := by
    rintro next ⟨⟩
    exact ⟨Nat.succ_le_succ (Nat.zero_le _), opened, last⟩
  split
  · rename_i allowed
    have seats : ∀ window,
        (inbox.setStage call.id (.counted (inbox.window counter) inbox.clock)).sum
          (VerifyCall.seat window) = inbox.calls.sum (VerifyCall.seat window) +
          if inbox.window counter = window then 1 else 0 := by
      intro window
      have total := sum_setStage (VerifyCall.seat window)
        (.counted (inbox.window counter) inbox.clock) found
      have before : VerifyCall.seat window call = 0 := by rw [VerifyCall.seat, begun]
      rw [before] at total
      exact total
    refine { timely with
      uncounted := fun absent => by cases absent
      counter := counterKept
      calls := ?_
      room := ?_
      taken := ?_ }
    · intro other member window time counted
      rcases mem_setStage member with isStage | before
      · cases isStage.symm.trans counted
        refine ⟨opened, (timely.reached _ opened).2, ?_, le_rfl, ?_⟩
        · simpa [Inbox.window] using alive
        · intro later isLater younger
          exact absurd (timely.reached later isLater).1 (not_le.mpr younger)
      · exact timely.calls other before window time counted
    · intro window
      dsimp only
      rw [seats window]
      split
      · rename_i same
        subst same
        omega
      · exact timely.room window
    · rintro next ⟨⟩
      have spent : inbox.guesses.countP (·.window = inbox.window counter) +
          (inbox.setStage call.id (.counted (inbox.window counter) inbox.clock)).sum
            (VerifyCall.seat (inbox.window counter)) ≤ counter.count + 1 := by
        rw [seats (inbox.window counter), if_pos rfl]
        omega
      exact spent
  · have left := timely.leave .returnedFalse found (by simp) inbox.code
    refine { left with
      uncounted := fun absent => by cases absent
      counter := counterKept
      taken := ?_ }
    rintro next ⟨⟩
    exact (left.taken counter isCounter).trans (Nat.le_succ _)

theorem Timely.step {hashCode : String → String} {action : Action} {after : Inbox}
    (timely : Timely inbox) (moved : Moves hashCode inbox action after) : Timely after := by
  cases moved with
  | wait forward => exact timely.wait forward
  | send code => exact timely.frame _ _ timely.calls fun _ => le_rfl
  | begin guess fresh => exact timely.begin fresh
  | count found stage =>
      rcases countAttempt_cases inbox with
        ⟨isFirst, expired⟩ | ⟨counter, isCounter, alive, isNext⟩
      · rw [isFirst]
        have opened := timely.open found stage expired
        simpa [Inbox.window] using opened
      · rw [isNext]
        have later : counter.count + 1 ≠ 1 := by
          have positive := (timely.counter counter isCounter).1
          omega
        simp only [decide_eq_true_eq, if_neg later]
        exact timely.goOn found stage isCounter alive
  | missing found stage nothing => exact timely.leave .returnedFalse found (by simp) inbox.code
  | read found stage stored => exact timely.read found stage (by split <;> simp)
  | deleteCode found stage => exact timely.leave _ found (by simp) none
  | deleteCounter found stage => exact timely.deleteCounter found

end Windows

/-! # Codes -/

/-- The call has found its code right and has a deletion to go. -/
def VerifyCall.closing (serial : ℕ) (call : VerifyCall) : Prop :=
  call.stage = .matched serial ∨ call.stage = .deleted serial

/-- What a read must not meet: another call about to use the code that it finds right; and a
counter that a success with another code has deleted since the call was counted, or is about to
delete. -/
def Undisturbed (hashCode : String → String) (inbox : Inbox) : Action → Prop
  | .read id => ∀ call window time code, inbox.calls.find? id = some call →
      call.stage = .counted window time → inbox.storedCode = some code →
      (code.value.accepts hashCode call.guess = true →
        ∀ other ∈ inbox.calls.rows, other.stage ≠ .matched code.serial) ∧
      window.generation = inbox.generation ∧
      ∀ other ∈ inbox.calls.rows, ∀ serial, other.closing serial → serial = code.serial
  | _ => True

structure Single (inbox : Inbox) : Prop where
  known : ∀ code, inbox.code = some code → code.serial < inbox.sent
  guessed : ∀ guess ∈ inbox.guesses, guess.serial < inbox.sent
  issued : ∀ call ∈ inbox.calls.rows, ∀ serial, inbox.sent ≤ serial → call.uses serial = 0
  once : ∀ serial, inbox.calls.sum (VerifyCall.uses serial) ≤ 1
  gone : ∀ call ∈ inbox.calls.rows, ∀ serial,
    call.stage = .deleted serial ∨ call.stage = .returnedTrue serial →
    ∀ code, inbox.code = some code → code.serial ≠ serial
  /-- The counter of a code that was guessed is not about to be deleted for another code. -/
  clean : ∀ call ∈ inbox.calls.rows, ∀ serial, call.closing serial →
    ∀ code, inbox.code = some code → code.serial ≠ serial →
    ∀ guess ∈ inbox.guesses, guess.serial ≠ code.serial
  current : ∀ code, inbox.code = some code → ∀ guess ∈ inbox.guesses,
    guess.serial = code.serial → guess.window.generation = inbox.generation
  together : ∀ guess ∈ inbox.guesses, ∀ other ∈ inbox.guesses, guess.serial = other.serial →
    guess.window.generation = other.window.generation

theorem single_start (waiting : Option (Stored × ℚ)) : Single (.start waiting) := by
  constructor
  case known =>
    intro code isCode
    obtain ⟨_, _, rfl⟩ := Option.map_eq_some_iff.mp isCode
    exact Nat.zero_lt_one
  all_goals simp [Inbox.start, Table.empty, Table.sum]

/-- The call has not found its code right. -/
def Stage.idle : Stage → Bool
  | .begun | .counted _ _ | .returnedFalse => true
  | .matched _ | .deleted _ | .returnedTrue _ => false

section Codes

variable {inbox : Inbox} {call : VerifyCall} {hashCode : String → String}

theorem uses_of_idle {call : VerifyCall} (idle : call.stage.idle = true) (serial : ℕ) :
    call.uses serial = 0 := by
  unfold VerifyCall.uses
  cases isStage : call.stage with
  | begun | counted | returnedFalse => rfl
  | matched | deleted | returnedTrue =>
      rw [isStage] at idle
      contradiction

/-- The facts about the calls, when one of them changes its stage and none of the numbers. -/
theorem Single.setStage {stage : Stage} {code : Option Code} (single : Single inbox)
    (found : inbox.calls.find? call.id = some call)
    (same : ∀ serial, VerifyCall.uses serial { call with stage } = call.uses serial)
    (kept : code = none ∨ code = inbox.code)
    (gone : ∀ serial, stage = .deleted serial ∨ stage = .returnedTrue serial →
      ∀ stored, code = some stored → stored.serial ≠ serial)
    (clean : ∀ serial, stage = .matched serial ∨ stage = .deleted serial →
      ∀ stored, code = some stored → stored.serial ≠ serial →
      ∀ guess ∈ inbox.guesses, guess.serial ≠ stored.serial) :
    Single { inbox with code, calls := inbox.setStage call.id stage } := by
  have older : ∀ stored, code = some stored → inbox.code = some stored := by
    intro stored isStored
    rcases kept with rfl | rfl
    · cases isStored
    · exact isStored
  refine ⟨fun stored isStored => single.known stored (older stored isStored), single.guessed,
    ?_, ?_, ?_, ?_, fun stored isStored => single.current stored (older stored isStored),
    single.together⟩
  · intro other member serial unsent
    obtain ⟨old, oldMember, rfl⟩ := List.mem_map.mp member
    split
    · rename_i isCall
      obtain rfl := Table.eq_of_mem oldMember (Table.mem_of_find? found) isCall
      exact (same serial).trans (single.issued old oldMember serial unsent)
    · exact single.issued old oldMember serial unsent
  · intro serial
    have total := sum_setStage (VerifyCall.uses serial) stage found
    rw [same serial] at total
    have before := single.once serial
    dsimp only
    omega
  · intro other member serial ended stored isStored
    rcases mem_setStage member with isStage | before
    · exact gone serial (isStage ▸ ended) stored isStored
    · exact single.gone other before serial ended stored (older stored isStored)
  · intro other member serial closing stored isStored
    rcases mem_setStage member with isStage | before
    · exact clean serial (isStage ▸ closing) stored isStored
    · exact single.clean other before serial closing stored (older stored isStored)

theorem Single.idle {stage : Stage} (single : Single inbox)
    (found : inbox.calls.find? call.id = some call) (was : call.stage.idle = true)
    (isIdle : stage.idle = true) :
    Single { inbox with calls := inbox.setStage call.id stage } := by
  refine single.setStage found ?_ (.inr rfl) ?_ ?_
  · intro serial
    rw [uses_of_idle was, uses_of_idle isIdle]
  · rintro serial (rfl | rfl) <;> contradiction
  · rintro serial (rfl | rfl) <;> contradiction

theorem Single.send (single : Single inbox) (value : Stored) (expiresAt : ℚ) :
    Single { inbox with code := some ⟨inbox.sent, value, expiresAt⟩, sent := inbox.sent + 1 } := by
  have unguessed : ∀ guess ∈ inbox.guesses, guess.serial ≠ inbox.sent :=
    fun guess member => (single.guessed guess member).ne
  refine ⟨?_, fun guess member => (single.guessed guess member).trans (Nat.lt_succ_self _),
    fun call member serial unsent => single.issued call member serial (Nat.le_of_succ_le unsent),
    single.once, ?_, ?_, ?_, single.together⟩
  · rintro code ⟨⟩
    exact Nat.lt_succ_self _
  · rintro call member serial ended code ⟨⟩ rfl
    have unused := single.issued call member inbox.sent le_rfl
    rcases ended with isStage | isStage <;> simp [VerifyCall.uses, isStage] at unused
  · rintro call member serial _ code ⟨⟩ _ guess isGuess
    exact unguessed guess isGuess
  · rintro code ⟨⟩ guess isGuess same
    exact absurd same (unguessed guess isGuess)

theorem Single.begin {id : ℕ} {guess : String} (single : Single inbox)
    (fresh : inbox.calls.find? id = none) :
    Single { inbox with calls := inbox.calls.insert ⟨id, guess, .begun⟩ } := by
  refine { single with issued := ?_, once := ?_, gone := ?_, clean := ?_ }
  · intro call member serial unsent
    rcases Table.mem_insert member with before | rfl
    · exact single.issued call before serial unsent
    · rfl
  · intro serial
    rw [Table.sum_insert _ fresh]
    exact single.once serial
  · intro call member serial ended
    rcases Table.mem_insert member with before | rfl
    · exact single.gone call before serial ended
    · rcases ended with isStage | isStage <;> cases isStage
  · intro call member serial closing
    rcases Table.mem_insert member with before | rfl
    · exact single.clean call before serial closing
    · rcases closing with isStage | isStage <;> cases isStage

/-- A guess that was counted in the generation of the counter. -/
theorem Single.guess {code : Code} {window : Window} (time : ℚ) (right : Bool)
    (single : Single inbox) (isCode : inbox.code = some code)
    (counted : window.generation = inbox.generation)
    (undisturbed : ∀ other ∈ inbox.calls.rows, ∀ serial, other.closing serial →
      serial = code.serial) :
    Single { inbox with guesses := inbox.guesses ++ [⟨code.serial, window, time, right⟩] } := by
  have now : ∀ guess ∈ inbox.guesses, guess.serial = code.serial →
      guess.window.generation = inbox.generation := single.current code isCode
  refine { single with guessed := ?_, clean := ?_, current := ?_, together := ?_ }
  · intro guess member
    rcases List.mem_append.mp member with before | last
    · exact single.guessed guess before
    · rw [List.mem_singleton.mp last]
      exact single.known code isCode
  · intro call member serial closing stored isStored different
    cases isCode.symm.trans isStored
    exact absurd (undisturbed call member serial closing).symm different
  · intro stored isStored guess member same
    cases isCode.symm.trans isStored
    rcases List.mem_append.mp member with before | last
    · exact now guess before same
    · rw [List.mem_singleton.mp last]
      exact counted
  · intro guess member other otherMember same
    rcases List.mem_append.mp member with before | last <;>
      rcases List.mem_append.mp otherMember with otherBefore | otherLast
    · exact single.together guess before other otherBefore same
    · obtain rfl := List.mem_singleton.mp otherLast
      exact (now guess before same).trans counted.symm
    · obtain rfl := List.mem_singleton.mp last
      exact counted.trans (now other otherBefore same.symm).symm
    · rw [List.mem_singleton.mp last, List.mem_singleton.mp otherLast]

/-- The code is right, and nobody else is about to use it. -/
theorem Single.match {code : Code} (single : Single inbox)
    (found : inbox.calls.find? call.id = some call) (was : call.stage.idle = true)
    (isCode : inbox.code = some code)
    (alone : ∀ other ∈ inbox.calls.rows, other.stage ≠ .matched code.serial) :
    Single { inbox with calls := inbox.setStage call.id (.matched code.serial) } := by
  have unused : inbox.calls.sum (VerifyCall.uses code.serial) = 0 := by
    refine List.sum_eq_zero fun uses member => ?_
    obtain ⟨other, otherMember, rfl⟩ := List.mem_map.mp member
    unfold VerifyCall.uses
    split
    · rename_i used isStage
      refine if_neg ?_
      rintro rfl
      exact alone other otherMember isStage
    · rename_i used isStage
      exact if_neg fun same => single.gone other otherMember used (.inl isStage) code isCode same.symm
    · rename_i used isStage
      exact if_neg fun same => single.gone other otherMember used (.inr isStage) code isCode same.symm
    · rfl
  refine { single with issued := ?_, once := ?_, gone := ?_, clean := ?_ }
  · intro other member serial unsent
    rcases mem_setStage member with isStage | before
    · rw [VerifyCall.uses, isStage]
      exact if_neg ((single.known code isCode).trans_le unsent).ne
    · exact single.issued other before serial unsent
  · intro serial
    have total := sum_setStage (VerifyCall.uses serial) (.matched code.serial) found
    rw [uses_of_idle was serial] at total
    dsimp only
    rw [add_zero] at total
    rw [total]
    by_cases same : code.serial = serial
    · subst same
      rw [unused]
      simp [VerifyCall.uses]
    · have before := single.once serial
      simpa [VerifyCall.uses, same] using before
  · intro other member serial ended
    rcases mem_setStage member with isStage | before
    · rw [isStage] at ended
      rcases ended with wrong | wrong <;> cases wrong
    · exact single.gone other before serial ended
  · intro other member serial closing stored isStored different
    rcases mem_setStage member with isStage | before
    · rcases closing with isMatched | isDeleted
      · cases isStage.symm.trans isMatched
        cases isCode.symm.trans isStored
        exact absurd rfl different
      · cases isStage.symm.trans isDeleted
    · exact single.clean other before serial closing stored isStored different

theorem Single.deleteCode {serial : ℕ} (single : Single inbox)
    (found : inbox.calls.find? call.id = some call) (was : call.stage = .matched serial) :
    Single { inbox with code := none, calls := inbox.setStage call.id (.deleted serial) } := by
  refine single.setStage found ?_ (.inl rfl) ?_ ?_
  · intro other
    simp [VerifyCall.uses, was]
  · intro other _ stored isStored
    cases isStored
  · intro other _ stored isStored
    cases isStored

/-- The counter that goes is not the counter of the code that is there. -/
theorem Single.deleteCounter {serial : ℕ} (single : Single inbox)
    (found : inbox.calls.find? call.id = some call) (was : call.stage = .deleted serial) :
    Single { inbox with
      attempts := none
      calls := inbox.setStage call.id (.returnedTrue serial)
      generation := inbox.generation + 1 } := by
  have member := Table.mem_of_find? found
  have returned : Single { inbox with
      calls := inbox.setStage call.id (.returnedTrue serial) } := by
    refine single.setStage found ?_ (.inr rfl) ?_ ?_
    · intro other
      simp [VerifyCall.uses, was]
    · rintro other (wrong | same) stored isStored
      · cases wrong
      · cases same
        exact single.gone call member serial (.inl was) stored isStored
    · rintro other (wrong | wrong) <;> cases wrong
  refine { returned with current := ?_ }
  intro code isCode guess isGuess same
  have other := single.gone call member serial (.inl was) code isCode
  exact absurd same (single.clean call member serial (.inr was) code isCode other guess isGuess)

theorem Single.step {action : Action} {after : Inbox} (single : Single inbox)
    (undisturbed : Undisturbed hashCode inbox action) (moved : Moves hashCode inbox action after) :
    Single after := by
  cases moved with
  | wait => exact { single with }
  | send code => exact single.send _ _
  | begin guess fresh => exact single.begin fresh
  | count found stage =>
      have stays : (if inbox.countAttempt.2 then
          Stage.counted (inbox.window inbox.countAttempt.1) inbox.clock
        else .returnedFalse).idle = true := by
        split <;> rfl
      exact { single.idle found (by rw [stage]; rfl) stays with }
  | missing found stage nothing => exact single.idle found (by rw [stage]; rfl) rfl
  | @read call window time code found stage stored =>
      obtain ⟨alone, counted, quiet⟩ := undisturbed call window time code found stage stored
      have isCode := (Option.filter_eq_some_iff.mp stored).1
      have idle : call.stage.idle = true := by
        rw [stage]
        rfl
      have guessed := single.guess time (code.value.accepts hashCode call.guess) isCode counted
        quiet
      cases isRight : code.value.accepts hashCode call.guess with
      | true =>
          rw [isRight] at guessed
          exact guessed.match found idle isCode (alone isRight)
      | false =>
          rw [isRight] at guessed
          exact guessed.idle found idle rfl
  | deleteCode found stage => exact single.deleteCode found stage
  | deleteCounter found stage => exact single.deleteCounter found stage

end Codes

/-! # Runs -/

/-- The calls that return true for one code. -/
def Inbox.successes (inbox : Inbox) (serial : ℕ) : ℕ :=
  inbox.calls.rows.countP (·.stage = .returnedTrue serial)

/-- The wrong guesses at one code whose attempts were counted in the five minutes of a window. -/
def Inbox.wrongGuesses (inbox : Inbox) (serial : ℕ) (window : Window) : ℕ :=
  inbox.guesses.countP fun guess => guess.serial = serial && !guess.right &&
    decide (window.start ≤ guess.time) && decide (guess.time < window.start + attemptWindow)

structure Inbox.OneTime (inbox : Inbox) : Prop where
  successes : ∀ serial, inbox.successes serial ≤ 1
  wrongGuesses : ∀ serial, ∀ window ∈ inbox.windows,
    inbox.wrongGuesses serial window ≤ maxAttempts

section Runs

variable {inbox : Inbox}

theorem Single.successes_le (single : Single inbox) (serial : ℕ) : inbox.successes serial ≤ 1 := by
  refine le_trans ?_ (single.once serial)
  unfold Inbox.successes Table.sum
  induction inbox.calls.rows with
  | nil => exact le_rfl
  | cons call rest ih =>
      rw [List.countP_cons, List.map_cons, List.sum_cons, add_comm]
      refine Nat.add_le_add ?_ ih
      split
      · rename_i returned
        rw [VerifyCall.uses, of_decide_eq_true returned]
        exact (if_pos rfl).ge
      · exact Nat.zero_le _

/-- Of two windows of one generation, the five minutes of a third window do not reach attempts in
both. -/
theorem Timely.not_both (timely : Timely inbox) {window : Window} {guess other : Guess}
    (opened : window ∈ inbox.windows) (member : guess ∈ inbox.guesses)
    (otherMember : other ∈ inbox.guesses)
    (same : guess.window.generation = other.window.generation)
    (since : window.start ≤ guess.time) (ending : other.time < window.start + attemptWindow) :
    ¬ guess.window.start + attemptWindow ≤ other.window.start := by
  intro apart
  have placed := timely.guesses guess member
  have otherPlaced := timely.guesses other otherMember
  have within := placed.within
  have otherAfter := otherPlaced.after
  rcases lt_trichotomy window.generation guess.window.generation with older | equal | younger
  · have earlier := timely.later window opened guess.window placed.opened older
    linarith
  · rcases timely.apart window opened guess.window placed.opened equal with rfl | before | after
    · linarith
    · have := placed.after
      linarith
    · linarith
  · have earlier := otherPlaced.before window opened (same ▸ younger)
    linarith

theorem Timely.wrongGuesses_le (timely : Timely inbox) (single : Single inbox) (serial : ℕ)
    {window : Window} (opened : window ∈ inbox.windows) :
    inbox.wrongGuesses serial window ≤ maxAttempts := by
  by_cases unmade : ∀ guess ∈ inbox.guesses, ¬ (guess.serial = serial && !guess.right &&
      decide (window.start ≤ guess.time) &&
      decide (guess.time < window.start + attemptWindow)) = true
  · unfold Inbox.wrongGuesses
    rw [List.countP_eq_zero.mpr unmade]
    exact Nat.zero_le _
  · push Not at unmade
    obtain ⟨guess, member, counts⟩ := unmade
    simp only [Bool.and_eq_true, decide_eq_true_eq] at counts
    obtain ⟨⟨⟨isSerial, -⟩, since⟩, ending⟩ := counts
    -- All of them were counted in the window of this one, which has five attempts.
    refine le_trans (List.countP_mono_left ?_)
      ((Nat.le_add_right _ _).trans (timely.room guess.window))
    intro other otherMember counted
    simp only [Bool.and_eq_true, decide_eq_true_eq] at counted
    obtain ⟨⟨⟨otherSerial, -⟩, otherSince⟩, otherUntil⟩ := counted
    have same := single.together guess member other otherMember (isSerial.trans otherSerial.symm)
    have placed := (timely.guesses guess member).opened
    have otherPlaced := (timely.guesses other otherMember).opened
    rcases timely.apart guess.window placed other.window otherPlaced same with
      equal | before | after
    · exact decide_eq_true equal.symm
    · exact absurd before (timely.not_both opened member otherMember same since otherUntil)
    · exact absurd after (timely.not_both opened otherMember member same.symm otherSince ending)

end Runs

/-- As long as reads are undisturbed, one call at most succeeds with a code, and five wrong
guesses at most are made at it in an attempt window. -/
theorem undisturbed_codes_are_one_time {hashCode : String → String}
    {waiting : Option (Stored × ℚ)} {actions : List Action} {final : Inbox}
    (run : Run (Moves hashCode) (Undisturbed hashCode) (.start waiting) actions final) :
    final.OneTime := by
  have step : ∀ inbox action after, Undisturbed hashCode inbox action →
      Moves hashCode inbox action after → Timely inbox ∧ Single inbox →
      Timely after ∧ Single after := by
    rintro inbox action after undisturbed moved ⟨timely, single⟩
    exact ⟨timely.step moved, single.step undisturbed moved⟩
  obtain ⟨timely, single⟩ := run.invariant (fun inbox : Inbox => Timely inbox ∧ Single inbox) step
    ⟨timely_start waiting, single_start waiting⟩
  exact ⟨single.successes_le, fun serial window opened =>
    timely.wrongGuesses_le single serial opened⟩

/-! # Two calls at once -/

section Race

variable {hashCode : String → String} {inbox after : Inbox} {call : VerifyCall} {code : Code}
  {window : Window} {time : ℚ} {stage : Stage}

theorem Moves.readRight (call : VerifyCall) (found : inbox.calls.find? call.id = some call)
    (counted : call.stage = .counted window time) (stored : inbox.storedCode = some code)
    (right : code.value.accepts hashCode call.guess = true) :
    Moves hashCode inbox (.read call.id)
      { inbox with
        calls := inbox.setStage call.id (.matched code.serial)
        guesses := inbox.guesses ++ [⟨code.serial, window, time, true⟩] } := by
  have moved : Moves hashCode inbox (.read call.id) _ := .read found counted stored
  rwa [right] at moved

theorem find?_moved {id : ℕ} {guess : String} {old : Stage}
    (found : inbox.calls.find? id = some ⟨id, guess, old⟩)
    (moved : after.calls = inbox.setStage id stage) :
    after.calls.find? id = some ⟨id, guess, stage⟩ := by
  unfold Inbox.setStage at moved
  rw [moved, Table.find?_modify_self, found]
  rfl

theorem find?_unmoved {id other : ℕ} (different : other ≠ id)
    (moved : after.calls = inbox.setStage id stage) :
    after.calls.find? other = inbox.calls.find? other := by
  unfold Inbox.setStage at moved
  rw [moved, Table.find?_modify_ne different]

/-- Where two calls stand. -/
def Inbox.Stand (inbox : Inbox) (guess : String) (first second : Stage) : Prop :=
  inbox.calls.find? 0 = some ⟨0, guess, first⟩ ∧ inbox.calls.find? 1 = some ⟨1, guess, second⟩

theorem Inbox.Stand.first {guess : String} {first second : Stage}
    (stand : inbox.Stand guess first second) (moved : after.calls = inbox.setStage 0 stage) :
    after.Stand guess stage second :=
  ⟨find?_moved stand.1 moved, (find?_unmoved Nat.one_ne_zero moved).trans stand.2⟩

theorem Inbox.Stand.second {guess : String} {first second : Stage}
    (stand : inbox.Stand guess first second) (moved : after.calls = inbox.setStage 1 stage) :
    after.Stand guess first stage :=
  ⟨(find?_unmoved Nat.zero_ne_one moved).trans stand.1, find?_moved stand.2 moved⟩

/-- Two calls that were counted read the code before either deletes it. -/
theorem race {guess : String} {otherWindow : Window} {otherTime : ℚ}
    (stand : inbox.Stand guess (.counted window time) (.counted otherWindow otherTime))
    (stored : inbox.storedCode = some code)
    (right : code.value.accepts hashCode guess = true) :
    ∃ final, Run (Moves hashCode) (fun _ _ => True) inbox
        [.read 0, .read 1, .deleteCode 0, .deleteCounter 0, .deleteCode 1, .deleteCounter 1]
        final ∧
      final.Stand guess (.returnedTrue code.serial) (.returnedTrue code.serial) := by
  obtain ⟨readOnce, reads, stand, stored⟩ : ∃ after, Moves hashCode inbox (.read 0) after ∧
      after.Stand guess (.matched code.serial) (.counted otherWindow otherTime) ∧
      after.storedCode = some code := by
    have moved := Moves.readRight ⟨0, guess, _⟩ stand.1 rfl stored right
    exact ⟨_, moved, stand.first rfl, stored⟩
  obtain ⟨readTwice, readsToo, stand⟩ : ∃ after, Moves hashCode readOnce (.read 1) after ∧
      after.Stand guess (.matched code.serial) (.matched code.serial) := by
    have moved := Moves.readRight ⟨1, guess, _⟩ stand.2 rfl stored right
    exact ⟨_, moved, stand.second rfl⟩
  obtain ⟨removed, removes, stand⟩ : ∃ after, Moves hashCode readTwice (.deleteCode 0) after ∧
      after.Stand guess (.deleted code.serial) (.matched code.serial) :=
    ⟨_, @Moves.deleteCode _ _ ⟨0, _, _⟩ _ stand.1 rfl, stand.first rfl⟩
  obtain ⟨uncounted, uncounts, stand⟩ : ∃ after, Moves hashCode removed (.deleteCounter 0) after ∧
      after.Stand guess (.returnedTrue code.serial) (.matched code.serial) :=
    ⟨_, @Moves.deleteCounter _ _ ⟨0, _, _⟩ _ stand.1 rfl, stand.first rfl⟩
  obtain ⟨again, removesToo, stand⟩ : ∃ after, Moves hashCode uncounted (.deleteCode 1) after ∧
      after.Stand guess (.returnedTrue code.serial) (.deleted code.serial) :=
    ⟨_, @Moves.deleteCode _ _ ⟨1, _, _⟩ _ stand.2 rfl, stand.second rfl⟩
  obtain ⟨final, uncountsToo, stand⟩ : ∃ after, Moves hashCode again (.deleteCounter 1) after ∧
      after.Stand guess (.returnedTrue code.serial) (.returnedTrue code.serial) :=
    ⟨_, @Moves.deleteCounter _ _ ⟨1, _, _⟩ _ stand.2 rfl, stand.second rfl⟩
  exact ⟨final, .act trivial reads (.act trivial readsToo (.act trivial removes
    (.act trivial uncounts (.act trivial removesToo (.act trivial uncountsToo (.stop _)))))),
    stand⟩

/-- Both calls are counted before either reads. -/
theorem right_code_twice (hashCode : String → String) :
    ∃ final, Run (Moves hashCode) (fun _ _ => True) (.start none)
      ([.send "12345678", .begin 0 "12345678", .begin 1 "12345678", .count 0, .count 1] ++
        [.read 0, .read 1, .deleteCode 0, .deleteCounter 0, .deleteCode 1, .deleteCounter 1])
        final ∧
      final.Stand "12345678" (.returnedTrue 1) (.returnedTrue 1) := by
  have script : rateLimitScript 0 maxAttempts attemptWindow
      (some (rateLimitScript 0 maxAttempts attemptWindow none).1) = (⟨2, 300⟩, true) := by
    decide +kernel
  have live : (0 : ℚ) < 0 + codeTtl := by decide +kernel
  obtain ⟨inbox, run, stand, stored⟩ : ∃ inbox, Run (Moves hashCode) (fun _ _ => True)
      (.start none)
      [.send "12345678", .begin 0 "12345678", .begin 1 "12345678", .count 0, .count 1] inbox ∧
      inbox.Stand "12345678" (.counted ⟨0, 0 + attemptWindow - attemptWindow⟩ 0)
        (.counted ⟨0, 300 - attemptWindow⟩ 0) ∧
      inbox.storedCode = some ⟨1, .hashed (hashCode "12345678"), 0 + codeTtl⟩ := by
    refine ⟨_, .act trivial (.send _) (.act trivial (.begin _ rfl) (.act trivial (.begin _ rfl)
      (.act trivial (@Moves.count _ _ ⟨0, _, .begun⟩ rfl rfl)
        (.act trivial (@Moves.count _ _ ⟨1, _, .begun⟩ rfl rfl) (.stop _))))), ⟨rfl, ?_⟩,
      Option.filter_eq_some_iff.mpr ⟨rfl, decide_eq_true live⟩⟩
    -- The counter is 2 when the second call is counted.
    have counted : (if (rateLimitScript 0 maxAttempts attemptWindow
        (some (rateLimitScript 0 maxAttempts attemptWindow none).1)).2 then
        Stage.counted ⟨0, (rateLimitScript 0 maxAttempts attemptWindow
          (some (rateLimitScript 0 maxAttempts attemptWindow none).1)).1.expiresAt -
            attemptWindow⟩ 0
      else .returnedFalse) = .counted ⟨0, 300 - attemptWindow⟩ 0 := by
      rw [script]
      rfl
    exact congrArg (fun stage => some (⟨1, "12345678", stage⟩ : VerifyCall)) counted
  obtain ⟨final, ends, stand⟩ := race stand stored (decide_eq_true rfl)
  exact ⟨final, run.append ends, stand⟩

/-- A call that has the inbox for itself. -/
theorem right_code_once (hashCode : String → String) :
    ∃ final, Run (Moves hashCode) (Undisturbed hashCode) (.start none)
      ([.send "12345678", .begin 0 "12345678", .count 0] ++
        [.read 0, .deleteCode 0, .deleteCounter 0]) final ∧
      final.calls.find? 0 = some ⟨0, "12345678", .returnedTrue 1⟩ := by
  have live : (0 : ℚ) < 0 + codeTtl := by decide +kernel
  obtain ⟨inbox, run, rows, stored, generation⟩ : ∃ inbox, Run (Moves hashCode)
      (Undisturbed hashCode) (.start none)
      [.send "12345678", .begin 0 "12345678", .count 0] inbox ∧
      inbox.calls.rows =
        [⟨0, "12345678", .counted ⟨0, 0 + attemptWindow - attemptWindow⟩ 0⟩] ∧
      inbox.storedCode = some ⟨1, .hashed (hashCode "12345678"), 0 + codeTtl⟩ ∧
      inbox.generation = 0 := by
    exact ⟨_, .act trivial (.send _) (.act trivial (.begin _ rfl)
      (.act trivial (@Moves.count _ _ ⟨0, _, .begun⟩ rfl rfl) (.stop _))), rfl,
      Option.filter_eq_some_iff.mpr ⟨rfl, decide_eq_true live⟩, rfl⟩
  have found : inbox.calls.find? 0 =
      some ⟨0, "12345678", .counted ⟨0, 0 + attemptWindow - attemptWindow⟩ 0⟩ := by
    rw [Table.find?, rows]
    rfl
  have undisturbed : Undisturbed hashCode inbox (.read 0) := by
    intro call window time code isCall counted isCode
    cases found.symm.trans isCall
    cases counted
    rw [rows, generation]
    refine ⟨fun _ other member => ?_, rfl, fun other member serial closing => ?_⟩
    · rw [List.mem_singleton.mp member]
      simp
    · rw [List.mem_singleton.mp member] at closing
      rcases closing with isStage | isStage <;> cases isStage
  obtain ⟨readOnce, reads, found⟩ : ∃ after, Moves hashCode inbox (.read 0) after ∧
      after.calls.find? 0 = some ⟨0, "12345678", .matched 1⟩ := by
    have moved := Moves.readRight ⟨0, "12345678", _⟩ found rfl stored (decide_eq_true rfl)
    exact ⟨_, moved, find?_moved found rfl⟩
  obtain ⟨removed, removes, found⟩ : ∃ after, Moves hashCode readOnce (.deleteCode 0) after ∧
      after.calls.find? 0 = some ⟨0, "12345678", .deleted 1⟩ :=
    ⟨_, @Moves.deleteCode _ _ ⟨0, _, _⟩ _ found rfl, find?_moved found rfl⟩
  obtain ⟨final, uncounts, found⟩ : ∃ after, Moves hashCode removed (.deleteCounter 0) after ∧
      after.calls.find? 0 = some ⟨0, "12345678", .returnedTrue 1⟩ :=
    ⟨_, @Moves.deleteCounter _ _ ⟨0, _, _⟩ _ found rfl, find?_moved found rfl⟩
  exact ⟨final, run.append (.act undisturbed reads (.act trivial removes
    (.act trivial uncounts (.stop _)))), found⟩

end Race

end PredictX.OtpService
