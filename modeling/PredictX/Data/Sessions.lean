import PredictX.Data.Run
import Mathlib.Logic.Function.Basic
import Mathlib.Logic.Relation

namespace PredictX.Data

/-! Interleaved transactions with row locks.

A session asks one query after the other, each against the shared state of that moment, and
writes when it commits.  A row locked by a query stays locked until the session ends, and a
query waits for the rows another session holds.  `Serial` is what a protocol has to show for
its commits to be atomic: what a session has read still holds when it commits, because nobody
it did not exclude can change it.
-/

structure Protocol (σ : Type) where
  Session : Type
  Row : Type
  fresh : Session → Prop
  holds : Session → Row → Prop
  query : σ → Session → Session → Prop
  commit : σ → Session → σ → Prop
  holds_fresh : ∀ session row, fresh session → ¬ holds session row

namespace Protocol

variable {σ : Type} (protocol : Protocol σ)

structure State where
  shared : σ
  sessions : ℕ → Option protocol.Session

/-- Nobody has begun. -/
def State.idle {protocol : Protocol σ} (shared : σ) : protocol.State := ⟨shared, fun _ => none⟩

inductive Move where
  | begin (id : ℕ)
  | query (id : ℕ)
  | commit (id : ℕ)
  | abort (id : ℕ)
deriving DecidableEq, Repr

def State.set {protocol : Protocol σ} (state : protocol.State) (id : ℕ)
    (session : Option protocol.Session) : protocol.State :=
  { state with sessions := Function.update state.sessions id session }

/-- No row is held by both. -/
def Apart (left right : protocol.Session) : Prop :=
  ∀ row, protocol.holds left row → ¬ protocol.holds right row

inductive Interleaves : protocol.State → Move → protocol.State → Prop
  | begin {state : protocol.State} {id : ℕ} {session : protocol.Session}
      (free : state.sessions id = none) (fresh : protocol.fresh session) :
      Interleaves state (.begin id) (state.set id (some session))
  | query {state : protocol.State} {id : ℕ} {session next : protocol.Session}
      (running : state.sessions id = some session)
      (asked : protocol.query state.shared session next)
      (granted : ∀ other held, other ≠ id → state.sessions other = some held →
        protocol.Apart next held) :
      Interleaves state (.query id) (state.set id (some next))
  | commit {state : protocol.State} {id : ℕ} {session : protocol.Session} {after : σ}
      (running : state.sessions id = some session)
      (written : protocol.commit state.shared session after) :
      Interleaves state (.commit id) { (state.set id none) with shared := after }
  | abort {state : protocol.State} {id : ℕ} :
      Interleaves state (.abort id) (state.set id none)

/-- Any two running sessions are apart. -/
def Exclusive (state : protocol.State) : Prop :=
  ∀ first second left right, first ≠ second → state.sessions first = some left →
    state.sessions second = some right → protocol.Apart left right

variable {protocol} {state next : protocol.State} {move : Move}

theorem set_self {id : ℕ} {session : Option protocol.Session} :
    (state.set id session).sessions id = session :=
  Function.update_self ..

theorem set_ne {id other : ℕ} {session : Option protocol.Session} (apart : other ≠ id) :
    (state.set id session).sessions other = state.sessions other :=
  Function.update_of_ne apart ..

theorem Apart.symm {left right : protocol.Session} (apart : protocol.Apart left right) :
    protocol.Apart right left :=
  fun row rightHolds leftHolds => apart row leftHolds rightHolds

/-- A session that ends releases its rows. -/
theorem Exclusive.drop (exclusive : protocol.Exclusive state) (id : ℕ) :
    protocol.Exclusive (state.set id none) := by
  intro first second left right different firstRuns secondRuns
  by_cases isFirst : first = id
  · subst isFirst
    rw [set_self] at firstRuns
    contradiction
  by_cases isSecond : second = id
  · subst isSecond
    rw [set_self] at secondRuns
    contradiction
  rw [set_ne isFirst] at firstRuns
  rw [set_ne isSecond] at secondRuns
  exact exclusive first second left right different firstRuns secondRuns

/-- A session may be replaced by one that is apart from the others. -/
theorem Exclusive.put (exclusive : protocol.Exclusive state) {id : ℕ}
    {session : protocol.Session}
    (granted : ∀ other held, other ≠ id → state.sessions other = some held →
      protocol.Apart session held) :
    protocol.Exclusive (state.set id (some session)) := by
  intro first second left right different firstRuns secondRuns
  by_cases isFirst : first = id
  · subst isFirst
    rw [set_self] at firstRuns
    cases firstRuns
    rw [set_ne different.symm] at secondRuns
    exact granted second right different.symm secondRuns
  rw [set_ne isFirst] at firstRuns
  by_cases isSecond : second = id
  · subst isSecond
    rw [set_self] at secondRuns
    cases secondRuns
    exact (granted first left isFirst firstRuns).symm
  rw [set_ne isSecond] at secondRuns
  exact exclusive first second left right different firstRuns secondRuns

theorem Interleaves.exclusive (moved : protocol.Interleaves state move next)
    (exclusive : protocol.Exclusive state) : protocol.Exclusive next := by
  cases moved with
  | begin free fresh =>
      exact exclusive.put fun other held _ _ row holds =>
        absurd holds (protocol.holds_fresh _ row fresh)
  | query running asked granted => exact exclusive.put granted
  | commit running written => exact exclusive.drop _
  | abort => exact exclusive.drop _

/-- A session that nobody disturbs begins, asks its queries and commits. -/
theorem run_alone {shared after : σ} (session last : protocol.Session)
    (fresh : protocol.fresh session)
    (asks : Relation.ReflTransGen (protocol.query shared) session last)
    (written : protocol.commit shared last after) :
    ∃ moves, Run protocol.Interleaves (fun _ _ => True) (State.idle shared) moves
      (State.idle after) := by
  have noOther : ∀ (own : protocol.Session) other held, other ≠ 0 →
      ((State.idle shared).set 0 (some own)).sessions other ≠ some held := by
    intro own other held apart
    rw [set_ne apart]
    simp [State.idle]
  have asking : ∃ moves, Run protocol.Interleaves (fun _ _ => True)
      ((State.idle shared).set 0 (some session)) moves
      ((State.idle shared).set 0 (some last)) := by
    clear fresh
    induction asks using Relation.ReflTransGen.head_induction_on with
    | refl => exact ⟨[], .stop _⟩
    | @head first second asked _ ih =>
        obtain ⟨moves, later⟩ := ih
        have again : ((State.idle shared).set 0 (some first)).set 0 (some second) =
            (State.idle shared).set 0 (some second) := by
          simp [State.set]
        refine ⟨.query 0 :: moves, .act trivial (.query set_self asked ?_) (again ▸ later)⟩
        exact fun other held apart running => absurd running (noOther first other held apart)
  obtain ⟨moves, asked⟩ := asking
  have ended : ({ ((State.idle shared).set 0 (some last)).set 0 none with shared := after } :
      protocol.State) = State.idle after := by
    simp [State.set, State.idle]
  have commits : protocol.Interleaves ((State.idle shared).set 0 (some last)) (.commit 0)
      (State.idle after) := ended ▸ .commit set_self written
  exact ⟨.begin 0 :: (moves ++ [.commit 0]), .act trivial (.begin rfl fresh)
    (asked.append (.act trivial commits (.stop _)))⟩

section Pair

variable {shared after : σ} {session next held : protocol.Session}
  {left right : Option protocol.Session}

/-- Two sessions, either of which may not run. -/
def State.pair (shared : σ) (left right : Option protocol.Session) : protocol.State where
  shared := shared
  sessions
    | 0 => left
    | 1 => right
    | _ => none

theorem State.idle_eq_pair : (State.idle shared : protocol.State) = .pair shared none none := by
  unfold State.idle State.pair
  congr
  funext id
  rcases id with _ | _ | _ <;> rfl

theorem pair_set_left (session : Option protocol.Session) :
    (State.pair shared left right).set 0 session = .pair shared session right := by
  unfold State.set State.pair
  congr
  funext id
  rcases id with _ | _ | _ <;> rfl

theorem pair_set_right (session : Option protocol.Session) :
    (State.pair shared left right).set 1 session = .pair shared left session := by
  unfold State.set State.pair
  congr
  funext id
  rcases id with _ | _ | _ <;> rfl

theorem Interleaves.beginLeft (fresh : protocol.fresh session) :
    protocol.Interleaves (.pair shared none right) (.begin 0)
      (.pair shared (some session) right) := by
  rw [← pair_set_left (some session)]
  exact .begin rfl fresh

theorem Interleaves.beginRight (fresh : protocol.fresh session) :
    protocol.Interleaves (.pair shared left none) (.begin 1)
      (.pair shared left (some session)) := by
  rw [← pair_set_right (some session)]
  exact .begin rfl fresh

theorem Interleaves.queryLeft (asked : protocol.query shared session next)
    (apart : ∀ held, right = some held → protocol.Apart next held) :
    protocol.Interleaves (.pair shared (some session) right) (.query 0)
      (.pair shared (some next) right) := by
  rw [← pair_set_left (some next)]
  refine .query rfl asked ?_
  intro other held different running
  rcases other with _ | _ | _
  · contradiction
  · exact apart held running
  · contradiction

theorem Interleaves.queryRight (asked : protocol.query shared session next)
    (apart : ∀ held, left = some held → protocol.Apart next held) :
    protocol.Interleaves (.pair shared left (some session)) (.query 1)
      (.pair shared left (some next)) := by
  rw [← pair_set_right (some next)]
  refine .query rfl asked ?_
  intro other held different running
  rcases other with _ | _ | _
  · exact apart held running
  · contradiction
  · contradiction

theorem Interleaves.commitLeft (written : protocol.commit shared session after) :
    protocol.Interleaves (.pair shared (some session) right) (.commit 0)
      (.pair after none right) := by
  have ended : ({ ((State.pair shared (some session) right).set 0 none) with shared := after } :
      protocol.State) = .pair after none right := by
    rw [pair_set_left]
    rfl
  exact ended ▸ .commit rfl written

theorem Interleaves.commitRight (written : protocol.commit shared session after) :
    protocol.Interleaves (.pair shared left (some session)) (.commit 1)
      (.pair after left none) := by
  have ended : ({ ((State.pair shared left (some session)).set 1 none) with shared := after } :
      protocol.State) = .pair after left none := by
    rw [pair_set_right]
    rfl
  exact ended ▸ .commit rfl written

/-- A whole transaction that takes place while the other session stands still. -/
theorem run_beside {guard : protocol.State → Move → Prop} {last : protocol.Session}
    (free : ∀ state id, guard state (.begin id) ∧ guard state (.query id))
    (fresh : protocol.fresh session)
    (asks : Relation.ReflTransGen (fun session next => protocol.query shared session next ∧
      ∀ held, left = some held → protocol.Apart next held) session last)
    (commits : guard (.pair shared left (some last)) (.commit 1))
    (written : protocol.commit shared last after) :
    ∃ moves, Run protocol.Interleaves guard (.pair shared left none) moves
      (.pair after left none) := by
  have asking : ∃ moves, Run protocol.Interleaves guard (.pair shared left (some session)) moves
      (.pair shared left (some last)) := by
    clear fresh
    induction asks using Relation.ReflTransGen.head_induction_on with
    | refl => exact ⟨[], .stop _⟩
    | head asked _ ih =>
        obtain ⟨moves, later⟩ := ih
        exact ⟨.query 1 :: moves, .act (free _ _).2 (.queryRight asked.1 asked.2) later⟩
  obtain ⟨moves, asked⟩ := asking
  exact ⟨.begin 1 :: (moves ++ [.commit 1]), .act (free _ _).1 (.beginRight fresh)
    (asked.append (.act commits (.commitRight written) (.stop _)))⟩

end Pair

/-- What a session knows of the shared state, and why it stays true. -/
structure Serial (protocol : Protocol σ) where
  Knows : σ → protocol.Session → Prop
  fresh : ∀ {shared session}, protocol.fresh session → Knows shared session
  query : ∀ {shared session next}, Knows shared session → protocol.query shared session next →
    Knows shared next
  /-- A commit leaves the knowledge of those the writer is apart from. -/
  stable : ∀ {shared session writer after}, Knows shared session → Knows shared writer →
    protocol.Apart session writer → protocol.commit shared writer after → Knows after session

namespace Serial

variable (serial : Serial protocol)

/-- Everybody knows what she has read. -/
structure Sound (state : protocol.State) : Prop where
  exclusive : protocol.Exclusive state
  knows : ∀ id session, state.sessions id = some session → serial.Knows state.shared session

theorem sound_idle (shared : σ) : serial.Sound (State.idle shared) :=
  ⟨fun _ _ _ _ _ runs => absurd runs (by simp [State.idle]),
    fun _ _ runs => absurd runs (by simp [State.idle])⟩

theorem Sound.step (sound : serial.Sound state) (moved : protocol.Interleaves state move next) :
    serial.Sound next := by
  refine ⟨moved.exclusive sound.exclusive, ?_⟩
  intro id session runs
  cases moved with
  | @begin mover started free fresh =>
      by_cases this : id = mover
      · subst this
        rw [set_self] at runs
        cases runs
        exact serial.fresh fresh
      · rw [set_ne this] at runs
        exact sound.knows id session runs
  | @query mover before after running asked granted =>
      by_cases this : id = mover
      · subst this
        rw [set_self] at runs
        cases runs
        exact serial.query (sound.knows id before running) asked
      · rw [set_ne this] at runs
        exact sound.knows id session runs
  | @commit mover writer after running written =>
      by_cases this : id = mover
      · subst this
        exact absurd (set_self.symm.trans runs) (by simp)
      · have others : state.sessions id = some session := (set_ne this).symm.trans runs
        exact serial.stable (sound.knows id session others) (sound.knows mover writer running)
          (sound.exclusive id mover session writer this others running) written
  | @abort mover =>
      by_cases this : id = mover
      · subst this
        rw [set_self] at runs
        contradiction
      · rw [set_ne this] at runs
        exact sound.knows id session runs

/-- An invariant of the shared state that every informed commit keeps holds throughout. -/
theorem invariant_from {start final : protocol.State} {moves : List Move}
    (invariant : σ → Prop)
    (preserves : ∀ {shared session after}, serial.Knows shared session →
      protocol.commit shared session after → invariant shared → invariant after)
    (sound : serial.Sound start)
    (run : Run protocol.Interleaves (fun _ _ => True) start moves final)
    (initially : invariant start.shared) : serial.Sound final ∧ invariant final.shared := by
  refine run.invariant (fun state => serial.Sound state ∧ invariant state.shared) ?_
    ⟨sound, initially⟩
  intro state move next _ moved holds
  refine ⟨holds.1.step serial moved, ?_⟩
  cases moved with
  | begin free fresh => exact holds.2
  | query running asked granted => exact holds.2
  | commit running written => exact preserves (holds.1.knows _ _ running) written holds.2
  | abort => exact holds.2

theorem invariant {start : σ} {moves : List Move} {final : protocol.State}
    (invariant : σ → Prop)
    (preserves : ∀ {shared session after}, serial.Knows shared session →
      protocol.commit shared session after → invariant shared → invariant after)
    (run : Run protocol.Interleaves (fun _ _ => True) (State.idle start) moves final)
    (initially : invariant start) : invariant final.shared :=
  (serial.invariant_from invariant preserves (serial.sound_idle start) run initially).2

end Serial

end Protocol

section WriteBack

variable {α : Type} [DecidableEq α]

/-- A mapped column is written when its value is not the one loaded; the row may have been
stored anew in the meantime. -/
def writeColumn (loaded value stored : α) : α := if value = loaded then stored else value

@[simp] theorem writeColumn_stored (loaded value : α) : writeColumn loaded value loaded = value := by
  unfold writeColumn
  split
  · rename_i same
    exact same.symm
  · rfl

@[simp] theorem writeColumn_loaded (loaded stored : α) :
    writeColumn loaded loaded stored = stored :=
  if_pos rfl

end WriteBack

end PredictX.Data
