import PredictX.Properties.CriticalFrames

namespace PredictX.PublishQueue

open PredictX.Data

/-! Is a lost private frame made up for?

Only an overflow records a debt.  `_flush_owed_resyncs` takes all debts off the record before it
tries the first marker, and `_dispatch` swallows what goes wrong in a send, so a marker or a frame
that fails leaves nothing behind.
-/

variable {α ρ : Type} {limits : Limits} {apply : α → ρ → ρ} {floor after : Floor α ρ}
  {action : Action α} {user : UserId}

/-- Whether the user is owed a resync after the event. -/
def debtAfter (user : UserId) (owing : Bool) : Event α → Bool
  | .spilled pending | .failed pending _ => owing || pending.oweResyncTo = some user
  | .marker marked published => owing && !(marked = user && published)
  | .accepted _ | .passed _ | .published _ => owing

/-- A private frame of the user was lost and no marker has been published since. -/
def owing (user : UserId) (log : List (Event α)) : Bool :=
  log.foldl (debtAfter user) false

theorem owing_append (log : List (Event α)) (event : Event α) :
    owing user (log ++ [event]) = debtAfter user (owing user log) event := by
  simp [owing]

/-- The markers a writer has still to publish. -/
def Stage.hands : Stage α → List UserId
  | .flushing user rest => user :: rest
  | _ => []

/-- The user is in `_owed_resyncs` or in the hands of a writer. -/
def Recorded (floor : Floor α ρ) (user : UserId) : Prop :=
  user ∈ floor.queues.owedResyncs ∨ ∃ writer, user ∈ (floor.writers writer).hands

def Reconciled (floor : Floor α ρ) : Prop :=
  ∀ user, owing user floor.log = true → Recorded floor user

/-- A private frame or a marker fails only while the user is recorded elsewhere. -/
def Dependable (floor : Floor α ρ) : Action α → Prop
  | .fail writer _ => ∀ pending user, floor.writers writer = .sending pending →
      pending.oweResyncTo = some user → Recorded floor user
  | .mark writer false | .resume writer false => ∀ user rest,
      floor.writers writer = .flushing user rest → owing user floor.log = true →
        user ∈ floor.queues.owedResyncs ∨
          ∃ other, other ≠ writer ∧ user ∈ (floor.writers other).hands
  | _ => True

/-! # Steps -/

theorem Recorded.keeps (recorded : Recorded floor user)
    (owed : floor.queues.owedResyncs ⊆ after.queues.owedResyncs) {writer : ℕ} {stage : Stage α}
    (writers : after.writers = Function.update floor.writers writer stage)
    (hands : user ∈ (floor.writers writer).hands → user ∈ stage.hands) : Recorded after user := by
  rcases recorded with isOwed | ⟨other, held⟩
  · exact .inl (owed isOwed)
  · refine .inr ⟨other, ?_⟩
    rw [writers]
    by_cases same : other = writer
    · subst same
      simpa using hands held
    · simpa [same] using held

theorem Recorded.of_others (recorded : user ∈ floor.queues.owedResyncs ∨
      ∃ other, other ≠ writer ∧ user ∈ (floor.writers other).hands)
    (owed : floor.queues.owedResyncs ⊆ after.queues.owedResyncs) {stage : Stage α}
    (writers : after.writers = Function.update floor.writers writer stage) :
    Recorded after user := by
  rcases recorded with isOwed | ⟨other, apart, held⟩
  · exact .inl (owed isOwed)
  · refine .inr ⟨other, ?_⟩
    rw [writers]
    simpa [apart] using held

theorem spill_owed (queues : Queues α) (pending : Pending α) :
    queues.owedResyncs ⊆ (queues.spill pending).owedResyncs ∧
      ∀ user, pending.oweResyncTo = some user →
        user ∈ (queues.spill pending).owedResyncs := by
  unfold Queues.spill
  cases owes : pending.oweResyncTo with
  | none => simp
  | some user => simp

theorem recheck_owed (queues : Queues α) :
    (recheck queues).2.owedResyncs = queues.owedResyncs := by
  unfold recheck
  split
  · rfl
  · rename_i next
    rcases Queues.next_some next with ⟨_, _, owed⟩ | ⟨_, _, _, owed⟩
    · exact owed
    · exact owed

theorem recheck_hands (queues : Queues α) : (recheck queues).1.hands = [] := by
  unfold recheck
  split <;> rfl

/-- The writer drops the marker it is at, and its user needs none or is recorded elsewhere. -/
theorem reconciled_marker {writer : ℕ} {marked : UserId} {rest : List UserId} {published : Bool}
    {stage : Stage α} (flushing : floor.writers writer = .flushing marked rest)
    (elsewhere : published = false → owing marked floor.log = true →
      marked ∈ floor.queues.owedResyncs ∨
        ∃ other, other ≠ writer ∧ marked ∈ (floor.writers other).hands)
    (owed : floor.queues.owedResyncs ⊆ after.queues.owedResyncs)
    (writers : after.writers = Function.update floor.writers writer stage)
    (hands : stage.hands = rest) (log : after.log = floor.log ++ [.marker marked published])
    (reconciled : Reconciled floor) : Reconciled after := by
  intro user isOwing
  rw [log, owing_append] at isOwing
  simp only [debtAfter, Bool.and_eq_true, Bool.not_eq_true', Bool.and_eq_false_iff,
    decide_eq_false_iff_not] at isOwing
  obtain ⟨before, notMarked⟩ := isOwing
  by_cases same : marked = user
  · subst same
    have failed : published = false := by
      rcases notMarked with different | failed
      · exact absurd rfl different
      · exact failed
    exact Recorded.of_others (elsewhere failed before) owed writers
  · refine (reconciled user before).keeps owed writers ?_
    intro held
    rw [flushing] at held
    rw [hands]
    exact (List.mem_cons.mp held).resolve_left fun isMarked => same isMarked.symm

theorem reconciled_step (guarded : Dependable floor action)
    (moves : Moves limits apply floor action after) (reconciled : Reconciled floor) :
    Reconciled after := by
  cases moves with
  | accept offered =>
      intro user isOwing
      rw [owing_append] at isOwing
      obtain ⟨owed, _⟩ := Queues.enqueue_accepted offered
      rcases reconciled user isOwing with isOwed | held
      · exact .inl (owed ▸ isOwed)
      · exact .inr held
  | spill offered =>
      obtain ⟨_, rfl⟩ := Queues.enqueue_spilled offered
      obtain ⟨kept, added⟩ := spill_owed floor.queues (pendingOf _ _ _)
      intro user isOwing
      rw [owing_append] at isOwing
      simp only [debtAfter, Bool.or_eq_true, decide_eq_true_eq] at isOwing
      rcases isOwing with before | spilled
      · rcases reconciled user before with isOwed | held
        · exact .inl (kept isOwed)
        · exact .inr held
      · exact .inl (added user spilled)
  | @take writer pending queues top next =>
      intro user isOwing
      rw [owing_append] at isOwing
      have owed : queues.owedResyncs = floor.queues.owedResyncs := by
        rcases Queues.next_some next with ⟨_, _, owed⟩ | ⟨_, _, _, owed⟩
        · exact owed
        · exact owed
      exact (reconciled user isOwing).keeps owed.ge rfl (by simp [top, Stage.hands])
  | publish sending =>
      intro user isOwing
      rw [owing_append] at isOwing
      exact (reconciled user isOwing).keeps (subset_refl _) rfl (by simp [sending, Stage.hands])
  | fail sending =>
      intro user isOwing
      rw [owing_append] at isOwing
      simp only [debtAfter, Bool.or_eq_true, decide_eq_true_eq] at isOwing
      have recorded : Recorded floor user := by
        rcases isOwing with before | failed
        · exact reconciled user before
        · exact guarded _ user sending failed
      exact recorded.keeps (subset_refl _) rfl (by simp [sending, Stage.hands])
  | @flush writer first rest top idle distinct owed =>
      intro user isOwing
      rcases reconciled user isOwing with isOwed | ⟨other, held⟩
      · refine .inr ⟨writer, ?_⟩
        simpa [Stage.hands] using (owed user).mp isOwed
      · refine .inr ⟨other, ?_⟩
        by_cases same : other = writer
        · subst same
          simp [top, Stage.hands] at held
        · simpa [same] using held
  | @mark writer marked next rest published flushing =>
      refine reconciled_marker flushing ?_ (subset_refl _) rfl rfl rfl reconciled
      intro failed
      subst failed
      exact guarded marked _ flushing
  | @resume writer marked published flushing =>
      refine reconciled_marker flushing ?_ (recheck_owed floor.queues).ge rfl
        (recheck_hands floor.queues) rfl reconciled
      intro failed
      subst failed
      exact guarded marked _ flushing
  | park top idle owed =>
      intro user isOwing
      exact (reconciled user isOwing).keeps (subset_refl _) rfl (by simp [top, Stage.hands])
  | wake waiting =>
      intro user isOwing
      exact (reconciled user isOwing).keeps (subset_refl _) rfl (by simp [waiting, Stage.hands])

/-- While no private frame and no marker fails, or only while the user is recorded elsewhere, a
user who lost a frame stays on record until a marker is published. -/
theorem debts_stay_recorded {redis : ρ} {actions : List (Action α)}
    (run : Run (Moves limits apply) Dependable (.start redis) actions floor) :
    Reconciled floor := by
  have step : ∀ floor action after, Dependable floor action →
      Moves limits apply floor action after → Reconciled floor → Reconciled after :=
    fun _ _ _ guarded moves reconciled => reconciled_step guarded moves reconciled
  exact run.invariant _ step fun user isOwing => absurd isOwing (by simp [Floor.start, owing])

/-! # Debts that are dropped -/

theorem unrecorded {queues : Queues ℕ} {log : List (Event ℕ)} {stage : Stage ℕ}
    {writers : ℕ → Stage ℕ} (owed : queues.owedResyncs = ∅) (hands : stage.hands = [])
    (others : ∀ writer, writer ≠ 0 → (writers writer).hands = []) :
    ¬ Recorded (⟨queues, Function.update writers 0 stage, (), log⟩ : Floor ℕ Unit) 7 := by
  rintro (isOwed | ⟨writer, held⟩)
  · simp [owed] at isOwed
  · by_cases zero : writer = 0
    · simp [zero, hands] at held
    · simp [zero, others writer zero] at held

/-- The send of fill 1 fails and nobody is owed anything; fill 2 is spilled and its marker
fails. -/
theorem failures_are_forgotten :
    (∃ floor, Run (Moves oneFill ignored) (fun _ _ => True) (.start ())
        [.enqueue (fillFrame 1), .take 0, .fail 0 false] floor ∧
      owing 7 floor.log = true ∧ ¬ Recorded floor 7) ∧
    ∃ floor, Run (Moves oneFill ignored) (fun _ _ => True) (.start ())
        [.enqueue (fillFrame 1), .enqueue (fillFrame 2), .take 0, .publish 0, .flush 0,
          .resume 0 false] floor ∧
      owing 7 floor.log = true ∧ ¬ Recorded floor 7 := by
  have send : Run (Moves oneFill ignored) (fun _ _ => True) (.start ())
      [.enqueue (fillFrame 1), .take 0, .fail 0 false] _ :=
    .act trivial (.accept (accept_fill 1 ∅))
      (.act trivial (.take rfl rfl) (.act trivial (.fail rfl) (.stop _)))
  have marker : Run (Moves oneFill ignored) (fun _ _ => True) (.start ())
      [.enqueue (fillFrame 1), .enqueue (fillFrame 2), .take 0, .publish 0, .flush 0,
        .resume 0 false] _ :=
    .act trivial (.accept (accept_fill 1 ∅)) (.act trivial (.spill (spill_fill 2 1))
      (.act trivial (.take rfl rfl) (.act trivial (.publish rfl)
        (.act trivial (@Moves.flush _ _ _ _ _ 0 7 [] rfl rfl (by simp) (by simp))
          (.act trivial (.resume rfl) (.stop _))))))
  refine ⟨⟨_, send, ?_, unrecorded rfl rfl ?_⟩, _, marker, ?_, unrecorded rfl rfl ?_⟩
  · simp [owing, debtAfter, fillFrame, fillFrame_eq, Floor.start]
  · intro writer other
    simp [other, Floor.start, Stage.hands]
  · simp [owing, debtAfter, fillFrame, fillFrame_eq, Floor.start]
  · intro writer other
    simp [other, Floor.start, Stage.hands]

/-- The same overflow with a marker that goes out. -/
theorem spilled_fill_stays_recorded :
    ∃ floor, Run (Moves oneFill ignored) Dependable (.start ())
        [.enqueue (fillFrame 1), .enqueue (fillFrame 2), .take 0, .publish 0, .flush 0] floor ∧
      owing 7 floor.log = true ∧ Recorded floor 7 := by
  have spilled : Run (Moves oneFill ignored) Dependable (.start ())
      [.enqueue (fillFrame 1), .enqueue (fillFrame 2), .take 0, .publish 0, .flush 0] _ :=
    .act trivial (.accept (accept_fill 1 ∅)) (.act trivial (.spill (spill_fill 2 1))
      (.act trivial (.take rfl rfl) (.act trivial (.publish rfl)
        (.act trivial (@Moves.flush _ _ _ _ _ 0 7 [] rfl rfl (by simp) (by simp)) (.stop _)))))
  refine ⟨_, spilled, ?_, debts_stay_recorded spilled 7 ?_⟩
  · simp [owing, debtAfter, fillFrame, fillFrame_eq, Floor.start]
  · simp [owing, debtAfter, fillFrame, fillFrame_eq, Floor.start]

end PredictX.PublishQueue
