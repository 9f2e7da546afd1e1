import PredictX.Websocket.PublishQueue
import Mathlib.Tactic.Common

namespace PredictX.PublishQueue

open PredictX.Data

/-! Does an accepted critical frame reach `send`?

The writer that comes back from the last owed resync takes a frame off the queues to see whether
they are empty.  A frame that was accepted while it was away is lost there.
-/

section Queues

variable {α : Type} {limits : Limits} {queues after : Queues α} {pending : Pending α}

/-- Each queue holds the frames of its own class. -/
structure Queues.Classed (queues : Queues α) : Prop where
  critical : ∀ pending ∈ queues.critical, pending.delivery = .critical
  ephemeral : ∀ pending ∈ queues.ephemeral, pending.delivery = .ephemeral

theorem Queues.next_some (next : queues.next = some (pending, after)) :
    (queues.critical = pending :: after.critical ∧ after.ephemeral = queues.ephemeral ∧
      after.owedResyncs = queues.owedResyncs) ∨
    (queues.critical = [] ∧ after.critical = [] ∧
      queues.ephemeral = pending :: after.ephemeral ∧
      after.owedResyncs = queues.owedResyncs) := by
  unfold Queues.next at next
  split at next
  · rename_i critical
    cases next
    exact .inl ⟨critical, rfl, rfl⟩
  · rename_i critical ephemeral
    cases next
    exact .inr ⟨critical, critical, ephemeral, rfl⟩
  · contradiction

theorem Queues.enqueue_accepted (offered : queues.enqueue limits pending = .accepted after) :
    after.owedResyncs = queues.owedResyncs ∧
    ((pending.delivery = .critical ∧ after.critical = queues.critical ++ [pending] ∧
        after.ephemeral = queues.ephemeral) ∨
      (pending.delivery = .ephemeral ∧ after.critical = queues.critical ∧
        (after.ephemeral = queues.ephemeral ++ [pending] ∨
          limits.ephemeralMax ≤ queues.ephemeral.length ∧
            ∃ oldest newer, queues.ephemeral = oldest :: newer ∧
              after.ephemeral = newer ++ [pending]))) := by
  unfold Queues.enqueue at offered
  split at offered
  · rename_i critical
    split at offered
    · contradiction
    cases offered
    exact ⟨rfl, .inl ⟨critical, rfl, rfl⟩⟩
  · rename_i ephemeral
    split at offered
    · rename_i full
      split at offered
      · contradiction
      rename_i oldest newer held
      cases offered
      exact ⟨rfl, .inr ⟨ephemeral, rfl, .inr ⟨full, oldest, newer, held, rfl⟩⟩⟩
    · cases offered
      exact ⟨rfl, .inr ⟨ephemeral, rfl, .inl rfl⟩⟩

theorem Queues.enqueue_spilled (offered : queues.enqueue limits pending = .spilled after) :
    pending.delivery = .critical ∧ after = queues.spill pending := by
  unfold Queues.enqueue at offered
  split at offered
  · rename_i critical
    split at offered
    · cases offered
      exact ⟨critical, rfl⟩
    · contradiction
  · split at offered
    · split at offered <;> contradiction
    · contradiction

theorem Queues.spill_queues (queues : Queues α) (pending : Pending α) :
    (queues.spill pending).critical = queues.critical ∧
      (queues.spill pending).ephemeral = queues.ephemeral := by
  unfold Queues.spill
  split <;> exact ⟨rfl, rfl⟩

theorem Queues.Classed.next (classed : queues.Classed)
    (next : queues.next = some (pending, after)) : after.Classed := by
  rcases Queues.next_some next with ⟨critical, ephemeral, _⟩ | ⟨_, critical, ephemeral, _⟩
  · refine ⟨fun other member => classed.critical other ?_, ?_⟩
    · rw [critical]
      exact List.mem_cons_of_mem _ member
    · rw [ephemeral]
      exact classed.ephemeral
  · refine ⟨?_, fun other member => classed.ephemeral other ?_⟩
    · simp [critical]
    · rw [ephemeral]
      exact List.mem_cons_of_mem _ member

theorem Queues.Classed.enqueue (classed : queues.Classed)
    (offered : queues.enqueue limits pending = .accepted after) : after.Classed := by
  obtain ⟨_, ⟨isCritical, critical, ephemeral⟩ | ⟨isEphemeral, critical, ephemeral⟩⟩ :=
    Queues.enqueue_accepted offered
  · refine ⟨?_, ?_⟩
    · rw [critical]
      simpa [or_imp, forall_and, isCritical] using classed.critical
    · rw [ephemeral]
      exact classed.ephemeral
  · refine ⟨?_, ?_⟩
    · rw [critical]
      exact classed.critical
    · rcases ephemeral with appended | ⟨_, oldest, newer, held, kept⟩
      · rw [appended]
        simpa [or_imp, forall_and, isEphemeral] using classed.ephemeral
      · have others := classed.ephemeral
        rw [held] at others
        rw [kept]
        simpa [or_imp, forall_and, isEphemeral] using fun other member =>
          others other (List.mem_cons_of_mem _ member)

theorem recheck_classed (classed : queues.Classed) : (recheck queues).2.Classed := by
  unfold recheck
  split
  · exact classed
  · rename_i next
    exact classed.next next

end Queues

/-! # The order of the critical frames -/

section Frames

variable {α ρ : Type} {limits : Limits} {apply : α → ρ → ρ} {floor after : Floor α ρ}
  {action : Action α}

/-- The critical frames for which `enqueue` has returned `True`. -/
def acceptedCritical (log : List (Event α)) : List (Pending α) :=
  log.filterMap fun event =>
    match event with
    | .accepted pending => if pending.delivery = .critical then some pending else none
    | _ => none

/-- The critical frames that were passed to `send`, in that order. -/
def passedCritical (log : List (Event α)) : List (Pending α) :=
  log.filterMap fun event =>
    match event with
    | .passed pending => if pending.delivery = .critical then some pending else none
    | _ => none

/-- Every accepted frame is in the queue or was passed to `send`, once and in its turn. -/
def NoneLost (floor : Floor α ρ) : Prop :=
  acceptedCritical floor.log = passedCritical floor.log ++ floor.queues.critical

/-- No critical frame is waiting when a writer comes back from the owed resyncs. -/
def BackToNothing (floor : Floor α ρ) : Action α → Prop
  | .resume _ _ => floor.queues.critical = []
  | _ => True

/-- Every step but the re-check keeps the classes. -/
theorem classed_step (moves : Moves limits apply floor action after)
    (classed : floor.queues.Classed) : after.queues.Classed := by
  cases moves with
  | accept offered => exact classed.enqueue offered
  | spill offered =>
      obtain ⟨_, rfl⟩ := Queues.enqueue_spilled offered
      obtain ⟨critical, ephemeral⟩ := floor.queues.spill_queues (pendingOf _ _ _)
      exact ⟨critical ▸ classed.critical, ephemeral ▸ classed.ephemeral⟩
  | take top next => exact classed.next next
  | publish sending => exact classed
  | fail sending => exact classed
  | flush top idle distinct owed => exact ⟨classed.critical, classed.ephemeral⟩
  | mark flushing => exact classed
  | resume flushing => exact recheck_classed classed
  | park top idle owed => exact classed
  | wake waiting => exact classed

theorem recheck_critical (nothing : floor.queues.critical = []) :
    (recheck floor.queues).2.critical = [] := by
  unfold recheck
  split
  · exact nothing
  · rename_i next
    rcases Queues.next_some next with ⟨critical, _⟩ | ⟨_, critical, _⟩
    · rw [nothing] at critical
      contradiction
    · exact critical

theorem noneLost_step (guarded : BackToNothing floor action)
    (moves : Moves limits apply floor action after) (classed : floor.queues.Classed)
    (noneLost : NoneLost floor) : NoneLost after := by
  unfold NoneLost at noneLost ⊢
  cases moves with
  | accept offered =>
      obtain ⟨_, ⟨isCritical, critical, _⟩ | ⟨isEphemeral, critical, _⟩⟩ :=
        Queues.enqueue_accepted offered
      · simp [acceptedCritical, passedCritical, isCritical, critical] at noneLost ⊢
        simp [noneLost]
      · simp [acceptedCritical, passedCritical, isEphemeral, critical] at noneLost ⊢
        simp [noneLost]
  | spill offered =>
      obtain ⟨_, rfl⟩ := Queues.enqueue_spilled offered
      rw [(floor.queues.spill_queues _).1]
      simpa [acceptedCritical, passedCritical] using noneLost
  | @take writer pending queues top next =>
      rcases Queues.next_some next with ⟨critical, _⟩ | ⟨nothing, critical, ephemeral, _⟩
      · have isCritical : pending.delivery = .critical :=
          classed.critical pending (by simp [critical])
        simp [acceptedCritical, passedCritical, isCritical, critical] at noneLost ⊢
        simp [noneLost]
      · have isEphemeral : pending.delivery = .ephemeral :=
          classed.ephemeral pending (by simp [ephemeral])
        simp [acceptedCritical, passedCritical, isEphemeral, critical, nothing] at noneLost ⊢
        simp [noneLost]
  | publish sending => simpa [acceptedCritical, passedCritical] using noneLost
  | fail sending => simpa [acceptedCritical, passedCritical] using noneLost
  | flush top idle distinct owed => exact noneLost
  | mark flushing => simpa [acceptedCritical, passedCritical] using noneLost
  | resume flushing =>
      have nothing : floor.queues.critical = [] := guarded
      rw [recheck_critical nothing]
      simpa [acceptedCritical, passedCritical, nothing] using noneLost
  | park top idle owed => exact noneLost
  | wake waiting => exact noneLost

/-- With nothing critical in the queue whenever a writer comes back from the owed resyncs, no
accepted critical frame is lost and they leave the queue in the order they came. -/
theorem accepted_frames_are_sent {redis : ρ} {actions : List (Action α)}
    (run : Run (Moves limits apply) BackToNothing (.start redis) actions floor) :
    NoneLost floor := by
  have step : ∀ floor action after, BackToNothing floor action →
      Moves limits apply floor action after → floor.queues.Classed ∧ NoneLost floor →
      after.queues.Classed ∧ NoneLost after :=
    fun _ _ _ guarded moves held =>
      ⟨classed_step moves held.1, noneLost_step guarded moves held.1 held.2⟩
  have initially : (Floor.start redis : Floor α ρ).queues.Classed ∧
      NoneLost (Floor.start redis : Floor α ρ) :=
    ⟨⟨by simp [Floor.start], by simp [Floor.start]⟩, rfl⟩
  exact (run.invariant _ step initially).2

end Frames

/-! # A fill that arrives during a resync -/

def fillFrame (number : ℕ) : Pending ℕ := pendingOf number "order:fill" (some 7)

theorem fillFrame_eq (number : ℕ) :
    pendingOf number "order:fill" (some 7) = ⟨number, .critical, "order:fill", some 7⟩ := by
  simp [pendingOf, criticalFrames]

def oneFill : Limits := ⟨10, 1⟩

def ignored (_ : ℕ) (redis : Unit) : Unit := redis

theorem accept_fill (number : ℕ) (owed : Finset UserId) :
    Queues.enqueue oneFill ⟨[], [], owed⟩ (pendingOf number "order:fill" (some 7)) =
      .accepted ⟨[], [fillFrame number], owed⟩ := by
  simp [Queues.enqueue, fillFrame_eq, oneFill, fillFrame]

theorem spill_fill (number waiting : ℕ) :
    Queues.enqueue oneFill ⟨[], [fillFrame waiting], ∅⟩ (pendingOf number "order:fill" (some 7)) =
      .spilled ⟨[], [fillFrame waiting], {7}⟩ := by
  simp [Queues.enqueue, Queues.spill, fillFrame_eq, oneFill]

/-- Fill 2 is spilled; fill 3 is accepted while the only writer is at the marker, and the writer
throws it away. -/
theorem fill_lost_in_recheck :
    ∃ floor, Run (Moves oneFill ignored) (fun _ _ => True) (.start ())
        [.enqueue (fillFrame 1), .enqueue (fillFrame 2), .take 0, .publish 0, .flush 0,
          .enqueue (fillFrame 3), .resume 0 true] floor ∧
      acceptedCritical floor.log = [fillFrame 1, fillFrame 3] ∧
      passedCritical floor.log = [fillFrame 1] ∧ floor.queues.critical = [] ∧
      ¬ NoneLost floor := by
  have lost : Run (Moves oneFill ignored) (fun _ _ => True) (.start ())
      [.enqueue (fillFrame 1), .enqueue (fillFrame 2), .take 0, .publish 0, .flush 0,
        .enqueue (fillFrame 3), .resume 0 true] _ :=
    .act trivial (.accept (accept_fill 1 ∅)) (.act trivial (.spill (spill_fill 2 1))
      (.act trivial (.take rfl rfl) (.act trivial (.publish rfl)
        (.act trivial (@Moves.flush _ _ _ _ _ 0 7 [] rfl rfl (by simp) (by simp))
          (.act trivial (.accept (accept_fill 3 ∅)) (.act trivial (.resume rfl) (.stop _)))))))
  refine ⟨_, lost, ?_, ?_, rfl, ?_⟩
  · simp [acceptedCritical, fillFrame, fillFrame_eq, Floor.start]
  · simp [passedCritical, fillFrame, fillFrame_eq, Floor.start]
  · simp [NoneLost, acceptedCritical, passedCritical, recheck, Queues.next, fillFrame,
      fillFrame_eq, Floor.start]

/-- When the next fill comes after the writer has come back, it is sent. -/
theorem fill_after_resync_is_sent :
    ∃ floor, Run (Moves oneFill ignored) BackToNothing (.start ())
        [.enqueue (fillFrame 1), .enqueue (fillFrame 2), .take 0, .publish 0, .flush 0,
          .resume 0 true, .enqueue (fillFrame 3)] floor ∧ NoneLost floor := by
  have sent : Run (Moves oneFill ignored) BackToNothing (.start ())
      [.enqueue (fillFrame 1), .enqueue (fillFrame 2), .take 0, .publish 0, .flush 0,
        .resume 0 true, .enqueue (fillFrame 3)] _ :=
    .act trivial (.accept (accept_fill 1 ∅)) (.act trivial (.spill (spill_fill 2 1))
      (.act trivial (.take rfl rfl) (.act trivial (.publish rfl)
        (.act trivial (@Moves.flush _ _ _ _ _ 0 7 [] rfl rfl (by simp) (by simp))
          (.act rfl (.resume rfl) (.act trivial (.accept (accept_fill 3 ∅)) (.stop _)))))))
  exact ⟨_, sent, accepted_frames_are_sent sent⟩

end PredictX.PublishQueue
