import PredictX.Api.ResolutionSessions
import PredictX.Properties.ShareConservation

namespace PredictX.Resolution

open PredictX.Data Protocol

/-! Whether a change of status rests on the status it replaces.

A transaction with the row lock writes over the status it has checked.  One without it
writes over whatever the last commit left, so what it has checked is still true only when
no change of the market's status was committed since it read the row.
-/

variable {round : ℚ → ℚ} {markets : Table Market.id} {row stored : Market} {docket : Docket}
  {session : DecisionSession}

namespace DecisionSession

theorem writeMarkets_of_not_mem {id : MarketId} (other : id ∉ session.rows.map Market.id) :
    (session.writeMarkets markets).find? id = markets.find? id := by
  unfold writeMarkets
  obtain ⟨task, stage, rows, mark⟩ := session
  dsimp only at other ⊢
  induction rows generalizing markets with
  | nil => rfl
  | cons head rest ih =>
      rw [List.map_cons, List.mem_cons, not_or] at other
      rw [List.foldl_cons, ih other.2, Table.find?_modify_ne other.1]

theorem writeMarkets_of_mem (distinct : (session.rows.map Market.id).Nodup)
    (member : row ∈ session.rows) (found : markets.find? row.id = some stored) :
    (session.writeMarkets markets).find? row.id =
      some (Market.writeBack row (session.task.assign row) stored) := by
  obtain ⟨task, stage, rows, mark⟩ := session
  dsimp only at distinct member ⊢
  induction rows generalizing markets with
  | nil => contradiction
  | cons head rest ih =>
      rw [List.map_cons, List.nodup_cons] at distinct
      have later : ∀ table : Table Market.id,
          (writeMarkets ⟨task, stage, head :: rest, mark⟩ table) =
            writeMarkets ⟨task, stage, rest, mark⟩
              (table.modify head.id (Market.writeBack head (task.assign head))) := fun _ => rfl
      rw [later]
      rcases List.mem_cons.mp member with rfl | inRest
      · rw [writeMarkets_of_not_mem distinct.1, Table.find?_modify_self, found]
        rfl
      · have apart : row.id ≠ head.id :=
          fun same => distinct.1 (same ▸ List.mem_map_of_mem inRest)
        exact ih ((Table.find?_modify_ne apart).trans found) distinct.2 inRest

theorem mem_changes {change : StatusChange} :
    change ∈ session.changes markets ↔ ∃ row ∈ session.rows, ∃ stored,
      markets.find? row.id = some stored ∧
      (Market.writeBack row (session.task.assign row) stored).status ≠ stored.status ∧
      change = ⟨session.task, row.id, stored.status,
        (Market.writeBack row (session.task.assign row) stored).status⟩ := by
  unfold changes
  rw [List.mem_filterMap]
  constructor
  · rintro ⟨row, member, made⟩
    obtain ⟨stored, found, made⟩ := Option.bind_eq_some_iff.mp made
    dsimp only at made
    split at made
    · contradiction
    · rename_i changed
      exact ⟨row, member, stored, found, changed, (Option.some.inj made).symm⟩
  · rintro ⟨row, member, stored, found, changed, rfl⟩
    refine ⟨row, member, ?_⟩
    rw [found, Option.bind_some]
    exact if_neg changed

/-- What the session has checked, and when it still holds. -/
structure Informed (docket : Docket) (session : DecisionSession) : Prop where
  begun : session.stage = .begun → session.rows = []
  distinct : (session.rows.map Market.id).Nodup
  marked : session.rows ≠ [] → session.mark ≤ docket.changes.length
  admitted : ∀ row ∈ session.rows, session.task.Admits row.status
  current : ∀ row ∈ session.rows, ∃ stored, docket.db.markets.find? row.id = some stored ∧
    (stored.status = row.status ∨ (¬ session.task.Locks ∧
      ∃ change ∈ docket.changes.drop session.mark, change.market = row.id))

end DecisionSession

/-- The first query returns rows of the table, each under its own key, that pass the guard. -/
theorem Decision.Selects.rows {task : Decision} {db : Database} {rows : List Market}
    (selects : task.Selects db rows) : (rows.map Market.id).Nodup ∧
      ∀ row ∈ rows, db.markets.find? row.id = some row ∧ task.Admits row.status := by
  have single : ∀ {market : MarketId} {row : Market}, db.markets.find? market = some row →
      task.Admits row.status → rows = [row] → (rows.map Market.id).Nodup ∧
        ∀ row ∈ rows, db.markets.find? row.id = some row ∧ task.Admits row.status := by
    intro market row found admitted only
    subst only
    refine ⟨List.nodup_singleton _, ?_⟩
    intro read member
    rw [List.mem_singleton.mp member]
    exact ⟨Table.key_of_find? found ▸ found, admitted⟩
  cases task with
  | propose admin now market outcome =>
      obtain ⟨row, only, found, -, active⟩ := selects
      exact single found active only
  | resolve admin backends now market outcome =>
      obtain ⟨row, only, found, -, undecided, -⟩ := selects
      exact single found (not_or.mp undecided) only
  | dispute user now market =>
      obtain ⟨row, only, found, resolvable, -⟩ := selects
      have admitted : row.status = .resolving ∨ row.status = .resolved ∨
          row.status = .disputeWindow := by
        by_contra refused
        exact resolvable (by simpa only [not_or] using refused)
      exact single found admitted only
  | rule bench filed ruling =>
      obtain ⟨-, none, -⟩ := selects
      subst none
      exact ⟨List.nodup_nil, fun _ member => absurd member List.not_mem_nil⟩
  | uphold bench now filed =>
      obtain ⟨ruled, row, only, -, -, found, -⟩ := selects
      exact single found trivial only
  | close now =>
      have ready : rows.Perm (db.markets.rows.filter (readyToResolve now)) := selects
      refine ⟨?_, ?_⟩
      · have ids : ((db.markets.rows.filter (readyToResolve now)).map Market.id).Nodup :=
          db.markets.unique.sublist (List.filter_sublist.map _)
        exact (ready.map Market.id).nodup_iff.mpr ids
      · intro row member
        obtain ⟨stored, passes⟩ := List.mem_filter.mp (ready.mem_iff.mp member)
        have active : row.status = .active := by
          simp only [readyToResolve, Bool.and_eq_true, decide_eq_true_eq] at passes
          exact passes.1.1
        exact ⟨Table.find?_key_of_mem stored, active⟩
  | settle scan now market winning =>
      obtain ⟨row, only, found, -⟩ := selects
      exact single found trivial only

namespace DecisionSession

theorem Informed.of_fresh (fresh : session.stage = .begun ∧ session.rows = []) :
    session.Informed docket := by
  refine ⟨fun _ => fresh.2, ?_, ?_, ?_, ?_⟩
  all_goals simp [fresh.2]

theorem Informed.consult {next : DecisionSession} (informed : session.Informed docket)
    (asked : Consults docket session next) : next.Informed docket := by
  cases asked with
  | @load rows stage selects =>
      obtain ⟨distinct, read⟩ := selects.rows
      refine ⟨(by intro; contradiction), distinct, fun _ => le_rfl, fun row member =>
        (read row member).2, fun row member => ⟨row, (read row member).1, .inl rfl⟩⟩
  | check stage proceeds =>
      exact ⟨(by intro; contradiction), informed.distinct, informed.marked, informed.admitted,
        informed.current⟩
  | flush stage =>
      exact ⟨(by intro; contradiction), informed.distinct, informed.marked, informed.admitted,
        informed.current⟩

/-- A commit either leaves the status of a row somebody else has loaded, or logs the change. -/
theorem Informed.stable {writer : DecisionSession} {after : Docket}
    (informed : session.Informed docket) (writing : writer.Informed docket)
    (apart : (decisions round).Apart session writer)
    (written : Decides round docket writer after) : session.Informed after := by
  cases written with
  | @commit posted flushed posts =>
      refine ⟨informed.begun, informed.distinct, ?_, informed.admitted, ?_⟩
      · intro some
        rw [List.length_append]
        exact Nat.le_add_right_of_le (informed.marked some)
      intro row member
      obtain ⟨stored, found, known⟩ := informed.current row member
      have marked : session.mark ≤ docket.changes.length :=
        informed.marked (List.ne_nil_of_mem member)
      rw [List.drop_append_of_le_length marked]
      by_cases shared : row.id ∈ writer.rows.map Market.id
      · obtain ⟨theirs, theirMember, same⟩ := List.mem_map.mp shared
        have unlocked : ¬ session.task.Locks := by
          intro locks
          have begun : session.stage ≠ .begun :=
            fun stage => List.ne_nil_of_mem member (informed.begun stage)
          exact apart (.market row.id) ⟨List.mem_map_of_mem member, .inr ⟨begun, locks⟩⟩
            ⟨shared, .inl flushed⟩
        rw [← same] at found
        have rewritten := writeMarkets_of_mem writing.distinct theirMember found
        rw [same] at rewritten
        refine ⟨_, rewritten, ?_⟩
        by_cases kept :
            (Market.writeBack theirs (writer.task.assign theirs) stored).status = stored.status
        · rw [kept]
          rcases known with unchanged | ⟨_, change, logged, about⟩
          · exact .inl unchanged
          · exact .inr ⟨unlocked, change, List.mem_append_left _ logged, about⟩
        · exact .inr ⟨unlocked, _, List.mem_append_right _
            (mem_changes.mpr ⟨theirs, theirMember, stored, found, kept, rfl⟩), same⟩
      · refine ⟨stored, (writeMarkets_of_not_mem shared).trans found, ?_⟩
        rcases known with unchanged | ⟨unlocked, change, logged, about⟩
        · exact .inl unchanged
        · exact .inr ⟨unlocked, change, List.mem_append_left _ logged, about⟩

end DecisionSession

def informed (round : ℚ → ℚ) : Serial (decisions round) where
  Knows := fun docket session => DecisionSession.Informed docket session
  fresh := DecisionSession.Informed.of_fresh
  query := DecisionSession.Informed.consult
  stable := DecisionSession.Informed.stable

/-- A transaction that took no lock commits only while the status of the markets it has
loaded has not been changed since. -/
def Undisturbed (state : (decisions round).State) : Move → Prop
  | .commit id => ∀ session : DecisionSession, state.sessions id = some session →
      ¬ session.task.Locks → ∀ change ∈ state.shared.changes.drop session.mark,
        change.market ∉ session.rows.map Market.id
  | _ => True

def Admitted (docket : Docket) : Prop :=
  ∀ change ∈ docket.changes, change.task.Admits change.before

/-- What one commit changes is admitted. -/
theorem DecisionSession.Informed.commit {after : Docket} (informed : session.Informed docket)
    (undisturbed : ¬ session.task.Locks → ∀ change ∈ docket.changes.drop session.mark,
      change.market ∉ session.rows.map Market.id)
    (written : Decides round docket session after) (admitted : Admitted docket) :
    Admitted after := by
  cases written with
  | @commit posted flushed posts =>
      intro change member
      rcases List.mem_append.mp member with earlier | made
      · exact admitted change earlier
      obtain ⟨row, loaded, stored, found, -, rfl⟩ := mem_changes.mp made
      obtain ⟨stored', found', known⟩ := informed.current row loaded
      obtain rfl : stored = stored' := Option.some.inj (found.symm.trans found')
      rcases known with unchanged | ⟨unlocked, change, logged, about⟩
      · exact unchanged ▸ informed.admitted row loaded
      · exact absurd (about ▸ List.mem_map_of_mem loaded) (undisturbed unlocked change logged)

theorem status_changes_are_admitted {db : Database} {moves : List Move}
    {final : (decisions round).State}
    (run : Run (decisions round).Interleaves Undisturbed (State.idle ⟨db, []⟩) moves final) :
    Admitted final.shared := by
  refine (run.invariant (fun state => (informed round).Sound state ∧ Admitted state.shared)
    ?_ ⟨(informed round).sound_idle _, fun _ member => absurd member List.not_mem_nil⟩).2
  intro state move next undisturbed moved holds
  refine ⟨holds.1.step _ moved, ?_⟩
  cases moved with
  | begin free fresh => exact holds.2
  | query running asked granted => exact holds.2
  | commit running written =>
      exact (holds.1.knows _ _ running).commit (undisturbed _ running) written holds.2
  | abort => exact holds.2

/-! # Two administrators -/

/-- The row both administrators load. -/
def openRow : Market := ⟨1, .active, 1000, none, none, none, none, 100, 0, 0⟩

def proposing (stage : DecisionStage) (rows : List Market) : DecisionSession :=
  ⟨.propose true 10 1 1, stage, rows, 0⟩

def resolving (stage : DecisionStage) (rows : List Market) (mark : ℕ) : DecisionSession :=
  ⟨.resolve true ⟨true, true, true⟩ 20 1 2, stage, rows, mark⟩

def openDocket : Docket := ⟨OrderService.quotedMarket, []⟩

/-- The docket a decision without other tables leaves. -/
def Docket.decided (docket : Docket) (session : DecisionSession) : Docket :=
  ⟨{ docket.db with markets := session.writeMarkets docket.db.markets },
    docket.changes ++ session.changes docket.db.markets⟩

/-- The queries of a call that finds the market open for its decision, while `left` stands
still. -/
def Asking (left : Option DecisionSession) (docket : Docket) (session next : DecisionSession) :
    Prop :=
  Consults docket session next ∧
    ∀ held, left = some held → (decisions id).Apart next held

theorem proposing_loads :
    Consults openDocket (proposing .begun []) (proposing .loaded [openRow]) :=
  .load rfl ⟨openRow, rfl, rfl, rfl, rfl⟩

theorem proposing_checks (outcomes : docket.db.outcomes = openDocket.db.outcomes) :
    Consults docket (proposing .loaded [openRow]) (proposing .checked [openRow]) := by
  refine .check rfl ?_
  show (outcomeOf docket.db 1 1).isSome = true
  unfold outcomeOf
  rw [outcomes]
  rfl

theorem resolving_asks {left : Option DecisionSession}
    (outcomes : docket.db.outcomes = openDocket.db.outcomes)
    (found : docket.db.markets.find? 1 = some row)
    (undecided : ¬ (row.status = .resolved ∨ row.status = .resolving))
    (apart : ∀ next held, left = some held → (decisions id).Apart next held) :
    Relation.ReflTransGen (Asking left docket) (resolving .begun [] 0)
      (resolving .flushed [row] docket.changes.length) := by
  have loads : Consults docket (resolving .begun [] 0)
      (resolving .loaded [row] docket.changes.length) :=
    .load rfl ⟨row, rfl, found, rfl, undecided, rfl⟩
  have proceeds : (outcomeOf docket.db 1 2).isSome = true := by
    unfold outcomeOf
    rw [outcomes]
    rfl
  have checks : Consults docket (resolving .loaded [row] docket.changes.length)
      (resolving .checked [row] docket.changes.length) :=
    .check rfl ⟨proceeds, rfl, rfl⟩
  have flushes : Consults docket (resolving .checked [row] docket.changes.length)
      (resolving .flushed [row] docket.changes.length) := .flush rfl
  exact .head ⟨loads, apart _⟩ (.head ⟨checks, apart _⟩ (.single ⟨flushes, apart _⟩))

theorem proposing_asks {left : Option DecisionSession}
    (apart : ∀ next held, left = some held → (decisions id).Apart next held) :
    Relation.ReflTransGen (Asking left openDocket) (proposing .begun [])
      (proposing .flushed [openRow]) := by
  have flushes : Consults openDocket (proposing .checked [openRow])
      (proposing .flushed [openRow]) := .flush rfl
  exact .head ⟨proposing_loads, apart _⟩ (.head ⟨proposing_checks rfl, apart _⟩
    (.single ⟨flushes, apart _⟩))

theorem alone (next held : DecisionSession) (running : (none : Option DecisionSession) = some held) :
    (decisions id).Apart next held :=
  absurd running (by simp)

/-- A proposal that nobody disturbs, and the resolution after it. -/
theorem proposal_then_resolution :
    ∃ moves, ∃ final : (decisions id).State,
      Run (decisions id).Interleaves Undisturbed (State.idle openDocket) moves final ∧
      final.shared.changes.map (fun change => (change.before, change.after)) =
        [(.active, .disputeWindow), (.disputeWindow, .resolving)] ∧
      Admitted final.shared := by
  let proposed := openDocket.decided (proposing .flushed [openRow])
  let window : Market := ⟨1, .disputeWindow, 1000, none, none, some 1, some (10 + disputeWindow),
    100, 0, 0⟩
  have free : ∀ (state : (decisions id).State) id,
      Undisturbed state (.begin id) ∧ Undisturbed state (.query id) :=
    fun _ _ => ⟨trivial, trivial⟩
  obtain ⟨first, proposes⟩ : ∃ moves, Run (decisions id).Interleaves Undisturbed
      (.pair openDocket none none) moves (.pair proposed none none) := by
    refine run_beside free ⟨rfl, rfl⟩ (proposing_asks alone) ?_ (.commit rfl .propose)
    intro session running _ change logged
    cases running
    cases logged
  obtain ⟨second, resolves⟩ : ∃ moves, Run (decisions id).Interleaves Undisturbed
      (.pair proposed none none) moves
      (.pair (proposed.decided (resolving .flushed [window] 1)) none none) := by
    refine run_beside free ⟨rfl, rfl⟩ (resolving_asks rfl rfl (by decide) alone) ?_
      (.commit rfl .resolve)
    intro session running unlocked
    cases running
    exact absurd trivial unlocked
  have run : Run (decisions id).Interleaves Undisturbed (State.idle openDocket) (first ++ second)
      (.pair (proposed.decided (resolving .flushed [window] 1)) none none) :=
    (congrArg (Run _ _ · _ _) State.idle_eq_pair).mpr (proposes.append resolves)
  exact ⟨_, _, run, rfl, status_changes_are_admitted run⟩

/-- A proposal that has not been flushed holds no row. -/
theorem proposing_unlocked (next : DecisionSession) :
    ∀ held, some (proposing .loaded [openRow]) = some held → (decisions id).Apart next held := by
  intro held running row _ holds
  rw [← Option.some.inj running] at holds
  cases row with
  | market id =>
      rcases holds.2 with flushed | ⟨-, locks⟩
      · contradiction
      · exact locks
  | dispute id =>
      obtain ⟨-, bench, ruling, isRule⟩ := holds
      contradiction

/-- Both read the market as active; the proposal is committed over the resolution. -/
theorem proposal_reopens_resolving_market :
    ∃ moves, ∃ final : (decisions id).State,
      Run (decisions id).Interleaves (fun _ _ => True) (State.idle openDocket) moves final ∧
      ¬ Admitted final.shared := by
  let loaded := proposing .loaded [openRow]
  let resolved := openDocket.decided (resolving .flushed [openRow] 0)
  obtain ⟨moves, resolves⟩ : ∃ moves, Run (decisions id).Interleaves (fun _ _ => True)
      (.pair openDocket (some loaded) none) moves (.pair resolved (some loaded) none) :=
    run_beside (fun _ _ => ⟨trivial, trivial⟩) ⟨rfl, rfl⟩
      (resolving_asks rfl rfl (by decide) proposing_unlocked) trivial (.commit rfl .resolve)
  have reads : Run (decisions id).Interleaves (fun _ _ => True) (.pair openDocket none none)
      [.begin 0, .query 0] (.pair openDocket (some loaded) none) := by
    have begins : (decisions id).Interleaves (.pair openDocket none none) (.begin 0)
        (.pair openDocket (some (proposing .begun [])) none) := .beginLeft ⟨rfl, rfl⟩
    exact .act trivial begins (.act trivial (.queryLeft proposing_loads (alone _)) (.stop _))
  have writes : Run (decisions id).Interleaves (fun _ _ => True) (.pair resolved (some loaded) none)
      [.query 0, .query 0, .commit 0]
      (.pair (resolved.decided (proposing .flushed [openRow])) none none) := by
    have flushes : Consults resolved (proposing .checked [openRow])
        (proposing .flushed [openRow]) := .flush rfl
    have commits : Decides id resolved (proposing .flushed [openRow])
        (resolved.decided (proposing .flushed [openRow])) := .commit rfl .propose
    exact .act trivial (.queryLeft (proposing_checks rfl) (alone _))
      (.act trivial (.queryLeft flushes (alone _)) (.act trivial (.commitLeft commits) (.stop _)))
  refine ⟨_, _, State.idle_eq_pair ▸ reads.append (resolves.append writes), ?_⟩
  intro admitted
  have stale := admitted ⟨.propose true 10 1 1, 1, .resolving, .disputeWindow⟩
    (List.mem_append_right _ (List.mem_singleton.mpr rfl))
  exact absurd stale (by simp [Decision.Admits])

end PredictX.Resolution
