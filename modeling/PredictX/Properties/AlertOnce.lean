import PredictX.Workers.AlertSessions

namespace PredictX.AlertEngine

open PredictX.Data

/-! A price alert notifies at most once, and only when it is due.

The claim scripts decide who works on an alert, but a repair can put an alert back that
another run has claimed and not yet committed.  What keeps the notifications apart is the
guarded update: a row is owned by the one run whose update returned it.
-/

/-- Of the runs that commit, no two notify about one alert and none does so twice. -/
def System.NotifiesOnce (system : System) : Prop :=
  (∀ first ∈ system.checks.rows, ∀ second ∈ system.checks.rows, first.committed = true →
    second.committed = true → ∀ alert, alert ∈ first.sent → alert ∈ second.sent →
      first = second) ∧
  ∀ check ∈ system.checks.rows, check.committed = true → check.sent.Nodup

/-- A notification comes from a run whose price met the alert's condition. -/
def System.NotifiesWhenDue (system : System) : Prop :=
  ∀ check ∈ system.checks.rows, check.committed = true → ∀ id ∈ check.sent,
    ∃ alert, system.issued.find? id = some alert ∧ alert.Due check.prices

/-! # What holds between the steps -/

/-- The row fires when the alert that was created under its id does. -/
def IsIssued (issued : Table Alert.id) (alert : Alert) : Prop :=
  ∃ original, issued.find? alert.id = some original ∧ original.slot = alert.slot ∧
    original.score = alert.score

/-- Members stand in the set of their alert, under its own score. -/
def Index.Faithful (issued : Table Alert.id) (index : Index) : Prop :=
  ∀ slot, ∀ member ∈ index slot, ∃ alert, issued.find? member.id = some alert ∧
    alert.slot = slot ∧ alert.score = member.score

namespace Phase

/-- The update has not been sent. -/
def early : Phase → Bool
  | .claiming _ _ | .selecting | .writing _ | .marking => true
  | _ => false

def todo : Phase → List AlertId
  | .notifying todo => todo
  | _ => []

def rows : Phase → List Alert
  | .writing rows | .restoring rows => rows
  | _ => []

def notifies : Phase → Bool
  | .notifying _ => true
  | _ => false

end Phase

/-- The run's update returned the row and has not been rolled back. -/
def Check.Owns (check : Check) (alert : AlertId) : Prop :=
  alert ∈ check.won ∧ (check.committed = true ∨ check.phase.notifies = true)

structure Check.Sound (alerts issued : Table Alert.id) (check : Check) : Prop where
  due : ∀ id ∈ check.claimed, ∃ alert, issued.find? id = some alert ∧ alert.Due check.prices
  won : ∀ id ∈ check.won, id ∈ check.claimed
  queue : ∀ id ∈ check.sent ++ check.phase.todo, id ∈ check.won
  once : (check.sent ++ check.phase.todo).Nodup
  early : check.phase.early = true → check.won = [] ∧ check.sent = [] ∧ check.committed = false
  rows : ∀ alert ∈ check.phase.rows, IsIssued issued alert
  triggered : check.committed = true → ∀ alert ∈ alerts.rows, alert.id ∈ check.won →
    alert.triggered = true

structure System.Sound (system : System) : Prop where
  rows : ∀ alert ∈ system.alerts.rows, IsIssued system.issued alert
  index : system.index.Faithful system.issued
  checks : ∀ check ∈ system.checks.rows, check.Sound system.alerts system.issued
  owner : ∀ first ∈ system.checks.rows, ∀ second ∈ system.checks.rows, ∀ alert,
    first.Owns alert → second.Owns alert → first.id = second.id

theorem System.sound_start : System.start.Sound where
  rows alert member := by cases member
  index slot member present := by cases present
  checks check member := by cases member
  owner check member := by cases member

theorem System.Sound.notifiesOnce {system : System} (sound : system.Sound) :
    system.NotifiesOnce := by
  refine ⟨?_, ?_⟩
  · intro first firstMember second secondMember firstCommits secondCommits alert firstSent secondSent
    have firstOwns : first.Owns alert :=
      ⟨(sound.checks first firstMember).queue alert (List.mem_append_left _ firstSent),
        .inl firstCommits⟩
    have secondOwns : second.Owns alert :=
      ⟨(sound.checks second secondMember).queue alert (List.mem_append_left _ secondSent),
        .inl secondCommits⟩
    exact Table.eq_of_mem firstMember secondMember
      (sound.owner first firstMember second secondMember alert firstOwns secondOwns)
  · intro check member _
    exact (sound.checks check member).once.sublist (List.sublist_append_left _ _)

theorem System.Sound.notifiesWhenDue {system : System} (sound : system.Sound) :
    system.NotifiesWhenDue := by
  intro check member _ id isSent
  have known := sound.checks check member
  exact known.due id (known.won id (known.queue id (List.mem_append_left _ isSent)))

/-! # The index -/

namespace Index.Faithful

variable {issued : Table Alert.id} {index : Index} {alert : Alert}

theorem sub {smaller : Index} (faithful : index.Faithful issued)
    (fewer : ∀ slot, ∀ member ∈ smaller slot, member ∈ index slot) : smaller.Faithful issued :=
  fun slot member present => faithful slot member (fewer slot member present)

theorem add (faithful : index.Faithful issued) (isIssued : IsIssued issued alert) :
    (index.add alert).Faithful issued := by
  intro slot member present
  unfold Index.add at present
  by_cases same : slot = alert.slot
  · subst same
    rw [Function.update_self, List.mem_cons] at present
    rcases present with rfl | kept
    · exact isIssued
    · exact faithful alert.slot member (List.mem_of_mem_filter kept)
  · rw [Function.update_of_ne same] at present
    exact faithful slot member present

theorem addAll {rows : List Alert} (faithful : index.Faithful issued)
    (areIssued : ∀ alert ∈ rows, IsIssued issued alert) : (index.addAll rows).Faithful issued := by
  induction rows generalizing index with
  | nil => exact faithful
  | cons alert rest ih =>
      rw [List.forall_mem_cons] at areIssued
      exact ih (faithful.add areIssued.1) areIssued.2

theorem filtered (faithful : index.Faithful issued) (slot : Slot) (keep : Member → Bool) :
    Index.Faithful issued (Function.update index slot ((index slot).filter keep)) := by
  refine faithful.sub fun other member present => ?_
  by_cases same : other = slot
  · subst same
    rw [Function.update_self] at present
    exact List.mem_of_mem_filter present
  · rwa [Function.update_of_ne same] at present

/-- What a script claims is due. -/
theorem claimed_due {prices : Prices} {slot : Slot} {id : AlertId}
    (faithful : index.Faithful issued) (claims : id ∈ (index.claim prices slot).1) :
    ∃ alert, issued.find? id = some alert ∧ alert.Due prices := by
  simp only [Index.claim, List.mem_map, List.mem_filter] at claims
  obtain ⟨member, ⟨present, due⟩, rfl⟩ := claims
  obtain ⟨alert, found, rfl, score⟩ := faithful slot member present
  exact ⟨alert, found, by rw [Alert.Due, score]; exact due⟩

/-- A new alert changes nothing about the old ones. -/
theorem insert (faithful : index.Faithful issued) (fresh : issued.find? alert.id = none) :
    index.Faithful (issued.insert alert) := by
  intro slot member present
  obtain ⟨old, found, facts⟩ := faithful slot member present
  refine ⟨old, ?_, facts⟩
  rwa [Table.find?_insert_ne]
  intro same
  rw [same, fresh] at found
  contradiction

end Index.Faithful

/-! # One run moves -/

section Steps

variable {market : MarketId} {system after : System} {check moved other : Check} {action : Action}

theorem mem_put (member : other ∈ (system.put moved).checks.rows) :
    other = moved ∨ other ∈ system.checks.rows ∧ other.id ≠ moved.id := by
  unfold System.put at member
  dsimp only at member
  rw [Table.mem_modify] at member
  obtain ⟨old, oldMember, rfl⟩ := member
  split
  · rename_i same
    left
    rw [same]
  · rename_i different
    exact .inr ⟨oldMember, different⟩

/-- A run that has moved on may take the place of its former self when it owns nothing that
somebody else does. -/
theorem System.Sound.put (sound : system.Sound) (sane : moved.Sound system.alerts system.issued)
    (owner : ∀ other ∈ system.checks.rows, other.id ≠ moved.id → ∀ alert, moved.Owns alert →
      ¬ other.Owns alert) : (system.put moved).Sound where
  rows := sound.rows
  index := sound.index
  checks other member := by
    rcases mem_put member with rfl | ⟨old, _⟩
    · exact sane
    · exact sound.checks other old
  owner first firstMember second secondMember alert firstOwns secondOwns := by
    rcases mem_put firstMember with rfl | ⟨firstOld, firstOther⟩ <;>
      rcases mem_put secondMember with rfl | ⟨secondOld, secondOther⟩
    · rfl
    · exact absurd secondOwns (owner second secondOld secondOther alert firstOwns)
    · exact absurd firstOwns (owner first firstOld firstOther alert secondOwns)
    · exact sound.owner first firstOld second secondOld alert firstOwns secondOwns

/-- The same, for a run that owns no more than before. -/
theorem System.Sound.put_fewer (sound : system.Sound) (member : check ∈ system.checks.rows)
    (same : moved.id = check.id) (sane : moved.Sound system.alerts system.issued)
    (fewer : ∀ alert, moved.Owns alert → check.Owns alert) : (system.put moved).Sound := by
  refine sound.put sane fun other otherMember different alert owns otherOwns => ?_
  rw [same] at different
  exact different (sound.owner other otherMember check member alert otherOwns (fewer alert owns))

theorem System.Sound.reindexed {index : Index} (sound : system.Sound)
    (faithful : index.Faithful system.issued) : ({ system with index } : System).Sound :=
  { sound with index := faithful }

/-- A run that gives up its update, or has not sent it, goes on to a phase without one. -/
theorem Check.Sound.moveOn {alerts issued : Table Alert.id} {phase : Phase}
    (sane : check.Sound alerts issued) (todo : phase.todo = [])
    (early : phase.early = true → check.phase.early = true)
    (rows : ∀ alert ∈ phase.rows, IsIssued issued alert) :
    ({ check with phase } : Check).Sound alerts issued where
  due := sane.due
  won := sane.won
  queue id member := by
    rw [todo, List.append_nil] at member
    exact sane.queue id (List.mem_append_left _ member)
  once := by
    rw [todo, List.append_nil]
    exact sane.once.sublist (List.sublist_append_left _ _)
  early isEarly := sane.early (early isEarly)
  rows := rows
  triggered := sane.triggered

theorem owns_moveOn {phase : Phase} (notifies : phase.notifies = false) (alert : AlertId)
    (owns : ({ check with phase } : Check).Owns alert) : check.Owns alert := by
  obtain ⟨won, ⟨committed⟩ | notifying⟩ := owns
  · exact ⟨won, .inl committed⟩
  · rw [show ({ check with phase } : Check).phase = phase from rfl, notifies] at notifying
    contradiction

/-- The phase after a claim has no rows and nothing to notify. -/
theorem nextClaim_plain (again : Bool) (rest : List Slot) (claimed : List AlertId) :
    (nextClaim again rest claimed).todo = [] ∧ (nextClaim again rest claimed).rows = [] ∧
      (nextClaim again rest claimed).notifies = false := by
  unfold nextClaim afterClaims
  split
  · split
    · split <;> exact ⟨rfl, rfl, rfl⟩
    · exact ⟨rfl, rfl, rfl⟩
  · exact ⟨rfl, rfl, rfl⟩

theorem System.Sound.moveOn {phase : Phase} (sound : system.Sound)
    (member : check ∈ system.checks.rows) (todo : phase.todo = [])
    (notifies : phase.notifies = false) (early : phase.early = true → check.phase.early = true)
    (rows : ∀ alert ∈ phase.rows, IsIssued system.issued alert) :
    (system.put { check with phase }).Sound :=
  sound.put_fewer member rfl ((sound.checks check member).moveOn todo early rows)
    (owns_moveOn notifies)

theorem System.Sound.selected (sound : system.Sound) :
    ∀ alert ∈ untriggered market system.alerts, IsIssued system.issued alert :=
  fun alert member => sound.rows alert (List.mem_of_mem_filter member)

theorem claim_sound (sound : system.Sound) (member : check ∈ system.checks.rows) {slot : Slot}
    {rest : List Slot} {again : Bool} (phase : check.phase = .claiming (slot :: rest) again) :
    ({ system.put { check with
        claimed := check.claimed ++ (system.index.claim check.prices slot).1
        phase := nextClaim again rest
          (check.claimed ++ (system.index.claim check.prices slot).1) } with
      index := (system.index.claim check.prices slot).2 } : System).Sound := by
  obtain ⟨todo, rows, notifies⟩ := nextClaim_plain again rest
    (check.claimed ++ (system.index.claim check.prices slot).1)
  have sane := sound.checks check member
  obtain ⟨noneWon, noneSent, open_⟩ := sane.early (by rw [phase]; rfl)
  refine System.Sound.reindexed (sound.put ?_ ?_) (sound.index.filtered slot _)
  · refine ⟨?_, ?_, ?_, ?_, ?_, ?_, ?_⟩
    · intro id claims
      rcases List.mem_append.mp claims with old | new
      · exact sane.due id old
      · exact sound.index.claimed_due new
    · intro id won
      exact List.mem_append_left _ (sane.won id won)
    · intro id queued
      rw [show check.sent = [] from noneSent, todo] at queued
      cases queued
    · rw [show check.sent = [] from noneSent, todo]
      exact List.nodup_nil
    · exact fun _ => ⟨noneWon, noneSent, open_⟩
    · intro alert inRows
      rw [show Phase.rows _ = [] from rows] at inRows
      cases inRows
    · intro committed
      rw [show check.committed = false from open_] at committed
      contradiction
  · rintro other _ _ alert ⟨won, _⟩
    rw [show check.won = [] from noneWon] at won
    cases won

/-- The update makes its run the owner of rows nobody else owns. -/
theorem mark_sound (sound : system.Sound) (member : check ∈ system.checks.rows)
    (phase : check.phase = .marking)
    (free : ∀ other ∈ system.checks.rows, ∀ alert ∈ check.claimed, other.locks alert = false) :
    (system.put { check with
      won := (markTriggered check.claimed system.alerts).1.map Alert.id
      phase := if (markTriggered check.claimed system.alerts).1.map Alert.id = [] then .finished
        else .notifying ((markTriggered check.claimed system.alerts).1.map Alert.id) }).Sound := by
  set won := (markTriggered check.claimed system.alerts).1.map Alert.id with isWon
  have wonRow : ∀ id ∈ won, ∃ alert ∈ system.alerts.rows, alert.id = id ∧ id ∈ check.claimed ∧
      alert.triggered = false := by
    intro id member
    obtain ⟨alert, flips, rfl⟩ := List.mem_map.mp member
    simp only [markTriggered, List.mem_filter, Alert.flips, Bool.and_eq_true,
      decide_eq_true_eq, Bool.not_eq_true'] at flips
    exact ⟨alert, flips.1, rfl, flips.2.1, flips.2.2⟩
  have once : won.Nodup := system.alerts.unique.sublist (List.filter_sublist.map _)
  have sane := sound.checks check member
  obtain ⟨noneWon, noneSent, open_⟩ := sane.early (by rw [phase]; rfl)
  have todo : (if won = [] then Phase.finished else .notifying won).todo = won := by
    split
    · rename_i nothing
      exact nothing.symm
    · rfl
  have plain : (if won = [] then Phase.finished else .notifying won).early = false ∧
      (if won = [] then Phase.finished else .notifying won).rows = [] := by
    split <;> exact ⟨rfl, rfl⟩
  refine sound.put ⟨sane.due, ?_, ?_, ?_, ?_, ?_, ?_⟩ ?_
  · intro id member
    obtain ⟨_, _, _, claimed, _⟩ := wonRow id member
    exact claimed
  · intro id queued
    rwa [show check.sent = [] from noneSent, todo] at queued
  · rw [show check.sent = [] from noneSent, todo]
    exact once
  · intro early
    rw [show Phase.early _ = false from plain.1] at early
    contradiction
  · intro alert inRows
    rw [show Phase.rows _ = [] from plain.2] at inRows
    cases inRows
  · intro committed
    rw [show check.committed = false from open_] at committed
    contradiction
  · rintro other otherMember _ id ⟨mine, _⟩ ⟨theirs, ⟨committed⟩ | notifying⟩
    -- A committed owner has triggered the row; another one has it locked.
    · obtain ⟨alert, inRows, rfl, _, pending⟩ := wonRow id mine
      have triggered := (sound.checks other otherMember).triggered committed alert inRows theirs
      rw [pending] at triggered
      contradiction
    · obtain ⟨alert, inRows, rfl, claimed, pending⟩ := wonRow id mine
      have unlocked := free other otherMember alert.id claimed
      cases isPhase : other.phase with
      | notifying todo =>
          simp only [Check.locks, isPhase, theirs, decide_true, Bool.and_true,
            Bool.not_eq_false'] at unlocked
          have triggered := (sound.checks other otherMember).triggered unlocked alert inRows theirs
          rw [pending] at triggered
          contradiction
      | claiming | selecting | writing | marking | repairing | restoring | finished =>
          rw [isPhase] at notifying
          contradiction

theorem notify_sound (sound : system.Sound) (member : check ∈ system.checks.rows)
    {alert : AlertId} {todo : List AlertId} {published : Bool}
    (phase : check.phase = .notifying (alert :: todo)) :
    (system.put { check with
      phase := .notifying todo
      sent := if published then check.sent ++ [alert] else check.sent }).Sound := by
  have sane := sound.checks check member
  have fewer : ((if published then check.sent ++ [alert] else check.sent) ++ todo).Sublist
      (check.sent ++ check.phase.todo) := by
    rw [phase]
    cases published with
    | true =>
        rw [if_pos rfl, List.append_assoc]
        exact List.Sublist.refl _
    | false => exact (List.Sublist.refl _).append (List.sublist_cons_self alert todo)
  refine sound.put_fewer member rfl
    ⟨sane.due, sane.won, ?_, sane.once.sublist fewer, ?_, ?_, sane.triggered⟩ ?_
  · exact fun id queued => sane.queue id (fewer.subset queued)
  · intro early
    cases early
  · intro other inRows
    cases inRows
  · rintro id ⟨won, _⟩
    exact ⟨won, .inr (by rw [phase]; rfl)⟩

theorem mem_markTriggered {alerts : Table Alert.id} {ids : List AlertId} {alert : Alert} :
    alert ∈ (markTriggered ids alerts).2.rows ↔ ∃ old ∈ alerts.rows, old.flip ids = alert :=
  List.mem_map

/-- The flag is all an update changes in a row. -/
theorem flip_issued {issued : Table Alert.id} {ids : List AlertId} {alert : Alert}
    (isIssued : IsIssued issued alert) : IsIssued issued (alert.flip ids) := by
  unfold Alert.flip
  split
  · exact isIssued
  · exact isIssued

theorem flip_triggered {ids : List AlertId} {alert : Alert} (triggered : alert.triggered = true) :
    (alert.flip ids).triggered = true := by
  unfold Alert.flip
  split
  · rfl
  · exact triggered

theorem flip_won {ids : List AlertId} {alert : Alert} (won : alert.id ∈ ids) :
    (alert.flip ids).triggered = true := by
  unfold Alert.flip
  split
  · rfl
  · rename_i unflipped
    simpa [Alert.flips, won] using unflipped

theorem flip_id (ids : List AlertId) (alert : Alert) : (alert.flip ids).id = alert.id := by
  unfold Alert.flip
  split <;> rfl

/-- A commit shows everybody the flags, and those of the run are set. -/
theorem System.Sound.flip (sound : system.Sound) (member : check ∈ system.checks.rows) :
    (system.flip check).Sound ∧
      ∀ alert ∈ (system.flip check).alerts.rows, alert.id ∈ check.won → alert.triggered = true := by
  unfold System.flip
  split
  · rename_i committed
    exact ⟨sound, (sound.checks check member).triggered committed⟩
  · refine ⟨⟨?_, sound.index, ?_, sound.owner⟩, ?_⟩
    · intro alert inRows
      obtain ⟨old, oldMember, rfl⟩ := mem_markTriggered.mp inRows
      exact flip_issued (sound.rows old oldMember)
    · intro other otherMember
      have sane := sound.checks other otherMember
      refine { sane with triggered := fun committed alert inRows won => ?_ }
      obtain ⟨old, oldMember, rfl⟩ := mem_markTriggered.mp inRows
      rw [flip_id] at won
      exact flip_triggered (sane.triggered committed old oldMember won)
    · intro alert inRows won
      obtain ⟨old, oldMember, rfl⟩ := mem_markTriggered.mp inRows
      rw [flip_id] at won
      exact flip_won won

theorem commit_sound (sound : system.Sound) (member : check ∈ system.checks.rows)
    {todo : List AlertId} (phase : check.phase = .notifying todo) :
    ((system.flip check).put { check with
      committed := true
      phase := if todo = [] then .finished else .notifying todo }).Sound := by
  obtain ⟨flipped, triggered⟩ := sound.flip member
  have still : check ∈ (system.flip check).checks.rows := by
    unfold System.flip
    split <;> exact member
  have sane := flipped.checks check still
  have plain : (if todo = [] then Phase.finished else .notifying todo).todo = todo ∧
      (if todo = [] then Phase.finished else .notifying todo).early = false ∧
      (if todo = [] then Phase.finished else .notifying todo).rows = [] := by
    split
    · rename_i nothing
      exact ⟨nothing.symm, rfl, rfl⟩
    · exact ⟨rfl, rfl, rfl⟩
  have isTodo : check.phase.todo = todo := by rw [phase]; rfl
  refine flipped.put_fewer still rfl
    ⟨sane.due, sane.won, ?_, ?_, ?_, ?_, fun _ => triggered⟩ ?_
  · intro id queued
    rw [plain.1, ← isTodo] at queued
    exact sane.queue id queued
  · rw [plain.1, ← isTodo]
    exact sane.once
  · intro early
    rw [show Phase.early _ = false from plain.2.1] at early
    contradiction
  · intro alert inRows
    rw [show Phase.rows _ = [] from plain.2.2] at inRows
    cases inRows
  · rintro id ⟨won, _⟩
    exact ⟨won, .inr (by rw [phase]; rfl)⟩

theorem advance_sound (sound : system.Sound) (found : system.checks.find? check.id = some check)
    (ran : advance market system check action = .ok after) : after.Sound := by
  have member := Table.mem_of_find? found
  cases action with
  | claim _ =>
      simp only [advance] at ran
      split at ran
      · rename_i slot rest again phase
        cases ran
        exact claim_sound sound member phase
      · contradiction
  | skip _ =>
      simp only [advance] at ran
      split at ran
      · rename_i slot rest again phase
        cases ran
        obtain ⟨todo, rows, notifies⟩ := nextClaim_plain again rest check.claimed
        refine sound.moveOn member todo notifies (fun _ => by rw [phase]; rfl) ?_
        rw [rows]
        exact fun alert inRows => by cases inRows
      · cases ran
        exact sound.moveOn member rfl rfl (fun early => by cases early)
          (fun alert inRows => by cases inRows)
      · cases ran
        exact sound.moveOn member rfl rfl (fun early => by cases early)
          (fun alert inRows => by cases inRows)
      · contradiction
  | select _ =>
      simp only [advance] at ran
      split at ran
      · rename_i phase
        cases ran
        split
        · exact sound.moveOn member rfl rfl (fun early => by cases early)
            (fun alert inRows => by cases inRows)
        · exact sound.moveOn member rfl rfl (fun _ => by rw [phase]; rfl) sound.selected
      · cases ran
        split
        · exact sound.moveOn member rfl rfl (fun early => by cases early)
            (fun alert inRows => by cases inRows)
        · exact sound.moveOn member rfl rfl (fun early => by cases early) sound.selected
      · contradiction
  | write _ =>
      simp only [advance] at ran
      split at ran
      · rename_i rows phase
        cases ran
        have issued : ∀ alert ∈ rows, IsIssued system.issued alert := by
          have inPhase := (sound.checks check member).rows
          rwa [phase] at inPhase
        exact (sound.moveOn member rfl rfl (fun _ => by rw [phase]; rfl)
          (fun alert inRows => by cases inRows)).reindexed (sound.index.addAll issued)
      · rename_i rows phase
        cases ran
        have issued : ∀ alert ∈ rows, IsIssued system.issued alert := by
          have inPhase := (sound.checks check member).rows
          rwa [phase] at inPhase
        exact (sound.moveOn member rfl rfl (fun early => by cases early)
          (fun alert inRows => by cases inRows)).reindexed (sound.index.addAll issued)
      · contradiction
  | mark _ =>
      simp only [advance] at ran
      split at ran
      · rename_i phase
        split at ran
        · contradiction
        rename_i unlocked
        cases ran
        refine mark_sound sound member phase fun other otherMember alert claimed => ?_
        simp only [List.any_eq_true, not_exists, not_and, Bool.not_eq_true] at unlocked
        exact unlocked other otherMember alert claimed
      · contradiction
  | notify _ published =>
      simp only [advance] at ran
      split at ran
      · rename_i alert todo phase
        cases ran
        exact notify_sound sound member phase
      · contradiction
  | commit _ =>
      simp only [advance] at ran
      split at ran
      · rename_i todo phase
        cases ran
        exact commit_sound sound member phase
      · contradiction
  | fail _ =>
      simp only [advance] at ran
      split at ran
      · contradiction
      · contradiction
      · contradiction
      · cases ran
        exact sound.moveOn member rfl rfl (fun early => by cases early)
          (fun alert inRows => by cases inRows)
  | create | indexAlert | delete | deindexAlert | begin | reindex => contradiction

/-! # The other steps -/

theorem create_sound {alert : Alert} (sound : system.Sound)
    (fresh : system.issued.find? alert.id = none) :
    ({ system with
      alerts := system.alerts.insert alert
      issued := system.issued.insert alert } : System).Sound := by
  have issued : ∀ {other : Alert} {id : AlertId}, system.issued.find? id = some other →
      (system.issued.insert alert).find? id = some other := by
    intro other id found
    rwa [Table.find?_insert_ne]
    intro same
    rw [same, fresh] at found
    contradiction
  have known : ∀ row, IsIssued system.issued row → IsIssued (system.issued.insert alert) row := by
    rintro row ⟨original, found, facts⟩
    exact ⟨original, issued found, facts⟩
  refine ⟨?_, sound.index.insert fresh, ?_, sound.owner⟩
  · intro row inRows
    rcases Table.mem_insert inRows with old | rfl
    · exact known row (sound.rows row old)
    · exact ⟨row, Table.find?_insert_self row fresh, rfl, rfl⟩
  · intro check member
    have sane := sound.checks check member
    refine ⟨?_, sane.won, sane.queue, sane.once, sane.early, ?_, ?_⟩
    · intro id claimed
      obtain ⟨original, found, due⟩ := sane.due id claimed
      exact ⟨original, issued found, due⟩
    · exact fun row inRows => known row (sane.rows row inRows)
    · intro committed row inRows won
      rcases Table.mem_insert inRows with old | rfl
      · exact sane.triggered committed row old won
      · obtain ⟨_, found, _⟩ := sane.due row.id (sane.won row.id won)
        rw [fresh] at found
        contradiction

/-- A run that has only begun. -/
theorem begin_sound {id : ℕ} {prices : Prices} {phase : Phase} (sound : system.Sound)
    (todo : phase.todo = []) (rows : phase.rows = []) :
    ({ system with
      checks := system.checks.insert ⟨id, prices, phase, [], [], [], false⟩ } : System).Sound := by
  refine ⟨sound.rows, sound.index, ?_, ?_⟩
  · intro check member
    rcases Table.mem_insert member with old | rfl
    · exact sound.checks check old
    · refine ⟨by simp, by simp, by simp [todo], by simp [todo], by simp, by simp [rows], ?_⟩
      intro committed
      cases committed
  · intro first firstMember second secondMember alert firstOwns secondOwns
    rcases Table.mem_insert firstMember with firstOld | rfl
    · rcases Table.mem_insert secondMember with secondOld | rfl
      · exact sound.owner first firstOld second secondOld alert firstOwns secondOwns
      · exact absurd secondOwns.1 List.not_mem_nil
    · exact absurd firstOwns.1 List.not_mem_nil

theorem delete_sound {id : AlertId} (sound : system.Sound) :
    ({ system with alerts := system.alerts.erase id } : System).Sound := by
  refine ⟨fun alert inRows => sound.rows alert (Table.mem_of_mem_erase inRows), sound.index, ?_,
    sound.owner⟩
  intro check member
  have sane := sound.checks check member
  refine { sane with triggered := ?_ }
  exact fun committed alert inRows =>
    sane.triggered committed alert (Table.mem_of_mem_erase inRows)

theorem advance_found_sound (sound : system.Sound) {id : ℕ}
    (ran : (match system.checks.find? id with
      | some check => advance market system check action
      | none => .error ()) = .ok after) :
    after.Sound := by
  split at ran
  · rename_i check found
    obtain rfl := Table.key_of_find? found
    exact advance_sound sound found ran
  · contradiction

theorem perform_sound (sound : system.Sound)
    (performed : perform market system action = .ok after) : after.Sound := by
  cases action with
  | create alert =>
      simp only [perform] at performed
      split at performed
      · rename_i fresh
        cases performed
        simp only [Bool.and_eq_true, Option.isNone_iff_eq_none] at fresh
        exact create_sound sound fresh.1
      · contradiction
  | indexAlert id =>
      simp only [perform] at performed
      split at performed
      · rename_i alert found
        split at performed
        · cases performed
          obtain rfl := Table.key_of_find? found
          exact sound.reindexed (sound.index.add ⟨alert, found, rfl, rfl⟩)
        · contradiction
      · contradiction
  | delete id =>
      simp only [perform] at performed
      split at performed
      · contradiction
      · cases performed
        exact delete_sound sound
  | deindexAlert id =>
      simp only [perform] at performed
      split at performed
      · rename_i alert found
        split at performed
        · cases performed
          exact sound.reindexed (sound.index.filtered alert.slot _)
        · contradiction
      · contradiction
  | begin id prices =>
      simp only [perform] at performed
      split at performed
      · cases performed
        exact begin_sound sound rfl rfl
      · contradiction
  | reindex id =>
      simp only [perform] at performed
      split at performed
      · cases performed
        exact begin_sound sound rfl rfl
      · contradiction
  | claim | skip | select | write | mark | notify | commit | fail => 
      exact advance_found_sound sound performed

end Steps

/-- In every interleaving, an alert is notified by one committed run at most, once, and at a
price that met its condition. -/
theorem alerts_notify_once_when_due {market : MarketId} {actions : List Action} {final : System}
    (run : Run (fun system action after => perform market system action = .ok after)
      (fun _ _ => True) .start actions final) :
    final.NotifiesOnce ∧ final.NotifiesWhenDue := by
  have sound : final.Sound := run.invariant System.Sound
    (fun _ _ _ _ performed sound => perform_sound sound performed) System.sound_start
  exact ⟨sound.notifiesOnce, sound.notifiesWhenDue⟩

/-- Run 1 claims the alert and updates its row; run 2 finds the index empty, still sees the row
untriggered, puts it back, claims it and has to wait for the commit of run 1. -/
def contested : List Action :=
  [.create ⟨1, 1, 1, none, .above, 1 / 2, false⟩, .indexAlert 1,
    .begin 1 ⟨3 / 4, 1 / 4⟩, .claim 1, .claim 1, .claim 1, .claim 1, .mark 1,
    .begin 2 ⟨3 / 4, 1 / 4⟩, .claim 2, .claim 2, .claim 2, .claim 2, .select 2, .write 2,
    .claim 2, .claim 2, .claim 2, .claim 2, .notify 1 true, .commit 1, .mark 2]

theorem contested_alert_is_sent_once :
    ∃ final, Run (fun system action after => perform 1 system action = .ok after)
        (fun _ _ => True) .start contested final ∧
      (final.checks.rows.map fun check => (check.claimed, check.sent, check.committed)) =
        [([1], [1], true), ([1], [], false)] ∧
      final.NotifiesOnce ∧ final.NotifiesWhenDue := by
  have played : (replay (perform 1) (fun _ _ => True) contested .start).any (fun final =>
      (final.checks.rows.map fun check => (check.claimed, check.sent, check.committed)) =
        [([1], [1], true), ([1], [], false)]) = true := by decide +kernel
  obtain ⟨final, replayed, facts⟩ := (Option.any_eq_true _ _).mp played
  have run := run_of_replay replayed
  exact ⟨final, run, of_decide_eq_true facts, alerts_notify_once_when_due run⟩

end PredictX.AlertEngine
