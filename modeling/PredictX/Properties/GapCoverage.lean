import PredictX.Websocket.MarketSocket

namespace PredictX.MarketSocket

open PredictX.MarketFeed

/-! What the client knows of the frames it has not received.

Both detectors, the arrival of a frame and the heartbeat's marks, move a market's last number
forward, and each of them tells the market's handlers of the numbers it passes over.
-/

/-! # Receipts -/

/-- What a frame has to say about sequence numbers. -/
inductive Receipt where
  | beacon (serverSeq : List (MarketKey × ℕ))
  | market (market : MarketKey) (seq : ℕ)
  | unnumbered
deriving DecidableEq

def Frame.receipt (frame : Frame) : Receipt :=
  if frame.text "type" = some "ping" then
    match frame.marks "serverSeq" with
    | none => .unnumbered
    | some serverSeq => .beacon serverSeq
  else if frame.text "type" = some "market:prices_batch" then .unnumbered
  else
    match frame.text "market_id" with
    | none => .unnumbered
    | some market =>
        if market = "" then .unnumbered
        else if frame.text "type" = some "__ws_status__" ∨ frame.text "type" = some "__ws_resync__" ∨
            frame.text "type" = some "__ws_gap__" then .unnumbered
        else
          match frame.number "seq" with
          | none => .unnumbered
          | some seq => .market market seq

/-- The number that is received for a market. -/
def Receipt.seqFor (market : MarketKey) : Receipt → Option ℕ
  | .market other seq => if other = market then some seq else none
  | _ => none

/-- The frame is about the market. -/
def Receipt.concerns (market : MarketKey) : Receipt → Prop
  | .beacon serverSeq => market ∈ serverSeq.map Prod.fst
  | .market other _ => other = market
  | .unnumbered => False

def Connection.takes (conn : Connection) : Receipt → Connection
  | .beacon serverSeq => conn.reconcileAgainstBeacon serverSeq
  | .market market seq => if market ∈ conn.subs then conn.checkForGap market seq else conn
  | .unnumbered => conn

theorem onmessage_takes (conn : Connection) (frame : Frame) :
    ∃ pongs, conn.onmessage frame = { conn.takes frame.receipt with pongs } := by
  unfold Connection.onmessage Frame.receipt
  split
  · cases frame.marks "serverSeq" with
    | none => exact ⟨_, rfl⟩
    | some serverSeq => exact ⟨_, rfl⟩
  split
  · exact ⟨_, rfl⟩
  cases frame.text "market_id" with
  | none => exact ⟨_, rfl⟩
  | some market =>
      simp only [List.mem_cons, List.not_mem_nil, or_false]
      split
      · exact ⟨_, rfl⟩
      split
      · exact ⟨_, rfl⟩
      cases frame.number "seq" with
      | none => exact ⟨conn.pongs, by simp [Connection.takes]⟩
      | some seq => exact ⟨_, rfl⟩

/-! # One step of one market -/

/-- The reasons that a market's handlers are given. -/
def told (market : MarketKey) (news : List Resync) : List String :=
  (news.filter fun resync => resync.market = market).map Resync.reason

theorem told_append (market : MarketKey) (first second : List Resync) :
    told market (first ++ second) = told market first ++ told market second := by
  simp [told]

theorem mem_told {market : MarketKey} {reason : String} {news : List Resync} :
    reason ∈ told market news ↔ ⟨market, reason⟩ ∈ news := by
  constructor
  · intro isTold
    obtain ⟨resync, member, isReason⟩ := List.mem_map.mp isTold
    obtain ⟨isNews, isMarket⟩ := List.mem_filter.mp member
    obtain rfl : resync.market = market := by simpa using isMarket
    exact isReason ▸ isNews
  · intro isNews
    exact List.mem_map.mpr ⟨⟨market, reason⟩, List.mem_filter.mpr ⟨isNews, by simp⟩, rfl⟩

/-- How a market's last number moves, and what its handlers are told. -/
inductive Progress : Option ℕ → Option ℕ → Option ℕ → List String → Prop
  | unknown : Progress none none none []
  | first (seq : ℕ) : Progress none (some seq) (some seq) []
  | still (last : ℕ) : Progress (some last) none (some last) []
  | late {last seq : ℕ} (old : seq ≤ last) : Progress (some last) (some seq) (some last) []
  | next (last : ℕ) : Progress (some last) (some (last + 1)) (some (last + 1)) []
  | gap {last seq : ℕ} (skips : last + 1 < seq) :
      Progress (some last) (some seq) (some seq) ["gap"]
  | beacon {last now : ℕ} {reasons : List String} (behind : last < now) (tells : reasons ≠ [])
      (beacons : ∀ reason ∈ reasons, reason = "beacon") :
      Progress (some last) none (some now) reasons

/-- Two marks of one beacon. -/
theorem Progress.trans {last between now : Option ℕ} {reasons more : List String}
    (earlier : Progress last none between reasons) (later : Progress between none now more) :
    Progress last none now (reasons ++ more) := by
  cases earlier with
  | unknown => exact later
  | still last => exact later
  | beacon behind tells beacons =>
      cases later with
      | still between =>
          rw [List.append_nil]
          exact .beacon behind tells beacons
      | beacon further tellsMore moreBeacons =>
          refine .beacon (behind.trans further) (by simp [tells]) ?_
          intro reason member
          obtain early | late := List.mem_append.mp member
          · exact beacons reason early
          · exact moreBeacons reason late

/-- No market that is not subscribed to has a number. -/
def Connection.Tracked (conn : Connection) : Prop :=
  ∀ market, conn.lastSeq market ≠ none → market ∈ conn.subs

section Steps

variable {conn : Connection} {market : MarketKey}

/-- The step's effect on every market. -/
structure Advances (conn after : Connection) (got : MarketKey → Option ℕ) (news : List Resync) :
    Prop where
  resyncs : after.resyncs = conn.resyncs ++ news
  subs : after.subs = conn.subs
  progress : ∀ market,
    Progress (conn.lastSeq market) (got market) (after.lastSeq market) (told market news)

theorem idle_progress (last : Option ℕ) : Progress last none last [] := by
  cases last with
  | none => exact .unknown
  | some last => exact .still last

theorem advances_idle (conn : Connection) : Advances conn conn (fun _ => none) [] :=
  ⟨(List.append_nil _).symm, rfl, fun market => idle_progress (conn.lastSeq market)⟩

theorem Advances.tracked {after : Connection} {got : MarketKey → Option ℕ} {news : List Resync}
    (advances : Advances conn after got news) (tracked : conn.Tracked)
    (received : ∀ market, got market ≠ none → market ∈ conn.subs) : after.Tracked := by
  intro market known
  rw [advances.subs]
  have progress := advances.progress market
  generalize before : conn.lastSeq market = last at progress
  generalize isNow : after.lastSeq market = now at progress known
  generalize isGot : got market = seq at progress
  generalize told market news = reasons at progress
  cases progress with
  | unknown => exact absurd rfl known
  | first seq => exact received market (by simp [isGot])
  | still | late | next | gap | beacon => exact tracked market (by simp [before])

theorem told_other {other : MarketKey} {reason : String} (different : market ≠ other) :
    told market [⟨other, reason⟩] = [] := by
  simp [told, Ne.symm different]

theorem told_self {reason : String} : told market [⟨market, reason⟩] = [reason] := by
  simp [told]

/-- A market's number is set and its handlers are told. -/
theorem setLastSeq_emitResync {seq : ℕ} {reason : String} (subscribed : market ∈ conn.subs) :
    (conn.setLastSeq market seq).emitResync market reason =
      { conn.setLastSeq market seq with resyncs := conn.resyncs ++ [⟨market, reason⟩] } := by
  unfold Connection.emitResync
  exact if_pos subscribed

theorem reconcileMark_advances (tracked : conn.Tracked) (mark : MarketKey × ℕ) :
    ∃ news, Advances conn (conn.reconcileMark mark) (fun _ => none) news := by
  unfold Connection.reconcileMark
  cases ours : conn.lastSeq mark.1 with
  | none => exact ⟨[], advances_idle conn⟩
  | some last =>
      dsimp only
      split
      · rename_i behind
        have subscribed := tracked mark.1 (by simp [ours])
        rw [setLastSeq_emitResync subscribed]
        refine ⟨[⟨mark.1, "beacon"⟩], rfl, rfl, fun market => ?_⟩
        by_cases same : market = mark.1
        · subst same
          rw [told_self, ours]
          simpa [Connection.setLastSeq] using Progress.beacon behind (by simp) (by simp)
        · rw [told_other same]
          simpa [Connection.setLastSeq, same] using idle_progress (conn.lastSeq market)
      · exact ⟨[], advances_idle conn⟩

theorem reconcileAgainstBeacon_advances (tracked : conn.Tracked)
    (serverSeq : List (MarketKey × ℕ)) :
    ∃ news, Advances conn (conn.reconcileAgainstBeacon serverSeq) (fun _ => none) news := by
  induction serverSeq generalizing conn with
  | nil => exact ⟨[], advances_idle conn⟩
  | cons mark rest ih =>
      obtain ⟨first, marked⟩ := reconcileMark_advances tracked mark
      obtain ⟨later, advances⟩ := ih (marked.tracked tracked (by simp))
      refine ⟨first ++ later, ?_, advances.subs.trans marked.subs, fun market => ?_⟩
      · rw [← List.append_assoc, ← marked.resyncs]
        exact advances.resyncs
      · rw [told_append]
        exact (marked.progress market).trans (advances.progress market)

theorem checkForGap_advances (subscribed : market ∈ conn.subs) (seq : ℕ) :
    ∃ news, Advances conn (conn.checkForGap market seq)
      (fun other => if market = other then some seq else none) news := by
  have others : ∀ other, market ≠ other → ∀ news : List Resync, told other news = [] →
      Progress (conn.lastSeq other) (if market = other then some seq else none)
        ((conn.setLastSeq market seq).lastSeq other) (told other news) := by
    intro other different news untold
    rw [untold, if_neg different]
    simpa [Connection.setLastSeq, Ne.symm different] using idle_progress (conn.lastSeq other)
  unfold Connection.checkForGap
  cases ours : conn.lastSeq market with
  | none =>
      refine ⟨[], (List.append_nil _).symm, rfl, fun other => ?_⟩
      by_cases same : market = other
      · subst same
        rw [ours, if_pos rfl]
        simpa [Connection.setLastSeq, told] using Progress.first seq
      · exact others other same [] rfl
  | some prev =>
      dsimp only
      split
      · rename_i old
        refine ⟨[], (List.append_nil _).symm, rfl, fun other => ?_⟩
        by_cases same : market = other
        · subst same
          rw [ours, if_pos rfl]
          exact .late old
        · rw [if_neg same]
          exact idle_progress (conn.lastSeq other)
      rename_i newer
      split
      · rename_i skips
        rw [setLastSeq_emitResync subscribed]
        refine ⟨[⟨market, "gap"⟩], rfl, rfl, fun other => ?_⟩
        by_cases same : market = other
        · subst same
          rw [ours, if_pos rfl, told_self]
          simpa [Connection.setLastSeq] using Progress.gap skips
        · exact others other same _ (told_other (Ne.symm same))
      · refine ⟨[], (List.append_nil _).symm, rfl, fun other => ?_⟩
        by_cases same : market = other
        · subst same
          obtain rfl : seq = prev + 1 := by omega
          rw [ours, if_pos rfl]
          simpa [Connection.setLastSeq, told] using Progress.next prev
        · exact others other same [] rfl

/-- What the client makes of the number in a frame. -/
def Connection.got (conn : Connection) (frame : Frame) (market : MarketKey) : Option ℕ :=
  if market ∈ conn.subs then frame.receipt.seqFor market else none

theorem onmessage_advances (tracked : conn.Tracked) (frame : Frame) :
    ∃ news, Advances conn (conn.onmessage frame) (conn.got frame) news := by
  obtain ⟨pongs, same⟩ := onmessage_takes conn frame
  have taken : ∃ news, Advances conn (conn.takes frame.receipt) (conn.got frame) news := by
    unfold Connection.got
    cases frame.receipt with
    | beacon serverSeq =>
        simpa [Receipt.seqFor, Connection.takes] using
          reconcileAgainstBeacon_advances tracked serverSeq
    | unnumbered =>
        exact ⟨[], by simpa [Receipt.seqFor, Connection.takes] using advances_idle conn⟩
    | market market seq =>
        by_cases subscribed : market ∈ conn.subs
        · obtain ⟨news, advances⟩ := checkForGap_advances subscribed seq
          refine ⟨news, ?_⟩
          have got : (fun other => if other ∈ conn.subs then
              (Receipt.market market seq).seqFor other else none) =
              fun other => if market = other then some seq else none := by
            funext other
            by_cases isMarket : market = other
            · simp [Receipt.seqFor, isMarket, isMarket ▸ subscribed]
            · simp [Receipt.seqFor, isMarket]
          rw [got]
          simpa [Connection.takes, subscribed] using advances
        · have got : (fun other => if other ∈ conn.subs then
              (Receipt.market market seq).seqFor other else none) = fun _ => none := by
            funext other
            by_cases isMarket : market = other
            · simp [isMarket ▸ subscribed]
            · simp [Receipt.seqFor, isMarket]
          rw [got]
          exact ⟨[], by simpa [Connection.takes, subscribed] using advances_idle conn⟩
  obtain ⟨news, resyncs, subs, progress⟩ := taken
  refine ⟨news, ?_⟩
  rw [same]
  exact ⟨resyncs, subs, progress⟩

end Steps

/-! # Runs -/

def Connection.receives (conn : Connection) (frames : List Frame) : Connection :=
  frames.foldl Connection.onmessage conn

/-- The numbers that are received for a market. -/
def received (market : MarketKey) (frames : List Frame) : List ℕ :=
  frames.filterMap fun frame => frame.receipt.seqFor market

/-- The market's number at the start, or else the first that is received. -/
def Connection.baseline (conn : Connection) (frames : List Frame) (market : MarketKey) :
    Option ℕ :=
  (conn.lastSeq market).or (received market frames).head?

/-- The step passes over a number of the market, or arrives at it. -/
def Passes (conn after : Connection) (market : MarketKey) (seq : ℕ) : Prop :=
  ∃ last now, conn.lastSeq market = some last ∧ after.lastSeq market = some now ∧
    last < seq ∧ seq ≤ now

/-- The step hands the market's handlers a resync. -/
def Tells (conn after : Connection) (market : MarketKey) (reason : String) : Prop :=
  ∃ news, after.resyncs = conn.resyncs ++ news ∧ ⟨market, reason⟩ ∈ news

/-- The step that passed over the number has told of it. -/
def Reported (conn : Connection) (frames : List Frame) (market : MarketKey) (seq : ℕ) : Prop :=
  ∃ before frame rest reason, frames = before ++ frame :: rest ∧
    Passes (conn.receives before) (conn.receives (before ++ [frame])) market seq ∧
    Tells (conn.receives before) (conn.receives (before ++ [frame])) market reason

/-- What a market's last number stands for. -/
structure Account (conn : Connection) (frames : List Frame) (market : MarketKey)
    (base last : ℕ) : Prop where
  baseline : conn.baseline frames market = some base
  reached : base ≤ last
  bound : ∀ seq ∈ received market frames, seq ≤ last
  covered : ∀ seq, base < seq → seq ≤ last →
    seq ∈ received market frames ∨ Reported conn frames market seq

section Runs

variable {conn : Connection} {frames : List Frame} {frame : Frame} {market : MarketKey}
  {base last : ℕ}

theorem receives_snoc (conn : Connection) (frames : List Frame) (frame : Frame) :
    conn.receives (frames ++ [frame]) = (conn.receives frames).onmessage frame := by
  simp [Connection.receives]

theorem received_snoc (market : MarketKey) (frames : List Frame) (frame : Frame) :
    received market (frames ++ [frame]) =
      received market frames ++ (frame.receipt.seqFor market).toList := by
  cases isSeq : frame.receipt.seqFor market <;> simp [received, isSeq]

theorem baseline_snoc (known : conn.baseline frames market = some base) (frame : Frame) :
    conn.baseline (frames ++ [frame]) market = some base := by
  unfold Connection.baseline at known ⊢
  cases started : conn.lastSeq market with
  | some start => simpa [started] using known
  | none =>
      rw [received_snoc]
      cases seqs : received market frames with
      | nil => simp [started, seqs] at known
      | cons seq rest => simpa [started, seqs] using known

theorem Reported.snoc {seq : ℕ} (reported : Reported conn frames market seq) (frame : Frame) :
    Reported conn (frames ++ [frame]) market seq := by
  obtain ⟨before, passing, rest, reason, rfl, passes, tells⟩ := reported
  exact ⟨before, passing, rest ++ [frame], reason, by simp, passes, tells⟩

/-- The last frame has passed over the number. -/
theorem Reported.here {now seq : ℕ} {reason : String}
    (was : (conn.receives frames).lastSeq market = some last)
    (isNow : (conn.receives (frames ++ [frame])).lastSeq market = some now)
    (after : last < seq) (upTo : seq ≤ now)
    (tells : Tells (conn.receives frames) (conn.receives (frames ++ [frame])) market reason) :
    Reported conn (frames ++ [frame]) market seq :=
  ⟨frames, frame, [], reason, rfl, ⟨last, now, was, isNow, after, upTo⟩, tells⟩

/-- A step that moves the last number on, and accounts for what it has passed. -/
theorem Account.moves {now : ℕ} (account : Account conn frames market base last)
    (onwards : last ≤ now)
    (bound : ∀ seq ∈ frame.receipt.seqFor market, seq ≤ now)
    (passed : ∀ seq, last < seq → seq ≤ now →
      seq ∈ frame.receipt.seqFor market ∨ Reported conn (frames ++ [frame]) market seq) :
    Account conn (frames ++ [frame]) market base now := by
  refine ⟨baseline_snoc account.baseline frame, account.reached.trans onwards, ?_, ?_⟩
  · intro seq member
    rw [received_snoc] at member
    obtain old | new := List.mem_append.mp member
    · exact (account.bound seq old).trans onwards
    · exact bound seq (by simpa using new)
  · intro seq above upTo
    rw [received_snoc]
    obtain old | new := le_or_gt seq last
    · obtain isReceived | reported := account.covered seq above old
      · exact .inl (List.mem_append_left _ isReceived)
      · exact .inr (reported.snoc frame)
    · obtain isReceived | reported := passed seq new upTo
      · exact .inl (List.mem_append_right _ (by simpa using isReceived))
      · exact .inr reported

/-- A market that is subscribed to has no number and has received none, or has an account. -/
def Kept (conn : Connection) (frames : List Frame) (market : MarketKey) : Prop :=
  match (conn.receives frames).lastSeq market with
  | none => conn.lastSeq market = none ∧ received market frames = []
  | some last => ∃ base, Account conn frames market base last

theorem kept_snoc (tracked : (conn.receives frames).Tracked)
    (subscribed : market ∈ (conn.receives frames).subs) (kept : Kept conn frames market) :
    Kept conn (frames ++ [frame]) market := by
  obtain ⟨news, resyncs, subs, progress⟩ := onmessage_advances tracked frame
  have step := progress market
  have here : ∀ last now seq reason, (conn.receives frames).lastSeq market = some last →
      ((conn.receives frames).onmessage frame).lastSeq market = some now → last < seq →
      seq ≤ now → reason ∈ told market news → Reported conn (frames ++ [frame]) market seq := by
    intro last now seq reason was isNow after upTo isTold
    have tells : Tells (conn.receives frames) (conn.receives (frames ++ [frame])) market reason :=
      ⟨news, by rw [receives_snoc]; exact resyncs, mem_told.mp isTold⟩
    exact .here was ((receives_snoc conn frames frame).symm ▸ isNow) after upTo tells
  rw [Connection.got, if_pos subscribed] at step
  unfold Kept at kept ⊢
  rw [receives_snoc]
  generalize (conn.receives frames).lastSeq market = last at step kept here
  generalize ((conn.receives frames).onmessage frame).lastSeq market = now at step here ⊢
  generalize got : frame.receipt.seqFor market = seq at step
  generalize told market news = reasons at step here
  cases step with
  | unknown => exact ⟨kept.1, by rw [received_snoc, got, kept.2]; rfl⟩
  | first seq =>
      have all : received market (frames ++ [frame]) = [seq] := by
        rw [received_snoc, got, kept.2]
        rfl
      refine ⟨seq, ?_, le_rfl, by simp [all], ?_⟩
      · simp [Connection.baseline, kept.1, all]
      · intro other above upTo
        exact absurd upTo (not_le.mpr above)
  | still last =>
      obtain ⟨base, account⟩ := kept
      refine ⟨base, account.moves le_rfl (by simp [got]) ?_⟩
      intro seq above upTo
      exact absurd upTo (not_le.mpr above)
  | late old =>
      obtain ⟨base, account⟩ := kept
      refine ⟨base, account.moves le_rfl (by simpa [got] using old) ?_⟩
      intro seq above upTo
      exact absurd upTo (not_le.mpr above)
  | next last =>
      obtain ⟨base, account⟩ := kept
      refine ⟨base, account.moves (Nat.le_succ last) (by simp [got]) ?_⟩
      intro seq above upTo
      obtain rfl : seq = last + 1 := by omega
      exact .inl got
  | @gap last now skips =>
      obtain ⟨base, account⟩ := kept
      refine ⟨base, account.moves (by omega) (by simp [got]) ?_⟩
      intro seq above upTo
      exact .inr (here last now seq "gap" rfl rfl above upTo (by simp))
  | @beacon last now reasons behind tells beacons =>
      obtain ⟨base, account⟩ := kept
      obtain ⟨reason, isTold⟩ := List.exists_mem_of_ne_nil reasons tells
      refine ⟨base, account.moves behind.le (by simp [got]) ?_⟩
      intro seq above upTo
      exact .inr (here last now seq reason rfl rfl above upTo isTold)

theorem tracked_receives (tracked : conn.Tracked) (frames : List Frame) :
    (conn.receives frames).Tracked ∧ (conn.receives frames).subs = conn.subs := by
  induction frames using List.reverseRecOn with
  | nil => exact ⟨tracked, rfl⟩
  | append_singleton frames frame ih =>
      obtain ⟨sofar, subs⟩ := ih
      obtain ⟨news, advances⟩ := onmessage_advances sofar frame
      rw [receives_snoc]
      refine ⟨advances.tracked sofar ?_, advances.subs.trans subs⟩
      intro market isGot
      by_contra unsubscribed
      exact isGot (if_neg unsubscribed)

theorem kept_receives (tracked : conn.Tracked) (subscribed : market ∈ conn.subs)
    (frames : List Frame) : Kept conn frames market := by
  induction frames using List.reverseRecOn with
  | nil =>
      unfold Kept
      cases started : conn.lastSeq market with
      | none => simp [Connection.receives, started, received]
      | some start =>
          simp only [Connection.receives, List.foldl_nil, started]
          refine ⟨start, by simp [Connection.baseline, started], le_rfl, by simp [received], ?_⟩
          intro seq above upTo
          exact absurd upTo (not_le.mpr above)
  | append_singleton frames frame ih =>
      obtain ⟨sofar, subs⟩ := tracked_receives tracked frames
      exact kept_snoc sofar (subs ▸ subscribed) ih

/-- A market with a last number has an account of it. -/
theorem account_receives (tracked : conn.Tracked)
    (known : (conn.receives frames).lastSeq market = some last) :
    ∃ base, Account conn frames market base last := by
  obtain ⟨sofar, subs⟩ := tracked_receives tracked frames
  have subscribed : market ∈ conn.subs := subs ▸ sofar market (by simp [known])
  have kept := kept_receives tracked subscribed frames
  unfold Kept at kept
  rwa [known] at kept

theorem baseline_append (known : conn.baseline frames market = some base) (rest : List Frame) :
    conn.baseline (frames ++ rest) market = some base := by
  induction rest using List.reverseRecOn with
  | nil => rwa [List.append_nil]
  | append_singleton rest frame ih =>
      rw [← List.append_assoc]
      exact baseline_snoc ih frame

theorem reconcile_unconcerned (serverSeq : List (MarketKey × ℕ))
    (absent : market ∉ serverSeq.map Prod.fst) :
    (conn.reconcileAgainstBeacon serverSeq).lastSeq market = conn.lastSeq market := by
  induction serverSeq generalizing conn with
  | nil => rfl
  | cons mark rest ih =>
      rw [List.map_cons, List.mem_cons, not_or] at absent
      refine (ih absent.2).trans ?_
      unfold Connection.reconcileMark
      split
      · rfl
      split
      · rw [Connection.emitResync_lastSeq]
        simp [Connection.setLastSeq, absent.1]
      · rfl

theorem takes_unconcerned {receipt : Receipt} (unconcerned : ¬receipt.concerns market) :
    (conn.takes receipt).lastSeq market = conn.lastSeq market := by
  cases receipt with
  | beacon serverSeq => exact reconcile_unconcerned serverSeq unconcerned
  | unnumbered => rfl
  | market other seq =>
      have different : market ≠ other := fun same => unconcerned same.symm
      by_cases subscribed : other ∈ conn.subs
      · rw [Connection.takes, if_pos subscribed]
        unfold Connection.checkForGap
        split
        · simp [Connection.setLastSeq, different]
        split
        · rfl
        split
        · rw [Connection.emitResync_lastSeq]
          simp [Connection.setLastSeq, different]
        · simp [Connection.setLastSeq, different]
      · rw [Connection.takes, if_neg subscribed]

theorem seqFor_unconcerned {receipt : Receipt} (unconcerned : ¬receipt.concerns market) :
    receipt.seqFor market = none := by
  cases receipt with
  | beacon serverSeq => rfl
  | unnumbered => rfl
  | market other seq => exact if_neg unconcerned

/-- A frame that is not about the market does not move it and tells its handlers nothing. -/
theorem onmessage_unconcerned (tracked : conn.Tracked)
    (unconcerned : ¬frame.receipt.concerns market) :
    (conn.onmessage frame).lastSeq market = conn.lastSeq market ∧
      ∀ reason, ¬Tells conn (conn.onmessage frame) market reason := by
  have still : (conn.onmessage frame).lastSeq market = conn.lastSeq market := by
    obtain ⟨pongs, same⟩ := onmessage_takes conn frame
    rw [same]
    exact takes_unconcerned unconcerned
  refine ⟨still, ?_⟩
  rintro reason ⟨news, resyncs, isNews⟩
  obtain ⟨others, advances⟩ := onmessage_advances tracked frame
  obtain rfl : others = news := List.append_cancel_left (advances.resyncs.symm.trans resyncs)
  have progress := advances.progress market
  have isTold := mem_told.mpr isNews
  rw [still, Connection.got, seqFor_unconcerned unconcerned, ite_self] at progress
  generalize conn.lastSeq market = last at progress
  generalize told market others = reasons at progress isTold
  cases progress with
  | unknown => simp at isTold
  | still last => simp at isTold
  | beacon behind => exact absurd behind (lt_irrefl _)

/-- A gap is only told of where a number is missing. -/
theorem onmessage_gap (tracked : conn.Tracked)
    (tells : Tells conn (conn.onmessage frame) market "gap") :
    ∃ last seq, conn.lastSeq market = some last ∧ frame.receipt.seqFor market = some seq ∧
      (conn.onmessage frame).lastSeq market = some seq ∧ last + 1 < seq := by
  obtain ⟨news, resyncs, isNews⟩ := tells
  obtain ⟨others, advances⟩ := onmessage_advances tracked frame
  obtain rfl : others = news := List.append_cancel_left (advances.resyncs.symm.trans resyncs)
  have progress := advances.progress market
  have isTold := mem_told.mpr isNews
  have got : ∀ seq, conn.got frame market = some seq → frame.receipt.seqFor market = some seq := by
    intro seq isGot
    unfold Connection.got at isGot
    split at isGot
    · exact isGot
    · contradiction
  generalize conn.lastSeq market = last at progress ⊢
  generalize (conn.onmessage frame).lastSeq market = now at progress ⊢
  generalize isGot : conn.got frame market = seq at progress
  generalize told market others = reasons at progress isTold
  cases progress with
  | gap skips => exact ⟨_, _, rfl, got _ isGot, rfl, skips⟩
  | beacon behind tells beacons => exact absurd (beacons "gap" isTold) (by decide)
  | unknown | first | still | late | next => simp at isTold

theorem onmessage_forward (tracked : conn.Tracked) (was : conn.lastSeq market = some last)
    (frame : Frame) : ∃ now, (conn.onmessage frame).lastSeq market = some now ∧ last ≤ now := by
  obtain ⟨news, advances⟩ := onmessage_advances tracked frame
  have progress := advances.progress market
  rw [was] at progress
  generalize (conn.onmessage frame).lastSeq market = now at progress ⊢
  generalize conn.got frame market = seq at progress
  generalize told market news = reasons at progress
  cases progress with
  | still | late => exact ⟨last, rfl, le_rfl⟩
  | next => exact ⟨last + 1, rfl, Nat.le_succ last⟩
  | gap skips => exact ⟨_, rfl, by omega⟩
  | beacon behind => exact ⟨_, rfl, behind.le⟩

/-- The states of a tab's connection. -/
inductive Connection.Reachable : Connection → Prop
  | initial : Reachable ⟨fun _ => none, ∅, [], []⟩
  | subscribe {conn : Connection} (sofar : conn.Reachable) (market : MarketKey) :
      Reachable (conn.subscribe market)
  | unsubscribe {conn : Connection} (sofar : conn.Reachable) (market : MarketKey) :
      Reachable (conn.unsubscribe market)
  | onmessage {conn : Connection} (sofar : conn.Reachable) (frame : Frame) :
      Reachable (conn.onmessage frame)

theorem Connection.Reachable.tracked (reachable : conn.Reachable) : conn.Tracked := by
  induction reachable with
  | initial =>
      intro market known
      exact absurd rfl known
  | subscribe sofar other ih =>
      intro market known
      exact Finset.mem_insert_of_mem (ih market known)
  | unsubscribe sofar other ih =>
      intro market known
      by_cases same : market = other
      · simp [Connection.unsubscribe, same] at known
      · refine Finset.mem_erase.mpr ⟨same, ih market ?_⟩
        simpa [Connection.unsubscribe, same] using known
  | @onmessage conn sofar frame ih =>
      exact (tracked_receives ih [frame]).1

/-- Of every market, each number up to the last one has been received or was told of when it was
passed; a gap is told of only where a number is missing; the last number never falls; and a frame
does nothing to a market that it is not about. -/
theorem every_skip_is_reported (reachable : conn.Reachable) (frames : List Frame)
    (market : MarketKey) :
    (∀ base last seq, conn.baseline frames market = some base →
      (conn.receives frames).lastSeq market = some last → base < seq → seq ≤ last →
        seq ∈ received market frames ∨ Reported conn frames market seq) ∧
    ∀ before frame rest, frames = before ++ frame :: rest →
      (Tells (conn.receives before) (conn.receives (before ++ [frame])) market "gap" →
        ∃ base last seq, conn.baseline frames market = some base ∧
          (conn.receives (before ++ [frame])).lastSeq market = some last ∧ base < seq ∧
          seq ≤ last ∧ seq ∉ received market (before ++ [frame])) ∧
      (∀ last, (conn.receives before).lastSeq market = some last →
        ∃ now, (conn.receives (before ++ [frame])).lastSeq market = some now ∧ last ≤ now) ∧
      (¬frame.receipt.concerns market →
        (conn.receives (before ++ [frame])).lastSeq market =
            (conn.receives before).lastSeq market ∧
          ∀ reason,
            ¬Tells (conn.receives before) (conn.receives (before ++ [frame])) market reason) := by
  have tracked := reachable.tracked
  refine ⟨?_, ?_⟩
  · intro base last seq isBase isLast above upTo
    obtain ⟨own, account⟩ := account_receives tracked isLast
    obtain rfl : base = own := Option.some.inj (isBase.symm.trans account.baseline)
    exact account.covered seq above upTo
  · rintro before frame rest rfl
    obtain ⟨sofar, -⟩ := tracked_receives tracked before
    rw [receives_snoc]
    refine ⟨?_, fun last was => onmessage_forward sofar was frame, onmessage_unconcerned sofar⟩
    intro tells
    obtain ⟨last, seq, was, isSeq, isNow, skips⟩ := onmessage_gap sofar tells
    obtain ⟨base, account⟩ := account_receives tracked was
    have reached := account.reached
    refine ⟨base, seq, last + 1, baseline_append account.baseline _, isNow, by omega, by omega, ?_⟩
    rw [received_snoc, isSeq, List.mem_append]
    rintro (old | new)
    · exact absurd (account.bound (last + 1) old) (by omega)
    · obtain rfl : last + 1 = seq := by simpa using new
      omega

end Runs

/-- Two markets, of which the first loses its second and third frames. -/
theorem every_skip_is_reported_of_two :
    let conn := (Connection.subscribe ⟨fun _ => none, ∅, [], []⟩ "market").subscribe "other"
    let trade : MarketKey → ℕ → Frame := fun market seq =>
      [("type", .text "market:trade"), ("market_id", .text market), ("seq", .number seq)]
    let frames := [trade "market" 1, trade "other" 9, trade "market" 4, trade "market" 3]
    (conn.receives frames).lastSeq "market" = some 4 ∧
      Reported conn frames "market" 2 ∧ 3 ∈ received "market" frames := by
  intro conn trade frames
  have reachable : conn.Reachable := .subscribe (.subscribe .initial "market") "other"
  have last : (conn.receives frames).lastSeq "market" = some 4 := by decide
  have covered := (every_skip_is_reported reachable frames "market").1 1 4 2 (by decide) last
    (by decide) (by decide)
  refine ⟨last, covered.resolve_left (by decide), by decide⟩

end PredictX.MarketSocket
