import PredictX.Websocket.MarketSocket
import PredictX.Properties.CriticalFrames

namespace PredictX.MarketSocket

open PredictX.Data PredictX.PublishQueue PredictX.MarketFeed

/-! Which losses the browser can see.

The sequence number of a frame is taken by the script that publishes it.  A frame that is dropped
before has taken none, so the frames that do arrive follow each other without a hole.  The
heartbeat's marks are sent as `seq` and looked for as `serverSeq`.
-/

/-! # Contiguous frames -/

section Gaps

variable {conn : Connection} {market : MarketKey}

theorem checkForGap_first {seq : ℕ} (fresh : conn.lastSeq market = none) :
    conn.checkForGap market seq = conn.setLastSeq market seq := by
  simp [Connection.checkForGap, fresh]

theorem checkForGap_next {prev : ℕ} (last : conn.lastSeq market = some prev) :
    conn.checkForGap market (prev + 1) = conn.setLastSeq market (prev + 1) := by
  simp [Connection.checkForGap, last]

/-- `checkForGap` over the numbers a client receives. -/
def receive (market : MarketKey) (conn : Connection) (seqs : List ℕ) : Connection :=
  seqs.foldl (fun conn seq => conn.checkForGap market seq) conn

theorem receive_following {prev : ℕ} (last : conn.lastSeq market = some prev) (count : ℕ) :
    (receive market conn (List.range' (prev + 1) count)).resyncs = conn.resyncs := by
  induction count generalizing conn prev with
  | zero => rfl
  | succ count ih =>
      rw [List.range'_succ, receive, List.foldl_cons, checkForGap_next last]
      rw [← receive, ih (by simp [Connection.setLastSeq])]
      rfl

/-- The first frame sets the baseline, and each of the others follows the one before it. -/
theorem receive_contiguous (fresh : conn.lastSeq market = none) (first count : ℕ) :
    (receive market conn (List.range' first count)).resyncs = conn.resyncs := by
  cases count with
  | zero => rfl
  | succ count =>
      rw [List.range'_succ, receive, List.foldl_cons, checkForGap_first fresh]
      rw [← receive, receive_following (by simp [Connection.setLastSeq])]
      rfl

end Gaps

/-! # Lost frames -/

section Losses

variable {π : Type} {limits : Limits} {market : MarketKey}
  {floor between final : Floor (Publication π) (Redis π)}

/-- A step that drops a critical frame of the market, in an overflow or in a failed send. -/
def Loses (limits : Limits) (market : MarketKey)
    (floor after : Floor (Publication π) (Redis π)) : Prop :=
  ∃ action pending eventType, Moves limits Publication.apply floor action after ∧
    pending.op = Publication.event market eventType ∧ pending.delivery = .critical ∧
    (after.log = floor.log ++ [.spilled pending] ∨ after.log = floor.log ++ [.failed pending false])

/-- A client that has received every frame since it subscribed is told of no gap, whatever was
lost. -/
theorem lost_frame_leaves_no_gap {actions more : List (Action (Publication π))}
    {conn : Connection} {missed received rest : List (Stamped π)}
    (before : Run (Moves limits Publication.apply) (fun _ _ => True) (.start .empty) actions floor)
    (loses : Loses limits market floor between)
    (later : Run (Moves limits Publication.apply) (fun _ _ => True) between more final)
    (delivered : final.redis.frames market = missed ++ received ++ rest)
    (fresh : conn.lastSeq market = none) :
    (receive market conn (received.map Stamped.seq)).resyncs = conn.resyncs := by
  obtain ⟨action, _, _, moves, _⟩ := loses
  have run : Run (Moves limits Publication.apply) (fun _ _ => True) (.start .empty)
      (actions ++ action :: more) final :=
    before.append (.act trivial moves later)
  have numbered : final.redis.Numbered :=
    run.invariant (fun state => state.redis.Numbered)
      (fun _ _ _ _ moves numbered => numbered_step moves numbered)
      (by simp [Redis.Numbered, Redis.frames, Redis.empty, Floor.start])
  have seqs := numbered market
  rw [delivered, List.map_append, List.map_append, eq_comm, List.range'_eq_append_iff] at seqs
  obtain ⟨_, _, upTo, _⟩ := seqs
  rw [eq_comm, List.range'_eq_append_iff] at upTo
  obtain ⟨_, _, _, contiguous⟩ := upTo
  rw [contiguous]
  exact receive_contiguous fresh _ _

end Losses

def tradeFrame : Pending (Publication ℚ) := pendingOf (.event "m" "trade:new") "trade:new" none

theorem tradeFrame_eq :
    tradeFrame = ⟨.event "m" "trade:new", .critical, "trade:new", none⟩ := by
  simp [tradeFrame, pendingOf, criticalFrames]

def oneTrade : Limits := ⟨10, 1⟩

theorem accept_trade :
    Queues.enqueue oneTrade ⟨[], [], ∅⟩ tradeFrame = .accepted ⟨[], [tradeFrame], ∅⟩ := by
  simp [Queues.enqueue, tradeFrame_eq, oneTrade]

theorem spill_trade :
    Queues.enqueue oneTrade ⟨[], [tradeFrame], ∅⟩ tradeFrame = .spilled ⟨[], [tradeFrame], ∅⟩ := by
  simp [Queues.enqueue, Queues.spill, tradeFrame_eq, oneTrade]

theorem loses_trade {floor : Floor (Publication ℚ) (Redis ℚ)} {queues : Queues (Publication ℚ)}
    (offered : floor.queues.enqueue oneTrade tradeFrame = .spilled queues) :
    Loses oneTrade "m" floor
      { floor with queues, log := floor.log ++ [.spilled tradeFrame] } := by
  refine ⟨.enqueue tradeFrame, tradeFrame, "trade:new", .spill offered, ?_, ?_, .inl rfl⟩
  · exact congrArg Pending.op tradeFrame_eq
  · exact congrArg Pending.delivery tradeFrame_eq

def watching : Connection := ⟨fun _ => none, {"m"}, [], []⟩

/-- The first of three trades waits and the second has been spilled. -/
def spilledTrade : Floor (Publication ℚ) (Redis ℚ) :=
  ⟨⟨[], [tradeFrame], ∅⟩, fun _ => .running, .empty, [.accepted tradeFrame, .spilled tradeFrame]⟩

/-- The first and the third are numbered 1 and 2. -/
theorem second_trade_spilled :
    ∃ floor final : Floor (Publication ℚ) (Redis ℚ),
      Run (Moves oneTrade Publication.apply) (fun _ _ => True) (.start .empty)
        [.enqueue tradeFrame] floor ∧
      Loses oneTrade "m" floor spilledTrade ∧
      Run (Moves oneTrade Publication.apply) (fun _ _ => True) spilledTrade
        [.take 0, .publish 0, .enqueue tradeFrame, .take 0, .publish 0] final ∧
      (final.redis.frames "m").map Stamped.seq = [1, 2] := by
  refine ⟨_, ?final, .act trivial (.accept accept_trade) (.stop _), loses_trade spill_trade,
    ?later, ?seqs⟩
  case later =>
    apply Run.act trivial (.take rfl rfl)
    apply Run.act trivial (.publish rfl)
    apply Run.act trivial (.accept accept_trade)
    apply Run.act trivial (.take rfl rfl)
    apply Run.act trivial (.publish rfl)
    exact .stop _
  case seqs =>
    simp [tradeFrame_eq, Publication.apply, Redis.seqAndPublish, Redis.frames, Redis.empty,
      spilledTrade]

/-- The client receives 1 and 2 and reports nothing. -/
theorem lost_trade_goes_unnoticed :
    ∃ floor final : Floor (Publication ℚ) (Redis ℚ),
      Run (Moves oneTrade Publication.apply) (fun _ _ => True) (.start .empty)
        [.enqueue tradeFrame] floor ∧
      Loses oneTrade "m" floor spilledTrade ∧
      Run (Moves oneTrade Publication.apply) (fun _ _ => True) spilledTrade
        [.take 0, .publish 0, .enqueue tradeFrame, .take 0, .publish 0] final ∧
      (final.redis.frames "m").map Stamped.seq = [1, 2] ∧
      (receive "m" watching ((final.redis.frames "m").map Stamped.seq)).resyncs = [] := by
  obtain ⟨floor, final, before, loses, later, seqs⟩ := second_trade_spilled
  refine ⟨floor, final, before, loses, later, seqs, ?_⟩
  rw [seqs]
  rfl

/-- A client that subscribes after the loss receives 2 only. -/
theorem late_client_told_nothing :
    ∃ final : Floor (Publication ℚ) (Redis ℚ),
      (final.redis.frames "m").map Stamped.seq = [1, 2] ∧
      (receive "m" watching (((final.redis.frames "m").drop 1).map Stamped.seq)).resyncs = [] := by
  obtain ⟨floor, final, before, loses, later, seqs⟩ := second_trade_spilled
  have delivered : final.redis.frames "m" =
      (final.redis.frames "m").take 1 ++ (final.redis.frames "m").drop 1 ++ [] := by
    rw [List.append_nil, List.take_append_drop]
  exact ⟨final, seqs, lost_frame_leaves_no_gap before loses later delivered rfl⟩

/-! # The beacon -/

section Beacon

variable {conn : Connection} {market : MarketKey} {ours : ℕ}

/-- A mark never moves a market back, and brings its own market up to it. -/
theorem reconcileMark_lastSeq (mark : MarketKey × ℕ) (last : conn.lastSeq market = some ours) :
    ∃ now, (conn.reconcileMark mark).lastSeq market = some now ∧ ours ≤ now ∧
      (mark.1 = market → mark.2 ≤ now) := by
  by_cases same : mark.1 = market
  · subst same
    by_cases behind : ours < mark.2
    · refine ⟨mark.2, ?_, behind.le, fun _ => le_rfl⟩
      simp [Connection.reconcileMark, last, behind, Connection.emitResync_lastSeq,
        Connection.setLastSeq]
    · refine ⟨ours, ?_, le_rfl, fun _ => by omega⟩
      simp [Connection.reconcileMark, last, behind]
  · refine ⟨ours, ?_, le_rfl, fun isMark => absurd isMark same⟩
    unfold Connection.reconcileMark
    split
    · exact last
    · split
      · simp [Connection.emitResync_lastSeq, Connection.setLastSeq, Ne.symm same, last]
      · exact last

/-- Where the marks are read, no market with a baseline stays behind. -/
theorem reconcileAgainstBeacon_reaches (serverSeq : List (MarketKey × ℕ))
    (last : conn.lastSeq market = some ours) :
    ∃ now, (conn.reconcileAgainstBeacon serverSeq).lastSeq market = some now ∧ ours ≤ now ∧
      ∀ mark ∈ serverSeq, mark.1 = market → mark.2 ≤ now := by
  induction serverSeq generalizing conn ours with
  | nil => exact ⟨ours, last, le_rfl, by simp⟩
  | cons mark rest ih =>
      obtain ⟨between, reached, forwards, upTo⟩ := reconcileMark_lastSeq mark last
      obtain ⟨now, reaches, further, others⟩ := ih reached
      refine ⟨now, reaches, forwards.trans further, ?_⟩
      intro other member same
      rcases List.mem_cons.mp member with rfl | member
      · exact (upTo same).trans further
      · exact others other member same

theorem onmessage_ping (ts : ℕ) (snapshot : List (MarketKey × ℕ)) :
    conn.onmessage (pingPayload ts snapshot) = { conn with pongs := conn.pongs ++ [some ts] } := by
  by_cases nothing : snapshot = []
  · simp [Connection.onmessage, pingPayload, Frame.text, Frame.marks, Frame.number, nothing,
      List.lookup]
  · simp [Connection.onmessage, pingPayload, Frame.text, Frame.marks, Frame.number, nothing,
      List.lookup]

/-- No market of the snapshot is left behind without its handlers being told. -/
def Repaired (snapshot : List (MarketKey × ℕ)) (before after : Connection) : Prop :=
  ∀ mark ∈ snapshot, ∀ ours, before.lastSeq mark.1 = some ours → mark.1 ∈ before.subs →
    ∃ now, after.lastSeq mark.1 = some now ∧
      (mark.2 ≤ now ∨ ours < now ∧ ∃ told reason, after.resyncs = before.resyncs ++ told ∧
        (⟨mark.1, reason⟩ : Resync) ∈ told)

/-- The ping leaves the client where it was, so nothing is repaired that was behind. -/
theorem ping_repairs_iff (subscriptions : List MarketKey) (lastSeq : MarketKey → Option ℕ)
    (conn : Connection) (ts : ℕ) :
    Repaired (seqSnapshot subscriptions lastSeq) conn
        (conn.onmessage (pingPayload ts (seqSnapshot subscriptions lastSeq))) ↔
      ∀ mark ∈ seqSnapshot subscriptions lastSeq, ∀ ours, conn.lastSeq mark.1 = some ours →
        mark.1 ∈ conn.subs → mark.2 ≤ ours := by
  rw [onmessage_ping]
  constructor
  · intro repaired mark member ours last subscribed
    obtain ⟨now, stays, reached | ⟨moved, _⟩⟩ := repaired mark member ours last subscribed
    · rw [last] at stays
      cases stays
      exact reached
    · rw [last] at stays
      cases stays
      exact absurd moved (lt_irrefl _)
  · intro level mark member ours last subscribed
    exact ⟨ours, last, .inl (level mark member ours last subscribed)⟩

end Beacon

/-- The client has received up to 10 of a market that has gone quiet at 13. -/
theorem ping_leaves_client_behind :
    let snapshot := seqSnapshot ["m"] (fun _ => some 13)
    let conn : Connection := ⟨fun _ => some 10, {"m"}, [], []⟩
    let after := conn.onmessage (pingPayload 1 snapshot)
    snapshot = [("m", 13)] ∧ after.lastSeq "m" = some 10 ∧ after.resyncs = [] ∧
      ¬ Repaired snapshot conn after := by
  intro snapshot conn after
  have taken : snapshot = [("m", 13)] := by decide
  have still : after = { conn with pongs := [some 1] } := onmessage_ping _ _
  refine ⟨taken, by rw [still], by rw [still], ?_⟩
  rw [taken, still]
  intro repaired
  obtain ⟨now, last, reached⟩ := repaired ("m", 13) (by simp) 10 rfl (by simp [conn])
  simp [conn] at last reached
  omega

end PredictX.MarketSocket
