import PredictX.Workers.PayoutSessions
import PredictX.Properties.OneOutcome
import PredictX.Properties.SettlementPayouts

namespace PredictX.Settlement

open PredictX.Data PredictX.Resolution

/-! Every payout is made once, however settlements and claims interleave.

The pool's row lock serialises them: a session that has read the pool excludes every other
one that could commit, so what it has read is still so when it commits.  A market without a
pool has no claims to pay, and there the market's row lock serialises the settlements.
-/

/-! # What a session knows -/

section Knowledge

variable {market : MarketId} {winning : OutcomeId} {db : Database} {session : PaySession}

structure SettleKnows (market : MarketId) (winning : OutcomeId) (db : Database)
    (session : PaySession) : Prop where
  markets : session.Reached .market →
    session.view.markets = db.markets ∧ winner db market = some winning
  pools : session.Reached .pool → session.view.pools = db.pools
  treasury : session.Reached .treasury → session.view.systemUser = db.systemUser
  positions : session.Reached .positions →
    session.view.positions = db.positions ∧ session.scan.positions.Perm (unsettled db market)
  wallets : session.Reached .wallets → session.view.wallets = db.wallets
  providers : session.Reached .providers → session.view.lpShares = db.lpShares ∧
    ∀ pool, settlementPool db.pools market winning = some pool →
      session.scan.lpShares.Perm (liveShares db pool.key)

/-- What a claim has read of the escrow's tables. -/
structure ClaimReads (db : Database) (session : PaySession) : Prop where
  pools : session.Reached .pool → session.view.pools = db.pools
  positions : session.Reached .positions → session.view.positions = db.positions
  wallets : session.Reached .wallets → session.view.wallets = db.wallets

/-- A claim that found no pool will be refused, whatever it has read. -/
structure ClaimKnows (market : MarketId) (db : Database) (session : PaySession) : Prop where
  markets : session.Reached .market →
    ∃ winning, winner session.view market = some winning ∧ winner db market = some winning
  reads : (session.Reached .pool ∧ session.pool market = none) ∨ ClaimReads db session

def PayKnows (market : MarketId) (books : Books) (session : PaySession) : Prop :=
  match session.task with
  | .settle winning _ => SettleKnows market winning books.db session
  | .claim _ _ => ClaimKnows market books.db session

theorem reached_iff {stage own : Stage} (isStage : session.stage = own) :
    session.Reached stage ↔ stage.rank ≤ own.rank := by
  rw [PaySession.Reached, isStage]

theorem payKnows_fresh {books : Books} (fresh : session.stage = .begun) :
    PayKnows market books session := by
  have early : ∀ {stage : Stage}, 0 < stage.rank → ¬ session.Reached stage := by
    intro stage later
    rw [reached_iff fresh]
    exact not_le.mpr later
  unfold PayKnows
  split
  · constructor <;> exact fun reached => absurd reached (early (by decide))
  · refine ⟨fun reached => absurd reached (early (by decide)), .inr ?_⟩
    constructor <;> exact fun reached => absurd reached (early (by decide))

theorem winner_of_admits {task : Task} (admitted : admits market db task) :
    match task with
    | .settle winning _ => winner db market = some winning
    | .claim _ _ => ∃ winning, winner db market = some winning := by
  cases task with
  | settle winning now => exact admitted
  | claim user now =>
      obtain ⟨row, winning, found, claimed⟩ := admitted
      refine ⟨winning, ?_⟩
      rw [winner, found]
      exact (claimable_ok claimed).2

/-- A query adds what it read. -/
theorem payKnows_query {books : Books} {next : PaySession} (knows : PayKnows market books session)
    (asked : Asks market books.db session next) : PayKnows market books next := by
  unfold PayKnows at knows ⊢
  cases asked with
  | market stage admitted =>
      cases task : session.task with
      | settle winning now =>
          simp only [task] at admitted ⊢
          constructor
          · exact fun _ => ⟨rfl, admitted⟩
          all_goals exact fun reached => absurd reached (by simp [PaySession.Reached, Stage.rank])
      | claim user now =>
          simp only [task] at admitted ⊢
          obtain ⟨winning, decided⟩ := winner_of_admits admitted
          refine ⟨fun _ => ⟨winning, decided, decided⟩, .inr ?_⟩
          constructor
          all_goals exact fun reached => absurd reached (by simp [PaySession.Reached, Stage.rank])
  | pool stage =>
      have before : session.Reached .market := (reached_iff stage).mpr le_rfl
      cases task : session.task with
      | settle winning now =>
          simp only [task] at knows ⊢
          refine ⟨fun _ => knows.markets before, fun _ => rfl, ?_, ?_, ?_, ?_⟩
          all_goals exact fun reached => absurd reached (by simp [PaySession.Reached, Stage.rank])
      | claim user now =>
          simp only [task] at knows ⊢
          refine ⟨fun _ => knows.markets before, .inr ⟨fun _ => rfl, ?_, ?_⟩⟩
          all_goals exact fun reached => absurd reached (by simp [PaySession.Reached, Stage.rank])
  | treasury task stage =>
      have before : ∀ {other : Stage}, other.rank ≤ Stage.pool.rank → session.Reached other :=
        (reached_iff stage).mpr
      simp only [task] at knows ⊢
      refine ⟨fun _ => knows.markets (before (by decide)), fun _ => knows.pools (before le_rfl),
        fun _ => rfl, ?_, ?_, ?_⟩
      all_goals exact fun reached => absurd reached (by simp [PaySession.Reached, Stage.rank])
  | positions task stage read =>
      have before : ∀ {other : Stage}, other.rank ≤ Stage.treasury.rank → session.Reached other :=
        (reached_iff stage).mpr
      simp only [task] at knows ⊢
      refine ⟨fun _ => knows.markets (before (by decide)),
        fun _ => knows.pools (before (by decide)), fun _ => knows.treasury (before le_rfl),
        fun _ => ⟨rfl, read⟩, ?_, ?_⟩
      all_goals exact fun reached => absurd reached (by simp [PaySession.Reached, Stage.rank])
  | position task stage decided =>
      have before : ∀ {other : Stage}, other.rank ≤ Stage.pool.rank → session.Reached other :=
        (reached_iff stage).mpr
      simp only [task] at knows ⊢
      refine ⟨fun _ => knows.markets (before (by decide)), ?_⟩
      rcases knows.reads with ⟨_, unpooled⟩ | reads
      · refine .inl ⟨by simp [PaySession.Reached, Stage.rank], ?_⟩
        simpa only [PaySession.pool, PaySession.winning, winner, task] using unpooled
      · refine .inr ⟨fun _ => reads.pools (before le_rfl), fun _ => rfl, ?_⟩
        exact fun reached => absurd reached (by simp [PaySession.Reached, Stage.rank])
  | wallets stage =>
      have before : ∀ {other : Stage}, other.rank ≤ Stage.positions.rank → session.Reached other :=
        (reached_iff stage).mpr
      cases task : session.task with
      | settle winning now =>
          simp only [task] at knows ⊢
          refine ⟨fun _ => knows.markets (before (by decide)),
            fun _ => knows.pools (before (by decide)),
            fun _ => knows.treasury (before (by decide)),
            fun _ => knows.positions (before le_rfl), fun _ => rfl, ?_⟩
          exact fun reached => absurd reached (by simp [PaySession.Reached, Stage.rank])
      | claim user now =>
          simp only [task] at knows ⊢
          refine ⟨fun _ => knows.markets (before (by decide)), ?_⟩
          rcases knows.reads with ⟨_, unpooled⟩ | reads
          · refine .inl ⟨by simp [PaySession.Reached, Stage.rank], ?_⟩
            simpa only [PaySession.pool, PaySession.winning, winner, task] using unpooled
          · exact .inr ⟨fun _ => reads.pools (before (by decide)),
              fun _ => reads.positions (before le_rfl), fun _ => rfl⟩
  | @providers winning now rows task stage read =>
      have before : ∀ {other : Stage}, other.rank ≤ Stage.wallets.rank → session.Reached other :=
        (reached_iff stage).mpr
      simp only [task] at knows ⊢
      have pools := knows.pools (before (by decide))
      refine ⟨fun _ => knows.markets (before (by decide)), fun _ => pools,
        fun _ => knows.treasury (before (by decide)),
        fun _ => knows.positions (before (by decide)), fun _ => rfl, fun _ => ⟨rfl, ?_⟩⟩
      intro pool isPool
      refine read pool ?_
      rw [PaySession.pool, PaySession.winning, task, pools]
      exact isPool

/-! # The gate -/

variable {round : ℚ → ℚ}

theorem holds_market {now : Timestamp} (task : session.task = .settle winning now)
    (reached : session.Reached .market) : session.holds market .market := by
  unfold PaySession.holds
  rw [task]
  exact reached

theorem holds_pool {pool : LiquidityPool} (reached : session.Reached .pool)
    (isPool : session.pool market = some pool) : session.holds market (.pool pool.key) := by
  have locked : session.Reached .pool ∧
      (session.pool market).map LiquidityPool.key = some pool.key :=
    ⟨reached, by rw [isPool]; rfl⟩
  unfold PaySession.holds
  cases session.task with
  | settle winning now => exact locked
  | claim user now => exact locked

/-- What every writer has locked: the pool, or the market row when there is no pool. -/
theorem writer_holds {books after : Books} (knows : PayKnows market books session)
    (written : Writes round market books session after) :
    ∃ winning, winner books.db market = some winning ∧ winner after.db market = some winning ∧
      ((∃ pool, settlementPool books.db.pools market winning = some pool ∧
          session.holds market (.pool pool.key)) ∨
        (settlementPool books.db.pools market winning = none ∧ session.holds market .market)) := by
  unfold PayKnows at knows
  cases written with
  | @settle winning now settled task stage ran =>
      simp only [task] at knows
      have reached : ∀ {other : Stage}, other.rank ≤ Stage.providers.rank →
          session.Reached other := (reached_iff stage).mpr
      obtain ⟨_, recorded⟩ := knows.markets (reached (by decide))
      obtain ⟨_, kept, _⟩ := settleMarket_winner ran
      refine ⟨winning, recorded, kept, ?_⟩
      cases isPool : settlementPool books.db.pools market winning with
      | none => exact .inr ⟨rfl, holds_market task (reached (by decide))⟩
      | some pool =>
          refine .inl ⟨pool, rfl, holds_pool (reached (by decide)) ?_⟩
          rw [PaySession.pool, PaySession.winning, task, knows.pools (reached (by decide))]
          exact isPool
  | @claim user winning now settled task stage decided ran =>
      simp only [task] at knows
      have reached : ∀ {other : Stage}, other.rank ≤ Stage.wallets.rank →
          session.Reached other := (reached_iff stage).mpr
      obtain ⟨recorded, viewed, current⟩ := knows.markets (reached (by decide))
      cases viewed.symm.trans decided
      obtain ⟨pool, position, wallet, isPool, _, _, _, _, _, rfl⟩ := payClaim_ok ran
      have seenPool : session.pool market = some pool := by
        rw [PaySession.pool, PaySession.winning, task]
        simp only [decided, Option.bind_some]
        simpa only [PaySession.seen, task] using isPool
      rcases knows.reads with ⟨_, unpooled⟩ | reads
      · exact absurd (unpooled.symm.trans seenPool) (by simp)
      have same : settlementPool books.db.pools market winning = some pool := by
        rw [← reads.pools (reached (by decide))]
        simpa only [PaySession.seen, task] using isPool
      refine ⟨winning, current, ?_, .inl ⟨pool, same, holds_pool (reached (by decide)) seenPool⟩⟩
      simpa only [Books.post, PaySession.seen, task, winner] using current

theorem reached_mono {early late : Stage} (reached : session.Reached late)
    (order : early.rank ≤ late.rank) : session.Reached early :=
  order.trans reached

/-- Only settlements write the market, and they hold its row. -/
theorem markets_of_written {books after : Books} (written : Writes round market books session after)
    (unlocked : ¬ session.holds market .market) : after.db.markets = books.db.markets := by
  cases written with
  | settle task stage ran =>
      exact absurd (holds_market task ((reached_iff stage).mpr (by decide))) unlocked
  | claim task stage decided ran =>
      obtain ⟨pool, position, wallet, _, _, _, _, _, _, rfl⟩ := payClaim_ok ran
      simp only [Books.post, PaySession.seen, task]

/-- A commit cannot touch what a session apart from the writer knows. -/
theorem payKnows_stable {books after : Books} {writer : PaySession}
    (knows : PayKnows market books session) (writerKnows : PayKnows market books writer)
    (apart : (payouts round market).Apart session writer)
    (written : Writes round market books writer after) : PayKnows market after session := by
  obtain ⟨winning, recorded, kept, gate⟩ := writer_holds writerKnows written
  unfold PayKnows at knows ⊢
  cases task : session.task with
  | settle own now =>
      simp only [task] at knows ⊢
      by_cases pooled : session.Reached .pool
      · -- Past the pool query a settlement holds whatever the writer's gate is.
        obtain ⟨_, mine⟩ := knows.markets (reached_mono pooled (by decide))
        cases mine.symm.trans recorded
        rcases gate with ⟨pool, isPool, locked⟩ | ⟨_, locked⟩
        · refine absurd locked (apart _ (holds_pool pooled ?_))
          rw [PaySession.pool, PaySession.winning, task, knows.pools pooled]
          exact isPool
        · exact absurd locked (apart _ (holds_market task (reached_mono pooled (by decide))))
      · refine ⟨fun reached => ?_, ?_, ?_, ?_, ?_, ?_⟩
        · obtain ⟨sameMarkets, mine⟩ := knows.markets reached
          have unlocked := apart _ (holds_market task reached)
          rw [markets_of_written written unlocked, kept, ← recorded]
          exact ⟨sameMarkets, mine⟩
        all_goals exact fun reached => absurd (reached_mono reached (by decide)) pooled
  | claim user now =>
      simp only [task] at knows ⊢
      refine ⟨fun reached => ?_, ?_⟩
      · obtain ⟨read, viewed, current⟩ := knows.markets reached
        exact ⟨read, viewed, kept.trans (recorded.symm.trans current)⟩
      rcases knows.reads with unpooled | reads
      · exact .inl unpooled
      by_cases pooled : session.Reached .pool
      · obtain ⟨read, viewed, current⟩ := knows.markets (reached_mono pooled (by decide))
        cases current.symm.trans recorded
        have mine : session.pool market = settlementPool books.db.pools market winning := by
          rw [PaySession.pool, PaySession.winning, task, ← reads.pools pooled]
          simp only [viewed, Option.bind_some]
        rcases gate with ⟨pool, isPool, locked⟩ | ⟨none_, _⟩
        · exact absurd locked (apart _ (holds_pool pooled (mine.trans isPool)))
        · exact .inl ⟨pooled, mine.trans none_⟩
      · refine .inr ⟨?_, ?_, ?_⟩
        all_goals exact fun reached => absurd (reached_mono reached (by decide)) pooled

theorem seen_eq_of_knows {books : Books} {now : Timestamp}
    (task : session.task = .settle winning now)
    (knows : SettleKnows market winning books.db session) (stage : session.stage = .providers) :
    session.seen books.db = books.db := by
  have reached : ∀ {other : Stage}, other.rank ≤ Stage.providers.rank →
      session.Reached other := (reached_iff stage).mpr
  rw [PaySession.seen, task]
  simp only [(knows.markets (reached (by decide))).1, knows.pools (reached (by decide)),
    knows.treasury (reached (by decide)), (knows.positions (reached (by decide))).1,
    knows.wallets (reached (by decide)), (knows.providers (reached (by decide))).1]

end Knowledge

/-- The locks of settlements and claims keep what they have read current. -/
def serialPayouts (round : ℚ → ℚ) (market : MarketId) : (payouts round market).Serial where
  Knows := PayKnows market
  fresh := payKnows_fresh
  query := payKnows_query
  stable := payKnows_stable

/-! # What one commit pays -/

/-- The payees whose payouts reached a wallet. -/
def paidFor (payouts : List Payout) : List Payee :=
  (payouts.filter fun payout => 0 < payout.credited).map Payout.payee

/-- A wallet's balance after the payouts to its user. -/
def received (round : ℚ → ℚ) (user : UserId) (payouts : List Payout) (balance : ℚ) : ℚ :=
  (payouts.filter fun payout => payout.user = user ∧ 0 < payout.credited).foldl
    (fun balance payout => round (balance + payout.credited)) balance

/-- Whom a settlement or a claim of the market could still pay. -/
def Payable (db : Database) (market : MarketId) (winning : OutcomeId) : Payee → Prop
  | .position key => ∃ row, db.positions.find? key = some row ∧ row.settledAt = none
  | .treasury =>
      ∃ pool, settlementPool db.pools market winning = some pool ∧ 0 < pool.protocolFees
  | .provider key => ∃ share, db.lpShares.find? key = some share ∧ 0 < share.lpTokens

/-- A payout is what its payee is owed: a dollar for each share of a winning position. -/
def OwedTo (db : Database) (market : MarketId) (winning : OutcomeId) (payout : Payout) : Prop :=
  match payout.payee with
  | .position key => ∃ row, db.positions.find? key = some row ∧ row.settledAt = none ∧
      row.marketId = market ∧ row.outcomeId = winning ∧ payout.user = row.userId ∧
      payout.credited = row.sharesHeld
  | .treasury => ∃ pool, settlementPool db.pools market winning = some pool ∧
      0 < pool.protocolFees ∧ payout.credited = pool.protocolFees
  | .provider key => ∃ share, db.lpShares.find? key = some share ∧ 0 < share.lpTokens ∧
      payout.user = share.userId

/-- What a commit that made the payouts `made` has done. -/
structure Pays (round : ℚ → ℚ) (market : MarketId) (winning : OutcomeId)
    (before after : Database) (made : List Payout) : Prop where
  decided : winner after market = some winning
  owed : ∀ payout ∈ made, 0 < payout.credited → OwedTo before market winning payout
  spent : ∀ payout ∈ made, 0 < payout.credited → ¬ Payable after market winning payout.payee
  once : (paidFor made).Nodup
  matched : ∀ payout ∈ made, 0 < payout.credited → payout.debited = payout.credited
  positions : ∀ key row, after.positions.find? key = some row → row.settledAt = none →
    before.positions.find? key = some row
  shares : ∀ key share, after.lpShares.find? key = some share → 0 < share.lpTokens →
    before.lpShares.find? key = some share
  escrow : settlementPool after.pools market winning =
    (settlementPool before.pools market winning).map (withdrawn round made)
  wallets : ∀ user, balanceOf after.wallets user =
    received round user made (balanceOf before.wallets user)

section Payments

variable {round : ℚ → ℚ} {now : Timestamp} {market : MarketId} {winning : OutcomeId}
  {db : Database} {made : List Payout}

theorem paidFor_append (left right : List Payout) :
    paidFor (left ++ right) = paidFor left ++ paidFor right := by
  simp [paidFor]

theorem mem_paidFor {payee : Payee} :
    payee ∈ paidFor made ↔ ∃ payout ∈ made, 0 < payout.credited ∧ payout.payee = payee := by
  simp [paidFor, and_assoc]

theorem received_append (user : UserId) (left right : List Payout) (balance : ℚ) :
    received round user (left ++ right) balance =
      received round user right (received round user left balance) := by
  simp [received]

theorem payable_of_owedTo {payout : Payout} (owed : OwedTo db market winning payout) :
    Payable db market winning payout.payee := by
  unfold OwedTo at owed
  cases payee : payout.payee with
  | position key =>
      rw [payee] at owed
      obtain ⟨row, found, due, _⟩ := owed
      exact ⟨row, found, due⟩
  | treasury =>
      rw [payee] at owed
      obtain ⟨pool, isPool, positive, _⟩ := owed
      exact ⟨pool, isPool, positive⟩
  | provider key =>
      rw [payee] at owed
      obtain ⟨share, found, positive, _⟩ := owed
      exact ⟨share, found, positive⟩

/-- Payouts either reach a wallet or have none to reach. -/
theorem balanceOf_credits_received {wallets : Table Wallet.userId}
    (reaches : ∀ payout ∈ made,
      0 < payout.credited ↔ (wallets.find? payout.user).isSome = true) (user : UserId) :
    balanceOf (credits round made wallets) user =
      received round user made (balanceOf wallets user) := by
  induction made generalizing wallets with
  | nil => rfl
  | cons payout rest ih =>
      rw [List.forall_mem_cons] at reaches
      have later := @ih (wallets.modify payout.user (receive round payout.credited)) (by
        intro other member
        rw [isSome_receive]
        exact reaches.2 other member)
      rw [credits, List.foldl_cons, ← credits, later]
      have split : received round user (payout :: rest) (balanceOf wallets user) =
          received round user rest (received round user [payout] (balanceOf wallets user)) :=
        received_append user [payout] rest _
      rw [split]
      congr 1
      cases found : wallets.find? payout.user with
      | none =>
          have lost : ¬ 0 < payout.credited := by
            rw [reaches.1, found]
            simp
          rw [receive_missing found]
          simp [received, lost]
      | some wallet =>
          have positive : 0 < payout.credited := by
            rw [reaches.1, found]
            rfl
          by_cases same : payout.user = user
          · subst same
            simp [received, positive, balanceOf, Table.find?_modify_self, found, receive]
          · simp [received, same, balanceOf, Table.find?_modify_ne (Ne.symm same)]

/-! # The tables after a settlement -/

/-- A row the loop leaves unsettled is a row it passed over. -/
theorem unsettled_of_settleRows {wallets : Table Wallet.userId} {rows : List Position}
    {positions : Table Position.key} {key : PositionKey} {row : Position}
    (found : (settleRows round now winning wallets rows positions).find? key = some row)
    (due : row.settledAt = none) :
    positions.find? key = some row ∧
      ∀ other ∈ rows, other.settledAt = none → (wallets.find? other.userId).isSome = true →
        other.key ≠ key := by
  induction rows generalizing positions with
  | nil => exact ⟨found, fun _ member => absurd member List.not_mem_nil⟩
  | cons head rest ih =>
      rw [settleRows, List.foldl_cons, ← settleRows] at found
      obtain ⟨earlier, apart⟩ := ih found
      rw [List.forall_mem_cons]
      split at earlier
      · rename_i settles
        by_cases same : head.key = key
        · subst same
          rw [Table.find?_modify_self] at earlier
          obtain ⟨old, _, rfl⟩ := Option.map_eq_some_iff.mp earlier
          exact absurd due (by simp [settleRow])
        · rw [Table.find?_modify_ne (Ne.symm same)] at earlier
          exact ⟨earlier, fun _ _ => same, apart⟩
      · rename_i passes
        exact ⟨earlier, fun unsettled has => absurd ⟨unsettled, has⟩ passes, apart⟩

theorem live_of_burnRows {wallets : Table Wallet.userId} {rate : ℚ} {rows : List LPShare}
    {shares : Table LPShare.key} {key : LPShareKey} {share : LPShare}
    (found : (burnRows round wallets rate rows shares).find? key = some share)
    (live : 0 < share.lpTokens) :
    shares.find? key = some share ∧
      ∀ other ∈ rows, 0 < round (other.lpTokens * rate) →
        (wallets.find? other.userId).isSome = true → other.key ≠ key := by
  induction rows generalizing shares with
  | nil => exact ⟨found, fun _ member => absurd member List.not_mem_nil⟩
  | cons head rest ih =>
      rw [burnRows, List.foldl_cons, ← burnRows] at found
      obtain ⟨earlier, apart⟩ := ih found
      rw [List.forall_mem_cons]
      split at earlier
      · rename_i burns
        by_cases same : head.key = key
        · subst same
          rw [Table.find?_modify_self] at earlier
          obtain ⟨old, _, rfl⟩ := Option.map_eq_some_iff.mp earlier
          exact absurd live (by simp [burn])
        · rw [Table.find?_modify_ne (Ne.symm same)] at earlier
          exact ⟨earlier, fun _ _ => same, apart⟩
      · rename_i passes
        exact ⟨earlier, fun paid has => absurd ⟨paid, has⟩ passes, apart⟩

/-- The pool a settlement or a claim wrote is the one the next lookup finds. -/
theorem settlementPool_withdrawn (pools : Table LiquidityPool.key) :
    settlementPool (writePool pools
        ((settlementPool pools market winning).map (withdrawn round made))) market winning =
      (settlementPool pools market winning).map (withdrawn round made) := by
  cases isPool : settlementPool pools market winning with
  | none => exact isPool
  | some pool =>
      have key : (withdrawn round made pool).key = pool.key := rfl
      unfold settlementPool at isPool
      simp only [Option.map_some, writePool, key]
      unfold settlementPool
      split at isPool
      · rename_i own found
        cases isPool
        rw [Table.key_of_find? found, Table.find?_modify_self, found]
        rfl
      · rename_i missing
        have poolKey := Table.key_of_find? isPool
        have apart : (⟨market, some winning⟩ : PoolKey) ≠ pool.key := by
          rw [poolKey]
          simp
        rw [Table.find?_modify_ne apart, missing, poolKey, Table.find?_modify_self, isPool]
        rfl

/-! # Claims and settlements pay what is owed -/

theorem pays_of_payClaim {user : UserId} {settled : Settled}
    (recorded : winner db market = some winning)
    (ran : payClaim round now user db market winning = .ok settled) :
    Pays round market winning db settled.db settled.payouts := by
  obtain ⟨pool, position, wallet, isPool, found, positive, due, owner, _, rfl⟩ := payClaim_ok ran
  have key := Table.key_of_find? found
  have member : position.key = ⟨user, market, winning⟩ := key
  have paidRow : ∀ row,
      (db.positions.modify position.key (claimRow round now position.sharesHeld)).find?
        position.key = some row → row.settledAt ≠ none := by
    intro row after
    rw [Table.find?_modify_self] at after
    obtain ⟨old, _, rfl⟩ := Option.map_eq_some_iff.mp after
    simp [claimRow]
  refine ⟨recorded, ?_, ?_, ?_, ?_, ?_, fun _ _ same _ => same, ?_, ?_⟩
  · intro payout isPayout _
    cases List.mem_singleton.mp isPayout
    cases member
    exact ⟨position, found, due, rfl, rfl, rfl, rfl⟩
  · intro payout isPayout _
    cases List.mem_singleton.mp isPayout
    rintro ⟨row, after, unsettled⟩
    exact paidRow row after unsettled
  · simp [paidFor, positive]
  · intro payout isPayout _
    cases List.mem_singleton.mp isPayout
    rfl
  · intro other row after unsettled
    by_cases same : other = position.key
    · subst same
      exact absurd unsettled (paidRow row after)
    · rwa [Table.find?_modify_ne same] at after
  · have written : (settlementPool db.pools market winning).map
        (withdrawn round [⟨.position position.key, user, position.sharesHeld,
          position.sharesHeld⟩]) =
        some { pool with collateral := round (pool.collateral - position.sharesHeld) } := by
      simp [isPool, withdrawn, drawn]
    dsimp only
    rw [← written, settlementPool_withdrawn]
  · have owned : (db.wallets.find? user).isSome = true := by rw [owner]; rfl
    have reaches : ∀ payout ∈ [(⟨.position position.key, user, position.sharesHeld,
        position.sharesHeld⟩ : Payout)],
        0 < payout.credited ↔ (db.wallets.find? payout.user).isSome = true := by
      simp [positive, owned]
    exact balanceOf_credits_received reaches

theorem nodup_paidFor {ρ : Type} {rows : List ρ} {pay : ρ → Option Payout} (payee : ρ → Payee)
    (names : ∀ row payout, pay row = some payout → payout.payee = payee row)
    (unique : (rows.map payee).Nodup) : (paidFor (rows.filterMap pay)).Nodup := by
  have sublist : ((rows.filterMap pay).map Payout.payee).Sublist (rows.map payee) := by
    clear unique
    induction rows with
    | nil => exact List.Sublist.refl _
    | cons row rest ih =>
        cases paid : pay row with
        | none =>
            rw [List.filterMap_cons_none paid]
            exact ih.cons _
        | some payout =>
            rw [List.filterMap_cons_some paid, List.map_cons, List.map_cons, names row payout paid]
            exact ih.cons_cons _
  exact unique.sublist ((List.filter_sublist.map Payout.payee).trans sublist)

section Settled

variable {scan : Scan} {settled : Settled} {paid swept final : Ledger}

theorem mem_wins {wallets : Table Wallet.userId} {rows : List Position} {payout : Payout} :
    payout ∈ wins wallets winning rows ↔ ∃ row ∈ rows, row.settledAt = none ∧
      (wallets.find? row.userId).isSome = true ∧ 0 < payoutOf winning row ∧
      payout = ⟨.position row.key, row.userId, payoutOf winning row, payoutOf winning row⟩ := by
  simp only [wins, List.mem_filterMap, win_eq_some]

theorem mem_feePayout {treasury : UserId} {pool : Option LiquidityPool} {payout : Payout} :
    payout ∈ feePayout treasury pool ↔ ∃ row, pool = some row ∧ 0 < row.protocolFees ∧
      payout = ⟨.treasury, treasury, row.protocolFees, row.protocolFees⟩ := by
  unfold feePayout
  cases pool with
  | none => simp
  | some row =>
      by_cases owed : 0 < row.protocolFees
      · simp [owed]
      · simp [owed]

theorem mem_redemptions {wallets : Table Wallet.userId} {pool : Option LiquidityPool}
    {shares : List LPShare} {payout : Payout} :
    payout ∈ redemptions round wallets pool shares ↔ ∃ row, pool = some row ∧
      ∃ share ∈ shares, 0 < round (share.lpTokens * perToken round row) ∧
        payout = ⟨.provider share.key, share.userId, round (share.lpTokens * perToken round row),
          if (wallets.find? share.userId).isSome then round (share.lpTokens * perToken round row)
          else 0⟩ := by
  unfold redemptions
  cases pool with
  | none => simp
  | some row =>
      have given : ∀ share, redemption round wallets (perToken round row) share = some payout ↔
          0 < round (share.lpTokens * perToken round row) ∧
            payout = ⟨.provider share.key, share.userId,
              round (share.lpTokens * perToken round row),
              if (wallets.find? share.userId).isSome then
                round (share.lpTokens * perToken round row) else 0⟩ := by
        intro share
        unfold redemption
        split
        · rename_i positive
          simp only [Option.some.injEq, positive, true_and, eq_comm]
        · rename_i nothing
          simp [nothing]
      simp only [List.mem_filterMap, given, Option.some.injEq, exists_eq_left']

/-- What the settlement pays the positions, the treasury and the providers. -/
def payoutsOf (round : ℚ → ℚ) (winning : OutcomeId) (db : Database) (scan : Scan)
    (paid swept : Ledger) : List Payout :=
  wins (openTreasury db).2.wallets winning scan.positions ++
    (feePayout (openTreasury db).1 paid.pool ++
      redemptions round (openTreasury db).2.wallets swept.pool scan.lpShares)

theorem mem_payoutsOf {payout : Payout}
    (member : payout ∈ payoutsOf round winning db scan paid swept) :
    payout ∈ wins (openTreasury db).2.wallets winning scan.positions ∨
      payout ∈ feePayout (openTreasury db).1 paid.pool ∨
      payout ∈ redemptions round (openTreasury db).2.wallets swept.pool scan.lpShares := by
  simpa only [payoutsOf, List.mem_append] using member

/-- Everyone with a wallet is credited, and nobody else. -/
theorem reaches_payoutsOf {payout : Payout}
    (member : payout ∈ payoutsOf round winning db scan paid swept) :
    0 < payout.credited ↔ ((openTreasury db).2.wallets.find? payout.user).isSome = true := by
  rcases mem_payoutsOf member with won | fee | redeemed
  · obtain ⟨row, _, _, has, positive, rfl⟩ := mem_wins.mp won
    simp only [positive, has]
  · obtain ⟨pool, _, positive, rfl⟩ := mem_feePayout.mp fee
    simp only [positive, openTreasury_wallets, isSome_openWallet_self]
  · obtain ⟨pool, _, share, _, positive, rfl⟩ := mem_redemptions.mp redeemed
    dsimp only
    split
    · rename_i has
      simp only [positive, has]
    · rename_i missing
      simp only [lt_irrefl, missing, Bool.false_eq_true]

theorem matched_payoutsOf {payout : Payout}
    (member : payout ∈ payoutsOf round winning db scan paid swept)
    (credited : 0 < payout.credited) : payout.debited = payout.credited := by
  have has := (reaches_payoutsOf member).mp credited
  rcases mem_payoutsOf member with won | fee | redeemed
  · obtain ⟨row, _, _, _, _, rfl⟩ := mem_wins.mp won
    rfl
  · obtain ⟨pool, _, _, rfl⟩ := mem_feePayout.mp fee
    rfl
  · obtain ⟨pool, _, share, _, _, rfl⟩ := mem_redemptions.mp redeemed
    exact (if_pos has).symm

/-- The first loop leaves the fees. -/
theorem Stages.fees_kept (stages : Stages round now scan db market winning paid swept final)
    {pool : LiquidityPool} (isPool : paid.pool = some pool) :
    ∃ before, settlementPool db.pools market winning = some before ∧ pool.key = before.key ∧
      pool.protocolFees = before.protocolFees := by
  obtain ⟨first, _⟩ := settlePositions_paid stages.positions
  have escrow := first.escrow
  rw [isPool] at escrow
  obtain ⟨before, found, rfl⟩ := Option.map_eq_some_iff.mp escrow.symm
  refine ⟨before, found, rfl, if_neg ?_⟩
  rw [List.any_eq_true]
  rintro ⟨payout, member, isTreasury⟩
  obtain ⟨row, _, _, _, _, rfl⟩ := mem_wins.mp member
  simp at isTreasury

theorem Stages.pool_kept (stages : Stages round now scan db market winning paid swept final)
    {pool : LiquidityPool} (isPool : swept.pool = some pool) :
    ∃ before, settlementPool db.pools market winning = some before ∧ pool.key = before.key := by
  obtain ⟨second, _⟩ := sweepFees_paid stages.fees
  have escrow := second.escrow
  rw [isPool] at escrow
  obtain ⟨middle, isMiddle, rfl⟩ := Option.map_eq_some_iff.mp escrow.symm
  obtain ⟨before, found, sameKey, _⟩ := stages.fees_kept isMiddle
  exact ⟨before, found, sameKey⟩

theorem Stages.owed (stages : Stages round now scan db market winning paid swept final)
    (reads : scan.Reads db market winning) {payout : Payout}
    (member : payout ∈ payoutsOf round winning db scan paid swept) :
    OwedTo db market winning payout := by
  rcases mem_payoutsOf member with won | fee | redeemed
  · obtain ⟨row, rowMember, due, _, positive, rfl⟩ := mem_wins.mp won
    have row_ := List.mem_filter.mp (reads.positions.mem_iff.mp rowMember)
    have ofMarket : row.marketId = market := by
      have both := row_.2
      simp only [Bool.and_eq_true, decide_eq_true_eq] at both
      exact both.1
    have ofWinner : row.outcomeId = winning := by
      by_contra lost
      have nothing : payoutOf winning row = 0 := if_neg lost
      exact absurd positive (by rw [nothing]; exact lt_irrefl 0)
    exact ⟨row, Table.find?_key_of_mem row_.1, due, ofMarket, ofWinner, rfl, if_pos ofWinner⟩
  · obtain ⟨pool, isPool, positive, rfl⟩ := mem_feePayout.mp fee
    obtain ⟨before, found, _, same⟩ := stages.fees_kept isPool
    exact ⟨before, found, same ▸ positive, same⟩
  · obtain ⟨pool, isPool, share, shareMember, _, rfl⟩ := mem_redemptions.mp redeemed
    obtain ⟨before, found, _⟩ := stages.pool_kept isPool
    have share_ := (reads.lpShares before found).mem_iff.mp shareMember
    exact ⟨share, Table.find?_key_of_mem (List.mem_filter.mp share_).1,
      liveShares_positive share_, rfl⟩

theorem Stages.once (stages : Stages round now scan db market winning paid swept final)
    (reads : scan.Reads db market winning) :
    (paidFor (payoutsOf round winning db scan paid swept)).Nodup := by
  have ofPositions : (paidFor (wins (openTreasury db).2.wallets winning scan.positions)).Nodup := by
    refine nodup_paidFor (fun row : Position => .position row.key) ?_ ?_
    · intro row payout won
      obtain ⟨_, _, _, rfl⟩ := win_eq_some.mp won
      rfl
    · have keys : ((unsettled db market).map Position.key).Nodup :=
        db.positions.unique.sublist (List.filter_sublist.map _)
      have scanned := (reads.positions.map Position.key).nodup_iff.mpr keys
      have named := scanned.map (f := Payee.position) fun _ _ same => Payee.position.inj same
      rwa [List.map_map] at named
  have ofProviders : (paidFor (redemptions round (openTreasury db).2.wallets swept.pool
      scan.lpShares)).Nodup := by
    cases isPool : swept.pool with
    | none => exact List.nodup_nil
    | some pool =>
        refine nodup_paidFor (fun share : LPShare => .provider share.key) ?_ ?_
        · intro share payout redeemed
          unfold redemption at redeemed
          split at redeemed
          · rw [← Option.some.inj redeemed]
          · contradiction
        · obtain ⟨before, found, _⟩ := stages.pool_kept isPool
          have keys : ((liveShares db before.key).map LPShare.key).Nodup :=
            db.lpShares.unique.sublist (List.filter_sublist.map _)
          have scanned := ((reads.lpShares before found).map LPShare.key).nodup_iff.mpr keys
          have named := scanned.map (f := Payee.provider) fun _ _ same => Payee.provider.inj same
          rwa [List.map_map] at named
  have ofTreasury : (paidFor (feePayout (openTreasury db).1 paid.pool)).Nodup := by
    unfold feePayout
    split
    · exact List.nodup_nil
    split
    · rename_i positive
      simp [paidFor, positive]
    · exact List.nodup_nil
  rw [payoutsOf, paidFor_append, paidFor_append]
  refine ofPositions.append (ofTreasury.append ofProviders ?_) ?_
  · intro payee treasury provider
    obtain ⟨payout, member, _, rfl⟩ := mem_paidFor.mp treasury
    obtain ⟨other, otherMember, _, same⟩ := mem_paidFor.mp provider
    obtain ⟨_, _, _, rfl⟩ := mem_feePayout.mp member
    obtain ⟨_, _, _, _, _, rfl⟩ := mem_redemptions.mp otherMember
    cases same
  · intro payee position rest
    obtain ⟨payout, member, _, rfl⟩ := mem_paidFor.mp position
    obtain ⟨row, _, _, _, _, rfl⟩ := mem_wins.mp member
    rcases List.mem_append.mp rest with treasury | provider
    · obtain ⟨other, otherMember, _, same⟩ := mem_paidFor.mp treasury
      obtain ⟨_, _, _, rfl⟩ := mem_feePayout.mp otherMember
      cases same
    · obtain ⟨other, otherMember, _, same⟩ := mem_paidFor.mp provider
      obtain ⟨_, _, _, _, _, rfl⟩ := mem_redemptions.mp otherMember
      cases same

theorem Stages.isSome_swept (stages : Stages round now scan db market winning paid swept final)
    (user : UserId) :
    (swept.wallets.find? user).isSome = ((openTreasury db).2.wallets.find? user).isSome := by
  obtain ⟨first, _⟩ := settlePositions_paid stages.positions
  obtain ⟨second, _⟩ := sweepFees_paid stages.fees
  exact (second.isSome_wallet user).trans (first.isSome_wallet user)

theorem Stages.positions_eq (stages : Stages round now scan db market winning paid swept final) :
    final.positions = settleRows round now winning (openTreasury db).2.wallets scan.positions
      db.positions := by
  obtain ⟨_, _, first⟩ := settlePositions_paid stages.positions
  obtain ⟨_, _, second⟩ := sweepFees_paid stages.fees
  obtain ⟨_, third, _⟩ := redeemShares_paid stages.shares
  rw [third, second, first]
  rfl

theorem Stages.shares_eq (stages : Stages round now scan db market winning paid swept final) :
    final.lpShares = match swept.pool with
      | none => db.lpShares
      | some pool =>
          burnRows round swept.wallets (perToken round pool) scan.lpShares db.lpShares := by
  obtain ⟨_, first, _⟩ := settlePositions_paid stages.positions
  obtain ⟨_, second, _⟩ := sweepFees_paid stages.fees
  obtain ⟨_, _, third⟩ := redeemShares_paid stages.shares
  rw [third, second, first]
  rfl

theorem Stages.live_shares (stages : Stages round now scan db market winning paid swept final)
    {key : LPShareKey} {share : LPShare} (found : final.lpShares.find? key = some share)
    (live : 0 < share.lpTokens) :
    db.lpShares.find? key = some share ∧
      ∀ payout ∈ redemptions round (openTreasury db).2.wallets swept.pool scan.lpShares,
        0 < payout.credited → payout.payee ≠ .provider key := by
  rw [stages.shares_eq] at found
  cases isPool : swept.pool with
  | none =>
      rw [isPool] at found
      exact ⟨found, fun _ member => absurd member List.not_mem_nil⟩
  | some pool =>
      rw [isPool] at found
      obtain ⟨before, apart⟩ := live_of_burnRows found live
      refine ⟨before, ?_⟩
      intro payout member credited
      obtain ⟨row, isRow, other, otherMember, positive, rfl⟩ := mem_redemptions.mp member
      cases isRow
      have has : ((openTreasury db).2.wallets.find? other.userId).isSome = true := by
        by_contra missing
        exact absurd credited (by simp [missing])
      have different := apart other otherMember positive ((stages.isSome_swept _).trans has)
      simpa using different

theorem Stages.escrow (stages : Stages round now scan db market winning paid swept final) :
    settlementPool (commitLedger now market (openTreasury db).2 final).pools market winning =
      (settlementPool db.pools market winning).map
        (withdrawn round (payoutsOf round winning db scan paid swept)) := by
  have left : final.pool = (settlementPool db.pools market winning).map
      (withdrawn round (payoutsOf round winning db scan paid swept)) := stages.paid.escrow
  have pools : (commitLedger now market (openTreasury db).2 final).pools =
      writePool db.pools final.pool := rfl
  rw [pools, left, settlementPool_withdrawn]

/-- Whoever has been credited cannot be paid again. -/
theorem Stages.spent (stages : Stages round now scan db market winning paid swept final)
    {payout : Payout} (member : payout ∈ payoutsOf round winning db scan paid swept)
    (credited : 0 < payout.credited) :
    ¬ Payable (commitLedger now market (openTreasury db).2 final) market winning
      payout.payee := by
  rcases mem_payoutsOf member with won | fee | redeemed
  · obtain ⟨row, rowMember, due, has, _, rfl⟩ := mem_wins.mp won
    rintro ⟨after, found, unsettled⟩
    have found : final.positions.find? row.key = some after := found
    rw [stages.positions_eq] at found
    exact (unsettled_of_settleRows found unsettled).2 row rowMember due has rfl
  · obtain ⟨pool, isPool, _, rfl⟩ := mem_feePayout.mp fee
    rintro ⟨after, found, positive⟩
    rw [stages.escrow] at found
    obtain ⟨before, _, rfl⟩ := Option.map_eq_some_iff.mp found
    have swept_ : (payoutsOf round winning db scan paid swept).any
        (fun payout => payout.payee = .treasury) = true :=
      List.any_eq_true.mpr ⟨_, member, by simp⟩
    simp only [withdrawn, swept_, if_true, lt_irrefl] at positive
  · obtain ⟨pool, _, share, _, _, isPayout⟩ := mem_redemptions.mp redeemed
    have payee : payout.payee = .provider share.key := by rw [isPayout]
    rw [payee]
    rintro ⟨after, found, live⟩
    exact (stages.live_shares found live).2 payout redeemed credited payee

theorem pays_of_settleMarket {done : Bool} (reads : scan.Reads db market winning)
    (ran : settleMarket round now done scan db market winning = .ok (some settled)) :
    Pays round market winning db settled.db settled.payouts := by
  obtain ⟨_, decided, _⟩ := settleMarket_winner ran
  obtain ⟨row, paid, swept, final, _, _, _, _, stages, rfl⟩ := settleMarket_ok ran
  have log : final.payouts = payoutsOf round winning db scan paid swept := stages.paid.log
  have wallets : final.wallets = credits round (payoutsOf round winning db scan paid swept)
      (openTreasury db).2.wallets := stages.paid.wallets
  dsimp only
  rw [log]
  refine ⟨decided, fun payout member _ => stages.owed reads member,
    fun payout member credited => stages.spent member credited, stages.once reads,
    fun payout member credited => matched_payoutsOf member credited, ?_,
    fun key share found live => (stages.live_shares found live).1, stages.escrow, ?_⟩
  · intro key row found unsettled
    have found : final.positions.find? key = some row := found
    rw [stages.positions_eq] at found
    exact (unsettled_of_settleRows found unsettled).1
  · intro user
    have held : (commitLedger now market (openTreasury db).2 final).wallets =
        credits round (payoutsOf round winning db scan paid swept)
          (openTreasury db).2.wallets := wallets
    rw [held, balanceOf_credits_received (fun _ => reaches_payoutsOf) user, openTreasury_wallets,
      balanceOf_openWallet]

end Settled

end Payments

/-! # Whole interleavings -/

section Once

variable {round : ℚ → ℚ} {market : MarketId} {winning : OutcomeId} {start before after : Database}
  {made : List Payout} {books : Books} {session : PaySession}

/-- The market's payouts so far, seen from the database the first of them was made in. -/
structure PaidOnce (round : ℚ → ℚ) (market : MarketId) (winning : OutcomeId) (start : Database)
    (books : Books) : Prop where
  owed : ∀ payout ∈ books.payouts, 0 < payout.credited → OwedTo start market winning payout
  once : (paidFor books.payouts).Nodup
  matched : ∀ payout ∈ books.payouts, 0 < payout.credited → payout.debited = payout.credited
  escrow : settlementPool books.db.pools market winning =
    (settlementPool start.pools market winning).map (withdrawn round books.payouts)
  wallets : ∀ user, balanceOf books.db.wallets user =
    received round user books.payouts (balanceOf start.wallets user)

/-- What the next commit needs of the ones before it: together they are one commit. -/
theorem Pays.trans {next : Database} {later : List Payout}
    (first : Pays round market winning before after made)
    (second : Pays round market winning after next later) :
    Pays round market winning before next (made ++ later) := by
  have kept : ∀ payee, Payable next market winning payee → Payable after market winning payee := by
    intro payee payable
    cases payee with
    | position key =>
        obtain ⟨row, found, unsettled⟩ := payable
        exact ⟨row, second.positions key row found unsettled, unsettled⟩
    | treasury =>
        obtain ⟨pool, found, positive⟩ := payable
        rw [second.escrow] at found
        obtain ⟨earlier, isEarlier, rfl⟩ := Option.map_eq_some_iff.mp found
        refine ⟨earlier, isEarlier, ?_⟩
        unfold withdrawn at positive
        dsimp only at positive
        split at positive
        · exact absurd positive (lt_irrefl 0)
        · exact positive
    | provider key =>
        obtain ⟨share, found, live⟩ := payable
        exact ⟨share, second.shares key share found live, live⟩
  have traced : ∀ payout, OwedTo after market winning payout →
      OwedTo before market winning payout := by
    intro payout owed
    unfold OwedTo at owed ⊢
    cases payee : payout.payee with
    | position key =>
        rw [payee] at owed
        obtain ⟨row, found, unsettled, rest⟩ := owed
        exact ⟨row, first.positions key row found unsettled, unsettled, rest⟩
    | treasury =>
        rw [payee] at owed
        obtain ⟨pool, found, positive, credited⟩ := owed
        rw [first.escrow] at found
        obtain ⟨earlier, isEarlier, rfl⟩ := Option.map_eq_some_iff.mp found
        refine ⟨earlier, isEarlier, ?_⟩
        unfold withdrawn at positive credited
        dsimp only at positive credited
        split at positive
        · exact absurd positive (lt_irrefl 0)
        · rename_i unswept
          rw [if_neg unswept] at credited
          exact ⟨positive, credited⟩
    | provider key =>
        rw [payee] at owed
        obtain ⟨share, found, live, rest⟩ := owed
        exact ⟨share, first.shares key share found live, live, rest⟩
  refine ⟨second.decided, ?_, ?_, ?_, ?_, ?_, ?_, ?_, ?_⟩
  · intro payout member credited
    rcases List.mem_append.mp member with early | late
    · exact first.owed payout early credited
    · exact traced payout (second.owed payout late credited)
  · intro payout member credited
    rcases List.mem_append.mp member with early | late
    · exact fun payable => first.spent payout early credited (kept _ payable)
    · exact second.spent payout late credited
  · rw [paidFor_append]
    refine first.once.append second.once ?_
    intro payee early late
    obtain ⟨payout, member, credited, rfl⟩ := mem_paidFor.mp early
    obtain ⟨again, againMember, againCredited, same⟩ := mem_paidFor.mp late
    refine first.spent payout member credited ?_
    rw [← same]
    exact payable_of_owedTo (second.owed again againMember againCredited)
  · intro payout member credited
    rcases List.mem_append.mp member with early | late
    · exact first.matched payout early credited
    · exact second.matched payout late credited
  · intro key row found unsettled
    exact first.positions key row (second.positions key row found unsettled) unsettled
  · intro key share found live
    exact first.shares key share (second.shares key share found live) live
  · rw [second.escrow, first.escrow, Option.map_map]
    congr 1
    funext pool
    exact (withdrawn_append made later pool).symm
  · intro user
    rw [second.wallets, first.wallets, received_append]

theorem Pays.idle (decided : winner start market = some winning) :
    Pays round market winning start start [] :=
  ⟨decided, fun _ member => absurd member List.not_mem_nil,
    fun _ member => absurd member List.not_mem_nil, List.nodup_nil,
    fun _ member => absurd member List.not_mem_nil, fun _ _ found _ => found,
    fun _ _ found _ => found, Option.map_id'.symm, fun _ => rfl⟩

/-- An informed commit is one of the atomic payments. -/
theorem pays_of_written {after : Books} (knows : PayKnows market books session)
    (decided : winner books.db market = some winning)
    (written : Writes round market books session after) :
    ∃ made, after.payouts = books.payouts ++ made ∧
      Pays round market winning books.db after.db made := by
  unfold PayKnows at knows
  cases written with
  | @settle own now settled task stage ran =>
      simp only [task] at knows
      have reached : ∀ {other : Stage}, other.rank ≤ Stage.providers.rank →
          session.Reached other := (reached_iff stage).mpr
      obtain ⟨_, recorded⟩ := knows.markets (reached (by decide))
      cases recorded.symm.trans decided
      rw [seen_eq_of_knows task knows stage] at ran
      have reads : session.scan.Reads books.db market winning :=
        ⟨(knows.positions (reached (by decide))).2, (knows.providers (reached (by decide))).2⟩
      exact ⟨settled.payouts, rfl, pays_of_settleMarket reads ran⟩
  | @claim user own now settled task stage viewed ran =>
      simp only [task] at knows
      have reached : ∀ {other : Stage}, other.rank ≤ Stage.wallets.rank →
          session.Reached other := (reached_iff stage).mpr
      obtain ⟨read, seen, current⟩ := knows.markets (reached (by decide))
      cases seen.symm.trans viewed
      cases current.symm.trans decided
      rcases knows.reads with ⟨_, unpooled⟩ | reads
      · obtain ⟨pool, _, _, isPool, _⟩ := payClaim_ok ran
        rw [PaySession.pool, PaySession.winning, task] at unpooled
        simp only [viewed, Option.bind_some] at unpooled
        rw [PaySession.seen, task] at isPool
        exact absurd (unpooled.symm.trans isPool) (by simp)
      · have same : session.seen books.db = books.db := by
          rw [PaySession.seen, task]
          simp only [reads.pools (reached (by decide)), reads.positions (reached (by decide)),
            reads.wallets (reached (by decide))]
        rw [same] at ran
        exact ⟨settled.payouts, rfl, pays_of_payClaim decided ran⟩

/-- However settlements and claims of a decided market interleave, nobody is paid twice, every
dollar credited left the escrow, and only the winning positions are paid for their shares. -/
theorem payouts_made_once {moves : List Protocol.Move} {final : (payouts round market).State}
    (decided : winner start market = some winning)
    (run : Run (payouts round market).Interleaves (fun _ _ => True)
      (Protocol.State.idle ⟨start, []⟩) moves final) :
    PaidOnce round market winning start final.shared := by
  have paid := (serialPayouts round market).invariant
    (fun books => Pays round market winning start books.db books.payouts)
    (fun {books session after} knows written earlier => by
      obtain ⟨made, log, pays⟩ := pays_of_written knows earlier.decided written
      rw [log]
      exact earlier.trans pays)
    run (.idle decided)
  exact ⟨paid.owed, paid.once, paid.matched, paid.escrow, paid.wallets⟩

/-- A claim that nobody disturbs is one of the interleavings. -/
theorem claim_runs_alone (books : Books) {row : Market} {user : UserId} {now : Timestamp}
    {settled : Settled} (found : books.db.markets.find? market = some row)
    (claimed : claimable row = .ok winning)
    (ran : payClaim round now user books.db market winning = .ok settled) :
    ∃ moves, Run (payouts round market).Interleaves (fun _ _ => True)
      (Protocol.State.idle books) moves (Protocol.State.idle (books.post settled)) := by
  have recorded : winner books.db market = some winning := by
    rw [winner, found]
    exact (claimable_ok claimed).2
  let session (stage : Stage) (rows : List Position) : PaySession :=
    ⟨.claim user now, stage, books.db, ⟨rows, []⟩⟩
  let rows := claimRows market books.db user winning
  refine Protocol.run_alone (session .begun []) (session .wallets rows) rfl ?_
    (.claim rfl rfl recorded ran)
  refine .head (b := session .market []) (.market rfl ⟨row, winning, found, claimed⟩) ?_
  refine .head (b := session .pool []) (.pool rfl) ?_
  refine .head (b := session .positions rows) (.position rfl rfl recorded) ?_
  exact .single (.wallets rfl)

end Once

/-- User 2 claims ten dollars for ten winning shares, once. -/
theorem claim_paid_once :
    winner (decided twoHolders 100 1 100 oneProvider) 1 = some 1 ∧
      ∃ moves, ∃ final : (payouts id 1).State,
        Run (payouts id 1).Interleaves (fun _ _ => True)
          (Protocol.State.idle ⟨decided twoHolders 100 1 100 oneProvider, []⟩) moves final ∧
        final.shared.payouts = [⟨.position ⟨2, 1, 1⟩, 2, 10, 10⟩] ∧
        PaidOnce id 1 1 (decided twoHolders 100 1 100 oneProvider) final.shared := by
  have paid : (payClaim id 7 2 (decided twoHolders 100 1 100 oneProvider) 1 1).toOption.map
      Settled.payouts = some [⟨.position ⟨2, 1, 1⟩, 2, 10, 10⟩] := by
    decide +kernel
  cases ran : payClaim id 7 2 (decided twoHolders 100 1 100 oneProvider) 1 1 with
  | error reason => simp [ran, Except.toOption] at paid
  | ok settled =>
      rw [ran] at paid
      obtain ⟨moves, run⟩ := claim_runs_alone
        ⟨decided twoHolders 100 1 100 oneProvider, []⟩ rfl rfl ran
      exact ⟨rfl, moves, _, run, Option.some.inj paid, payouts_made_once rfl run⟩

end PredictX.Settlement
