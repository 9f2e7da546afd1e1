import PredictX.Api.PoolSessions
import PredictX.Properties.ShareConservation

namespace PredictX.PoolSessions

open PredictX.Data Protocol PredictX.MarketService PredictX.OrderService
open PredictX.LiquidityService

/-! When the transactions on a pool take effect one after the other.

Whoever holds the lock of the pool computes with the pool that is stored when she commits.
A deposit or a withdrawal computes with the pool it has read, so it has to commit before
anybody else does; and a withdrawal has to commit before the market is settled, because it
has read the status without a lock as well.
-/

/-! # What a transaction leaves of the markets -/

section Status

variable {db after : Database} {market : MarketId}

def SameStatus (old new : Market) : Prop := new.status = old.status

theorem SameStatus.refl (row : Market) : SameStatus row row := rfl

theorem statuses_refl (markets : Table Market.id) : Table.Linked SameStatus markets markets :=
  .refl SameStatus.refl markets

theorem finish_status {env : Env} {user : UserId} {venue : Venue} {data : OrderRequest}
    {fill : Fill} {execution : Execution}
    (finished : finish env db user venue data fill = .ok execution) :
    Table.Linked SameStatus db.markets execution.db.markets := by
  obtain ⟨_, _, _, credited⟩ := creditReferral_frame (saveFill env db user venue data fill
    (db.orders.insert (filledRow env db user venue data fill))) user
  rw [(finish_ok finished).1, credited]
  dsimp only [saveFill]
  exact .modifyAny SameStatus.refl _ fun _ _ => rfl

theorem executeOrder_status {env : Env} {user : UserId} {data : OrderRequest}
    {execution : Execution} (executed : executeOrder env db user data = .ok execution) :
    Table.Linked SameStatus db.markets execution.db.markets := by
  obtain ⟨venue, _, _, _, ⟨_, _, rfl⟩ | ⟨_, _, filled⟩⟩ := executeOrder_ok executed
  · exact statuses_refl _
  obtain ⟨matched, book, trace, ends⟩ := fillOrder_ok filled
  have afterBook : matched.markets = db.markets := trace.sameElsewhere.markets
  rcases ends with ⟨_, _, rested⟩ | ⟨_, _, traded, leg, ran, finished⟩ | ⟨_, finished⟩
  · obtain ⟨_, _, _, _, database, _⟩ := restOrder_ok rested
    rw [database, ← afterBook]
    exact statuses_refl _
  · have legKeeps : traded.markets = db.markets := by
      rw [(runAmmLeg_traded ran).2.2]
      exact afterBook
    exact legKeeps ▸ finish_status finished
  · exact afterBook ▸ finish_status finished

/-- Of the transactions that lock the pool, only a settlement changes a status. -/
theorem perform_status {operation : Operation} (own : OnMarket market operation)
    (locks : LocksPool operation) (open_ : ¬ Settles operation)
    (ran : operation.perform db = .ok after) :
    Table.Linked SameStatus db.markets after.markets := by
  cases operation with
  | order env user data =>
      obtain ⟨execution, executed, rfl⟩ := map_eq_ok.mp ran
      exact executeOrder_status executed
  | split user other amount =>
      obtain ⟨result, split, rfl⟩ := map_eq_ok.mp ran
      obtain ⟨_, _, _, _, _, _, _, rfl⟩ := SplitMerge.split_ok split
      exact statuses_refl _
  | merge user other amount =>
      obtain ⟨result, merged, rfl⟩ := map_eq_ok.mp ran
      obtain ⟨_, _, _, _, _, _, _, _, _, rfl⟩ := SplitMerge.merge_ok merged
      exact statuses_refl _
  | addLiquidity user other amount outcome => exact absurd locks id
  | removeLiquidity user other amount outcome => exact absurd locks id
  | settle now scan other winning => exact absurd trivial open_
  | _ => exact absurd own id

end Status

/-! # What the UPDATEs leave -/

section Store

variable {db after : Database} {market : MarketId} {session : PoolSession}

theorem storeMarkets_status {loaded values : Table Market.id} (stored : Table Market.id)
    (kept : ∀ {row value}, loaded.find? market = some row → values.find? market = some value →
      value.status = row.status) :
    Table.Linked SameStatus stored (storeMarkets market loaded values stored) := by
  unfold storeMarkets
  split
  · rename_i row value found written
    refine .modifyAny SameStatus.refl _ fun _ _ => ?_
    simp [SameStatus, Market.writeBack, kept found written]
  · exact statuses_refl _

theorem storePools_current {key : PoolKey} {pools : Table LiquidityPool.key}
    {row value : LiquidityPool} (found : pools.find? key = some row) :
    storePools key pools (pools.modify key (writeLiquidity value)) pools =
      pools.modify key (writeLiquidity value) := by
  have written : (pools.modify key (writeLiquidity value)).find? key =
      some (writeLiquidity value row) := by
    rw [Table.find?_modify_self, found]
    rfl
  unfold storePools
  rw [found, written]
  exact Table.modify_congr found (LiquidityPool.writeBack_stored rfl)

theorem storeMarkets_current {markets : Table Market.id} {row : Market}
    {update : Market → Market} {keeps : ∀ row, (update row).id = row.id}
    (found : markets.find? market = some row) :
    storeMarkets market markets (markets.modify market update keeps) markets =
      markets.modify market update keeps := by
  have written : (markets.modify market update keeps).find? market = some (update row) := by
    rw [Table.find?_modify_self, found]
    rfl
  unfold storeMarkets
  rw [found, written]
  exact Table.modify_congr found (Market.writeBack_stored (keeps row))

/-- A deposit or a withdrawal from the binary pool of the market. -/
theorem unlocked_ok {operation : Operation} (own : OnMarket market operation)
    (unlocked : ¬ LocksPool operation)
    (binary : isParimutuel (outcomesOf db market) = false)
    (ran : operation.perform db = .ok after) :
    ∃ row pool value, db.markets.find? market = some row ∧
      db.pools.find? ⟨market, none⟩ = some pool ∧
      after.pools = db.pools.modify ⟨market, none⟩ (writeLiquidity value) ∧
      after.outcomes = db.outcomes ∧ after.positions = db.positions ∧
      ((LocksMarket operation ∧ ∃ amount,
          after.markets = db.markets.modify market (addTotalLiquidity amount)) ∨
        ∃ user lpTokens outcome, operation = .removeLiquidity user market lpTokens outcome ∧
          after.markets = db.markets.modify market (dropTotalLiquidity
            (pool.collateral * (lpTokens.value / pool.lpTokenSupply)))) := by
  have resolves : ∀ {outcome pool}, resolveLiquidityPool db market outcome = .ok pool →
      pool.key = ⟨market, none⟩ ∧ db.pools.find? ⟨market, none⟩ = some pool := by
    intro outcome pool resolved
    obtain ⟨found, ofMarket, unnamed⟩ := resolveLiquidityPool_ok resolved
    have key : pool.key = ⟨market, none⟩ := by
      unfold LiquidityPool.key
      rw [ofMarket, unnamed binary]
    exact ⟨key, key ▸ found⟩
  cases operation with
  | addLiquidity user other amount outcome =>
      obtain rfl : other = market := own
      obtain ⟨deposited, added, rfl⟩ := map_eq_ok.mp ran
      obtain ⟨row, pool, wallet, minted, found, -, resolved, -, -, -, -, rfl⟩ :=
        addLiquidity_ok added
      obtain ⟨key, stored⟩ := resolves resolved
      refine ⟨row, pool, depositInto amount.value minted pool, found, stored, ?_, rfl, rfl,
        .inl ⟨trivial, amount.value, rfl⟩⟩
      rw [← key]
  | removeLiquidity user other lpTokens outcome =>
      obtain rfl : other = market := own
      obtain ⟨withdrawn, removed, rfl⟩ := map_eq_ok.mp ran
      obtain ⟨row, pool, wallet, share, value, found, -, resolved, -, -, -, -, -, -, rfl⟩ :=
        removeLiquidity_ok removed
      obtain ⟨key, stored⟩ := resolves resolved
      refine ⟨row, pool, value, found, stored, ?_, rfl, rfl,
        .inr ⟨user, lpTokens, outcome, rfl, rfl⟩⟩
      rw [← key]
  | order env user data => exact absurd trivial unlocked
  | split user other amount => exact absurd trivial unlocked
  | merge user other amount => exact absurd trivial unlocked
  | settle now scan other winning => exact absurd trivial unlocked
  | _ => exact absurd own id

/-- The UPDATEs of what is still stored leave the database the operation computes. -/
theorem store_current (own : OnMarket market session.operation)
    (unlocked : ¬ LocksPool session.operation)
    (binary : isParimutuel (outcomesOf db market) = false)
    (ran : session.operation.perform db = .ok after)
    (markets : session.view.markets = db.markets) (pools : session.view.pools = db.pools) :
    session.store market db after = after := by
  obtain ⟨row, pool, value, found, stored, newPools, sameOutcomes, samePositions, newMarkets⟩ :=
    unlocked_ok own unlocked binary ran
  have writtenPools : storePools ⟨market, none⟩ session.view.pools after.pools db.pools =
      after.pools := by
    rw [pools, newPools]
    exact storePools_current stored
  have writtenMarkets : storeMarkets market session.view.markets after.markets db.markets =
      after.markets := by
    rcases newMarkets with ⟨_, amount, added⟩ | ⟨_, _, _, _, dropped⟩
    · rw [markets, added]
      exact storeMarkets_current found
    · rw [markets, dropped]
      exact storeMarkets_current found
  unfold PoolSession.store
  rw [writtenPools, writtenMarkets, ← sameOutcomes, ← samePositions]

/-- A withdrawal that leaves `total_liquidity` as it is sends no UPDATE of the market. -/
theorem storeMarkets_kept (own : OnMarket market session.operation)
    (unlocked : ¬ LocksPool session.operation) (strange : ¬ LocksMarket session.operation)
    (binary : isParimutuel (outcomesOf (session.seen db) market) = false)
    (kept : ¬ session.RewritesMarket market)
    (ran : session.operation.perform (session.seen db) = .ok after) (stored : Table Market.id) :
    storeMarkets market session.view.markets after.markets stored = stored := by
  obtain ⟨row, pool, value, found, read, -, -, -, newMarkets⟩ :=
    unlocked_ok own unlocked binary ran
  rcases newMarkets with ⟨locks, _⟩ | ⟨user, lpTokens, outcome, isRemoval, dropped⟩
  · exact absurd locks strange
  have same : dropTotalLiquidity (pool.collateral * (lpTokens.value / pool.lpTokenSupply)) row =
      row := by
    by_contra changed
    exact kept ⟨user, lpTokens, outcome, row, pool, isRemoval, found, read, changed⟩
  have written : after.markets.find? market = some row := by
    rw [dropped, Table.find?_modify_self, found]
    exact congrArg some same
  have loaded : session.view.markets.find? market = some row := found
  unfold storeMarkets
  rw [loaded, written]
  exact Table.modify_eq_self fun stored _ => Market.writeBack_loaded row stored

/-- A withdrawal asks the market for its status only. -/
theorem removeLiquidity_markets {markets : Table Market.id} {row stale : Market} {user : UserId}
    {lpTokens tolerance : ℚ} {outcome : Option OutcomeName} {withdrawn : Withdrawn}
    (found : db.markets.find? market = some row) (read : markets.find? market = some stale)
    (status : stale.status = row.status)
    (ran : removeLiquidity { db with markets := markets } user market lpTokens tolerance outcome =
      .ok withdrawn) :
    ∃ serial, removeLiquidity db user market lpTokens tolerance outcome = .ok serial ∧
      serial.db.pools = withdrawn.db.pools := by
  unfold removeLiquidity at ran ⊢
  simp only [found, read, status] at ran ⊢
  split at ran
  · contradiction
  rename_i active
  rw [if_neg active]
  have same : resolveLiquidityPool { db with markets := markets } market outcome =
      resolveLiquidityPool db market outcome := rfl
  rw [same] at ran
  split at ran
  · contradiction
  rename_i pool resolved
  split at ran
  · contradiction
  · contradiction
  split at ran
  · contradiction
  rename_i enough
  rw [if_neg enough]
  split at ran
  · contradiction
  rename_i supplied
  rw [if_neg supplied]
  split at ran
  · contradiction
  rename_i floor
  have above : ¬ withdrawable db market pool <
      pool.collateral * (lpTokens / pool.lpTokenSupply) := floor
  rw [if_neg above]
  split at ran
  · contradiction
  split at ran
  · contradiction
  rename_i slips
  rw [if_neg slips]
  cases ran
  exact ⟨_, rfl, rfl⟩

end Store

/-! # What a session knows -/

variable {market : MarketId} {vault : Vault} {session : PoolSession}

/-- What the session has read and when it is what is stored: as long as it holds the row, or
nobody has committed since. -/
structure Informed (market : MarketId) (vault : Vault) (session : PoolSession) : Prop where
  own : OnMarket market session.operation
  flushed : session.stage = .flushed → ¬ LocksPool session.operation
  marketMark : session.Reached .market → session.marketMark ≤ vault.log.length
  poolMark : session.Reached .pool → session.poolMark ≤ vault.log.length
  markets : session.Reached .market →
    LocksMarket session.operation ∨ vault.log.drop session.marketMark = [] →
      session.view.markets = vault.db.markets
  status : session.Reached .market → Table.Linked SameStatus session.view.markets vault.db.markets ∨
    ∃ entry ∈ vault.log.drop session.marketMark, Settles entry.operation
  pools : session.Reached .pool →
    LocksPool session.operation ∨ vault.log.drop session.poolMark = [] →
      session.view.pools = vault.db.pools ∧ session.view.outcomes = vault.db.outcomes
  binary : session.Reached .pool → isParimutuel (outcomesOf session.view market) = false
  positions : session.Reached .positions →
    LocksPool session.operation ∨ vault.log.drop session.poolMark = [] →
      session.view.positions = vault.db.positions

theorem Informed.of_fresh (fresh : session.stage = .begun ∧ OnMarket market session.operation) :
    Informed market vault session := by
  have early : ∀ stage, stage ≠ .begun → ¬ session.Reached stage := by
    intro stage later
    unfold PoolSession.Reached
    rw [fresh.1]
    cases stage <;> simp_all [PoolStage.rank]
  constructor
  · exact fresh.2
  · simp [fresh.1]
  all_goals exact fun reached => absurd reached (early _ (by decide))

theorem Informed.read {next : PoolSession} (informed : Informed market vault session)
    (asked : Reads market vault session next) : Informed market vault next := by
  cases asked with
  | market stage =>
      have notYet : ∀ {later : PoolStage} {property : Prop}, 1 < later.rank →
          PoolSession.Reached { session with
            stage := .market
            view := { session.view with markets := vault.db.markets }
            marketMark := vault.log.length } later → property :=
        fun beyond reached => absurd reached (not_le.mpr beyond)
      exact {
        own := informed.own
        flushed := fun isFlushed => by contradiction
        marketMark := fun _ => le_rfl
        poolMark := notYet (by decide)
        markets := fun _ _ => rfl
        status := fun _ => .inl (statuses_refl _)
        pools := notYet (by decide)
        binary := notYet (by decide)
        positions := notYet (by decide) }
  | pool stage binary =>
      have before : session.Reached .market := by simp [PoolSession.Reached, stage, PoolStage.rank]
      have notYet : ∀ {later : PoolStage} {property : Prop}, 2 < later.rank →
          PoolSession.Reached { session with
            stage := .pool
            view := { session.view with outcomes := vault.db.outcomes, pools := vault.db.pools }
            poolMark := vault.log.length } later → property :=
        fun beyond reached => absurd reached (not_le.mpr beyond)
      exact {
        own := informed.own
        flushed := fun isFlushed => by contradiction
        marketMark := fun _ => informed.marketMark before
        poolMark := fun _ => le_rfl
        markets := fun _ => informed.markets before
        status := fun _ => informed.status before
        pools := fun _ _ => ⟨rfl, rfl⟩
        binary := fun _ => binary
        positions := notYet (by decide) }
  | positions stage =>
      have before : session.Reached .market := by simp [PoolSession.Reached, stage, PoolStage.rank]
      have pooled : session.Reached .pool := by simp [PoolSession.Reached, stage, PoolStage.rank]
      exact {
        own := informed.own
        flushed := fun isFlushed => by contradiction
        marketMark := fun _ => informed.marketMark before
        poolMark := fun _ => informed.poolMark pooled
        markets := fun _ => informed.markets before
        status := fun _ => informed.status before
        pools := fun _ => informed.pools pooled
        binary := fun _ => informed.binary pooled
        positions := fun _ _ => rfl }
  | flush stage unlocked =>
      have reached : ∀ {earlier : PoolStage}, earlier.rank ≤ 3 → session.Reached earlier := by
        intro earlier within
        unfold PoolSession.Reached
        rw [stage]
        exact within
      exact {
        own := informed.own
        flushed := fun _ => unlocked
        marketMark := fun _ => informed.marketMark (reached (by decide))
        poolMark := fun _ => informed.poolMark (reached (by decide))
        markets := fun _ => informed.markets (reached (by decide))
        status := fun _ => informed.status (reached (by decide))
        pools := fun _ => informed.pools (reached (by decide))
        binary := fun _ => informed.binary (reached (by decide))
        positions := fun _ => informed.positions (reached (by decide)) }

/-! # What a commit does -/

section Commit

variable {after : Vault}

theorem locksMarket_of_locksPool {operation : Operation} (locks : LocksPool operation) :
    LocksMarket operation := by
  cases operation <;> first | exact locks | trivial

theorem seen_current (markets : session.view.markets = vault.db.markets)
    (pools : session.view.pools = vault.db.pools)
    (outcomes : session.view.outcomes = vault.db.outcomes)
    (positions : session.view.positions = vault.db.positions) :
    session.seen vault.db = vault.db := by
  unfold PoolSession.seen
  rw [markets, pools, outcomes, positions]

/-- The pool is the one the session has read. -/
def PoolSession.PoolKept (vault : Vault) (session : PoolSession) : Prop :=
  LocksPool session.operation ∨ vault.log.drop session.poolMark = []

def PoolSession.MarketKept (vault : Vault) (session : PoolSession) : Prop :=
  LocksMarket session.operation ∨ vault.log.drop session.marketMark = []

theorem Stores.reached (stored : Stores market vault session after) {stage : PoolStage}
    (within : stage.rank ≤ 3) : session.Reached stage := by
  unfold PoolSession.Reached
  cases stored with
  | locked isStage => rw [isStage]; exact within
  | unlocked isStage => rw [isStage]; exact within.trans (by decide)

theorem Stores.log (stored : Stores market vault session after) :
    after.log = vault.log ++ [session.entry market vault.db] := by
  cases stored <;> rfl

/-- A commit of what is still stored is the operation itself. -/
theorem Informed.exact (informed : Informed market vault session)
    (poolKept : session.PoolKept vault) (marketKept : session.MarketKept vault)
    (stored : Stores market vault session after) :
    session.operation.perform vault.db = .ok after.db := by
  have markets := informed.markets (stored.reached (by decide)) marketKept
  obtain ⟨pools, outcomes⟩ := informed.pools (stored.reached (by decide)) poolKept
  have current : session.seen vault.db = vault.db :=
    seen_current markets pools outcomes (informed.positions (stored.reached (by decide)) poolKept)
  have binary : isParimutuel (outcomesOf vault.db market) = false := by
    have read := informed.binary (stored.reached (by decide))
    unfold outcomesOf at read ⊢
    rwa [outcomes] at read
  cases stored with
  | locked stage locks reads ran => exact current ▸ ran
  | @unlocked written stage ran =>
      rw [current] at ran
      rw [ran, store_current informed.own (informed.flushed stage) binary ran markets pools]

/-- Without a settlement in between, a withdrawal leaves the pools of its serial run. -/
theorem Informed.serial (informed : Informed market vault session)
    (poolKept : session.PoolKept vault)
    (unsettled : ¬ LocksMarket session.operation →
      ∀ entry ∈ vault.log.drop session.marketMark, ¬ Settles entry.operation)
    (stored : Stores market vault session after) :
    ∃ serial, session.operation.perform vault.db = .ok serial ∧
      serial.pools = after.db.pools := by
  by_cases locks : LocksMarket session.operation
  · exact ⟨after.db, informed.exact poolKept (.inl locks) stored, rfl⟩
  obtain ⟨pools, outcomes⟩ := informed.pools (stored.reached (by decide)) poolKept
  have positions := informed.positions (stored.reached (by decide)) poolKept
  have statuses : Table.Linked SameStatus session.view.markets vault.db.markets :=
    (informed.status (stored.reached (by decide))).resolve_right
      fun ⟨entry, member, settles⟩ => unsettled locks entry member settles
  have current : session.seen vault.db = { vault.db with markets := session.view.markets } := by
    unfold PoolSession.seen
    rw [pools, outcomes, positions]
  have binary : isParimutuel (outcomesOf (session.seen vault.db) market) = false :=
    informed.binary (stored.reached (by decide))
  cases stored with
  | locked stage locksPool => exact absurd (locksMarket_of_locksPool locksPool) locks
  | @unlocked written stage ran =>
      obtain ⟨row, pool, value, found, read, newPools, -, -, newMarkets⟩ :=
        unlocked_ok informed.own (informed.flushed stage) binary ran
      have storedPools : (session.store market vault.db written).pools = written.pools := by
        show storePools _ session.view.pools written.pools vault.db.pools = written.pools
        rw [← pools, newPools]
        exact storePools_current read
      rcases newMarkets with ⟨isLocked, _⟩ | ⟨user, lpTokens, outcome, isRemoval, _⟩
      · exact absurd isLocked locks
      rw [isRemoval, current] at ran
      obtain ⟨withdrawn, removed, rfl⟩ := map_eq_ok.mp ran
      obtain ⟨stored, storedRow, status⟩ := statuses.forward found
      obtain ⟨serial, serially, samePools⟩ :=
        removeLiquidity_markets storedRow found status.symm removed
      refine ⟨serial.db, ?_, samePools.trans storedPools.symm⟩
      rw [isRemoval]
      exact map_eq_ok.mpr ⟨serial, serially, rfl⟩

/-- A commit keeps the status of the markets unless it is a settlement. -/
theorem Informed.statuses (informed : Informed market vault session)
    (open_ : ¬ Settles session.operation) (stored : Stores market vault session after) :
    Table.Linked SameStatus vault.db.markets after.db.markets := by
  cases stored with
  | @locked written stage locks reads ran =>
      have exactly : session.operation.perform vault.db = .ok written :=
        informed.exact (.inl locks) (.inl (locksMarket_of_locksPool locks))
          (.locked stage locks reads ran)
      exact perform_status informed.own locks open_ exactly
  | @unlocked written stage ran =>
      have binary : isParimutuel (outcomesOf (session.seen vault.db) market) = false :=
        informed.binary (Stores.reached (.unlocked stage ran : Stores market vault session _)
          (by decide))
      obtain ⟨row, pool, value, found, -, -, -, -, newMarkets⟩ :=
        unlocked_ok informed.own (informed.flushed stage) binary ran
      refine storeMarkets_status _ fun {read assigned} isRead isAssigned => ?_
      obtain rfl : row = read := Option.some.inj (found.symm.trans isRead)
      rcases newMarkets with ⟨_, amount, added⟩ | ⟨_, _, _, _, dropped⟩
      · rw [added, Table.find?_modify_self, found] at isAssigned
        rw [← Option.some.inj isAssigned]
        rfl
      · rw [dropped, Table.find?_modify_self, found] at isAssigned
        rw [← Option.some.inj isAssigned]
        rfl

end Commit

theorem Informed.stable {writer : PoolSession} {after : Vault}
    (informed : Informed market vault session) (writing : Informed market vault writer)
    (apart : (poolWriters market).Apart session writer)
    (stored : Stores market vault writer after) : Informed market after session := by
  have later : ∀ {mark}, mark ≤ vault.log.length → after.log.drop mark ≠ [] := by
    intro mark within
    rw [stored.log, List.drop_append_of_le_length within]
    simp
  have writerHoldsPool : writer.holds market .pool := by
    have reached : writer.Reached .pool := stored.reached (by decide)
    cases stored with
    | locked stage locks => exact .inl ⟨locks, reached⟩
    | unlocked stage => exact .inr stage
  have lockedPool : session.Reached .pool → ¬ LocksPool session.operation :=
    fun reached locks => apart .pool (.inl ⟨locks, reached⟩) writerHoldsPool
  have lockedMarket : session.Reached .market → LocksMarket session.operation →
      after.db.markets = vault.db.markets := by
    intro reached locks
    have unheld : ¬ writer.holds market .market := apart .market (.inl ⟨locks, reached⟩)
    have strange : ¬ LocksMarket writer.operation :=
      fun theirs => unheld (.inl ⟨theirs, stored.reached (by decide)⟩)
    have binary : isParimutuel (outcomesOf (writer.seen vault.db) market) = false :=
      writing.binary (stored.reached (by decide))
    cases stored with
    | locked stage locksPool => exact absurd (locksMarket_of_locksPool locksPool) strange
    | unlocked stage ran =>
        exact storeMarkets_kept writing.own (writing.flushed stage) strange binary
          (fun rewrites => unheld (.inr ⟨stage, rewrites⟩)) ran _
  have longer : vault.log.length ≤ after.log.length := by
    rw [stored.log, List.length_append]
    exact Nat.le_add_right _ _
  exact {
    own := informed.own
    flushed := informed.flushed
    marketMark := fun reached => (informed.marketMark reached).trans longer
    poolMark := fun reached => (informed.poolMark reached).trans longer
    markets := by
      rintro reached (locks | quiet)
      · rw [lockedMarket reached locks]
        exact informed.markets reached (.inl locks)
      · exact absurd quiet (later (informed.marketMark reached))
    status := by
      intro reached
      rw [stored.log, List.drop_append_of_le_length (informed.marketMark reached)]
      by_cases settles : Settles writer.operation
      · exact .inr ⟨_, List.mem_append_right _ (List.mem_singleton.mpr rfl), settles⟩
      · rcases informed.status reached with same | ⟨entry, member, settled⟩
        · exact .inl (same.trans (fun first second => second.trans first)
            (writing.statuses settles stored))
        · exact .inr ⟨entry, List.mem_append_left _ member, settled⟩
    pools := by
      rintro reached (locks | quiet)
      · exact absurd locks (lockedPool reached)
      · exact absurd quiet (later (informed.poolMark reached))
    binary := informed.binary
    positions := by
      rintro reached (locks | quiet)
      · exact absurd locks (lockedPool (le_trans (by decide) reached))
      · exact absurd quiet (later (informed.poolMark (le_trans (by decide) reached))) }

def informed (market : MarketId) : Serial (poolWriters market) where
  Knows := fun vault session => Informed market vault session
  fresh := Informed.of_fresh
  query := Informed.read
  stable := Informed.stable

/-! # Runs -/

/-- A deposit or a withdrawal commits before anybody who commits after it has read the pool,
and a withdrawal before a settlement that follows its read of the market. -/
def Undisturbed (state : (poolWriters market).State) : Move → Prop
  | .commit id => ∀ session : PoolSession, state.sessions id = some session →
      session.PoolKept state.shared ∧ (¬ LocksMarket session.operation →
        ∀ entry ∈ state.shared.log.drop session.marketMark, ¬ Settles entry.operation)
  | _ => True

/-- The operations one after the other. -/
def serially (operations : List Operation) (db : Database) : Except Error Database :=
  operations.foldlM Operation.perform db

/-- What two transactions leave, and every transaction has computed with the pool it wrote
over. -/
structure Serialised (start : Database) (vault : Vault) : Prop where
  none : vault.log = [] → vault.db = start
  one : ∀ entry, vault.log = [entry] → entry.operation.perform start = .ok vault.db
  two : ∀ first second, vault.log = [first, second] → ∃ middle serial,
    first.operation.perform start = .ok middle ∧ second.operation.perform middle = .ok serial ∧
      serial.pools = vault.db.pools
  current : ∀ entry ∈ vault.log, entry.loaded = entry.stored

theorem Serialised.commit {start : Database} {after : Vault} (serialised : Serialised start vault)
    (informed : Informed market vault session) (poolKept : session.PoolKept vault)
    (unsettled : ¬ LocksMarket session.operation →
      ∀ entry ∈ vault.log.drop session.marketMark, ¬ Settles entry.operation)
    (stored : Stores market vault session after) : Serialised start after := by
  have log := stored.log
  refine ⟨?_, ?_, ?_, ?_⟩
  · intro empty
    rw [log] at empty
    simp at empty
  · intro entry only
    obtain ⟨empty, last⟩ : vault.log = [] ∧ [session.entry market vault.db] = [entry] :=
      List.append_inj' (log.symm.trans only) rfl
    obtain rfl : session.entry market vault.db = entry := List.singleton_inj.mp last
    have quiet : vault.log.drop session.marketMark = [] := by
      rw [empty, List.drop_nil]
    exact serialised.none empty ▸ informed.exact poolKept (.inr quiet) stored
  · intro first second both
    obtain ⟨earlier, last⟩ : vault.log = [first] ∧ [session.entry market vault.db] = [second] :=
      List.append_inj' (log.symm.trans both) rfl
    obtain rfl : session.entry market vault.db = second := List.singleton_inj.mp last
    obtain ⟨serial, ran, pools⟩ := informed.serial poolKept unsettled stored
    exact ⟨vault.db, serial, serialised.one first earlier, ran, pools⟩
  · intro entry member
    rw [log] at member
    rcases List.mem_append.mp member with earlier | last
    · exact serialised.current entry earlier
    · rw [List.mem_singleton.mp last]
      exact congrArg (Table.find? · _) (informed.pools (stored.reached (by decide)) poolKept).1

theorem pool_writers_serialise {db : Database} {moves : List Move}
    {final : (poolWriters market).State}
    (run : Run (poolWriters market).Interleaves Undisturbed (State.idle ⟨db, []⟩) moves final)
    (pair : final.shared.log.length ≤ 2) :
    (∃ serial, serially (final.shared.log.map Entry.operation) db = .ok serial ∧
      serial.pools = final.shared.db.pools) ∧
    ∀ entry ∈ final.shared.log, entry.loaded = entry.stored := by
  have idle : Serialised db (⟨db, []⟩ : Vault) :=
    ⟨fun _ => rfl, fun _ only => absurd only (by simp), fun _ _ both => absurd both (by simp),
      fun _ member => absurd member List.not_mem_nil⟩
  have serialised : Serialised db final.shared := by
    refine (run.invariant (fun state => (informed market).Sound state ∧
      Serialised db state.shared) ?_ ⟨(informed market).sound_idle _, idle⟩).2
    intro state move next undisturbed moved holds
    refine ⟨holds.1.step _ moved, ?_⟩
    cases moved with
    | begin free fresh => exact holds.2
    | query running asked granted => exact holds.2
    | commit running written =>
        obtain ⟨poolKept, unsettled⟩ := undisturbed _ running
        exact holds.2.commit (holds.1.knows _ _ running) poolKept unsettled written
    | abort => exact holds.2
  refine ⟨?_, serialised.current⟩
  unfold serially
  rcases isLog : final.shared.log with _ | ⟨first, _ | ⟨second, _ | ⟨third, rest⟩⟩⟩
  · exact ⟨db, rfl, (serialised.none isLog).symm ▸ rfl⟩
  · exact ⟨final.shared.db, bind_eq_ok.mpr ⟨_, serialised.one first isLog, rfl⟩, rfl⟩
  · obtain ⟨middle, serial, ran, later, pools⟩ := serialised.two first second isLog
    exact ⟨serial, bind_eq_ok.mpr ⟨_, ran, bind_eq_ok.mpr ⟨_, later, rfl⟩⟩, pools⟩
  · rw [isLog] at pair
    simp at pair

/-! # A transaction beside one that stands still -/

section Beside

variable {left : Option PoolSession} {operation : Operation} {after : Database}
  {guard : (poolWriters market).State → Move → Prop}

/-- A session that makes its queries one after the other. -/
def reading (operation : Operation) (vault : Vault) (stage : PoolStage) : PoolSession :=
  ⟨operation, stage, vault.db, vault.log.length, vault.log.length⟩

theorem reading_asks (operation : Operation)
    (binary : isParimutuel (outcomesOf vault.db market) = false)
    (apart : ∀ next held, left = some held → (poolWriters market).Apart next held) :
    Relation.ReflTransGen (fun session next => Reads market vault session next ∧
        ∀ held, left = some held → (poolWriters market).Apart next held)
      (reading operation vault .begun) (reading operation vault .positions) := by
  have first : Reads market vault (reading operation vault .begun)
      (reading operation vault .market) := .market rfl
  have second : Reads market vault (reading operation vault .market)
      (reading operation vault .pool) := .pool rfl binary
  have third : Reads market vault (reading operation vault .pool)
      (reading operation vault .positions) := .positions rfl
  exact .head ⟨first, apart _⟩ (.head ⟨second, apart _⟩ (.single ⟨third, apart _⟩))

/-- It commits what the operation computes. -/
theorem operation_beside (free : ∀ state id, guard state (.begin id) ∧ guard state (.query id))
    (commits : ∀ stage, guard (.pair vault left (some (reading operation vault stage))) (.commit 1))
    (own : OnMarket market operation)
    (binary : isParimutuel (outcomesOf vault.db market) = false)
    (apart : ∀ next held, left = some held → (poolWriters market).Apart next held)
    (reads : operation.Reads vault.db) (ran : operation.perform vault.db = .ok after) :
    ∃ moves, Run (poolWriters market).Interleaves guard (.pair vault left none) moves
      (.pair ⟨after, vault.log ++ [(reading operation vault .flushed).entry market vault.db]⟩
        left none) := by
  have asks := reading_asks operation binary apart
  by_cases locks : LocksPool operation
  · exact run_beside free ⟨rfl, own⟩ asks (commits _) (.locked rfl locks reads ran)
  · have flushes : Reads market vault (reading operation vault .positions)
        (reading operation vault .flushed) := .flush rfl locks
    have written : (reading operation vault .flushed).store market vault.db after = after :=
      store_current own locks binary ran rfl rfl
    have commit : Stores market vault (reading operation vault .flushed)
        ⟨(reading operation vault .flushed).store market vault.db after,
          vault.log ++ [(reading operation vault .flushed).entry market vault.db]⟩ :=
      .unlocked rfl ran
    rw [written] at commit
    exact run_beside free ⟨rfl, own⟩ (asks.tail ⟨flushes, apart _⟩) (commits _) commit

end Beside

/-! # A withdrawal and a split -/

/-- A quoted market whose whole pool is user 3's. -/
def lentMarket : Database :=
  { quotedMarket with
    wallets := ⟨[⟨1, 100, 0⟩, ⟨2, 0, 0⟩, ⟨3, 0, 0⟩], by decide⟩
    lpShares := ⟨[⟨⟨1, none⟩, 3, 100, 100⟩], by decide⟩ }

def ten : PositiveMoney := ⟨10, pos_ten, grid_ten⟩

def splitting : Operation := .split 1 1 ten

def withdrawing : Operation := .removeLiquidity 3 1 ten none

/-- The withdrawal when it has made its queries. -/
def withdrawal (stage : PoolStage) : PoolSession := ⟨withdrawing, stage, lentMarket, 0, 0⟩

def escrowOf (pools : Table LiquidityPool.key) : Option ℚ :=
  (pools.find? ⟨1, none⟩).map LiquidityPool.collateral

theorem withdrawal_unlocked (next : PoolSession) :
    ∀ held, some (withdrawal .positions) = some held → (poolWriters 1).Apart next held := by
  intro held running row _ holds
  rw [← Option.some.inj running] at holds
  cases row with
  | market =>
      rcases holds with ⟨locks, -⟩ | ⟨flushed, -⟩
      · exact locks
      · contradiction
  | pool =>
      rcases holds with ⟨locks, -⟩ | flushed
      · exact locks
      · contradiction

/-- The withdrawal reads the pool, the split commits, and the withdrawal writes the escrow
back as if there had been no split. -/
theorem withdrawal_loses_split :
    ∃ moves, ∃ final : (poolWriters 1).State,
      Run (poolWriters 1).Interleaves (fun _ _ => True) (State.idle ⟨lentMarket, []⟩) moves final ∧
      final.shared.log.map Entry.operation = [splitting, withdrawing] ∧
      ∀ order ∈ [[splitting, withdrawing], [withdrawing, splitting]], ∀ serial,
        serially order lentMarket = .ok serial → serial.pools ≠ final.shared.db.pools := by
  have race : succeedsWith (splitting.perform lentMarket >>= fun split =>
      (withdrawing.perform ((withdrawal .flushed).seen split)).map fun written =>
        (withdrawal .flushed).store 1 split written)
      (fun db => decide (escrowOf db.pools = some 90)) = true := by decide +kernel
  have splitFirst : succeedsWith (serially [splitting, withdrawing] lentMarket)
      (fun db => decide (escrowOf db.pools = some 99)) = true := by decide +kernel
  have splitLast : succeedsWith (serially [withdrawing, splitting] lentMarket)
      (fun db => decide (escrowOf db.pools = some 100)) = true := by decide +kernel
  obtain ⟨stored, ran, escrow⟩ := succeedsWith_iff.mp race
  obtain ⟨split, splits, ran⟩ := bind_eq_ok.mp ran
  obtain ⟨written, withdraws, rfl⟩ := map_eq_ok.mp ran
  have alone : ∀ next held : PoolSession, (none : Option PoolSession) = some held →
      (poolWriters 1).Apart next held := fun _ _ running => absurd running (by simp)
  have reads : Run (poolWriters 1).Interleaves (fun _ _ => True)
      (.pair ⟨lentMarket, []⟩ none none) [.begin 0, .query 0, .query 0, .query 0]
      (.pair ⟨lentMarket, []⟩ (some (withdrawal .positions)) none) := by
    have begins : (poolWriters 1).Interleaves (.pair ⟨lentMarket, []⟩ none none) (.begin 0)
        (.pair ⟨lentMarket, []⟩ (some (withdrawal .begun)) none) := .beginLeft ⟨rfl, rfl⟩
    have market : Reads 1 ⟨lentMarket, []⟩ (withdrawal .begun) (withdrawal .market) := .market rfl
    have pool : Reads 1 ⟨lentMarket, []⟩ (withdrawal .market) (withdrawal .pool) :=
      .pool rfl (by decide +kernel)
    have positions : Reads 1 ⟨lentMarket, []⟩ (withdrawal .pool) (withdrawal .positions) :=
      .positions rfl
    exact .act trivial begins (.act trivial (.queryLeft market (alone _))
      (.act trivial (.queryLeft pool (alone _))
        (.act trivial (.queryLeft positions (alone _)) (.stop _))))
  let afterSplit : Vault :=
    ⟨split, [(reading splitting ⟨lentMarket, []⟩ .flushed).entry 1 lentMarket]⟩
  obtain ⟨moves, splitRun⟩ : ∃ moves, Run (poolWriters 1).Interleaves (fun _ _ => True)
      (.pair ⟨lentMarket, []⟩ (some (withdrawal .positions)) none) moves
      (.pair afterSplit (some (withdrawal .positions)) none) :=
    operation_beside (fun _ _ => ⟨trivial, trivial⟩) (fun _ => trivial) rfl (by decide +kernel)
      withdrawal_unlocked trivial splits
  have writes : Run (poolWriters 1).Interleaves (fun _ _ => True)
      (.pair afterSplit (some (withdrawal .positions)) none) [.query 0, .commit 0]
      (.pair ⟨(withdrawal .flushed).store 1 split written,
        afterSplit.log ++ [(withdrawal .flushed).entry 1 split]⟩ none none) := by
    have flushes : Reads 1 afterSplit (withdrawal .positions) (withdrawal .flushed) := .flush rfl id
    exact .act trivial (.queryLeft flushes (alone _))
      (.act trivial (.commitLeft (.unlocked rfl withdraws)) (.stop _))
  refine ⟨_, _, (congrArg (Run _ _ · _ _) State.idle_eq_pair).mpr
    (reads.append (splitRun.append writes)), rfl, ?_⟩
  have differs : ∀ {order : List Operation} {other : ℚ}, other ≠ 90 →
      succeedsWith (serially order lentMarket)
        (fun db => decide (escrowOf db.pools = some other)) = true →
      ∀ serial, serially order lentMarket = .ok serial →
        serial.pools ≠ ((withdrawal .flushed).store 1 split written).pools := by
    intro order other unequal succeeds serial ran same
    obtain ⟨computed, isComputed, holds⟩ := succeedsWith_iff.mp succeeds
    obtain rfl : computed = serial := Except.ok.inj (isComputed.symm.trans ran)
    rw [same, of_decide_eq_true escrow] at holds
    exact unequal (Option.some.inj (of_decide_eq_true holds)).symm
  intro order member
  rcases List.mem_cons.mp member with rfl | member
  · exact differs (by norm_num) splitFirst
  · rw [List.mem_singleton.mp member]
    exact differs (by norm_num) splitLast

/-- The two operations one after the other. -/
theorem split_then_withdrawal :
    ∃ moves, ∃ final : (poolWriters 1).State,
      Run (poolWriters 1).Interleaves Undisturbed (State.idle ⟨lentMarket, []⟩) moves final ∧
      final.shared.log.map Entry.operation = [splitting, withdrawing] ∧
      ∃ serial, serially [splitting, withdrawing] lentMarket = .ok serial ∧
        serial.pools = final.shared.db.pools := by
  have both : succeedsWith (splitting.perform lentMarket >>= fun split =>
      (withdrawing.perform split).map fun withdrawn => (split, withdrawn))
      (fun states => decide (isParimutuel (outcomesOf states.1 1) = false)) = true := by
    decide +kernel
  obtain ⟨states, ran, binary⟩ := succeedsWith_iff.mp both
  obtain ⟨split, splits, ran⟩ := bind_eq_ok.mp ran
  obtain ⟨withdrawn, withdraws, rfl⟩ := map_eq_ok.mp ran
  have alone : ∀ next held : PoolSession, (none : Option PoolSession) = some held →
      (poolWriters 1).Apart next held := fun _ _ running => absurd running (by simp)
  have free : ∀ (state : (poolWriters 1).State) id,
      Undisturbed state (.begin id) ∧ Undisturbed state (.query id) :=
    fun _ _ => ⟨trivial, trivial⟩
  have quiet : ∀ (operation : Operation) (vault : Vault) (stage : PoolStage),
      Undisturbed (.pair vault none (some (reading operation vault stage)) :
        (poolWriters 1).State) (.commit 1) := by
    intro operation vault stage session running
    cases running
    have nobody : vault.log.drop vault.log.length = [] := List.drop_length
    exact ⟨.inr nobody, fun _ entry member => absurd (nobody ▸ member) List.not_mem_nil⟩
  obtain ⟨first, splitRun⟩ := operation_beside free (quiet splitting ⟨lentMarket, []⟩) rfl
    (by decide +kernel) alone trivial splits
  obtain ⟨second, withdrawRun⟩ := operation_beside free
    (quiet withdrawing ⟨split, [(reading splitting ⟨lentMarket, []⟩ .flushed).entry 1
      lentMarket]⟩) rfl (of_decide_eq_true binary) alone trivial withdraws
  have run := (congrArg (Run (poolWriters 1).Interleaves Undisturbed · _ _)
    State.idle_eq_pair).mpr (splitRun.append withdrawRun)
  exact ⟨_, _, run, rfl, (pool_writers_serialise run le_rfl).1⟩

end PredictX.PoolSessions
