import PredictX.Api.Markets

namespace PredictX.Markets

open PredictX.Data PredictX.MarketService

/-! What `create_market` wrote.

Its ids are above every id in use, so each table gains exactly the new rows and nothing of
the database refers to the new market.
-/

theorem lt_above {ids : List ℕ} {id : ℕ} (member : id ∈ ids) : id < above ids := by
  unfold above
  induction ids with
  | nil => cases member
  | cons head rest ih =>
      rw [List.foldr_cons]
      rcases List.mem_cons.mp member with rfl | later
      · exact Nat.lt_succ_of_le (le_max_left _ _)
      · exact (ih later).trans_le (Nat.succ_le_succ (le_max_right _ _))

section AddAll

variable {ρ κ : Type} [DecidableEq κ] {key : ρ → κ} {table : Table key} {rows : List ρ}

/-- New rows are appended. -/
theorem addAll_rows (distinct : (rows.map key).Nodup)
    (fresh : ∀ row ∈ rows, table.find? (key row) = none) :
    (addAll table rows).rows = table.rows ++ rows := by
  induction rows generalizing table with
  | nil => exact (List.append_nil _).symm
  | cons row rest ih =>
      rw [List.map_cons, List.nodup_cons] at distinct
      obtain ⟨head, later⟩ := List.forall_mem_cons.mp fresh
      have next : ∀ other ∈ rest, (table.insert row).find? (key other) = none := by
        intro other member
        have apart : key other ≠ key row := by
          intro same
          exact distinct.1 (same ▸ List.mem_map_of_mem member)
        rw [Table.find?_insert_ne row apart, later other member]
      have appended := ih distinct.2 next
      rw [Table.insert_rows row head, List.append_assoc] at appended
      exact appended

end AddAll

section Fresh

variable {db : Database} {market : MarketId} {request : CreateMarketRequest}

theorem outcomeRows_marketId : ∀ outcome ∈ outcomeRows db market request,
    outcome.marketId = market := by
  intro outcome member
  obtain ⟨_, _, rfl⟩ := List.mem_mapIdx.mp member
  rfl

theorem outcomeRows_nodup : ((outcomeRows db market request).map Outcome.id).Nodup := by
  have ids : (outcomeRows db market request).map Outcome.id =
      (List.range (outcomeRows db market request).length).map (above (outcomeIds db) + ·) := by
    refine List.ext_getElem (by simp) fun index _ _ => ?_
    simp [outcomeRows]
  rw [ids]
  exact List.nodup_range.map (add_right_injective _)

theorem outcomeRows_fresh : ∀ outcome ∈ outcomeRows db market request,
    db.outcomes.find? outcome.id = none := by
  intro outcome member
  obtain ⟨offset, _, rfl⟩ := List.mem_mapIdx.mp member
  rw [Table.find?_eq_none]
  intro old oldMember same
  have below : old.id < above (outcomeIds db) := by
    refine lt_above ?_
    simp only [outcomeIds, List.mem_append, List.mem_map]
    exact .inl (.inl (.inl (.inl ⟨old, oldMember, rfl⟩)))
  exact below.ne' (le_antisymm (same ▸ Nat.le_add_right _ _) below.le)

end Fresh

/-- The market row that was inserted. -/
structure NewRow (author : Author) (market : MarketId) (row : Market) : Prop where
  id : row.id = market
  status : row.status = if author.isAdmin then .active else .pendingReview
  undecided : row.winningOutcomeId = none

/-- Everything a created market added to the database. -/
structure Created (author : Author) (db made : Database) (market : MarketId)
    (request : CreateMarketRequest) (row : Market) (added : List LiquidityPool)
    (granted : List LPShare) : Prop where
  fresh : ∀ id ∈ marketIds db, id ≠ market
  newRow : NewRow author market row
  markets : made.markets.rows = db.markets.rows ++ [row]
  outcomes : made.outcomes.rows = db.outcomes.rows ++ outcomeRows db market request
  pools : made.pools.rows = db.pools.rows ++ added
  lpShares : made.lpShares.rows = db.lpShares.rows ++ granted
  positions : made.positions = db.positions
  orders : made.orders = db.orders
  seed :
    added = newPools market (outcomeRows db market request) ∧ granted = [] ∨
    0 < request.initialLiquidity ∧
      added = seedPools request (outcomeRows db market request)
        (newPools market (outcomeRows db market request)) ∧
      granted = added.map (seedShare author.userId)

section Pools

variable {db : Database} {market : MarketId} {request : CreateMarketRequest}
  {outcomes : List Outcome}

theorem newPools_keys (distinct : (outcomes.map Outcome.id).Nodup) :
    ((newPools market outcomes).map LiquidityPool.key).Nodup ∧
      ∀ pool ∈ newPools market outcomes, pool.marketId = market := by
  unfold newPools
  split
  · constructor
    · have keys : ((outcomes.map fun outcome => newPool market (some outcome.id)).map
          LiquidityPool.key) =
          (outcomes.map Outcome.id).map fun id => (⟨market, some id⟩ : PoolKey) := by
        simp [LiquidityPool.key, newPool]
      rw [keys]
      refine distinct.map ?_
      intro left right same
      simpa using same
    · simp [newPool]
  · simp [newPool]

theorem seedPools_keys (pools : List LiquidityPool) :
    (seedPools request outcomes pools).map LiquidityPool.key = pools.map LiquidityPool.key := by
  unfold seedPools
  split
  · rw [List.map_map]
    rfl
  · rw [List.map_map]
    rfl

end Pools

theorem createMarket_ok {now : Timestamp} {author : Author} {db made : Database}
    {request : CreateMarketRequest} {market : MarketId}
    (created : createMarket now author db request = .ok (made, market)) :
    ∃ row added granted, Created author db made market request row added granted := by
  unfold createMarket at created
  split at created
  · contradiction
  split at created
  · contradiction
  split at created
  · contradiction
  split at created
  · contradiction
  extract_lets marketId outcomes row pools seeded at created
  have isFresh : ∀ id ∈ marketIds db, id ≠ marketId := fun id member => (lt_above member).ne
  have unknownMarket : db.markets.find? marketId = none := by
    rw [Table.find?_eq_none]
    intro old member
    refine isFresh _ ?_
    simp only [marketIds, List.mem_append, List.mem_map]
    exact .inl (.inl (.inl (.inl (.inl ⟨old, member, rfl⟩))))
  have unpooled : ∀ key : PoolKey, key.marketId = marketId → db.pools.find? key = none := by
    intro key ofMarket
    rw [Table.find?_eq_none]
    intro old member same
    have used : old.marketId ∈ marketIds db := by
      simp only [marketIds, List.mem_append, List.mem_map]
      exact .inl (.inl (.inl (.inr ⟨old, member, rfl⟩)))
    exact isFresh _ used ((congrArg PoolKey.marketId same).trans ofMarket)
  have unshared : ∀ key : LPShareKey, key.pool.marketId = marketId →
      db.lpShares.find? key = none := by
    intro key ofMarket
    rw [Table.find?_eq_none]
    intro old member same
    have used : old.pool.marketId ∈ marketIds db := by
      simp only [marketIds, List.mem_append, List.mem_map]
      exact .inr ⟨old, member, rfl⟩
    exact isFresh _ used ((congrArg (fun key => key.pool.marketId) same).trans ofMarket)
  obtain ⟨distinct, ofMarket⟩ : (pools.map LiquidityPool.key).Nodup ∧
      ∀ pool ∈ pools, pool.marketId = marketId := newPools_keys outcomeRows_nodup
  have outcomesRows : (addAll db.outcomes outcomes).rows = db.outcomes.rows ++ outcomes :=
    addAll_rows outcomeRows_nodup outcomeRows_fresh
  split at created
  · rename_i seeds
    simp only [Except.ok.injEq, Prod.mk.injEq] at created
    obtain ⟨rfl, rfl⟩ := created
    have seededKeys : seeded.map LiquidityPool.key = pools.map LiquidityPool.key :=
      seedPools_keys pools
    have seededMarket : ∀ pool ∈ seeded, pool.key.marketId = marketId := by
      intro pool member
      have keyMember : pool.key ∈ pools.map LiquidityPool.key := by
        rw [← seededKeys]
        exact List.mem_map_of_mem member
      obtain ⟨old, oldMember, same⟩ := List.mem_map.mp keyMember
      rw [← same]
      exact ofMarket old oldMember
    have shareKeys : ((seeded.map (seedShare author.userId)).map LPShare.key).Nodup := by
      have keys : (seeded.map (seedShare author.userId)).map LPShare.key =
          (seeded.map LiquidityPool.key).map fun key => (⟨key, author.userId⟩ : LPShareKey) := by
        simp [seedShare, LPShare.key]
      rw [keys, seededKeys]
      refine distinct.map ?_
      intro left right same
      simpa using same
    refine ⟨_, seeded, seeded.map (seedShare author.userId), isFresh, ⟨rfl, rfl, rfl⟩,
      Table.insert_rows _ unknownMarket, outcomesRows, ?_, ?_, rfl, rfl, .inr ⟨?_, rfl, rfl⟩⟩
    · refine addAll_rows (seededKeys ▸ distinct) ?_
      exact fun pool member => unpooled _ (seededMarket pool member)
    · refine addAll_rows shareKeys ?_
      intro share member
      obtain ⟨pool, poolMember, rfl⟩ := List.mem_map.mp member
      exact unshared _ (seededMarket pool poolMember)
    · simp only [canSeed, Bool.and_eq_true, decide_eq_true_eq] at seeds
      exact seeds.1
  · simp only [Except.ok.injEq, Prod.mk.injEq] at created
    obtain ⟨rfl, rfl⟩ := created
    refine ⟨_, pools, [], isFresh, ⟨rfl, rfl, rfl⟩, Table.insert_rows _ unknownMarket,
      outcomesRows, ?_, (List.append_nil _).symm, rfl, rfl, .inl ⟨rfl, rfl⟩⟩
    exact addAll_rows distinct fun pool member => unpooled _ (ofMarket pool member)

/-! # The market when trading starts -/

section Launch

variable {now : Timestamp} {author : Author} {db made start : Database} {market : MarketId}
  {request : CreateMarketRequest} {row : Market} {added : List LiquidityPool}
  {granted : List LPShare} {key : PoolKey} {pool : LiquidityPool}

theorem isParimutuel_perm {left right : List Outcome} (perm : left.Perm right) :
    isParimutuel left = isParimutuel right := by
  unfold isParimutuel
  rw [perm.any_eq, perm.any_eq]

theorem Created.outcomesOf_perm (created : Created author db made market request row added granted) :
    (outcomesOf made market).Perm (outcomeRows db market request) := by
  have old : db.outcomes.rows.filter (fun outcome => outcome.marketId = market) = [] := by
    rw [List.filter_eq_nil_iff]
    intro outcome member
    have used : outcome.marketId ∈ marketIds db := by
      simp only [marketIds, List.mem_append, List.mem_map]
      exact .inl (.inl (.inl (.inl (.inr ⟨outcome, member, rfl⟩))))
    simpa using created.fresh _ used
  have new : (outcomeRows db market request).filter (fun outcome => outcome.marketId = market) =
      outcomeRows db market request := by
    rw [List.filter_eq_self]
    intro outcome member
    simpa using outcomeRows_marketId outcome member
  unfold outcomesOf
  rw [created.outcomes, List.filter_append, old, new, List.nil_append]
  exact List.perm_insertionSort _ _

theorem Created.mem_added (created : Created author db made market request row added granted)
    (ofMarket : key.marketId = market) (found : made.pools.find? key = some pool) :
    pool ∈ added := by
  obtain ⟨member, isKey⟩ := Table.find?_eq_some.mp found
  rw [created.pools, List.mem_append] at member
  refine member.resolve_left fun old => ?_
  have used : pool.marketId ∈ marketIds db := by
    simp only [marketIds, List.mem_append, List.mem_map]
    exact .inl (.inl (.inl (.inr ⟨pool, old, rfl⟩)))
  exact created.fresh _ used ((congrArg PoolKey.marketId isKey).trans ofMarket)

theorem Created.unheld (created : Created author db made market request row added granted) :
    ∀ position ∈ made.positions.rows, position.marketId ≠ market := by
  intro position member
  rw [created.positions] at member
  refine created.fresh _ ?_
  simp only [marketIds, List.mem_append, List.mem_map]
  exact .inl (.inl (.inr ⟨position, member, rfl⟩))

theorem Created.keys (created : Created author db made market request row added granted) :
    added.map LiquidityPool.key =
      (newPools market (outcomeRows db market request)).map LiquidityPool.key := by
  rcases created.seed with ⟨isNew, _⟩ | ⟨_, isSeeded, _⟩
  · rw [isNew]
  · rw [isSeeded, seedPools_keys]

theorem Created.distinct (created : Created author db made market request row added granted) :
    (added.map LiquidityPool.key).Nodup := by
  rw [created.keys]
  exact (newPools_keys outcomeRows_nodup).1

theorem Created.ofMarket (created : Created author db made market request row added granted) :
    ∀ pool ∈ added, pool.marketId = market := by
  intro pool member
  have keyed : pool.key ∈ added.map LiquidityPool.key := List.mem_map_of_mem member
  rw [created.keys] at keyed
  obtain ⟨new, newMember, same⟩ := List.mem_map.mp keyed
  exact (congrArg PoolKey.marketId same).symm.trans
    ((newPools_keys outcomeRows_nodup).2 new newMember)

/-- A pool nobody has traded with. -/
structure Untraded (pool : LiquidityPool) : Prop where
  feeRate : pool.feeRate = tradingFeeRate
  protocolFees : pool.protocolFees = 0
  collateral : 0 ≤ pool.collateral
  yesShares : 0 ≤ pool.yesShares
  noShares : 0 ≤ pool.noShares

theorem newPools_untraded (market : MarketId) (outcomes : List Outcome) :
    ∀ pool ∈ newPools market outcomes, Untraded pool := by
  intro pool member
  have blank : ∃ outcome, pool = newPool market outcome := by
    unfold newPools at member
    split at member
    · obtain ⟨outcome, _, rfl⟩ := List.mem_map.mp member
      exact ⟨_, rfl⟩
    · exact ⟨none, List.mem_singleton.mp member⟩
  obtain ⟨outcome, rfl⟩ := blank
  exact ⟨rfl, rfl, le_rfl, le_rfl, le_rfl⟩

theorem seedBinary_untraded (request : CreateMarketRequest) (untraded : Untraded pool) :
    Untraded (seedBinary request.initialLiquidity request.initialProbability pool) := by
  have nonneg := request.liquidity_nonneg
  have collateral : 0 ≤ pool.collateral + request.initialLiquidity :=
    add_nonneg untraded.collateral nonneg
  cases given : request.initialProbability with
  | none =>
      have half : 0 ≤ request.initialLiquidity / 2 := by linarith
      exact ⟨untraded.feeRate, untraded.protocolFees, collateral,
        add_nonneg untraded.yesShares half, add_nonneg untraded.noShares half⟩
  | some probability =>
      obtain ⟨low, high⟩ := request.probability_bounds probability given
      have yes : 0 ≤ request.initialLiquidity * probability := mul_nonneg nonneg (by linarith)
      have no : 0 ≤ request.initialLiquidity * (1 - probability) := mul_nonneg nonneg (by linarith)
      exact ⟨untraded.feeRate, untraded.protocolFees, collateral,
        add_nonneg untraded.yesShares yes, add_nonneg untraded.noShares no⟩

theorem seedOutcome_untraded {share : ℚ} (nonneg : 0 ≤ share) (untraded : Untraded pool) :
    Untraded (seedOutcome share pool) :=
  ⟨untraded.feeRate, untraded.protocolFees, add_nonneg untraded.collateral nonneg,
    add_nonneg untraded.yesShares nonneg, untraded.noShares⟩

theorem Created.untraded (created : Created author db made market request row added granted) :
    ∀ pool ∈ added, Untraded pool := by
  have blank := newPools_untraded market (outcomeRows db market request)
  rcases created.seed with ⟨isNew, _⟩ | ⟨_, isSeeded, _⟩
  · rw [isNew]
    exact blank
  rw [isSeeded]
  intro pool member
  unfold seedPools at member
  split at member
  · obtain ⟨old, oldMember, rfl⟩ := List.mem_map.mp member
    exact seedOutcome_untraded (div_nonneg request.liquidity_nonneg (Nat.cast_nonneg _))
      (blank old oldMember)
  · obtain ⟨old, oldMember, rfl⟩ := List.mem_map.mp member
    exact seedBinary_untraded request (blank old oldMember)

/-- The market is created, and approved if its author is no admin. -/
def Launches (author : Author) (db : Database) (request : CreateMarketRequest)
    (market : MarketId) (start : Database) : Prop :=
  ∃ now made, createMarket now author db request = .ok (made, market) ∧
    (start = made ∨ ∃ later, approveMarket later made market = .ok start)

/-- What trading finds of a new market. -/
structure Launched (db : Database) (request : CreateMarketRequest) (market : MarketId)
    (start : Database) : Prop where
  untraded : ∀ key pool, key.marketId = market → start.pools.find? key = some pool → Untraded pool
  layout : ∀ key pool, key.marketId = market → start.pools.find? key = some pool →
    (key.outcomeId = none ↔ isParimutuel (outcomesOf start market) = false)
  pooled : ∀ outcome ∈ outcomesOf start market, ∃ pool, start.pools.find?
    (poolKey market outcome.id (isParimutuel (outcomesOf start market))) = some pool
  unheld : ∀ position ∈ start.positions.rows, position.marketId ≠ market
  positions : start.positions = db.positions

theorem moderate_ok {status : MarketStatus} (ran : moderate db market status = .ok made) :
    ∃ row, db.markets.find? market = some row ∧ row.status = .pendingReview ∧
      made = { db with markets := db.markets.modify market fun row => { row with status } } := by
  unfold moderate at ran
  split at ran
  · contradiction
  rename_i row found
  split at ran
  · contradiction
  rename_i pending
  cases ran
  exact ⟨row, found, not_not.mp pending, rfl⟩

theorem approveMarket_ok (ran : approveMarket now db market = .ok made) :
    moderate db market .active = .ok made := by
  unfold approveMarket at ran
  split at ran
  · contradiction
  split at ran
  · contradiction
  split at ran
  · contradiction
  exact ran

theorem newPools_pooled {outcomes : List Outcome} :
    ∀ outcome ∈ outcomes, poolKey market outcome.id (isParimutuel outcomes) ∈
      (newPools market outcomes).map LiquidityPool.key := by
  intro outcome member
  unfold newPools poolKey
  split
  · simp only [List.map_map, List.mem_map]
    exact ⟨outcome, member, rfl⟩
  · simp [newPool, LiquidityPool.key]

theorem newPools_layout {outcomes : List Outcome} {keys : List PoolKey}
    (isKeys : keys = (newPools market outcomes).map LiquidityPool.key) :
    ∀ key ∈ keys, (key.outcomeId = none ↔ isParimutuel outcomes = false) := by
  intro key member
  rw [isKeys] at member
  obtain ⟨pool, poolMember, rfl⟩ := List.mem_map.mp member
  unfold newPools at poolMember
  split at poolMember
  · rename_i named
    obtain ⟨outcome, _, rfl⟩ := List.mem_map.mp poolMember
    simp [newPool, LiquidityPool.key, named]
  · rename_i unnamed
    rw [List.mem_singleton.mp poolMember]
    simpa [newPool, LiquidityPool.key] using unnamed

theorem Launches.launched (launches : Launches author db request market start) :
    Launched db request market start := by
  obtain ⟨now, made, ran, launched⟩ := launches
  obtain ⟨row, added, granted, created⟩ := createMarket_ok ran
  obtain ⟨pools, positions, outcomes⟩ : start.pools = made.pools ∧
      start.positions = made.positions ∧ start.outcomes = made.outcomes := by
    rcases launched with rfl | ⟨later, approved⟩
    · exact ⟨rfl, rfl, rfl⟩
    · obtain ⟨_, _, _, rfl⟩ := moderate_ok (approveMarket_ok approved)
      exact ⟨rfl, rfl, rfl⟩
  have sameOutcomes : outcomesOf start market = outcomesOf made market := by
    unfold outcomesOf
    rw [outcomes]
  refine ⟨fun key pool ofMarket found => ?_, fun key pool ofMarket found => ?_,
    fun outcome member => ?_, ?_, positions.trans created.positions⟩
  · exact created.untraded pool (created.mem_added ofMarket (pools ▸ found))
  · rw [sameOutcomes, isParimutuel_perm created.outcomesOf_perm]
    refine newPools_layout created.keys key ?_
    rw [← Table.key_of_find? found]
    exact List.mem_map_of_mem (created.mem_added ofMarket (pools ▸ found))
  · rw [sameOutcomes] at member ⊢
    have keyed : poolKey market outcome.id (isParimutuel (outcomeRows db market request)) ∈ _ :=
      newPools_pooled outcome (created.outcomesOf_perm.mem_iff.mp member)
    rw [← created.keys, ← isParimutuel_perm created.outcomesOf_perm] at keyed
    obtain ⟨pool, added, isKey⟩ := List.mem_map.mp keyed
    refine ⟨pool, Table.find?_eq_some.mpr ⟨?_, isKey⟩⟩
    rw [pools, created.pools]
    exact List.mem_append_right _ added
  · rw [positions]
    exact created.unheld

end Launch

end PredictX.Markets
