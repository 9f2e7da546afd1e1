import PredictX.Services.EscrowAudit
import PredictX.Data.Except

namespace PredictX.LiquidityService

open PredictX.Data PredictX.MarketService PredictX.Settlement

/-! Liquidity: deposits, withdrawals and the nightly fee sweep.

A provider's tokens are a claim on the escrow.  The reserves only price the AMM and are kept
in proportion.  Publishing comes after the commit and is left out.
-/

/-- `_resolve_liquidity_pool`. -/
def resolveLiquidityPool (db : Database) (market : MarketId) (outcome : Option OutcomeName) :
    Except Error LiquidityPool :=
  let outcomes := outcomesOf db market
  if isParimutuel outcomes then
    match outcome with
    | none => .error (.validation .outcomeRequired)
    | some name =>
        if name = .named "" then .error (.validation .outcomeRequired)
        else
          match outcomes.find? fun row => row.name = name with
          | none => .error (.validation .validationError)
          | some row =>
              match db.pools.find? ⟨market, some row.id⟩ with
              | none => .error (.validation .marketNoLiquidity)
              | some pool => .ok pool
  else
    match db.pools.find? ⟨market, none⟩ with
    | none => .error (.validation .marketNoLiquidity)
    | some pool => .ok pool

/-- The prices before and after an operation, for the slippage check. -/
def spotPrices (pool : LiquidityPool) : ℚ × ℚ :=
  let total := pool.yesShares + pool.noShares
  if 0 < total then (pool.yesShares / total, pool.noShares / total) else (1 / 2, 1 / 2)

/-- `max_price_change`. -/
def maxPriceChange (before after : LiquidityPool) : ℚ :=
  max |(spotPrices after).1 - (spotPrices before).1| |(spotPrices after).2 - (spotPrices before).2|

/-! # Deposits -/

/-- `lp_tokens_minted`: the deposit's share of the escrow. -/
def lpTokensMinted (pool : LiquidityPool) (amount : ℚ) : Except Error ℚ :=
  if 0 < pool.lpTokenSupply then
    if pool.collateral ≤ 0 then .error (.validation .poolEscrowEmpty)
    else .ok (amount * pool.lpTokenSupply / pool.collateral)
  else .ok (amount * 2)

/-- The reserves grow in proportion on a funded binary pool and evenly elsewhere. -/
def growReserves (amount : ℚ) (pool : LiquidityPool) : LiquidityPool :=
  let total := pool.yesShares + pool.noShares
  if pool.outcomeId = none ∧ 0 < total then
    { pool with
      yesShares := pool.yesShares + amount * pool.yesShares / total
      noShares := pool.noShares + amount * pool.noShares / total }
  else
    { pool with
      yesShares := pool.yesShares + amount / 2
      noShares := pool.noShares + amount / 2 }

/-- The four columns liquidity operations write. -/
def writeLiquidity (after row : LiquidityPool) : LiquidityPool :=
  { row with
    yesShares := after.yesShares
    noShares := after.noShares
    collateral := after.collateral
    lpTokenSupply := after.lpTokenSupply }

def addTokens (minted amount : ℚ) (share : LPShare) : LPShare :=
  { share with
    lpTokens := share.lpTokens + minted
    collateralDeposited := share.collateralDeposited + amount }

/-- The provider's row, created when it is missing. -/
def creditShare (shares : Table LPShare.key) (key : LPShareKey) (minted amount : ℚ) :
    Table LPShare.key :=
  match shares.find? key with
  | some _ => shares.modify key (addTokens minted amount)
  | none => shares.insert ⟨key.pool, key.userId, minted, amount⟩

def addTotalLiquidity (amount : ℚ) (market : Market) : Market :=
  { market with totalLiquidity := market.totalLiquidity + amount }

structure Deposited where
  db : Database
  lpTokensMinted : ℚ
  lpTokenSupply : ℚ
  walletBalance : ℚ

/-- `add_liquidity`. -/
def addLiquidity (db : Database) (user : UserId) (market : MarketId) (amount tolerance : ℚ)
    (outcome : Option OutcomeName) : Except Error Deposited :=
  match db.markets.find? market with
  | none => .error .notFound
  | some row =>
      if row.status ≠ .active then .error (.validation .validationError)
      else
        match resolveLiquidityPool db market outcome with
        | .error reason => .error reason
        | .ok pool =>
            match db.wallets.find? user with
            | none => .error (.validation .validationError)
            | some wallet =>
                if wallet.available < amount then .error (.validation .validationError)
                else
                  match lpTokensMinted pool amount with
                  | .error reason => .error reason
                  | .ok minted =>
                      match (growReserves amount pool).creditCollateral amount with
                      | .error reason => .error reason
                      | .ok funded =>
                          let after :=
                            { funded with lpTokenSupply := funded.lpTokenSupply + minted }
                          if tolerance < maxPriceChange pool after then
                            .error (.validation .validationError)
                          else
                            .ok
                              { db :=
                                  { db with
                                    pools := db.pools.modify pool.key (writeLiquidity after)
                                    lpShares := creditShare db.lpShares ⟨pool.key, user⟩ minted amount
                                    markets := db.markets.modify market (addTotalLiquidity amount)
                                    wallets := db.wallets.modify user (Wallet.debit amount)
                                      (Wallet.debit_userId amount)
                                    transactions := db.transactions ++
                                      [⟨user, .liquidityAdd, -amount, wallet.balance - amount,
                                        .pool pool.key⟩] }
                                lpTokensMinted := minted
                                lpTokenSupply := after.lpTokenSupply
                                walletBalance := wallet.balance - amount }

/-! # Withdrawals -/

/-- `worst_case_shares`: the larger side's open positions. -/
def worstCaseShares (db : Database) (market : MarketId) : ℚ :=
  match EscrowAudit.worstOutcome db market with
  | none => 0
  | some outcome => EscrowAudit.sideShares db market outcome

/-- `withdrawable`: what the escrow holds above the floor. -/
def withdrawable (db : Database) (market : MarketId) (pool : LiquidityPool) : ℚ :=
  max 0 (pool.collateral - (worstCaseShares db market + pool.protocolFees))

/-- The pool after a provider leaves with `fraction` of it, the escrow apart. -/
def shrinkReserves (lpTokens : ℚ) (pool : LiquidityPool) : LiquidityPool :=
  let fraction := lpTokens / pool.lpTokenSupply
  { pool with
    yesShares := pool.yesShares - pool.yesShares * fraction
    noShares := pool.noShares - pool.noShares * fraction
    lpTokenSupply := pool.lpTokenSupply - lpTokens }

def burnTokens (lpTokens redeemed : ℚ) (share : LPShare) : LPShare :=
  { share with
    lpTokens := share.lpTokens - lpTokens
    collateralDeposited := max 0 (share.collateralDeposited - redeemed) }

def dropTotalLiquidity (amount : ℚ) (market : Market) : Market :=
  { market with totalLiquidity := max 0 (market.totalLiquidity - amount) }

structure Withdrawn where
  db : Database
  yesRedeemed : ℚ
  noRedeemed : ℚ
  totalRedeemed : ℚ
  walletBalance : ℚ

/-- `remove_liquidity`. -/
def removeLiquidity (db : Database) (user : UserId) (market : MarketId) (lpTokens tolerance : ℚ)
    (outcome : Option OutcomeName) : Except Error Withdrawn :=
  match db.markets.find? market with
  | none => .error .notFound
  | some row =>
      if row.status ≠ .active then .error (.validation .validationError)
      else
        match resolveLiquidityPool db market outcome with
        | .error reason => .error reason
        | .ok pool =>
            match db.wallets.find? user, db.lpShares.find? ⟨pool.key, user⟩ with
            | none, _ => .error (.validation .validationError)
            | some _, none => .error (.validation .insufficientLPTokens)
            | some wallet, some share =>
                if share.lpTokens < lpTokens then .error (.validation .insufficientLPTokens)
                else if pool.lpTokenSupply = 0 then .error (.validation .validationError)
                else
                  let fraction := lpTokens / pool.lpTokenSupply
                  let redeemed := pool.collateral * fraction
                  if withdrawable db market pool < redeemed then
                    .error (.validation .escrowFloor)
                  else
                    match (shrinkReserves lpTokens pool).debitCollateral id redeemed with
                    | .error reason => .error reason
                    | .ok after =>
                        if tolerance < maxPriceChange pool after then
                          .error (.validation .validationError)
                        else
                          .ok
                            { db :=
                                { db with
                                  pools := db.pools.modify pool.key (writeLiquidity after)
                                  lpShares := db.lpShares.modify share.key
                                    (burnTokens lpTokens redeemed)
                                  markets := db.markets.modify market
                                    (dropTotalLiquidity redeemed)
                                  wallets := db.wallets.modify user (Wallet.credit redeemed)
                                  transactions := db.transactions ++
                                    [⟨user, .liquidityRemove, redeemed, wallet.balance + redeemed,
                                      .pool pool.key⟩] }
                              yesRedeemed := pool.yesShares * fraction
                              noRedeemed := pool.noShares * fraction
                              totalRedeemed := redeemed
                              walletBalance := wallet.balance + redeemed }

/-! # The fee sweep -/

/-- The rows of the sweep's query: pools with fees, joined with their markets. -/
def pendingFees (db : Database) : List LiquidityPool :=
  db.pools.rows.filter fun pool =>
    (db.markets.find? pool.marketId).isSome && 0 < pool.protocolFees

/-- What a sweep can take out of a pool. -/
def sweepable (pool : LiquidityPool) : ℚ := min pool.protocolFees pool.collateral

/-- `pool.protocol_fees = owed - amount`. -/
def carryFees (amount : ℚ) (pool : LiquidityPool) : LiquidityPool :=
  { pool with protocolFees := pool.protocolFees - amount }

def payFees (amount : ℚ) (pool : LiquidityPool) : LiquidityPool :=
  { carryFees amount pool with collateral := pool.collateral - amount }

/-- One pool of the sweep.  A shortfall is carried forward; an amount within the escrow is
not refused by `debit_collateral`. -/
def distributePool (treasury : UserId) (db : Database) (pool : LiquidityPool) : Database :=
  if pool.protocolFees ≤ 0 then db
  else if sweepable pool ≤ 0 then
    { db with pools := db.pools.modify pool.key (carryFees (sweepable pool)) }
  else
    { db with
      pools := db.pools.modify pool.key (payFees (sweepable pool))
      wallets := db.wallets.modify treasury (Wallet.credit (sweepable pool))
      transactions := db.transactions ++
        [⟨treasury, .protocolFee, sweepable pool,
          ((db.wallets.find? treasury).map Wallet.balance).getD 0 + sweepable pool,
          .market pool.marketId⟩] }

/-- `distribute_protocol_fees` over the rows its query returned. -/
def distributeProtocolFees (db : Database) (scanned : List LiquidityPool) : Database :=
  match scanned with
  | [] => db
  | _ => scanned.foldl (distributePool (openTreasury db).1) (openTreasury db).2

/-! # What the operations did -/

section Ok

variable {db : Database} {user : UserId} {market : MarketId} {amount lpTokens tolerance : ℚ}
  {outcome : Option OutcomeName} {pool : LiquidityPool}

theorem resolveLiquidityPool_ok (resolved : resolveLiquidityPool db market outcome = .ok pool) :
    db.pools.find? pool.key = some pool ∧ pool.marketId = market ∧
      (isParimutuel (outcomesOf db market) = false → pool.outcomeId = none) := by
  have own : ∀ {other : Option OutcomeId}, db.pools.find? ⟨market, other⟩ = some pool →
      db.pools.find? pool.key = some pool ∧ pool.marketId = market ∧ pool.outcomeId = other := by
    intro other found
    have key := Table.key_of_find? found
    exact ⟨key ▸ found, congrArg PoolKey.marketId key, congrArg PoolKey.outcomeId key⟩
  unfold resolveLiquidityPool at resolved
  dsimp only at resolved
  split at resolved
  · rename_i parimutuel
    split at resolved
    · contradiction
    split at resolved
    · contradiction
    split at resolved
    · contradiction
    split at resolved
    · contradiction
    rename_i found
    cases resolved
    obtain ⟨here, ofMarket, _⟩ := own found
    exact ⟨here, ofMarket, fun binary => absurd (parimutuel.symm.trans binary) (by simp)⟩
  · split at resolved
    · contradiction
    rename_i found
    cases resolved
    obtain ⟨here, ofMarket, unnamed⟩ := own found
    exact ⟨here, ofMarket, fun _ => unnamed⟩

/-- The pool a deposit leaves. -/
def depositInto (amount minted : ℚ) (pool : LiquidityPool) : LiquidityPool :=
  { growReserves amount pool with
    collateral := pool.collateral + amount
    lpTokenSupply := pool.lpTokenSupply + minted }

theorem growReserves_escrow (amount : ℚ) (pool : LiquidityPool) :
    (growReserves amount pool).collateral = pool.collateral ∧
      (growReserves amount pool).lpTokenSupply = pool.lpTokenSupply := by
  unfold growReserves
  dsimp only
  split <;> exact ⟨rfl, rfl⟩

theorem addLiquidity_ok {deposited : Deposited}
    (ran : addLiquidity db user market amount tolerance outcome = .ok deposited) :
    ∃ row pool wallet minted, db.markets.find? market = some row ∧ row.status = .active ∧
      resolveLiquidityPool db market outcome = .ok pool ∧ db.wallets.find? user = some wallet ∧
      amount ≤ wallet.available ∧ lpTokensMinted pool amount = .ok minted ∧ 0 ≤ amount ∧
      deposited =
        { db :=
            { db with
              pools := db.pools.modify pool.key (writeLiquidity (depositInto amount minted pool))
              lpShares := creditShare db.lpShares ⟨pool.key, user⟩ minted amount
              markets := db.markets.modify market (addTotalLiquidity amount)
              wallets := db.wallets.modify user (Wallet.debit amount)
              transactions := db.transactions ++
                [⟨user, .liquidityAdd, -amount, wallet.balance - amount, .pool pool.key⟩] }
          lpTokensMinted := minted
          lpTokenSupply := pool.lpTokenSupply + minted
          walletBalance := wallet.balance - amount } := by
  unfold addLiquidity at ran
  split at ran
  · contradiction
  rename_i row found
  split at ran
  · contradiction
  rename_i active
  split at ran
  · contradiction
  rename_i pool resolved
  split at ran
  · contradiction
  rename_i wallet owner
  split at ran
  · contradiction
  rename_i covered
  split at ran
  · contradiction
  rename_i minted priced
  split at ran
  · contradiction
  rename_i funded credited
  dsimp only at ran
  split at ran
  · contradiction
  unfold LiquidityPool.creditCollateral at credited
  split at credited
  · contradiction
  rename_i nonneg
  cases credited
  cases ran
  obtain ⟨sameEscrow, sameSupply⟩ := growReserves_escrow amount pool
  refine ⟨row, pool, wallet, minted, found, not_not.mp active, resolved, owner,
    not_lt.mp covered, priced, not_lt.mp nonneg, ?_⟩
  simp only [depositInto, sameEscrow, sameSupply]

theorem removeLiquidity_ok {withdrawn : Withdrawn}
    (ran : removeLiquidity db user market lpTokens tolerance outcome = .ok withdrawn) :
    ∃ row pool wallet share after, db.markets.find? market = some row ∧ row.status = .active ∧
      resolveLiquidityPool db market outcome = .ok pool ∧ db.wallets.find? user = some wallet ∧
      db.lpShares.find? ⟨pool.key, user⟩ = some share ∧ lpTokens ≤ share.lpTokens ∧
      pool.lpTokenSupply ≠ 0 ∧
      pool.collateral * (lpTokens / pool.lpTokenSupply) ≤ withdrawable db market pool ∧
      (shrinkReserves lpTokens pool).debitCollateral id
        (pool.collateral * (lpTokens / pool.lpTokenSupply)) = .ok after ∧
      withdrawn =
        { db :=
            { db with
              pools := db.pools.modify pool.key (writeLiquidity after)
              lpShares := db.lpShares.modify share.key
                (burnTokens lpTokens (pool.collateral * (lpTokens / pool.lpTokenSupply)))
              markets := db.markets.modify market
                (dropTotalLiquidity (pool.collateral * (lpTokens / pool.lpTokenSupply)))
              wallets := db.wallets.modify user
                (Wallet.credit (pool.collateral * (lpTokens / pool.lpTokenSupply)))
              transactions := db.transactions ++
                [⟨user, .liquidityRemove, pool.collateral * (lpTokens / pool.lpTokenSupply),
                  wallet.balance + pool.collateral * (lpTokens / pool.lpTokenSupply),
                  .pool pool.key⟩] }
          yesRedeemed := pool.yesShares * (lpTokens / pool.lpTokenSupply)
          noRedeemed := pool.noShares * (lpTokens / pool.lpTokenSupply)
          totalRedeemed := pool.collateral * (lpTokens / pool.lpTokenSupply)
          walletBalance :=
            wallet.balance + pool.collateral * (lpTokens / pool.lpTokenSupply) } := by
  unfold removeLiquidity at ran
  split at ran
  · contradiction
  rename_i row found
  split at ran
  · contradiction
  rename_i active
  split at ran
  · contradiction
  rename_i pool resolved
  split at ran
  · contradiction
  · contradiction
  rename_i wallet share owner held
  split at ran
  · contradiction
  rename_i enough
  split at ran
  · contradiction
  rename_i supplied
  dsimp only at ran
  split at ran
  · contradiction
  rename_i floor
  split at ran
  · contradiction
  rename_i after debited
  split at ran
  · contradiction
  cases ran
  exact ⟨row, pool, wallet, share, after, found, not_not.mp active, resolved, owner, held,
    not_lt.mp enough, supplied, not_lt.mp floor, debited, rfl⟩

/-- A debit that goes through takes the amount, or nothing when there is nothing to take. -/
theorem debitCollateral_eq {after : LiquidityPool}
    (debited : pool.debitCollateral id amount = .ok after) :
    after = { pool with collateral := pool.collateral - max 0 amount } ∧
      (0 < amount → amount ≤ pool.collateral) := by
  unfold LiquidityPool.debitCollateral at debited
  split at debited
  · rename_i nothing
    cases debited
    exact ⟨by simp [max_eq_left nothing], fun positive => absurd nothing (not_le.mpr positive)⟩
  split at debited
  · contradiction
  rename_i positive covered
  cases debited
  exact ⟨by simp [max_eq_right (not_le.mp positive).le], fun _ => not_lt.mp covered⟩

end Ok

end PredictX.LiquidityService
