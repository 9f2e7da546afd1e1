import PredictX.Services.OrderService

namespace PredictX.Settlement

open PredictX.Data

/-! `settle_market`.

Winners are paid out of the escrow, then the treasury, then the liquidity providers
share what is left.  `round` is the rounding of the arithmetic: the identity for exact
rationals, `roundSig 10 28` for the default decimal context.  The rows of a query come
in an unspecified order, so a settlement is over the lists its queries returned.

Besides the database, a settlement returns the payouts it made: what it took out of the
escrow for whom, and what it put into a wallet.
-/

/-- Who a payout was for. -/
inductive Payee where
  | position (key : PositionKey)
  | treasury
  | provider (key : LPShareKey)
deriving DecidableEq, Repr

structure Payout where
  payee : Payee
  user : UserId
  debited : ℚ
  credited : ℚ
deriving DecidableEq, Repr

/-- The winning outcome's pool, else the market's binary pool. -/
def settlementPool (pools : Table LiquidityPool.key) (market : MarketId) (winning : OutcomeId) :
    Option LiquidityPool :=
  match pools.find? ⟨market, some winning⟩ with
  | some pool => some pool
  | none => pools.find? ⟨market, none⟩

/-- `wallet.balance += amount`. -/
def receive (round : ℚ → ℚ) (amount : ℚ) (wallet : Wallet) : Wallet :=
  { wallet with balance := round (wallet.balance + amount) }

/-- The rows a settlement holds while it runs. -/
structure Ledger where
  pool : Option LiquidityPool
  wallets : Table Wallet.userId
  positions : Table Position.key
  lpShares : Table LPShare.key
  transactions : List Transaction
  payouts : List Payout

def debitPool (round : ℚ → ℚ) (pool : Option LiquidityPool) (amount : ℚ) :
    Except Error (Option LiquidityPool) :=
  match pool with
  | none => .error .attributeError
  | some pool =>
      match pool.debitCollateral round amount with
      | .error reason => .error reason
      | .ok debited => .ok (some debited)

/-! # Positions -/

/-- What a position is owed: one dollar a share if it is of the winning outcome. -/
def payoutOf (winning : OutcomeId) (position : Position) : ℚ :=
  if position.outcomeId = winning then position.sharesHeld else 0

/-- `pos.settled_at = now; pos.realized_pnl += payout`. -/
def settleRow (round : ℚ → ℚ) (now : Timestamp) (payout : ℚ) (position : Position) : Position :=
  { position with
    settledAt := some now
    realizedPnl := if 0 < payout then round (position.realizedPnl + payout)
      else position.realizedPnl }

/-- The loop body for one position; a holder without a wallet is passed over. -/
def settlePosition (round : ℚ → ℚ) (now : Timestamp) (market : MarketId) (winning : OutcomeId)
    (ledger : Ledger) (position : Position) : Except Error Ledger :=
  if position.settledAt.isSome then .ok ledger
  else
    match ledger.wallets.find? position.userId with
    | none => .ok ledger
    | some wallet =>
        let payout := payoutOf winning position
        let positions := ledger.positions.modify position.key (settleRow round now payout)
        if 0 < payout then
          match debitPool round ledger.pool payout with
          | .error reason => .error reason
          | .ok pool =>
              .ok { ledger with
                pool
                positions
                wallets := ledger.wallets.modify position.userId (receive round payout)
                transactions := ledger.transactions ++
                  [⟨position.userId, .settlementWin, payout, round (wallet.balance + payout),
                    .market market⟩]
                payouts := ledger.payouts ++
                  [⟨.position position.key, position.userId, payout, payout⟩] }
        else
          .ok { ledger with
            positions
            transactions := ledger.transactions ++
              [⟨position.userId, .settlementLoss, 0, wallet.balance, .market market⟩] }

/-! # Fees and liquidity providers -/

/-- The fee sweep.  The sub-ledger's dollars leave the escrow with it. -/
def sweepFees (round : ℚ → ℚ) (market : MarketId) (treasury : UserId) (ledger : Ledger) :
    Except Error Ledger :=
  match ledger.pool with
  | none => .ok ledger
  | some pool =>
      if 0 < pool.protocolFees then
        match pool.debitCollateral round pool.protocolFees with
        | .error reason => .error reason
        | .ok debited =>
            let balance := ((ledger.wallets.find? treasury).map Wallet.balance).getD 0
            .ok { ledger with
              pool := some { debited with protocolFees := 0 }
              wallets := ledger.wallets.modify treasury (receive round pool.protocolFees)
              transactions := ledger.transactions ++
                [⟨treasury, .protocolFee, pool.protocolFees,
                  round (balance + pool.protocolFees), .market market⟩]
              payouts := ledger.payouts ++
                [⟨.treasury, treasury, pool.protocolFees, pool.protocolFees⟩] }
      else .ok ledger

/-- `lp_payout_per_token`. -/
def perToken (round : ℚ → ℚ) (pool : LiquidityPool) : ℚ :=
  if 0 < pool.lpTokenSupply then round (pool.collateral / pool.lpTokenSupply) else 0

def burn (share : LPShare) : LPShare := { share with lpTokens := 0 }

theorem burn_key (share : LPShare) : (burn share).key = share.key := rfl

/-- One provider.  The escrow is debited before the wallet is looked up, and only a
provider who is paid loses the tokens. -/
def redeemShare (round : ℚ → ℚ) (rate : ℚ) (ledger : Ledger) (share : LPShare) :
    Except Error Ledger :=
  let payout := round (share.lpTokens * rate)
  if payout ≤ 0 then .ok ledger
  else
    match debitPool round ledger.pool payout with
    | .error reason => .error reason
    | .ok pool =>
        match ledger.wallets.find? share.userId with
        | none =>
            .ok { ledger with
              pool
              payouts := ledger.payouts ++ [⟨.provider share.key, share.userId, payout, 0⟩] }
        | some wallet =>
            .ok { ledger with
              pool
              wallets := ledger.wallets.modify share.userId (receive round payout)
              lpShares := ledger.lpShares.modify share.key burn
              transactions := ledger.transactions ++
                [⟨share.userId, .liquidityRemoval, payout, round (wallet.balance + payout),
                  .pool share.pool⟩]
              payouts := ledger.payouts ++
                [⟨.provider share.key, share.userId, payout, payout⟩] }

/-- `sum(..., Decimal(0))`: every partial sum is rounded. -/
def roundedSum (round : ℚ → ℚ) (amounts : List ℚ) : ℚ :=
  amounts.foldl (fun total amount => round (total + amount)) 0

/-- The providers' part; their rows must not claim more tokens than there are. -/
def redeemShares (round : ℚ → ℚ) (shares : List LPShare) (ledger : Ledger) :
    Except Error Ledger :=
  match ledger.pool with
  | none => .ok ledger
  | some pool =>
      if pool.lpTokenSupply < roundedSum round (shares.map LPShare.lpTokens) then
        .error .escrowShortfall
      else shares.foldlM (redeemShare round (perToken round pool)) ledger

/-! # The settlement -/

/-- The rows the settlement's queries returned. -/
structure Scan where
  positions : List Position
  lpShares : List LPShare

/-- The position query: the unsettled rows of the market. -/
def unsettled (db : Database) (market : MarketId) : List Position :=
  db.positions.rows.filter fun position => position.marketId = market && position.settledAt = none

/-- The provider query: the rows of the pool with tokens left. -/
def liveShares (db : Database) (pool : PoolKey) : List LPShare :=
  db.lpShares.rows.filter fun share => share.pool = pool && 0 < share.lpTokens

/-- The queries returned the rows of `db`, in some order. -/
structure Scan.Reads (scan : Scan) (db : Database) (market : MarketId) (winning : OutcomeId) :
    Prop where
  positions : scan.positions.Perm (unsettled db market)
  lpShares : ∀ pool, settlementPool db.pools market winning = some pool →
    scan.lpShares.Perm (liveShares db pool.key)

/-- `winner_total`. -/
def winnerTotal (round : ℚ → ℚ) (winning : OutcomeId) (positions : List Position) : ℚ :=
  roundedSum round ((positions.filter fun position =>
    position.outcomeId = winning && 0 < position.sharesHeld).map Position.sharesHeld)

/-- The pre-flight: the whole obligation is checked before a wallet is touched. -/
def preflight (round : ℚ → ℚ) (winning : OutcomeId) (positions : List Position)
    (pool : Option LiquidityPool) : Except Error Unit :=
  let owed := winnerTotal round winning positions
  match pool with
  | none => if 0 < owed then .error .escrowShortfall else .ok ()
  | some pool =>
      if pool.collateral < round (owed + pool.protocolFees) then .error .escrowShortfall
      else .ok ()

/-- A user id no row uses. -/
def freshUser (db : Database) : UserId :=
  (db.wallets.rows.map Wallet.userId ++ db.positions.rows.map Position.userId ++
    db.lpShares.rows.map LPShare.userId).foldr max 0 + 1

/-- A user's wallet, created empty when it is missing. -/
def openWallet (wallets : Table Wallet.userId) (user : UserId) : Table Wallet.userId :=
  match wallets.find? user with
  | some _ => wallets
  | none => wallets.insert ⟨user, 0, 0⟩

/-- The treasury account and its wallet, created when they are missing. -/
def openTreasury (db : Database) : UserId × Database :=
  let treasury := db.systemUser.getD (freshUser db)
  (treasury,
    { db with
      systemUser := some treasury
      wallets := openWallet db.wallets treasury })

def settleLedger (round : ℚ → ℚ) (now : Timestamp) (market : MarketId) (winning : OutcomeId)
    (treasury : UserId) (scan : Scan) (ledger : Ledger) : Except Error Ledger := do
  let paid ← scan.positions.foldlM (settlePosition round now market winning) ledger
  let swept ← sweepFees round market treasury paid
  redeemShares round scan.lpShares swept

/-- `market.status = "resolved"`, with the time of the first resolution kept. -/
def markResolved (now : Timestamp) (market : Market) : Market :=
  { market with status := .resolved, resolvedAt := some (market.resolvedAt.getD now) }

/-- The pool row is written with the escrow and the sub-ledger the settlement left. -/
def writePool (pools : Table LiquidityPool.key) (pool : Option LiquidityPool) :
    Table LiquidityPool.key :=
  match pool with
  | none => pools
  | some pool =>
      pools.modify pool.key fun row =>
        { row with collateral := pool.collateral, protocolFees := pool.protocolFees }

/-- The commit. -/
def commitLedger (now : Timestamp) (market : MarketId) (db : Database) (ledger : Ledger) :
    Database :=
  { db with
    pools := writePool db.pools ledger.pool
    wallets := ledger.wallets
    positions := ledger.positions
    lpShares := ledger.lpShares
    transactions := ledger.transactions
    markets := db.markets.modify market (markResolved now) }

structure Settled where
  db : Database
  payouts : List Payout

/-- The ledger a settlement starts with. -/
def openLedger (db : Database) (market : MarketId) (winning : OutcomeId) : Ledger where
  pool := settlementPool db.pools market winning
  wallets := (openTreasury db).2.wallets
  positions := db.positions
  lpShares := db.lpShares
  transactions := db.transactions
  payouts := []

/-- `settle_market`; `done` is the Redis marker, and `none` is a return before any write. -/
def settleMarket (round : ℚ → ℚ) (now : Timestamp) (done : Bool) (scan : Scan) (db : Database)
    (market : MarketId) (winning : OutcomeId) : Except Error (Option Settled) :=
  if done then .ok none
  else
    match db.markets.find? market with
    | none => .ok none
    | some row =>
        if row.winningOutcomeId ≠ some winning then .ok none
        else
          match preflight round winning scan.positions
              (settlementPool db.pools market winning) with
          | .error reason => .error reason
          | .ok () =>
              match settleLedger round now market winning (openTreasury db).1 scan
                  (openLedger db market winning) with
              | .error reason => .error reason
              | .ok ledger =>
                  .ok (some ⟨commitLedger now market (openTreasury db).2 ledger,
                    ledger.payouts⟩)

end PredictX.Settlement
