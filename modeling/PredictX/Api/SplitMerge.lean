import PredictX.Services.OrderService

namespace PredictX.SplitMerge

open PredictX.Data PredictX.MarketService

/-! `split` and `merge`: dollars into YES and NO shares and back.

The two outcomes are the first two by index.  A pool that is missing is passed over, as the
source does, so the wallet moves all the same.
-/

/-- The pair a market splits into. -/
def pairOf (db : Database) (market : MarketId) : Except Error (Outcome × Outcome) :=
  match db.markets.find? market with
  | none => .error .notFound
  | some row =>
      if row.status ≠ .active then .error (.validation .validationError)
      else
        let outcomes := outcomesOf db market
        match outcomes with
        | first :: second :: _ =>
            if isParimutuel outcomes then .error (.validation .notBinaryMarket)
            else .ok (first, second)
        | _ => .error (.validation .validationError)

/-- `fee`. -/
def feeOf (amount : ℚ) : ℚ := amount * splitMergeFeeRate

/-- `amount_after_fee`. -/
def afterFee (amount : ℚ) : ℚ := amount - feeOf amount

/-- `compute_prices`. -/
def computePrices (pool : Option LiquidityPool) : ℚ × ℚ :=
  match pool with
  | none => (1 / 2, 1 / 2)
  | some pool =>
      let total := pool.yesShares + pool.noShares
      if total = 0 then (1 / 2, 1 / 2) else (pool.yesShares / total, pool.noShares / total)

/-- The whole deposit is escrowed and both reserves grow by the minted shares. -/
def splitPool (amount : ℚ) (pool : LiquidityPool) : LiquidityPool :=
  { pool with
    collateral := pool.collateral + amount
    protocolFees := pool.protocolFees + feeOf amount
    yesShares := pool.yesShares + afterFee amount
    noShares := pool.noShares + afterFee amount }

/-- The average price an existing row is given. -/
def splitAverage (shares : ℚ) (position : Position) : ℚ :=
  (position.averagePrice * position.sharesHeld + shares) / (position.sharesHeld + shares)

/-- `update_position`: a new row is priced at the spot price. -/
def receiveShares (positions : Table Position.key) (key : PositionKey) (shares price : ℚ) :
    Table Position.key :=
  Position.acquire positions key shares (price * shares) (splitAverage shares)

structure Result where
  db : Database
  fee : ℚ
  shares : ℚ
  walletBalance : ℚ

/-- `split`. -/
def split (db : Database) (user : UserId) (market : MarketId) (amount : ℚ) : Except Error Result :=
  if amount ≤ 0 then .error (.validation .validationError)
  else
    match pairOf db market with
    | .error reason => .error reason
    | .ok (first, second) =>
        match db.wallets.find? user with
        | none => .error .notFound
        | some wallet =>
            if wallet.available < amount then .error (.validation .validationError)
            else
              let prices := computePrices (db.pools.find? ⟨market, none⟩)
              let shares := afterFee amount
              .ok
                { db :=
                    { db with
                      wallets := db.wallets.modify user (Wallet.debit amount)
                        (Wallet.debit_userId amount)
                      pools := db.pools.modify ⟨market, none⟩ (splitPool amount)
                      positions := receiveShares
                        (receiveShares db.positions ⟨user, market, first.id⟩ shares prices.1)
                        ⟨user, market, second.id⟩ shares prices.2
                      transactions := db.transactions ++
                        [⟨user, .split, -amount, wallet.balance - amount, .none⟩] }
                  fee := feeOf amount
                  shares
                  walletBalance := wallet.balance - amount }

/-- The fee stays in the escrow, and the reserves are clamped at zero. -/
def mergePool (amount : ℚ) (pool : LiquidityPool) : LiquidityPool :=
  { pool with
    collateral := pool.collateral - afterFee amount
    protocolFees := pool.protocolFees + feeOf amount
    yesShares := max 0 (pool.yesShares - amount)
    noShares := max 0 (pool.noShares - amount) }

/-- The escrow's part of a merge; a missing pool is passed over. -/
def releaseEscrow (pools : Table LiquidityPool.key) (market : MarketId) (amount : ℚ) :
    Except Error (Table LiquidityPool.key) :=
  match pools.find? ⟨market, none⟩ with
  | none => .ok pools
  | some pool =>
      match pool.debitCollateral id (afterFee amount) with
      | .error reason => .error reason
      | .ok _ => .ok (pools.modify ⟨market, none⟩ (mergePool amount))

/-- `merge`. -/
def merge (db : Database) (user : UserId) (market : MarketId) (amount : ℚ) : Except Error Result :=
  if amount ≤ 0 then .error (.validation .validationError)
  else
    match pairOf db market with
    | .error reason => .error reason
    | .ok (first, second) =>
        match db.wallets.find? user with
        | none => .error .notFound
        | some wallet =>
            if Position.held db.positions ⟨user, market, first.id⟩ < amount then
              .error (.validation .validationError)
            else if Position.held db.positions ⟨user, market, second.id⟩ < amount then
              .error (.validation .validationError)
            else
              match releaseEscrow db.pools market amount with
              | .error reason => .error reason
              | .ok pools =>
                  .ok
                    { db :=
                        { db with
                          wallets := db.wallets.modify user (Wallet.credit (afterFee amount))
                          pools
                          positions := Position.dispose
                            (Position.dispose db.positions ⟨user, market, first.id⟩ amount
                              (afterFee amount / 2))
                            ⟨user, market, second.id⟩ amount (afterFee amount / 2)
                          transactions := db.transactions ++
                            [⟨user, .merge, afterFee amount, wallet.balance + afterFee amount,
                              .none⟩] }
                      fee := feeOf amount
                      shares := amount
                      walletBalance := wallet.balance + afterFee amount }

/-! # What the two operations did -/

section Ok

variable {db : Database} {user : UserId} {market : MarketId} {amount : ℚ} {result : Result}
  {first second : Outcome}

theorem pairOf_ok (paired : pairOf db market = .ok (first, second)) :
    ∃ row rest, db.markets.find? market = some row ∧ row.status = .active ∧
      outcomesOf db market = first :: second :: rest ∧
      isParimutuel (outcomesOf db market) = false := by
  unfold pairOf at paired
  split at paired
  · contradiction
  rename_i row found
  split at paired
  · contradiction
  rename_i active
  dsimp only at paired
  split at paired
  · rename_i one two rest outcomes
    split at paired
    · contradiction
    rename_i binary
    cases paired
    exact ⟨row, rest, found, not_not.mp active, outcomes, by simpa [outcomes] using binary⟩
  · contradiction

theorem split_ok (ran : split db user market amount = .ok result) :
    ∃ first second wallet, pairOf db market = .ok (first, second) ∧ 0 < amount ∧
      db.wallets.find? user = some wallet ∧ amount ≤ wallet.available ∧
      result =
        { db :=
            { db with
              wallets := db.wallets.modify user (Wallet.debit amount)
              pools := db.pools.modify ⟨market, none⟩ (splitPool amount)
              positions := receiveShares
                (receiveShares db.positions ⟨user, market, first.id⟩ (afterFee amount)
                  (computePrices (db.pools.find? ⟨market, none⟩)).1)
                ⟨user, market, second.id⟩ (afterFee amount)
                (computePrices (db.pools.find? ⟨market, none⟩)).2
              transactions := db.transactions ++
                [⟨user, .split, -amount, wallet.balance - amount, .none⟩] }
          fee := feeOf amount
          shares := afterFee amount
          walletBalance := wallet.balance - amount } := by
  unfold split at ran
  split at ran
  · contradiction
  rename_i positive
  split at ran
  · contradiction
  rename_i first second paired
  split at ran
  · contradiction
  rename_i wallet owner
  split at ran
  · contradiction
  rename_i covered
  cases ran
  exact ⟨first, second, wallet, paired, not_le.mp positive, owner, not_lt.mp covered, rfl⟩

theorem releaseEscrow_ok {pools : Table LiquidityPool.key}
    (released : releaseEscrow db.pools market amount = .ok pools) :
    pools = db.pools.modify ⟨market, none⟩ (mergePool amount) ∧
      ∀ pool, db.pools.find? ⟨market, none⟩ = some pool →
        0 < afterFee amount → afterFee amount ≤ pool.collateral := by
  unfold releaseEscrow at released
  split at released
  · rename_i missing
    cases released
    refine ⟨(Table.modify_of_find?_none missing).symm, fun pool found => ?_⟩
    rw [missing] at found
    contradiction
  rename_i pool found
  split at released
  · contradiction
  rename_i debited
  cases released
  refine ⟨rfl, fun other here positive => ?_⟩
  cases found.symm.trans here
  unfold LiquidityPool.debitCollateral at debited
  rw [if_neg (not_le.mpr positive)] at debited
  split at debited
  · contradiction
  · exact not_lt.mp ‹_›

theorem merge_ok (ran : merge db user market amount = .ok result) :
    ∃ first second wallet, pairOf db market = .ok (first, second) ∧ 0 < amount ∧
      db.wallets.find? user = some wallet ∧
      amount ≤ Position.held db.positions ⟨user, market, first.id⟩ ∧
      amount ≤ Position.held db.positions ⟨user, market, second.id⟩ ∧
      (∀ pool, db.pools.find? ⟨market, none⟩ = some pool →
        0 < afterFee amount → afterFee amount ≤ pool.collateral) ∧
      result =
        { db :=
            { db with
              wallets := db.wallets.modify user (Wallet.credit (afterFee amount))
              pools := db.pools.modify ⟨market, none⟩ (mergePool amount)
              positions := Position.dispose
                (Position.dispose db.positions ⟨user, market, first.id⟩ amount
                  (afterFee amount / 2))
                ⟨user, market, second.id⟩ amount (afterFee amount / 2)
              transactions := db.transactions ++
                [⟨user, .merge, afterFee amount, wallet.balance + afterFee amount, .none⟩] }
          fee := feeOf amount
          shares := amount
          walletBalance := wallet.balance + afterFee amount } := by
  unfold merge at ran
  split at ran
  · contradiction
  rename_i positive
  split at ran
  · contradiction
  rename_i first second paired
  split at ran
  · contradiction
  rename_i wallet owner
  split at ran
  · contradiction
  rename_i enoughFirst
  split at ran
  · contradiction
  rename_i enoughSecond
  split at ran
  · contradiction
  rename_i pools released
  cases ran
  obtain ⟨rfl, covered⟩ := releaseEscrow_ok released
  exact ⟨first, second, wallet, paired, not_le.mp positive, owner, not_lt.mp enoughFirst,
    not_lt.mp enoughSecond, covered, rfl⟩

end Ok

end PredictX.SplitMerge
