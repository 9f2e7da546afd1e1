import PredictX.Data.Table
import PredictX.Data.Rounding

namespace PredictX

open PredictX.Data

/-! The rows the trading core reads and writes.

Amounts are exact rationals: `Decimal` arithmetic without a rounding context, in rows
that no column has rounded yet.  The places where the source rounds on purpose
(`quantize`) do so in the model too; settlement and the matching of a resting buy take
the rounding of their arithmetic as a parameter, and what a `Numeric` column keeps of a
row is a function of the row.  A row id is a
natural number; a pool is identified by the pair its unique indexes declare, so
`(market, none)` is a market's binary pool.  Columns that no modelled operation
reads or writes are left out, as are the `CHECK` constraints: an operation that
fails one of them commits nothing.
-/

abbrev UserId := ℕ
abbrev MarketId := ℕ
abbrev OutcomeId := ℕ
abbrev OrderId := ℕ
abbrev Timestamp := ℕ

/-- `Numeric(20, 8)`: the columns keep eight decimals. -/
def scale : ℕ := 10 ^ 8

theorem scale_pos : 0 < scale := by decide

/-- `PositiveMoney`: what the request schemas accept as an amount. -/
structure PositiveMoney where
  value : ℚ
  pos : 0 < value
  grid : OnGrid scale value

namespace PositiveMoney

theorem eq_of_value {left right : PositiveMoney} (same : left.value = right.value) :
    left = right := by
  cases left
  cases right
  cases same
  rfl

instance : DecidableEq PositiveMoney := fun left right =>
  decidable_of_iff (left.value = right.value) ⟨eq_of_value, congrArg value⟩

end PositiveMoney

theorem pos_four : (0 : ℚ) < 4 := by norm_num
theorem pos_five : (0 : ℚ) < 5 := by norm_num
theorem pos_ten : (0 : ℚ) < 10 := by norm_num
theorem pos_fifty : (0 : ℚ) < 50 := by norm_num
theorem pos_hundred : (0 : ℚ) < 100 := by norm_num
theorem pos_thousand : (0 : ℚ) < 1000 := by norm_num

theorem grid_four : OnGrid scale 4 := by decide +kernel
theorem grid_five : OnGrid scale 5 := by decide +kernel
theorem grid_ten : OnGrid scale 10 := by decide +kernel
theorem grid_fifty : OnGrid scale 50 := by decide +kernel
theorem grid_hundred : OnGrid scale 100 := by decide +kernel
theorem grid_thousand : OnGrid scale 1000 := by decide +kernel

/-! Fee rates, as `config.py` sets them. -/

def tradingFeeRate : ℚ := 2 / 100
def protocolFeeRate : ℚ := 1 / 100
def splitMergeFeeRate : ℚ := 2 / 100
def referralRewardAmount : ℚ := 1

inductive Side where
  | buy
  | sell
deriving DecidableEq, Repr

/-- `"sell" if side == "buy" else "buy"`. -/
def Side.opposite : Side → Side
  | .buy => .sell
  | .sell => .buy

inductive OrderType where
  | market
  | limit
  | fillOrKill
deriving DecidableEq, Repr

/-- `orders.status`; `partiallyFilled` is the source's `"partial"`. -/
inductive OrderStatus where
  | pending
  | partiallyFilled
  | filled
  | cancelled
  | expired
deriving DecidableEq, Repr

/-- `status in ("pending", "partial")`. -/
def OrderStatus.isOpen : OrderStatus → Bool
  | .pending | .partiallyFilled => true
  | .filled | .cancelled | .expired => false

inductive MarketStatus where
  | active
  | closed
  | resolving
  | resolved
  | disputeWindow
  | pendingReview
  | rejected
deriving DecidableEq, Repr

/-- An outcome's name after `lower()`, the only form the trading code compares. -/
inductive OutcomeName where
  | yes
  | no
  | named (label : String)
deriving DecidableEq, Repr

structure Wallet where
  userId : UserId
  balance : ℚ
  lockedBalance : ℚ
deriving DecidableEq, Repr

/-- `wallet.balance - wallet.locked_balance`. -/
def Wallet.available (wallet : Wallet) : ℚ := wallet.balance - wallet.lockedBalance

namespace Wallet

def credit (amount : ℚ) (wallet : Wallet) : Wallet :=
  { wallet with balance := wallet.balance + amount }

def debit (amount : ℚ) (wallet : Wallet) : Wallet :=
  { wallet with balance := wallet.balance - amount }

theorem debit_userId (amount : ℚ) (wallet : Wallet) :
    (wallet.debit amount).userId = wallet.userId := rfl

def lock (amount : ℚ) (wallet : Wallet) : Wallet :=
  { wallet with lockedBalance := wallet.lockedBalance + amount }

/-- Every release of a reservation is clamped at zero. -/
def release (amount : ℚ) (wallet : Wallet) : Wallet :=
  { wallet with lockedBalance := max 0 (wallet.lockedBalance - amount) }

end Wallet

structure Position where
  userId : UserId
  marketId : MarketId
  outcomeId : OutcomeId
  sharesHeld : ℚ
  averagePrice : ℚ
  realizedPnl : ℚ
  settledAt : Option Timestamp
deriving DecidableEq, Repr

structure PositionKey where
  userId : UserId
  marketId : MarketId
  outcomeId : OutcomeId
deriving DecidableEq, Repr

def Position.key (position : Position) : PositionKey :=
  ⟨position.userId, position.marketId, position.outcomeId⟩

/-- `remainingAmount` is a USDC budget for a buy and a share count for a sell. -/
structure Order where
  id : OrderId
  userId : UserId
  marketId : MarketId
  outcomeId : OutcomeId
  side : Side
  orderType : OrderType
  amount : ℚ
  price : ℚ
  remainingAmount : ℚ
  status : OrderStatus
  expiresAt : Option Timestamp
  sharesBought : Option ℚ
  sharesSold : Option ℚ
  feesPaid : Option ℚ
  clientOrderId : Option String
  createdAt : Timestamp
  executedAt : Option Timestamp
deriving DecidableEq, Repr

structure PoolKey where
  marketId : MarketId
  outcomeId : Option OutcomeId
deriving DecidableEq, Repr

structure LiquidityPool where
  marketId : MarketId
  outcomeId : Option OutcomeId
  yesShares : ℚ
  noShares : ℚ
  collateral : ℚ
  feeRate : ℚ
  lpTokenSupply : ℚ
  protocolFees : ℚ
deriving DecidableEq, Repr

def LiquidityPool.key (pool : LiquidityPool) : PoolKey := ⟨pool.marketId, pool.outcomeId⟩

structure LPShare where
  pool : PoolKey
  userId : UserId
  lpTokens : ℚ
  collateralDeposited : ℚ
deriving DecidableEq, Repr

structure LPShareKey where
  pool : PoolKey
  userId : UserId
deriving DecidableEq, Repr

def LPShare.key (share : LPShare) : LPShareKey := ⟨share.pool, share.userId⟩

structure Outcome where
  id : OutcomeId
  marketId : MarketId
  name : OutcomeName
  outcomeIndex : ℕ
deriving DecidableEq, Repr

theorem yes_and_no :
    (([⟨1, 1, .yes, 0⟩, ⟨2, 1, .no, 1⟩] : List Outcome).map Outcome.id).Nodup := by decide

structure Market where
  id : MarketId
  status : MarketStatus
  closesAt : Timestamp
  resolvedAt : Option Timestamp
  winningOutcomeId : Option OutcomeId
  proposedOutcomeId : Option OutcomeId
  disputeDeadline : Option Timestamp
  totalLiquidity : ℚ
  totalVolume : ℚ
  numTrades : ℕ
deriving DecidableEq, Repr

structure Trade where
  userId : UserId
  marketId : MarketId
  outcome : Option OutcomeName
  side : Side
  price : ℚ
  amount : ℚ
  executedAt : Timestamp
deriving DecidableEq, Repr

inductive TransactionType where
  | tradeBuy
  | tradeSell
  | limitOrderLock
  | split
  | merge
  | liquidityAdd
  | liquidityRemove
  | liquidityRemoval
  | protocolFee
  | settlementWin
  | settlementLoss
  | referralReward
  | withdrawal
deriving DecidableEq, Repr

/-- What a ledger row's `reference_id` points at. -/
inductive Reference where
  | none
  | order (id : OrderId)
  | market (id : MarketId)
  | pool (key : PoolKey)
  | referral (referred : UserId)
  | withdrawal (key : Option String)
deriving DecidableEq, Repr

structure Transaction where
  userId : UserId
  type : TransactionType
  amount : ℚ
  balanceAfter : ℚ
  reference : Reference
deriving DecidableEq, Repr

structure Referral where
  referrerId : Option UserId
  referredId : Option UserId
  completed : Bool
  rewardAmount : ℚ
deriving DecidableEq, Repr

inductive DisputeStatus where
  | isOpen
  | upheld
  | dismissed
deriving DecidableEq, Repr

structure Dispute where
  id : ℕ
  marketId : MarketId
  userId : UserId
  status : DisputeStatus
deriving DecidableEq, Repr

structure Database where
  wallets : Table Wallet.userId
  positions : Table Position.key
  orders : Table Order.id
  pools : Table LiquidityPool.key
  lpShares : Table LPShare.key
  markets : Table Market.id
  outcomes : Table Outcome.id
  disputes : Table Dispute.id
  referrals : List Referral
  trades : List Trade
  transactions : List Transaction
  /-- The account with `is_system`, once one has been created. -/
  systemUser : Option UserId

/-- The conditions clients tell apart by `error_code`. -/
inductive ErrorCode where
  | validationError
  | invalidPrice
  | marketNoLiquidity
  | insufficientShares
  | postOnlyWouldCross
  | orderNotFillable
  | quoteUnavailable
  | quoteNotFound
  | quoteCorrupted
  | quoteExpired
  | quoteForbidden
  | notBinaryMarket
  | outcomeRequired
  | poolEscrowEmpty
  | insufficientLPTokens
  | escrowFloor
  | nothingToClaim
  | escrowInsufficient
deriving DecidableEq, Repr

/-- What an operation can raise.  Nothing is committed when it does. -/
inductive Error where
  | validation (code : ErrorCode)
  | notFound
  | conflict
  | idempotency
  | forbidden
  | serviceUnavailable
  | marketClosed
  | insufficientBalance (available required : ℚ)
  | slippageExceeded
  | valueError
  | escrowShortfall
  /-- `decimal.DivisionByZero`, raised by a division the code does not guard. -/
  | divisionByZero
  /-- A `NOT NULL` or unique constraint refused the row. -/
  | integrity
  /-- A method call on `None`. -/
  | attributeError
deriving DecidableEq, Repr

namespace LiquidityPool

/-- Move USDC into the escrow. -/
def creditCollateral (pool : LiquidityPool) (amount : ℚ) : Except Error LiquidityPool :=
  if amount < 0 then .error .valueError
  else .ok { pool with collateral := pool.collateral + amount }

/-- Move USDC out of the escrow; `round` is the arithmetic's rounding. -/
def debitCollateral (round : ℚ → ℚ) (pool : LiquidityPool) (amount : ℚ) :
    Except Error LiquidityPool :=
  if amount ≤ 0 then .ok pool
  else if pool.collateral < amount then .error .escrowShortfall
  else .ok { pool with collateral := round (pool.collateral - amount) }

end LiquidityPool

end PredictX
