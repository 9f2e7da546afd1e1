import PredictX.Models
import PredictX.Data.Sessions

namespace PredictX

open PredictX.Data

/-! The rows as the ORM writes them back: column by column, the key apart. -/

def Wallet.writeBack (loaded value stored : Wallet) : Wallet where
  userId := stored.userId
  balance := writeColumn loaded.balance value.balance stored.balance
  lockedBalance := writeColumn loaded.lockedBalance value.lockedBalance stored.lockedBalance

def Position.writeBack (loaded value stored : Position) : Position where
  userId := stored.userId
  marketId := stored.marketId
  outcomeId := stored.outcomeId
  sharesHeld := writeColumn loaded.sharesHeld value.sharesHeld stored.sharesHeld
  averagePrice := writeColumn loaded.averagePrice value.averagePrice stored.averagePrice
  realizedPnl := writeColumn loaded.realizedPnl value.realizedPnl stored.realizedPnl
  settledAt := writeColumn loaded.settledAt value.settledAt stored.settledAt

def Order.writeBack (loaded value stored : Order) : Order where
  id := stored.id
  userId := writeColumn loaded.userId value.userId stored.userId
  marketId := writeColumn loaded.marketId value.marketId stored.marketId
  outcomeId := writeColumn loaded.outcomeId value.outcomeId stored.outcomeId
  side := writeColumn loaded.side value.side stored.side
  orderType := writeColumn loaded.orderType value.orderType stored.orderType
  amount := writeColumn loaded.amount value.amount stored.amount
  price := writeColumn loaded.price value.price stored.price
  remainingAmount := writeColumn loaded.remainingAmount value.remainingAmount stored.remainingAmount
  status := writeColumn loaded.status value.status stored.status
  expiresAt := writeColumn loaded.expiresAt value.expiresAt stored.expiresAt
  sharesBought := writeColumn loaded.sharesBought value.sharesBought stored.sharesBought
  sharesSold := writeColumn loaded.sharesSold value.sharesSold stored.sharesSold
  feesPaid := writeColumn loaded.feesPaid value.feesPaid stored.feesPaid
  clientOrderId := writeColumn loaded.clientOrderId value.clientOrderId stored.clientOrderId
  createdAt := writeColumn loaded.createdAt value.createdAt stored.createdAt
  executedAt := writeColumn loaded.executedAt value.executedAt stored.executedAt

def LiquidityPool.writeBack (loaded value stored : LiquidityPool) : LiquidityPool where
  marketId := stored.marketId
  outcomeId := stored.outcomeId
  yesShares := writeColumn loaded.yesShares value.yesShares stored.yesShares
  noShares := writeColumn loaded.noShares value.noShares stored.noShares
  collateral := writeColumn loaded.collateral value.collateral stored.collateral
  feeRate := writeColumn loaded.feeRate value.feeRate stored.feeRate
  lpTokenSupply := writeColumn loaded.lpTokenSupply value.lpTokenSupply stored.lpTokenSupply
  protocolFees := writeColumn loaded.protocolFees value.protocolFees stored.protocolFees

def Market.writeBack (loaded value stored : Market) : Market where
  id := stored.id
  status := writeColumn loaded.status value.status stored.status
  closesAt := writeColumn loaded.closesAt value.closesAt stored.closesAt
  resolvedAt := writeColumn loaded.resolvedAt value.resolvedAt stored.resolvedAt
  winningOutcomeId :=
    writeColumn loaded.winningOutcomeId value.winningOutcomeId stored.winningOutcomeId
  proposedOutcomeId :=
    writeColumn loaded.proposedOutcomeId value.proposedOutcomeId stored.proposedOutcomeId
  disputeDeadline := writeColumn loaded.disputeDeadline value.disputeDeadline stored.disputeDeadline
  totalLiquidity := writeColumn loaded.totalLiquidity value.totalLiquidity stored.totalLiquidity
  totalVolume := writeColumn loaded.totalVolume value.totalVolume stored.totalVolume
  numTrades := writeColumn loaded.numTrades value.numTrades stored.numTrades

/-! The key stays. -/

theorem Wallet.writeBack_userId (loaded value stored : Wallet) :
    (Wallet.writeBack loaded value stored).userId = stored.userId := rfl

theorem Position.writeBack_key (loaded value stored : Position) :
    (Position.writeBack loaded value stored).key = stored.key := rfl

theorem Order.writeBack_id (loaded value stored : Order) :
    (Order.writeBack loaded value stored).id = stored.id := rfl

theorem LiquidityPool.writeBack_key (loaded value stored : LiquidityPool) :
    (LiquidityPool.writeBack loaded value stored).key = stored.key := rfl

theorem Market.writeBack_id (loaded value stored : Market) :
    (Market.writeBack loaded value stored).id = stored.id := rfl

/-! A row that nobody has stored anew becomes what was assigned to it. -/

theorem Wallet.writeBack_stored {loaded value : Wallet} (same : value.userId = loaded.userId) :
    Wallet.writeBack loaded value loaded = value := by
  simp only [Wallet.writeBack, writeColumn_stored, ← same]

theorem Position.writeBack_stored {loaded value : Position} (same : value.key = loaded.key) :
    Position.writeBack loaded value loaded = value := by
  obtain ⟨user, market, outcome⟩ := PositionKey.mk.injEq .. ▸ same
  simp only [Position.writeBack, writeColumn_stored, ← user, ← market, ← outcome]

theorem Order.writeBack_stored {loaded value : Order} (same : value.id = loaded.id) :
    Order.writeBack loaded value loaded = value := by
  simp only [Order.writeBack, writeColumn_stored, ← same]

theorem LiquidityPool.writeBack_stored {loaded value : LiquidityPool}
    (same : value.key = loaded.key) : LiquidityPool.writeBack loaded value loaded = value := by
  obtain ⟨market, outcome⟩ := PoolKey.mk.injEq .. ▸ same
  simp only [LiquidityPool.writeBack, writeColumn_stored, ← market, ← outcome]

theorem Market.writeBack_stored {loaded value : Market} (same : value.id = loaded.id) :
    Market.writeBack loaded value loaded = value := by
  simp only [Market.writeBack, writeColumn_stored, ← same]

/-- Without an assignment there is no UPDATE. -/
theorem Market.writeBack_loaded (loaded stored : Market) :
    Market.writeBack loaded loaded stored = stored := by
  simp [Market.writeBack]

end PredictX
