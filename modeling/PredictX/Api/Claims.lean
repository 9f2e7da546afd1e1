import PredictX.Workers.SettlementCases

namespace PredictX.Settlement

open PredictX.Data

/-! `claim_winnings`: one winner is paid out of the escrow, whether or not the settlement
has run.  The market row is read without a lock, so the outcome it names is a parameter of
the rest of the transaction.
-/

/-- The outcome a market's winners can claim. -/
def claimable (row : Market) : Except Error OutcomeId :=
  if row.status ≠ .resolving ∧ row.status ≠ .resolved then .error (.validation .validationError)
  else
    match row.winningOutcomeId with
    | none => .error (.validation .validationError)
    | some winning => .ok winning

/-- The claimed row keeps no shares. -/
def claimRow (round : ℚ → ℚ) (now : Timestamp) (payout : ℚ) (position : Position) : Position :=
  { position with
    settledAt := some now
    realizedPnl := round (position.realizedPnl + payout)
    sharesHeld := 0 }

/-- The claim once the winning outcome is known.  A missing pool holds nothing. -/
def payClaim (round : ℚ → ℚ) (now : Timestamp) (user : UserId) (db : Database)
    (market : MarketId) (winning : OutcomeId) : Except Error Settled :=
  let pool := settlementPool db.pools market winning
  match db.positions.find? ⟨user, market, winning⟩ with
  | none => .error (.validation .validationError)
  | some position =>
      if ¬ (0 < position.sharesHeld ∧ position.settledAt = none) then
        .error (.validation .validationError)
      else
        match db.wallets.find? user with
        | none => .error .notFound
        | some wallet =>
            let payout := position.sharesHeld
            if payout ≤ 0 then .error (.validation .nothingToClaim)
            else if (pool.map LiquidityPool.collateral).getD 0 < payout then
              .error (.validation .escrowInsufficient)
            else
              match debitPool round pool payout with
              | .error reason => .error reason
              | .ok debited =>
                  .ok ⟨{ db with
                      pools := writePool db.pools debited
                      positions := db.positions.modify position.key (claimRow round now payout)
                      wallets := db.wallets.modify user (receive round payout)
                      transactions := db.transactions ++
                        [⟨user, .settlementWin, payout, round (wallet.balance + payout),
                          .market market⟩] },
                    [⟨.position position.key, user, payout, payout⟩]⟩

/-- `claim_winnings`. -/
def claimWinnings (round : ℚ → ℚ) (now : Timestamp) (user : UserId) (db : Database)
    (market : MarketId) : Except Error Settled :=
  match db.markets.find? market with
  | none => .error .notFound
  | some row =>
      match claimable row with
      | .error reason => .error reason
      | .ok winning => payClaim round now user db market winning

/-- The database and all payouts so far. -/
structure Books where
  db : Database
  payouts : List Payout

def Books.post (books : Books) (settled : Settled) : Books :=
  ⟨settled.db, books.payouts ++ settled.payouts⟩

/-- The outcome recorded as the winner. -/
def winner (db : Database) (market : MarketId) : Option OutcomeId :=
  (db.markets.find? market).bind Market.winningOutcomeId

variable {round : ℚ → ℚ} {now : Timestamp} {user : UserId} {db : Database} {market : MarketId}
  {winning : OutcomeId} {settled : Settled}

theorem claimable_ok {row : Market} (ok : claimable row = .ok winning) :
    (row.status = .resolving ∨ row.status = .resolved) ∧ row.winningOutcomeId = some winning := by
  unfold claimable at ok
  split at ok
  · contradiction
  rename_i open_
  split at ok
  · contradiction
  rename_i recorded
  cases ok
  refine ⟨?_, recorded⟩
  by_contra neither
  exact open_ (not_or.mp neither)

/-- What a claim that is paid needed and wrote. -/
theorem payClaim_ok (ran : payClaim round now user db market winning = .ok settled) :
    ∃ pool position wallet, settlementPool db.pools market winning = some pool ∧
      db.positions.find? ⟨user, market, winning⟩ = some position ∧
      0 < position.sharesHeld ∧ position.settledAt = none ∧
      db.wallets.find? user = some wallet ∧ position.sharesHeld ≤ pool.collateral ∧
      settled = ⟨{ db with
          pools := writePool db.pools (some
            { pool with collateral := round (pool.collateral - position.sharesHeld) })
          positions := db.positions.modify position.key (claimRow round now position.sharesHeld)
          wallets := db.wallets.modify user (receive round position.sharesHeld)
          transactions := db.transactions ++
            [⟨user, .settlementWin, position.sharesHeld,
              round (wallet.balance + position.sharesHeld), .market market⟩] },
        [⟨.position position.key, user, position.sharesHeld, position.sharesHeld⟩]⟩ := by
  unfold payClaim at ran
  dsimp only at ran
  split at ran
  · contradiction
  rename_i position found
  split at ran
  · contradiction
  rename_i due
  obtain ⟨positive, unsettled⟩ := not_not.mp due
  split at ran
  · contradiction
  rename_i wallet owner
  split at ran
  · contradiction
  split at ran
  · contradiction
  rename_i covered
  split at ran
  · contradiction
  rename_i debited taken
  cases ran
  cases isPool : settlementPool db.pools market winning with
  | none =>
      rw [isPool] at taken
      contradiction
  | some pool =>
      rw [isPool] at taken covered
      have enough : position.sharesHeld ≤ pool.collateral := not_lt.mp covered
      have left : debitPool round (some pool) position.sharesHeld =
          .ok (some { pool with collateral := round (pool.collateral - position.sharesHeld) }) := by
        simp only [debitPool, LiquidityPool.debitCollateral, if_neg (not_le.mpr positive),
          if_neg (not_lt.mpr enough)]
      cases left.symm.trans taken
      exact ⟨pool, position, wallet, rfl, found, positive, unsettled, owner, enough, rfl⟩

theorem claimWinnings_ok (ran : claimWinnings round now user db market = .ok settled) :
    ∃ winning, winner db market = some winning ∧
      payClaim round now user db market winning = .ok settled := by
  unfold claimWinnings at ran
  split at ran
  · contradiction
  rename_i row found
  split at ran
  · contradiction
  rename_i winning claimed
  refine ⟨winning, ?_, ran⟩
  unfold winner
  rw [found]
  exact (claimable_ok claimed).2

end PredictX.Settlement
