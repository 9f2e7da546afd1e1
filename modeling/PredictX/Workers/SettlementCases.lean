import PredictX.Workers.Settlement
import PredictX.Data.ProRata

namespace PredictX.Settlement

open PredictX.Data

/-! What a settlement pays.

Each loop has two lemmas: what a run of it that returns has paid and written (`_paid`),
and when it returns and what it leaves in the escrow (`_spec`).
-/

variable {round : ℚ → ℚ} {now : Timestamp} {market : MarketId} {winning : OutcomeId}
  {treasury : UserId} {ledger after : Ledger} {pool : LiquidityPool}

/-- The wallets after a list of payouts. -/
def credits (round : ℚ → ℚ) (payouts : List Payout) (wallets : Table Wallet.userId) :
    Table Wallet.userId :=
  payouts.foldl (fun wallets payout =>
    wallets.modify payout.user (receive round payout.credited)) wallets

@[simp] theorem credits_nil (wallets : Table Wallet.userId) : credits round [] wallets = wallets :=
  rfl

theorem credits_append (left right : List Payout) (wallets : Table Wallet.userId) :
    credits round (left ++ right) wallets = credits round right (credits round left wallets) :=
  List.foldl_append

theorem isSome_receive {wallets : Table Wallet.userId} {user other : UserId} {amount : ℚ} :
    ((wallets.modify user (receive round amount)).find? other).isSome =
      (wallets.find? other).isSome :=
  Table.isSome_find?_modify

/-- A payout to someone without a wallet is lost. -/
theorem receive_missing {wallets : Table Wallet.userId} {user : UserId} {amount : ℚ}
    (missing : wallets.find? user = none) :
    wallets.modify user (receive round amount) = wallets :=
  Table.modify_of_find?_none missing

theorem debitPool_ok {paid : Option LiquidityPool} {amount : ℚ} (positive : 0 < amount)
    (debited : debitPool round ledger.pool amount = .ok paid) :
    ∃ pool, ledger.pool = some pool ∧ amount ≤ pool.collateral ∧
      paid = some { pool with collateral := round (pool.collateral - amount) } := by
  unfold debitPool at debited
  split at debited
  · contradiction
  rename_i pool isPool
  split at debited
  · contradiction
  rename_i row taken
  cases debited
  unfold LiquidityPool.debitCollateral at taken
  rw [if_neg (not_le.mpr positive)] at taken
  split at taken
  · contradiction
  cases taken
  exact ⟨pool, isPool, not_lt.mp ‹_›, rfl⟩

theorem debitPool_covered {amount : ℚ} (isPool : ledger.pool = some pool) (positive : 0 < amount)
    (covered : amount ≤ pool.collateral) :
    debitPool round ledger.pool amount =
      .ok (some { pool with collateral := round (pool.collateral - amount) }) := by
  simp only [debitPool, isPool, LiquidityPool.debitCollateral, if_neg (not_le.mpr positive),
    if_neg (not_lt.mpr covered)]

/-! # Positions -/

/-- The payout of one position, if it gets one. -/
def win (wallets : Table Wallet.userId) (winning : OutcomeId) (position : Position) :
    Option Payout :=
  if position.settledAt = none ∧ (wallets.find? position.userId).isSome ∧
      0 < payoutOf winning position then
    some ⟨.position position.key, position.userId, payoutOf winning position,
      payoutOf winning position⟩
  else none

def wins (wallets : Table Wallet.userId) (winning : OutcomeId) (rows : List Position) :
    List Payout :=
  rows.filterMap (win wallets winning)

theorem win_eq_some {wallets : Table Wallet.userId} {position : Position} {payout : Payout} :
    win wallets winning position = some payout ↔
      position.settledAt = none ∧ (wallets.find? position.userId).isSome = true ∧
        0 < payoutOf winning position ∧
        payout = ⟨.position position.key, position.userId, payoutOf winning position,
          payoutOf winning position⟩ := by
  unfold win
  split
  · rename_i due
    simp [due.1, due.2.1, due.2.2, eq_comm]
  · rename_i notDue
    simp only [reduceCtorEq, false_iff]
    exact fun due => notDue ⟨due.1, due.2.1, due.2.2.1⟩

theorem wins_debited_nonneg (winning : OutcomeId) (wallets : Table Wallet.userId)
    (rows : List Position) :
    0 ≤ ((wins wallets winning rows).map Payout.debited).sum := by
  refine List.sum_nonneg fun value member => ?_
  obtain ⟨payout, payoutMember, rfl⟩ := List.mem_map.mp member
  obtain ⟨row, _, won⟩ := List.mem_filterMap.mp payoutMember
  obtain ⟨_, _, positive, rfl⟩ := win_eq_some.mp won
  exact positive.le

theorem win_congr {wallets wallets' : Table Wallet.userId}
    (same : ∀ user, (wallets'.find? user).isSome = (wallets.find? user).isSome) :
    win wallets' winning = win wallets winning := by
  funext position
  unfold win
  rw [same]

theorem settled_key (round : ℚ → ℚ) (now : Timestamp) (winning : OutcomeId)
    (position row : Position) :
    (settleRow round now (payoutOf winning position) row).key = row.key := rfl

/-- The position table after the loop: the rows of holders with wallets are settled. -/
def settleRows (round : ℚ → ℚ) (now : Timestamp) (winning : OutcomeId)
    (wallets : Table Wallet.userId) (rows : List Position) (positions : Table Position.key) :
    Table Position.key :=
  rows.foldl (fun positions row =>
    if row.settledAt = none ∧ (wallets.find? row.userId).isSome then
      positions.modify row.key (settleRow round now (payoutOf winning row))
        (settled_key round now winning row)
    else positions) positions

/-- The escrow after a list of payouts. -/
def drawn (round : ℚ → ℚ) (payouts : List Payout) (collateral : ℚ) : ℚ :=
  payouts.foldl (fun left payout => round (left - payout.debited)) collateral

/-- The pool after a list of payouts: a sweep clears the fees. -/
def withdrawn (round : ℚ → ℚ) (payouts : List Payout) (pool : LiquidityPool) : LiquidityPool :=
  { pool with
    collateral := drawn round payouts pool.collateral
    protocolFees :=
      if payouts.any (fun payout => payout.payee = .treasury) then 0 else pool.protocolFees }

theorem withdrawn_append (left right : List Payout) (pool : LiquidityPool) :
    withdrawn round (left ++ right) pool = withdrawn round right (withdrawn round left pool) := by
  unfold withdrawn drawn
  rw [List.foldl_append, List.any_append]
  cases left.any _ <;> cases right.any _ <;> simp

/-- What one loop of a settlement wrote, besides its own table. -/
structure Paid (round : ℚ → ℚ) (before after : Ledger) (payouts : List Payout) : Prop where
  log : after.payouts = before.payouts ++ payouts
  wallets : after.wallets = credits round payouts before.wallets
  escrow : after.pool = before.pool.map (withdrawn round payouts)

theorem Paid.of_idle (same : after.pool = ledger.pool) (log : after.payouts = ledger.payouts)
    (wallets : after.wallets = ledger.wallets) : Paid round ledger after [] :=
  ⟨by rw [log, List.append_nil], wallets, same.trans Option.map_id'.symm⟩

theorem Paid.refl (ledger : Ledger) : Paid round ledger ledger [] := .of_idle rfl rfl rfl

theorem Paid.trans {middle : Ledger} {left right : List Payout}
    (first : Paid round ledger middle left) (second : Paid round middle after right) :
    Paid round ledger after (left ++ right) := by
  refine ⟨?_, ?_, ?_⟩
  · rw [second.log, first.log, List.append_assoc]
  · rw [second.wallets, first.wallets, credits_append]
  · rw [second.escrow, first.escrow, Option.map_map]
    congr 1
    funext pool
    exact (withdrawn_append left right pool).symm

/-- One debit. -/
theorem withdrawn_debitPool {paid : Option LiquidityPool} {payout : Payout}
    (positive : 0 < payout.debited) (notFees : payout.payee ≠ .treasury)
    (debited : debitPool round ledger.pool payout.debited = .ok paid) :
    paid = ledger.pool.map (withdrawn round [payout]) := by
  obtain ⟨pool, isPool, _, rfl⟩ := debitPool_ok positive debited
  simp [isPool, withdrawn, drawn, notFees]

theorem isSome_credits (payouts : List Payout) (wallets : Table Wallet.userId) (user : UserId) :
    ((credits round payouts wallets).find? user).isSome = (wallets.find? user).isSome := by
  induction payouts generalizing wallets with
  | nil => rfl
  | cons payout rest ih => exact (ih _).trans isSome_receive

theorem Paid.isSome_wallet {payouts : List Payout} (paid : Paid round ledger after payouts)
    (user : UserId) : (after.wallets.find? user).isSome = (ledger.wallets.find? user).isSome := by
  rw [paid.wallets, isSome_credits]

/-- The three ways a position can go. -/
theorem settlePosition_ok {position : Position}
    (ran : settlePosition round now market winning ledger position = .ok after) :
    Paid round ledger after (win ledger.wallets winning position).toList ∧
      after.lpShares = ledger.lpShares ∧
      after.positions = settleRows round now winning ledger.wallets [position]
        ledger.positions := by
  unfold settlePosition at ran
  split at ran
  · rename_i settled
    have notDue : position.settledAt ≠ none := by
      intro due
      simp [due] at settled
    cases ran
    simp only [win, settleRows, notDue, false_and, if_false, Option.toList_none,
      List.foldl_cons, List.foldl_nil, and_true]
    exact .refl _
  rename_i unsettled
  have due : position.settledAt = none := by simpa using unsettled
  split at ran
  · rename_i missing
    cases ran
    simp only [win, settleRows, missing, Option.isSome_none, Bool.false_eq_true, false_and,
      and_false, if_false, Option.toList_none, List.foldl_cons, List.foldl_nil, and_true]
    exact .refl _
  rename_i wallet found
  simp only [win, settleRows, due, found, Option.isSome_some, true_and, if_true,
    List.foldl_cons, List.foldl_nil]
  dsimp only at ran
  split at ran
  · rename_i positive
    split at ran
    · contradiction
    rename_i taken
    cases ran
    rw [if_pos positive]
    exact ⟨⟨rfl, rfl, withdrawn_debitPool positive (by simp) taken⟩, rfl, rfl⟩
  · rename_i nothing
    cases ran
    rw [if_neg nothing]
    exact ⟨.of_idle rfl rfl rfl, rfl, rfl⟩

/-- What the position loop paid. -/
theorem settlePositions_paid {rows : List Position}
    (ran : rows.foldlM (settlePosition round now market winning) ledger = .ok after) :
    Paid round ledger after (wins ledger.wallets winning rows) ∧
      after.lpShares = ledger.lpShares ∧
      after.positions = settleRows round now winning ledger.wallets rows ledger.positions := by
  induction rows generalizing ledger with
  | nil =>
      cases ran
      exact ⟨.refl _, rfl, rfl⟩
  | cons row rest ih =>
      rw [List.foldlM_cons] at ran
      obtain ⟨next, head, tail⟩ := bind_eq_ok.mp ran
      obtain ⟨paid, shares, positions⟩ := settlePosition_ok head
      obtain ⟨paidLater, sharesLater, positionsLater⟩ := ih tail
      have sameWins : win next.wallets winning = win ledger.wallets winning :=
        win_congr paid.isSome_wallet
      have split : wins ledger.wallets winning (row :: rest) =
          (win ledger.wallets winning row).toList ++ wins next.wallets winning rest := by
        unfold wins
        rw [sameWins, List.filterMap_cons]
        cases win ledger.wallets winning row <;> rfl
      refine ⟨?_, sharesLater.trans shares, ?_⟩
      · rw [split]
        exact paid.trans paidLater
      · rw [positionsLater, positions]
        unfold settleRows
        rw [List.foldl_cons, List.foldl_nil, List.foldl_cons]
        congr 1
        funext positions row
        rw [paid.isSome_wallet]

/-- A position without a payout needs no escrow. -/
theorem settlePosition_idle (round : ℚ → ℚ) (now : Timestamp) (market : MarketId)
    {position : Position}
    (idle : win ledger.wallets winning position = none) :
    ∃ next, settlePosition round now market winning ledger position = .ok next ∧
      next.pool = ledger.pool := by
  unfold settlePosition
  split
  · exact ⟨ledger, rfl, rfl⟩
  rename_i unsettled
  have due : position.settledAt = none := by simpa using unsettled
  split
  · exact ⟨ledger, rfl, rfl⟩
  rename_i found
  have nothing : ¬ 0 < payoutOf winning position := by
    simpa [win, due, found] using idle
  simp only [if_neg nothing]
  exact ⟨_, rfl, rfl⟩

theorem wins_next (rest : List Position) {next : Ledger} {position : Position}
    (head : settlePosition round now market winning ledger position = .ok next) :
    wins next.wallets winning rest = wins ledger.wallets winning rest := by
  unfold wins
  rw [win_congr (settlePosition_ok head).1.isSome_wallet]

theorem settlePositions_idle (round : ℚ → ℚ) (now : Timestamp) (market : MarketId)
    {rows : List Position}
    (idle : wins ledger.wallets winning rows = []) :
    ∃ after, rows.foldlM (settlePosition round now market winning) ledger = .ok after ∧
      after.pool = ledger.pool := by
  induction rows generalizing ledger with
  | nil => exact ⟨ledger, rfl, rfl⟩
  | cons row rest ih =>
      obtain ⟨none_, later⟩ := List.forall_mem_cons.mp (List.filterMap_eq_nil_iff.mp idle)
      obtain ⟨next, head, samePool⟩ := settlePosition_idle round now market none_
      obtain ⟨after, tail, afterPool⟩ := @ih next
        ((wins_next rest head).trans (List.filterMap_eq_nil_iff.mpr later))
      exact ⟨after, by rw [List.foldlM_cons, head]; exact tail, afterPool.trans samePool⟩

/-- The position loop returns when the escrow covers it, and leaves the rest. -/
theorem settlePositions_spec (now : Timestamp) (market : MarketId) {amount : ℚ → Prop}
    {bound : ℚ} {rows : List Position}
    (exact_ : ExactOn round amount bound) (isPool : ledger.pool = some pool)
    (escrow : amount pool.collateral) (bounded : pool.collateral ≤ bound)
    (shares : ∀ row ∈ rows, amount row.sharesHeld)
    (enough : ((wins ledger.wallets winning rows).map Payout.debited).sum ≤ pool.collateral) :
    ∃ after, rows.foldlM (settlePosition round now market winning) ledger = .ok after ∧
      after.pool = some { pool with collateral := pool.collateral -
        ((wins ledger.wallets winning rows).map Payout.debited).sum } := by
  induction rows generalizing ledger pool with
  | nil => exact ⟨ledger, rfl, by simpa [wins] using isPool⟩
  | cons row rest ih =>
      rw [List.forall_mem_cons] at shares
      rw [List.foldlM_cons]
      cases won : win ledger.wallets winning row with
      | none =>
          have split : wins ledger.wallets winning (row :: rest) =
              wins ledger.wallets winning rest := List.filterMap_cons_none won
          obtain ⟨next, head, samePool⟩ := settlePosition_idle round now market won
          rw [head, split, ← wins_next rest head]
          rw [split, ← wins_next rest head] at enough
          exact ih (samePool.trans isPool) escrow bounded shares.2 enough
      | some payout =>
          obtain ⟨unsettled, owner, positive, rfl⟩ := win_eq_some.mp won
          obtain ⟨wallet, found⟩ := Option.isSome_iff_exists.mp owner
          have split := List.filterMap_cons_some (l := rest) won
          have later := wins_debited_nonneg winning ledger.wallets rest
          rw [wins, split, List.map_cons, List.sum_cons, ← wins] at enough ⊢
          dsimp only at enough ⊢
          have covered : payoutOf winning row ≤ pool.collateral := by linarith
          have owed : amount (payoutOf winning row) := by
            unfold payoutOf
            split
            · exact shares.1
            · exact exact_.zero
          have left : round (pool.collateral - payoutOf winning row) =
              pool.collateral - payoutOf winning row :=
            exact_.round_eq (exact_.sub escrow owed) (sub_nonneg.mpr covered) (by linarith)
          obtain ⟨next, head, nextPool⟩ : ∃ next,
              settlePosition round now market winning ledger row = .ok next ∧
                next.pool = some { pool with
                  collateral := pool.collateral - payoutOf winning row } := by
            unfold settlePosition
            simp only [unsettled, Option.isSome_none, Bool.false_eq_true, if_false, found,
              if_pos positive, debitPool_covered isPool positive covered, left]
            exact ⟨_, rfl, rfl⟩
          rw [← wins_next rest head] at enough ⊢
          rw [head]
          obtain ⟨after, ran, afterPool⟩ := ih nextPool (exact_.sub escrow owed)
            (by dsimp only; linarith) shares.2 (by dsimp only; linarith)
          refine ⟨after, ran, ?_⟩
          rw [afterPool, ← sub_sub]

/-! # Fees -/

/-- The treasury's payout, if there is one. -/
def feePayout (treasury : UserId) (pool : Option LiquidityPool) : List Payout :=
  match pool with
  | none => []
  | some pool =>
      if 0 < pool.protocolFees then
        [⟨.treasury, treasury, pool.protocolFees, pool.protocolFees⟩]
      else []

theorem sweepFees_paid (ran : sweepFees round market treasury ledger = .ok after) :
    Paid round ledger after (feePayout treasury ledger.pool) ∧
      after.lpShares = ledger.lpShares ∧ after.positions = ledger.positions := by
  unfold sweepFees at ran
  split at ran
  · rename_i noPool
    cases ran
    rw [noPool]
    exact ⟨.refl _, rfl, rfl⟩
  rename_i pool isPool
  rw [isPool, feePayout]
  split at ran
  · rename_i owed
    rw [if_pos owed]
    split at ran
    · contradiction
    rename_i debited taken
    cases ran
    refine ⟨⟨rfl, rfl, ?_⟩, rfl, rfl⟩
    rw [LiquidityPool.debitCollateral, if_neg (not_le.mpr owed)] at taken
    split at taken
    · contradiction
    cases taken
    rw [isPool]
    simp [withdrawn, drawn]
  · rename_i nothing
    rw [if_neg nothing]
    cases ran
    exact ⟨.refl _, rfl, rfl⟩

/-- The sweep returns when the escrow covers the fees. -/
theorem sweepFees_spec (round : ℚ → ℚ) (market : MarketId) (treasury : UserId)
    (isPool : ledger.pool = some pool) (nonneg : 0 ≤ pool.protocolFees)
    (covered : pool.protocolFees ≤ pool.collateral)
    (left : round (pool.collateral - pool.protocolFees) =
      pool.collateral - pool.protocolFees) :
    ∃ after, sweepFees round market treasury ledger = .ok after ∧
      after.pool = some { pool with
        collateral := pool.collateral - pool.protocolFees, protocolFees := 0 } := by
  unfold sweepFees
  rw [isPool]
  dsimp only
  split
  · rename_i owed
    simp only [LiquidityPool.debitCollateral, if_neg (not_le.mpr owed),
      if_neg (not_lt.mpr covered), left]
    exact ⟨_, rfl, rfl⟩
  · rename_i nothing
    have zero : pool.protocolFees = 0 := le_antisymm (not_lt.mp nothing) nonneg
    refine ⟨ledger, rfl, isPool.trans ?_⟩
    rw [zero, sub_zero, ← zero]

/-! # Liquidity providers -/

/-- The payout of one provider.  Without a wallet it leaves the escrow all the same. -/
def redemption (round : ℚ → ℚ) (wallets : Table Wallet.userId) (rate : ℚ) (share : LPShare) :
    Option Payout :=
  if 0 < round (share.lpTokens * rate) then
    some ⟨.provider share.key, share.userId, round (share.lpTokens * rate),
      if (wallets.find? share.userId).isSome then round (share.lpTokens * rate) else 0⟩
  else none

def redemptions (round : ℚ → ℚ) (wallets : Table Wallet.userId) (pool : Option LiquidityPool)
    (shares : List LPShare) : List Payout :=
  match pool with
  | none => []
  | some pool => shares.filterMap (redemption round wallets (perToken round pool))

theorem redemption_congr {rate : ℚ} {wallets wallets' : Table Wallet.userId}
    (same : ∀ user, (wallets'.find? user).isSome = (wallets.find? user).isSome) :
    redemption round wallets' rate = redemption round wallets rate := by
  funext share
  unfold redemption
  rw [same]

/-- The provider rows after the loop: the tokens of those who were paid are burnt. -/
def burnRows (round : ℚ → ℚ) (wallets : Table Wallet.userId) (rate : ℚ) (shares : List LPShare)
    (lpShares : Table LPShare.key) : Table LPShare.key :=
  shares.foldl (fun lpShares share =>
    if 0 < round (share.lpTokens * rate) ∧ (wallets.find? share.userId).isSome then
      lpShares.modify share.key burn burn_key
    else lpShares) lpShares

theorem redeemShare_ok {rate : ℚ} {share : LPShare}
    (ran : redeemShare round rate ledger share = .ok after) :
    Paid round ledger after (redemption round ledger.wallets rate share).toList ∧
      after.positions = ledger.positions ∧
      after.lpShares = burnRows round ledger.wallets rate [share] ledger.lpShares := by
  unfold redeemShare at ran
  dsimp only at ran
  split at ran
  · rename_i nothing
    cases ran
    simp only [redemption, burnRows, not_lt.mpr nothing, false_and, if_false,
      Option.toList_none, List.foldl_cons, List.foldl_nil, and_true]
    exact .refl _
  rename_i positive
  have owed := not_le.mp positive
  split at ran
  · contradiction
  rename_i taken
  split at ran
  · rename_i missing
    cases ran
    simp only [redemption, burnRows, if_pos owed, missing, Option.isSome_none,
      Bool.false_eq_true, if_false, and_false, List.foldl_cons, List.foldl_nil, and_true]
    exact ⟨rfl, (receive_missing missing).symm, withdrawn_debitPool owed (by simp) taken⟩
  · rename_i wallet found
    cases ran
    simp only [redemption, burnRows, found, Option.isSome_some, if_true, owed, and_self,
      List.foldl_cons, List.foldl_nil, and_true]
    exact ⟨rfl, rfl, withdrawn_debitPool owed (by simp) taken⟩

theorem redeemLoop_paid {rate : ℚ} {shares : List LPShare}
    (ran : shares.foldlM (redeemShare round rate) ledger = .ok after) :
    Paid round ledger after (shares.filterMap (redemption round ledger.wallets rate)) ∧
      after.positions = ledger.positions ∧
      after.lpShares = burnRows round ledger.wallets rate shares ledger.lpShares := by
  induction shares generalizing ledger with
  | nil =>
      cases ran
      exact ⟨.refl _, rfl, rfl⟩
  | cons share rest ih =>
      rw [List.foldlM_cons] at ran
      obtain ⟨next, head, tail⟩ := bind_eq_ok.mp ran
      obtain ⟨paid, positions, lpShares⟩ := redeemShare_ok head
      obtain ⟨paidLater, positionsLater, lpLater⟩ := ih tail
      have split : (share :: rest).filterMap (redemption round ledger.wallets rate) =
          (redemption round ledger.wallets rate share).toList ++
            rest.filterMap (redemption round next.wallets rate) := by
        rw [redemption_congr paid.isSome_wallet, List.filterMap_cons]
        cases redemption round ledger.wallets rate share <;> rfl
      refine ⟨?_, positionsLater.trans positions, ?_⟩
      · rw [split]
        exact paid.trans paidLater
      · rw [lpLater, lpShares]
        unfold burnRows
        rw [List.foldl_cons, List.foldl_nil, List.foldl_cons]
        congr 1
        funext lpShares share
        rw [paid.isSome_wallet]

/-- The provider loop drains the escrow. -/
theorem redeemLoop_spec {rate : ℚ} {shares : List LPShare} {left : ℚ}
    (isPool : ledger.pool = some pool)
    (drained : drain round rate (shares.map LPShare.lpTokens) pool.collateral = some left) :
    ∃ after, shares.foldlM (redeemShare round rate) ledger = .ok after ∧
      after.pool = some { pool with collateral := left } := by
  induction shares generalizing ledger pool with
  | nil =>
      cases drained
      exact ⟨ledger, rfl, isPool⟩
  | cons share rest ih =>
      rw [List.foldlM_cons]
      rw [List.map_cons, drain] at drained
      split at drained
      · rename_i nothing
        have head : redeemShare round rate ledger share = .ok ledger := if_pos nothing
        rw [head]
        exact ih isPool drained
      rename_i positive
      have owed := not_le.mp positive
      split at drained
      · contradiction
      rename_i covered
      obtain ⟨next, head, nextPool⟩ : ∃ next, redeemShare round rate ledger share = .ok next ∧
          next.pool = some { pool with
            collateral := round (pool.collateral - round (share.lpTokens * rate)) } := by
        unfold redeemShare
        simp only [if_neg positive, debitPool_covered isPool owed (not_lt.mp covered)]
        split
        · exact ⟨_, rfl, rfl⟩
        · exact ⟨_, rfl, rfl⟩
      obtain ⟨after, tail, afterPool⟩ := ih nextPool drained
      exact ⟨after, by rw [head]; exact tail, afterPool⟩

theorem redeemShares_paid {shares : List LPShare}
    (ran : redeemShares round shares ledger = .ok after) :
    Paid round ledger after (redemptions round ledger.wallets ledger.pool shares) ∧
      after.positions = ledger.positions ∧
      after.lpShares = match ledger.pool with
        | none => ledger.lpShares
        | some pool => burnRows round ledger.wallets (perToken round pool) shares
            ledger.lpShares := by
  unfold redeemShares at ran
  unfold redemptions
  cases isPool : ledger.pool with
  | none =>
      rw [isPool] at ran
      cases ran
      exact ⟨.refl _, rfl, rfl⟩
  | some pool =>
      rw [isPool] at ran
      dsimp only at ran ⊢
      split at ran
      · contradiction
      · exact redeemLoop_paid ran

/-! # The settlement -/

section Settle

variable {done : Bool} {scan : Scan} {db : Database} {settled : Settled}

theorem openLedger_wallets (db : Database) (market : MarketId) (winning : OutcomeId) :
    (openLedger db market winning).wallets = (openTreasury db).2.wallets := rfl

theorem openTreasury_wallets (db : Database) :
    (openTreasury db).2.wallets = openWallet db.wallets (openTreasury db).1 := rfl

/-- The stages of a settlement that went through. -/
structure Stages (round : ℚ → ℚ) (now : Timestamp) (scan : Scan) (db : Database)
    (market : MarketId) (winning : OutcomeId) (paid swept final : Ledger) : Prop where
  positions : scan.positions.foldlM (settlePosition round now market winning)
    (openLedger db market winning) = .ok paid
  fees : sweepFees round market (openTreasury db).1 paid = .ok swept
  shares : redeemShares round scan.lpShares swept = .ok final

theorem settleMarket_ok
    (ran : settleMarket round now done scan db market winning = .ok (some settled)) :
    ∃ row paid swept final, done = false ∧ db.markets.find? market = some row ∧
      row.winningOutcomeId = some winning ∧
      preflight round winning scan.positions (settlementPool db.pools market winning) = .ok () ∧
      Stages round now scan db market winning paid swept final ∧
      settled = ⟨commitLedger now market (openTreasury db).2 final, final.payouts⟩ := by
  unfold settleMarket at ran
  split at ran
  · cases ran
  rename_i notDone
  split at ran
  · cases ran
  rename_i row found
  split at ran
  · cases ran
  rename_i recorded
  split at ran
  · contradiction
  rename_i checked
  split at ran
  · contradiction
  rename_i final settledLedger
  cases ran
  obtain ⟨paid, positions, rest⟩ := bind_eq_ok.mp settledLedger
  obtain ⟨swept, fees, shares⟩ := bind_eq_ok.mp rest
  exact ⟨row, paid, swept, final, by simpa using notDone, found, not_not.mp recorded, checked,
    ⟨positions, fees, shares⟩, rfl⟩

/-- A settlement past its guards and its pre-flight is its three stages. -/
theorem settleMarket_stages {row : Market} {paid swept final : Ledger}
    (found : db.markets.find? market = some row) (recorded : row.winningOutcomeId = some winning)
    (checked : preflight round winning scan.positions
      (settlementPool db.pools market winning) = .ok ())
    (stages : Stages round now scan db market winning paid swept final) :
    settleMarket round now false scan db market winning =
      .ok (some ⟨commitLedger now market (openTreasury db).2 final, final.payouts⟩) := by
  have ledger : settleLedger round now market winning (openTreasury db).1 scan
      (openLedger db market winning) = .ok final := by
    exact bind_eq_ok.mpr ⟨paid, stages.positions,
      bind_eq_ok.mpr ⟨swept, stages.fees, stages.shares⟩⟩
  simp only [settleMarket, Bool.false_eq_true, if_false, found, recorded, ne_eq,
    not_true_eq_false, checked, ledger]

/-- The payouts of a settlement, stage by stage. -/
theorem Stages.paid {paid swept final : Ledger}
    (stages : Stages round now scan db market winning paid swept final) :
    Paid round (openLedger db market winning) final
      (wins (openTreasury db).2.wallets winning scan.positions ++
        (feePayout (openTreasury db).1 paid.pool ++
          redemptions round (openTreasury db).2.wallets swept.pool scan.lpShares)) := by
  obtain ⟨first, _⟩ := settlePositions_paid stages.positions
  obtain ⟨second, _⟩ := sweepFees_paid stages.fees
  obtain ⟨third, _⟩ := redeemShares_paid stages.shares
  have same : redemptions round swept.wallets swept.pool scan.lpShares =
      redemptions round (openTreasury db).2.wallets swept.pool scan.lpShares := by
    unfold redemptions
    split
    · rfl
    · rw [redemption_congr fun user =>
        (second.isSome_wallet user).trans (first.isSome_wallet user)]
      rfl
  rw [same] at third
  exact first.trans (second.trans third)

end Settle

end PredictX.Settlement
