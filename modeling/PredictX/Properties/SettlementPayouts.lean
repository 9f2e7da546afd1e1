import PredictX.Workers.SettlementCases

namespace PredictX.Settlement

open PredictX.Data

/-! The payout table of a settlement in exact arithmetic.

The payouts a settlement logs say what every wallet gained and what the escrow lost, so
the table is read off the log.
-/

/-! # What the log says of wallets -/

def balanceOf (wallets : Table Wallet.userId) (user : UserId) : ℚ :=
  ((wallets.find? user).map Wallet.balance).getD 0

/-- What a list of payouts put into one user's wallet. -/
def creditedTo (user : UserId) (payouts : List Payout) : ℚ :=
  (payouts.map fun payout => if payout.user = user then payout.credited else 0).sum

@[simp] theorem creditedTo_nil (user : UserId) : creditedTo user [] = 0 := rfl

@[simp] theorem creditedTo_cons (user : UserId) (payout : Payout) (payouts : List Payout) :
    creditedTo user (payout :: payouts) =
      (if payout.user = user then payout.credited else 0) + creditedTo user payouts := by
  simp [creditedTo]

section Wallets

variable {wallets : Table Wallet.userId} {payouts : List Payout}

theorem balanceOf_receive {payee : UserId} (amount : ℚ) (user : UserId)
    (has : (wallets.find? payee).isSome = true) :
    balanceOf (wallets.modify payee (receive id amount)) user =
      balanceOf wallets user + if payee = user then amount else 0 := by
  obtain ⟨wallet, found⟩ := Option.isSome_iff_exists.mp has
  unfold balanceOf
  by_cases same : payee = user
  · subst same
    rw [Table.find?_modify_self, found, if_pos rfl]
    rfl
  · rw [Table.find?_modify_ne (Ne.symm same), if_neg same, add_zero]

theorem balanceOf_credits (user : UserId)
    (has : ∀ payout ∈ payouts, (wallets.find? payout.user).isSome = true) :
    balanceOf (credits id payouts wallets) user =
      balanceOf wallets user + creditedTo user payouts := by
  induction payouts generalizing wallets with
  | nil => simp
  | cons payout rest ih =>
      rw [List.forall_mem_cons] at has
      rw [credits, List.foldl_cons, ← credits, ih fun other member =>
        isSome_receive.trans (has.2 other member), balanceOf_receive _ _ has.1, creditedTo_cons,
        add_assoc]

theorem sum_credits (has : ∀ payout ∈ payouts, (wallets.find? payout.user).isSome = true) :
    (credits id payouts wallets).sum Wallet.balance =
      wallets.sum Wallet.balance + (payouts.map Payout.credited).sum := by
  induction payouts generalizing wallets with
  | nil => simp
  | cons payout rest ih =>
      rw [List.forall_mem_cons] at has
      obtain ⟨wallet, found⟩ := Option.isSome_iff_exists.mp has.1
      have gained : (receive id payout.credited wallet).balance =
          wallet.balance + payout.credited := rfl
      rw [credits, List.foldl_cons, ← credits, ih fun other member =>
        isSome_receive.trans (has.2 other member), Table.sum_modify_add found gained,
        List.map_cons, List.sum_cons, add_assoc]

end Wallets

/-! # The treasury -/

section Treasury

variable {wallets : Table Wallet.userId} {user : UserId}

theorem find?_openWallet (wallets : Table Wallet.userId) (user other : UserId) :
    (openWallet wallets user).find? other =
      if other = user ∧ wallets.find? user = none then some ⟨user, 0, 0⟩
      else wallets.find? other := by
  unfold openWallet
  split
  · rename_i found
    simp [found]
  · rename_i missing
    by_cases same : other = user
    · subst same
      rw [if_pos ⟨rfl, missing⟩]
      exact Table.find?_insert_self (⟨other, 0, 0⟩ : Wallet) missing
    · rw [if_neg fun both => same both.1]
      exact Table.find?_insert_ne (⟨user, 0, 0⟩ : Wallet) same

theorem isSome_openWallet_self (wallets : Table Wallet.userId) (user : UserId) :
    ((openWallet wallets user).find? user).isSome = true := by
  rw [find?_openWallet]
  split
  · rfl
  · rename_i present
    rw [Option.isSome_iff_ne_none]
    exact fun missing => present ⟨rfl, missing⟩

theorem isSome_openWallet {other : UserId} (has : (wallets.find? other).isSome = true) :
    ((openWallet wallets user).find? other).isSome = true := by
  rw [find?_openWallet]
  split
  · rfl
  · exact has

/-- A new wallet is empty. -/
theorem balanceOf_openWallet (wallets : Table Wallet.userId) (user other : UserId) :
    balanceOf (openWallet wallets user) other = balanceOf wallets other := by
  unfold balanceOf
  rw [find?_openWallet]
  split
  · rename_i opened
    rw [opened.1, opened.2]
    rfl
  · rfl

theorem sum_openWallet (wallets : Table Wallet.userId) (user : UserId) :
    (openWallet wallets user).sum Wallet.balance = wallets.sum Wallet.balance := by
  unfold openWallet
  split
  · rfl
  · rename_i missing
    exact (Table.sum_insert (⟨user, 0, 0⟩ : Wallet) missing).trans (add_zero _)

end Treasury

/-! # Sums over the scanned rows -/

section Sums

variable {round : ℚ → ℚ} {amount : ℚ → Prop} {bound : ℚ} {winning : OutcomeId}
  {wallets : Table Wallet.userId} {rows : List Position}

/-- Rounded sums of amounts that need no rounding. -/
theorem roundedSum_eq {amounts : List ℚ} (exact_ : ExactOn round amount bound)
    (isAmount : ∀ x ∈ amounts, amount x) (nonneg : ∀ x ∈ amounts, 0 ≤ x)
    (bounded : amounts.sum ≤ bound) : roundedSum round amounts = amounts.sum := by
  have loop : ∀ (amounts : List ℚ) (total : ℚ), amount total → 0 ≤ total →
      (∀ x ∈ amounts, amount x) → (∀ x ∈ amounts, 0 ≤ x) → total + amounts.sum ≤ bound →
      amounts.foldl (fun total x => round (total + x)) total = total + amounts.sum := by
    intro amounts
    induction amounts with
    | nil => simp
    | cons x rest ih =>
        intro total isTotal totalNonneg isAmount nonneg bounded
        rw [List.forall_mem_cons] at isAmount nonneg
        have later := List.sum_nonneg nonneg.2
        rw [List.sum_cons, ← add_assoc] at bounded
        have step : round (total + x) = total + x :=
          exact_.round_eq (exact_.add isTotal isAmount.1) (add_nonneg totalNonneg nonneg.1)
            (by linarith)
        rw [List.foldl_cons, step, ih _ (exact_.add isTotal isAmount.1)
          (add_nonneg totalNonneg nonneg.1) isAmount.2 nonneg.2 bounded, List.sum_cons, add_assoc]
  have whole := loop amounts 0 exact_.zero le_rfl isAmount nonneg (by rwa [zero_add])
  rwa [zero_add] at whole

/-- The winners' shares, added up over all rows. -/
theorem sum_winners (winning : OutcomeId) (nonneg : ∀ row ∈ rows, 0 ≤ row.sharesHeld) :
    ((rows.filter fun position =>
      position.outcomeId = winning && 0 < position.sharesHeld).map Position.sharesHeld).sum =
      (rows.map (payoutOf winning)).sum := by
  induction rows with
  | nil => rfl
  | cons row rest ih =>
      rw [List.forall_mem_cons] at nonneg
      rw [List.map_cons, List.sum_cons, ← ih nonneg.2, List.filter_cons, payoutOf]
      by_cases winner : row.outcomeId = winning
      · by_cases positive : 0 < row.sharesHeld
        · simp [winner, positive]
        · have zero : row.sharesHeld = 0 := le_antisymm (not_lt.mp positive) nonneg.1
          simp [winner, zero]
      · simp [winner]

theorem payoutOf_nonneg {position : Position} (nonneg : 0 ≤ position.sharesHeld) :
    0 ≤ payoutOf winning position := by
  unfold payoutOf
  split
  · exact nonneg
  · exact le_rfl

/-- Where nothing is owed, nobody wins. -/
theorem wins_eq_nil (wallets : Table Wallet.userId) (nonneg : ∀ row ∈ rows, 0 ≤ row.sharesHeld)
    (nothing : (rows.map (payoutOf winning)).sum ≤ 0) : wins wallets winning rows = [] := by
  by_contra some_
  obtain ⟨payout, member⟩ := List.exists_mem_of_ne_nil _ some_
  obtain ⟨row, rowMember, won⟩ := List.mem_filterMap.mp member
  obtain ⟨_, _, positive, _⟩ := win_eq_some.mp won
  have part : payoutOf winning row ≤ (rows.map (payoutOf winning)).sum := by
    refine List.single_le_sum ?_ _ (List.mem_map_of_mem rowMember)
    intro value valueMember
    obtain ⟨position, positionMember, rfl⟩ := List.mem_map.mp valueMember
    exact payoutOf_nonneg (nonneg position positionMember)
  linarith

/-- Holders without a wallet are not paid, so the wins are at most what is owed. -/
theorem wins_le_sum (wallets : Table Wallet.userId) (nonneg : ∀ row ∈ rows, 0 ≤ row.sharesHeld) :
    ((wins wallets winning rows).map Payout.debited).sum ≤
      (rows.map (payoutOf winning)).sum := by
  induction rows with
  | nil => exact le_rfl
  | cons row rest ih =>
      rw [List.forall_mem_cons] at nonneg
      rw [List.map_cons, List.sum_cons]
      have later := ih nonneg.2
      have first : 0 ≤ payoutOf winning row := payoutOf_nonneg nonneg.1
      cases won : win wallets winning row with
      | none =>
          rw [wins, List.filterMap_cons_none won, ← wins]
          linarith
      | some payout =>
          obtain ⟨_, _, _, rfl⟩ := win_eq_some.mp won
          rw [wins, List.filterMap_cons_some won, ← wins, List.map_cons, List.sum_cons]
          linarith

/-- A sum over the wins is a sum over the rows: those without a payout add nothing. -/
theorem sum_wins (column : UserId → ℚ → ℚ) (zero : ∀ user, column user 0 = 0)
    (unsettled : ∀ row ∈ rows, row.settledAt = none)
    (has : ∀ row ∈ rows, (wallets.find? row.userId).isSome = true)
    (nonneg : ∀ row ∈ rows, 0 ≤ row.sharesHeld) :
    ((wins wallets winning rows).map fun payout => column payout.user payout.credited).sum =
      (rows.map fun row => column row.userId (payoutOf winning row)).sum := by
  induction rows with
  | nil => rfl
  | cons row rest ih =>
      rw [List.forall_mem_cons] at unsettled has nonneg
      rw [List.map_cons, List.sum_cons, ← ih unsettled.2 has.2 nonneg.2]
      cases won : win wallets winning row with
      | some payout =>
          obtain ⟨_, _, _, rfl⟩ := win_eq_some.mp won
          rw [wins, List.filterMap_cons_some won, List.map_cons, List.sum_cons]
          rfl
      | none =>
          have nothing : payoutOf winning row = 0 := by
            refine le_antisymm (not_lt.mp fun positive => ?_) (payoutOf_nonneg nonneg.1)
            have due := win_eq_some.mpr ⟨unsettled.1, has.1, positive, rfl⟩
            exact absurd (won.symm.trans due) (by simp)
          rw [wins, List.filterMap_cons_none won, nothing, zero, zero_add]
          rfl

/-- The providers' payouts, in exact arithmetic. -/
theorem sum_redemptions (column : UserId → ℚ → ℚ) (zero : ∀ user, column user 0 = 0) {rate : ℚ}
    {shares : List LPShare} (rateNonneg : 0 ≤ rate)
    (has : ∀ share ∈ shares, (wallets.find? share.userId).isSome = true)
    (nonneg : ∀ share ∈ shares, 0 ≤ share.lpTokens) :
    ((shares.filterMap (redemption id wallets rate)).map fun payout =>
      column payout.user payout.credited).sum =
      (shares.map fun share => column share.userId (share.lpTokens * rate)).sum := by
  induction shares with
  | nil => rfl
  | cons share rest ih =>
      rw [List.forall_mem_cons] at has nonneg
      rw [List.map_cons, List.sum_cons, ← ih has.2 nonneg.2]
      by_cases positive : 0 < share.lpTokens * rate
      · have paid : redemption id wallets rate share = some
            ⟨.provider share.key, share.userId, share.lpTokens * rate,
              share.lpTokens * rate⟩ := by
          simp [redemption, positive, has.1]
        rw [List.filterMap_cons_some paid, List.map_cons, List.sum_cons]
      · have nothing : redemption id wallets rate share = none := by
          simp [redemption, positive]
        have none_ : share.lpTokens * rate = 0 :=
          le_antisymm (not_lt.mp positive) (mul_nonneg nonneg.1 rateNonneg)
        rw [List.filterMap_cons_none nothing, none_, zero, zero_add]

end Sums

theorem wins_debited (wallets : Table Wallet.userId) (winning : OutcomeId)
    (rows : List Position) :
    (wins wallets winning rows).map Payout.debited =
      (wins wallets winning rows).map Payout.credited := by
  refine List.map_congr_left fun payout member => ?_
  obtain ⟨row, _, won⟩ := List.mem_filterMap.mp member
  obtain ⟨_, _, _, rfl⟩ := win_eq_some.mp won
  rfl

/-! # The payout table -/

section Distribution

variable {db : Database} {market : MarketId} {winning : OutcomeId} {scan : Scan}
  {now : Timestamp} {pool : LiquidityPool}

/-- The winners' unsettled shares. -/
def owed (db : Database) (market : MarketId) (winning : OutcomeId) : ℚ :=
  ((unsettled db market).map (payoutOf winning)).sum

/-- One user's part of them. -/
def owedTo (db : Database) (market : MarketId) (winning : OutcomeId) (user : UserId) : ℚ :=
  ((unsettled db market).map fun position =>
    if position.userId = user then payoutOf winning position else 0).sum

/-- The tokens of a pool's provider rows. -/
def tokens (db : Database) (pool : PoolKey) : ℚ := ((liveShares db pool).map LPShare.lpTokens).sum

def tokensOf (db : Database) (pool : PoolKey) (user : UserId) : ℚ :=
  ((liveShares db pool).map fun share => if share.userId = user then share.lpTokens else 0).sum

/-- What the winners and the treasury leave in the escrow. -/
def residual (db : Database) (market : MarketId) (winning : OutcomeId) (pool : LiquidityPool) :
    ℚ :=
  pool.collateral - owed db market winning - pool.protocolFees

def escrowOf (db : Database) (market : MarketId) (winning : OutcomeId) : ℚ :=
  match settlementPool db.pools market winning with
  | none => 0
  | some pool => pool.collateral

/-- The treasury's part. -/
def feesOwed (db : Database) (market : MarketId) (winning : OutcomeId) : ℚ :=
  match settlementPool db.pools market winning with
  | none => 0
  | some pool => pool.protocolFees

/-- A provider's part: her tokens' fraction of the residual. -/
def providerPart (db : Database) (market : MarketId) (winning : OutcomeId) (user : UserId) : ℚ :=
  match settlementPool db.pools market winning with
  | none => 0
  | some pool =>
      if 0 < pool.lpTokenSupply then
        tokensOf db pool.key user / pool.lpTokenSupply * residual db market winning pool
      else 0

/-- When the escrow or the token supply cannot cover the claims on it. -/
def Short (db : Database) (market : MarketId) (winning : OutcomeId) : Prop :=
  match settlementPool db.pools market winning with
  | none => 0 < owed db market winning
  | some pool => pool.collateral < owed db market winning + pool.protocolFees ∨
      pool.lpTokenSupply < tokens db pool.key

theorem liveShares_positive {share : LPShare} {key : PoolKey} (member : share ∈ liveShares db key) :
    0 < share.lpTokens := by
  simp only [liveShares, List.mem_filter, Bool.and_eq_true, decide_eq_true_eq] at member
  exact member.2.2

namespace Scan.Reads

theorem sum_owed (reads : scan.Reads db market winning) :
    (scan.positions.map (payoutOf winning)).sum = owed db market winning :=
  (reads.positions.map _).sum_eq

theorem winnerTotal_eq (reads : scan.Reads db market winning)
    (shares : ∀ position ∈ unsettled db market, 0 ≤ position.sharesHeld) :
    winnerTotal id winning scan.positions = owed db market winning := by
  have nonneg : ∀ row ∈ scan.positions, 0 ≤ row.sharesHeld := fun row member =>
    shares row (reads.positions.mem_iff.mp member)
  have winners : ∀ x ∈ (scan.positions.filter fun position =>
      position.outcomeId = winning && 0 < position.sharesHeld).map Position.sharesHeld, 0 ≤ x := by
    intro x member
    obtain ⟨row, rowMember, rfl⟩ := List.mem_map.mp member
    exact nonneg row (List.mem_of_mem_filter rowMember)
  rw [winnerTotal, roundedSum_eq (exactOn_id _) (fun _ _ => trivial) winners le_rfl,
    sum_winners winning nonneg, reads.sum_owed]

theorem tokens_nonneg (reads : scan.Reads db market winning)
    (isPool : settlementPool db.pools market winning = some pool) :
    ∀ x ∈ scan.lpShares.map LPShare.lpTokens, 0 ≤ x := by
  intro x member
  obtain ⟨share, shareMember, rfl⟩ := List.mem_map.mp member
  exact (liveShares_positive ((reads.lpShares pool isPool).mem_iff.mp shareMember)).le

theorem sum_tokens (reads : scan.Reads db market winning)
    (isPool : settlementPool db.pools market winning = some pool) :
    (scan.lpShares.map LPShare.lpTokens).sum = tokens db pool.key :=
  ((reads.lpShares pool isPool).map _).sum_eq

/-- In exact arithmetic a fund is shared out unless the rows claim too many tokens. -/
theorem redeemShares_fund (reads : scan.Reads db market winning) {swept : Ledger} {fund : ℚ}
    (isPool : settlementPool db.pools market winning = some pool) (fundNonneg : 0 ≤ fund)
    (sweptPool : swept.pool = some { pool with collateral := fund, protocolFees := 0 }) :
    (pool.lpTokenSupply < tokens db pool.key →
      redeemShares id scan.lpShares swept = .error .escrowShortfall) ∧
    (tokens db pool.key ≤ pool.lpTokenSupply →
      ∃ final, redeemShares id scan.lpShares swept = .ok final ∧
        final.pool = some { pool with
          collateral := fund - tokens db pool.key *
            (if 0 < pool.lpTokenSupply then fund / pool.lpTokenSupply else 0)
          protocolFees := 0 }) := by
  have nonneg := reads.tokens_nonneg isPool
  have total := reads.sum_tokens isPool
  have outstanding : roundedSum id (scan.lpShares.map LPShare.lpTokens) = tokens db pool.key := by
    rw [roundedSum_eq (exactOn_id _) (fun _ _ => trivial) nonneg le_rfl, total]
  have rate : perToken id { pool with collateral := fund, protocolFees := 0 } =
      if 0 < pool.lpTokenSupply then fund / pool.lpTokenSupply else 0 := rfl
  unfold redeemShares
  simp only [sweptPool, outstanding, rate]
  constructor
  · intro drift
    rw [if_pos drift]
  · intro within
    rw [if_neg (not_lt.mpr within)]
    have rateNonneg : 0 ≤ if 0 < pool.lpTokenSupply then fund / pool.lpTokenSupply else 0 := by
      split
      · exact div_nonneg fundNonneg (le_of_lt ‹_›)
      · exact le_rfl
    have enough : tokens db pool.key *
        (if 0 < pool.lpTokenSupply then fund / pool.lpTokenSupply else 0) ≤ fund := by
      split
      · rename_i supply
        rw [mul_div_assoc', div_le_iff₀ supply, mul_comm]
        exact mul_le_mul_of_nonneg_left within fundNonneg
      · rw [mul_zero]
        exact fundNonneg
    have drained := drain_id rateNonneg nonneg (total ▸ enough)
    rw [total] at drained
    exact redeemLoop_spec sweptPool drained

end Scan.Reads

/-- A settlement that is due: its guards pass, its queries return the rows of the database,
every holder and every provider has a wallet, and no amount is negative. -/
structure Due (scan : Scan) (db : Database) (market : MarketId) (winning : OutcomeId) : Prop where
  recorded : ∃ row, db.markets.find? market = some row ∧ row.winningOutcomeId = some winning
  reads : scan.Reads db market winning
  holders : ∀ position ∈ unsettled db market, (db.wallets.find? position.userId).isSome = true
  providers : ∀ pool, settlementPool db.pools market winning = some pool →
    ∀ share ∈ liveShares db pool.key, (db.wallets.find? share.userId).isSome = true
  shares : ∀ position ∈ unsettled db market, 0 ≤ position.sharesHeld
  fees : ∀ pool, settlementPool db.pools market winning = some pool → 0 ≤ pool.protocolFees

/-- Everybody got her part, and the escrow lost what the wallets gained. -/
structure Distributed (db : Database) (market : MarketId) (winning : OutcomeId)
    (settled : Settled) : Prop where
  balances : ∀ user, balanceOf settled.db.wallets user =
    balanceOf db.wallets user + owedTo db market winning user +
      (if user = (openTreasury db).1 then feesOwed db market winning else 0) +
      providerPart db market winning user
  conserved : settled.db.wallets.sum Wallet.balance - db.wallets.sum Wallet.balance =
    escrowOf db market winning - escrowOf settled.db market winning
  emptied : ∀ pool, settlementPool db.pools market winning = some pool →
    0 < pool.lpTokenSupply → tokens db pool.key = pool.lpTokenSupply →
    escrowOf settled.db market winning = 0

namespace Due

theorem scanned (due : Due scan db market winning) :
    (∀ row ∈ scan.positions, row.settledAt = none) ∧
      (∀ row ∈ scan.positions, (db.wallets.find? row.userId).isSome = true) ∧
      ∀ row ∈ scan.positions, 0 ≤ row.sharesHeld := by
  refine ⟨fun row member => ?_, fun row member => ?_, fun row member => ?_⟩
  · have read := due.reads.positions.mem_iff.mp member
    simp only [unsettled, List.mem_filter, Bool.and_eq_true, decide_eq_true_eq] at read
    exact read.2.2
  · exact due.holders row (due.reads.positions.mem_iff.mp member)
  · exact due.shares row (due.reads.positions.mem_iff.mp member)

theorem winnerTotal_eq (due : Due scan db market winning) :
    winnerTotal id winning scan.positions = owed db market winning :=
  due.reads.winnerTotal_eq due.shares

/-- A sum over the logged wins is a sum over the unsettled rows. -/
theorem sum_wins (due : Due scan db market winning) (column : UserId → ℚ → ℚ)
    (zero : ∀ user, column user 0 = 0) :
    ((wins (openTreasury db).2.wallets winning scan.positions).map fun payout =>
      column payout.user payout.credited).sum =
      ((unsettled db market).map fun row => column row.userId (payoutOf winning row)).sum := by
  obtain ⟨unsettled, has, nonneg⟩ := due.scanned
  refine (Settlement.sum_wins column zero unsettled
    (fun row member => isSome_openWallet (has row member)) nonneg).trans ?_
  exact (due.reads.positions.map _).sum_eq

theorem debited (due : Due scan db market winning) :
    ((wins (openTreasury db).2.wallets winning scan.positions).map Payout.debited).sum =
      owed db market winning := by
  rw [wins_debited]
  exact due.sum_wins (fun _ amount => amount) fun _ => rfl

end Due

theorem Due.preflight_none (due : Due scan db market winning)
    (noPool : settlementPool db.pools market winning = none) :
    preflight id winning scan.positions (settlementPool db.pools market winning) =
      if 0 < owed db market winning then .error .escrowShortfall else .ok () := by
  rw [noPool, preflight, due.winnerTotal_eq]

theorem Due.preflight_some (due : Due scan db market winning)
    (isPool : settlementPool db.pools market winning = some pool) :
    preflight id winning scan.positions (settlementPool db.pools market winning) =
      if pool.collateral < owed db market winning + pool.protocolFees then
        .error .escrowShortfall
      else .ok () := by
  rw [isPool, preflight, due.winnerTotal_eq]
  rfl

/-- The rate in exact arithmetic, once winners and treasury have been paid. -/
def exactRate (db : Database) (market : MarketId) (winning : OutcomeId) (pool : LiquidityPool) :
    ℚ :=
  if 0 < pool.lpTokenSupply then residual db market winning pool / pool.lpTokenSupply else 0

/-- The winners' and the treasury's stages, when the pre-flight let them pass. -/
theorem Due.first_stages (due : Due scan db market winning) (now : Timestamp)
    (isPool : settlementPool db.pools market winning = some pool)
    (covered : owed db market winning + pool.protocolFees ≤ pool.collateral) :
    ∃ paid swept, scan.positions.foldlM (settlePosition id now market winning)
        (openLedger db market winning) = .ok paid ∧
      sweepFees id market (openTreasury db).1 paid = .ok swept ∧
      paid.pool = some { pool with
        collateral := pool.collateral - owed db market winning } ∧
      swept.pool = some { pool with
        collateral := residual db market winning pool, protocolFees := 0 } := by
  have fees := due.fees pool isPool
  have enough : ((wins (openLedger db market winning).wallets winning scan.positions).map
      Payout.debited).sum ≤ pool.collateral := by
    rw [openLedger_wallets, due.debited]
    linarith
  obtain ⟨paid, paidOk, paidPool⟩ := settlePositions_spec now market
    (exactOn_id pool.collateral) isPool trivial le_rfl (fun _ _ => trivial) enough
  rw [openLedger_wallets, due.debited] at paidPool
  obtain ⟨swept, sweptOk, sweptPool⟩ := sweepFees_spec id market (openTreasury db).1
    paidPool fees (by dsimp only; linarith) rfl
  exact ⟨paid, swept, paidOk, sweptOk, paidPool, sweptPool⟩

theorem exactRate_nonneg (covered : owed db market winning + pool.protocolFees ≤ pool.collateral) :
    0 ≤ exactRate db market winning pool := by
  unfold exactRate residual
  split
  · exact div_nonneg (by linarith) (le_of_lt ‹_›)
  · exact le_rfl

/-- The providers' stage shares the residual out. -/
theorem Due.last_stage (due : Due scan db market winning) {swept : Ledger}
    (isPool : settlementPool db.pools market winning = some pool)
    (covered : owed db market winning + pool.protocolFees ≤ pool.collateral)
    (sweptPool : swept.pool = some { pool with
      collateral := residual db market winning pool, protocolFees := 0 }) :
    (pool.lpTokenSupply < tokens db pool.key →
      redeemShares id scan.lpShares swept = .error .escrowShortfall) ∧
    (tokens db pool.key ≤ pool.lpTokenSupply →
      ∃ final, redeemShares id scan.lpShares swept = .ok final ∧
        final.pool = some { pool with
          collateral := residual db market winning pool -
            tokens db pool.key * exactRate db market winning pool
          protocolFees := 0 }) := by
  have residualNonneg : 0 ≤ residual db market winning pool := by
    unfold residual
    linarith
  exact due.reads.redeemShares_fund isPool residualNonneg sweptPool

/-- The pool a settlement wrote is the one the next lookup finds. -/
theorem settlementPool_writePool {pools : Table LiquidityPool.key} {left : ℚ}
    (isPool : settlementPool pools market winning = some pool) :
    (settlementPool (writePool pools (some { pool with
      collateral := left, protocolFees := 0 })) market winning).map LiquidityPool.collateral =
      some left := by
  have key : LiquidityPool.key { pool with collateral := left, protocolFees := 0 } = pool.key := rfl
  unfold settlementPool at isPool
  unfold settlementPool writePool
  dsimp only
  rw [key]
  split at isPool
  · rename_i own found
    cases isPool
    rw [Table.key_of_find? found, Table.find?_modify_self, found]
    rfl
  · rename_i missing
    have poolKey := Table.key_of_find? isPool
    have apart : (⟨market, some winning⟩ : PoolKey) ≠ pool.key := by
      rw [poolKey]
      simp
    rw [Table.find?_modify_ne apart, missing, poolKey, Table.find?_modify_self, isPool]
    rfl

theorem escrowOf_eq {db : Database} {left : ℚ}
    (found : (settlementPool db.pools market winning).map LiquidityPool.collateral = some left) :
    escrowOf db market winning = left := by
  unfold escrowOf
  obtain ⟨pool, isPool, rfl⟩ := Option.map_eq_some_iff.mp found
  rw [isPool]

/-- Everyone a settlement pays has a wallet. -/
theorem Due.payees (due : Due scan db market winning) (paid swept : Ledger)
    (isPool : settlementPool db.pools market winning = some pool) :
    ∀ payout ∈ wins (openTreasury db).2.wallets winning scan.positions ++
        (feePayout (openTreasury db).1 paid.pool ++
          redemptions id (openTreasury db).2.wallets swept.pool scan.lpShares),
      ((openTreasury db).2.wallets.find? payout.user).isSome = true := by
  intro payout member
  rcases List.mem_append.mp member with won | rest
  · obtain ⟨row, _, isWin⟩ := List.mem_filterMap.mp won
    obtain ⟨_, has, _, rfl⟩ := win_eq_some.mp isWin
    exact has
  rcases List.mem_append.mp rest with fee | redeemed
  · unfold feePayout at fee
    split at fee
    · contradiction
    split at fee
    · rw [List.mem_singleton.mp fee]
      exact isSome_openWallet_self _ _
    · contradiction
  · unfold redemptions at redeemed
    split at redeemed
    · contradiction
    obtain ⟨share, shareMember, isShare⟩ := List.mem_filterMap.mp redeemed
    have has := due.providers pool isPool share
      ((due.reads.lpShares pool isPool).mem_iff.mp shareMember)
    unfold redemption at isShare
    split at isShare
    · rw [← Option.some.inj isShare]
      exact isSome_openWallet has
    · contradiction

/-- What a user's wallet gains, read off the log of a settlement with a pool. -/
theorem Due.sum_log (due : Due scan db market winning) {paid swept : Ledger}
    (isPool : settlementPool db.pools market winning = some pool)
    (covered : owed db market winning + pool.protocolFees ≤ pool.collateral)
    (paidPool : paid.pool = some { pool with
      collateral := pool.collateral - owed db market winning })
    (sweptPool : swept.pool = some { pool with
      collateral := residual db market winning pool, protocolFees := 0 })
    (column : UserId → ℚ → ℚ) (zero : ∀ user, column user 0 = 0) :
    ((wins (openTreasury db).2.wallets winning scan.positions ++
        (feePayout (openTreasury db).1 paid.pool ++
          redemptions id (openTreasury db).2.wallets swept.pool scan.lpShares)).map
        fun payout => column payout.user payout.credited).sum =
      ((unsettled db market).map fun row => column row.userId (payoutOf winning row)).sum +
        (column (openTreasury db).1 pool.protocolFees +
          ((liveShares db pool.key).map fun share =>
            column share.userId (share.lpTokens * exactRate db market winning pool)).sum) := by
  have read := due.reads.lpShares pool isPool
  have fee : ((feePayout (openTreasury db).1 paid.pool).map fun payout =>
      column payout.user payout.credited).sum = column (openTreasury db).1 pool.protocolFees := by
    rw [paidPool, feePayout]
    dsimp only
    split
    · simp
    · rename_i nothing
      rw [le_antisymm (not_lt.mp nothing) (due.fees pool isPool), zero]
      rfl
  have shares : ((redemptions id (openTreasury db).2.wallets swept.pool scan.lpShares).map
      fun payout => column payout.user payout.credited).sum =
      ((liveShares db pool.key).map fun share =>
        column share.userId (share.lpTokens * exactRate db market winning pool)).sum := by
    rw [sweptPool]
    refine (sum_redemptions column zero (exactRate_nonneg covered) ?_ ?_).trans
      (read.map _).sum_eq
    · intro share member
      exact isSome_openWallet (due.providers pool isPool share (read.mem_iff.mp member))
    · intro share member
      exact (liveShares_positive (read.mem_iff.mp member)).le
  rw [List.map_append, List.sum_append, List.map_append, List.sum_append, due.sum_wins column zero,
    fee, shares]

/-- A covered settlement of a market with a pool. -/
theorem Due.settles_pool (due : Due scan db market winning) (now : Timestamp)
    (isPool : settlementPool db.pools market winning = some pool)
    (covered : owed db market winning + pool.protocolFees ≤ pool.collateral)
    (within : tokens db pool.key ≤ pool.lpTokenSupply) :
    ∃ settled, settleMarket id now false scan db market winning = .ok (some settled) ∧
      Distributed db market winning settled := by
  obtain ⟨row, found, recorded⟩ := due.recorded
  obtain ⟨paid, swept, paidOk, sweptOk, paidPool, sweptPool⟩ :=
    due.first_stages now isPool covered
  obtain ⟨final, finalOk, finalPool⟩ := (due.last_stage isPool covered sweptPool).2 within
  have stages : Stages id now scan db market winning paid swept final :=
    ⟨paidOk, sweptOk, finalOk⟩
  have checked := due.preflight_some isPool
  rw [if_neg (not_lt.mpr covered)] at checked
  have log := stages.paid
  have payees := due.payees paid swept isPool
  have sums := due.sum_log isPool covered paidPool sweptPool
  have escrowAfter : escrowOf (commitLedger now market (openTreasury db).2 final) market winning =
      residual db market winning pool - tokens db pool.key * exactRate db market winning pool := by
    refine escrowOf_eq ?_
    change (settlementPool (writePool db.pools final.pool) market winning).map _ = _
    rw [finalPool]
    exact settlementPool_writePool isPool
  have escrowBefore : escrowOf db market winning = pool.collateral := by
    rw [escrowOf, isPool]
  refine ⟨_, settleMarket_stages found recorded checked stages, ?_, ?_, ?_⟩
  · intro user
    change balanceOf final.wallets user = _
    have part : ((liveShares db pool.key).map fun share => if share.userId = user then
        share.lpTokens * exactRate db market winning pool else 0).sum =
        providerPart db market winning user := by
      have pulled : ∀ share : LPShare, (if share.userId = user then
          share.lpTokens * exactRate db market winning pool else 0) =
          (if share.userId = user then share.lpTokens else 0) *
            exactRate db market winning pool := by
        intro share
        split <;> simp
      simp only [pulled]
      rw [List.sum_map_mul_right, providerPart, isPool, exactRate, ← tokensOf]
      dsimp only
      split
      · ring
      · rw [mul_zero]
    have fees : (if (openTreasury db).1 = user then pool.protocolFees else 0) =
        if user = (openTreasury db).1 then feesOwed db market winning else 0 := by
      rw [feesOwed, isPool]
      simp only [eq_comm]
    have total := sums (fun payee amount => if payee = user then amount else 0) (by simp)
    rw [log.wallets, openLedger_wallets, balanceOf_credits user payees, creditedTo, total, part,
      fees, owedTo, openTreasury_wallets, balanceOf_openWallet]
    ring
  · change final.wallets.sum Wallet.balance - _ = _ - escrowOf
      (commitLedger now market (openTreasury db).2 final) market winning
    have total := sums (fun _ amount => amount) (fun _ => rfl)
    rw [log.wallets, openLedger_wallets, sum_credits payees, total, List.sum_map_mul_right,
      openTreasury_wallets, sum_openWallet, escrowAfter, escrowBefore, ← tokens, residual]
    unfold owed
    ring
  · intro other isOther supply full
    cases isPool.symm.trans isOther
    refine escrowAfter.trans ?_
    rw [full, exactRate, if_pos supply, mul_div_cancel₀ _ supply.ne', sub_self]

/-- A settlement without a pool has nothing to pay. -/
theorem Due.settles_none (due : Due scan db market winning) (now : Timestamp)
    (noPool : settlementPool db.pools market winning = none)
    (nothing : owed db market winning ≤ 0) :
    ∃ settled, settleMarket id now false scan db market winning = .ok (some settled) ∧
      Distributed db market winning settled := by
  obtain ⟨row, found, recorded⟩ := due.recorded
  have total : (scan.positions.map (payoutOf winning)).sum = owed db market winning :=
    (due.reads.positions.map _).sum_eq
  have idle : wins (openLedger db market winning).wallets winning scan.positions = [] :=
    wins_eq_nil _ due.scanned.2.2 (total ▸ nothing)
  obtain ⟨paid, paidOk, paidPool⟩ := settlePositions_idle id now market idle
  have paidNone : paid.pool = none := paidPool.trans noPool
  have stages : Stages id now scan db market winning paid paid paid := by
    refine ⟨paidOk, ?_, ?_⟩
    · rw [sweepFees, paidNone]
    · rw [redeemShares, paidNone]
  have checked := due.preflight_none noPool
  rw [if_neg (not_lt.mpr nothing)] at checked
  have untouched : paid.wallets = openWallet db.wallets (openTreasury db).1 := by
    have log := (settlePositions_paid paidOk).1.wallets
    rw [idle] at log
    exact log
  have none_ := due.sum_wins
  rw [show wins (openTreasury db).2.wallets winning scan.positions = [] from idle] at none_
  refine ⟨_, settleMarket_stages found recorded checked stages, ?_, ?_, ?_⟩
  · intro user
    change balanceOf paid.wallets user = _
    have ownPart := none_ (fun payee amount => if payee = user then amount else 0) (by simp)
    rw [untouched, balanceOf_openWallet, feesOwed, providerPart, noPool, owedTo, ← ownPart]
    simp
  · change paid.wallets.sum Wallet.balance - _ = _
    have after : settlementPool (commitLedger now market (openTreasury db).2 paid).pools market
        winning = none := by
      change settlementPool (writePool db.pools paid.pool) market winning = none
      rw [paidNone]
      exact noPool
    rw [untouched, sum_openWallet, escrowOf, escrowOf, noPool, after]
    simp
  · intro pool isPool
    exact absurd (noPool.symm.trans isPool) (by simp)

/-- A settlement that is due fails exactly when it is short, and otherwise pays everyone
her part out of the escrow. -/
theorem settlement_distributes_escrow (due : Due scan db market winning) (now : Timestamp) :
    (settleMarket id now false scan db market winning = .error .escrowShortfall ↔
      Short db market winning) ∧
    (¬ Short db market winning →
      ∃ settled, settleMarket id now false scan db market winning = .ok (some settled) ∧
        Distributed db market winning settled) := by
  obtain ⟨row, found, recorded⟩ := due.recorded
  have settles : ¬ Short db market winning →
      ∃ settled, settleMarket id now false scan db market winning = .ok (some settled) ∧
        Distributed db market winning settled := by
    intro enough
    unfold Short at enough
    split at enough
    · exact due.settles_none now ‹_› (not_lt.mp enough)
    · rw [not_or, not_lt, not_lt] at enough
      exact due.settles_pool now ‹_› enough.1 enough.2
  refine ⟨⟨fun failed => ?_, fun short => ?_⟩, settles⟩
  · by_contra enough
    obtain ⟨settled, succeeded, _⟩ := settles enough
    exact absurd (failed.symm.trans succeeded) (by simp)
  have refused : ∀ {reason}, preflight id winning scan.positions
      (settlementPool db.pools market winning) = .error reason →
      settleMarket id now false scan db market winning = .error reason := by
    intro reason checked
    simp only [settleMarket, Bool.false_eq_true, if_false, found, recorded, ne_eq,
      not_true_eq_false, checked]
  unfold Short at short
  split at short
  · have checked := due.preflight_none ‹_›
    rw [if_pos short] at checked
    exact refused checked
  · rename_i pool isPool
    have checked := due.preflight_some isPool
    by_cases covered : owed db market winning + pool.protocolFees ≤ pool.collateral
    · have drift := short.resolve_left (not_lt.mpr covered)
      rw [if_neg (not_lt.mpr covered)] at checked
      obtain ⟨paid, swept, paidOk, sweptOk, _, sweptPool⟩ := due.first_stages now isPool covered
      have failed := (due.last_stage isPool covered sweptPool).1 drift
      have ledger : settleLedger id now market winning (openTreasury db).1 scan
          (openLedger db market winning) = .error .escrowShortfall := by
        unfold settleLedger
        rw [paidOk]
        change (sweepFees id market (openTreasury db).1 paid >>= _) = _
        rw [sweptOk]
        exact failed
      simp only [settleMarket, Bool.false_eq_true, if_false, found, recorded, ne_eq,
        not_true_eq_false, checked, ledger]
    · rw [if_pos (not_le.mp covered)] at checked
      exact refused checked

end Distribution

/-! # A decided market

Outcome 1 of market 1 has won; users 2, 3 and 4 have empty wallets.
-/

def decided (positions : Table Position.key) (collateral fees supply : ℚ)
    (providers : Table LPShare.key) : Database where
  wallets := ⟨[⟨2, 0, 0⟩, ⟨3, 0, 0⟩, ⟨4, 0, 0⟩], by decide⟩
  positions := positions
  orders := .empty
  pools := ⟨[⟨1, none, 100, 100, collateral, 2 / 100, supply, fees⟩], by simp⟩
  lpShares := providers
  markets := ⟨[⟨1, .resolving, 1000, some 1, some 1, none, none, 100, 0, 0⟩], by simp⟩
  outcomes := ⟨[⟨1, 1, .yes, 0⟩, ⟨2, 1, .no, 1⟩], yes_and_no⟩
  disputes := .empty
  referrals := []
  trades := []
  transactions := []
  systemUser := none

def scanOf (db : Database) : Scan := ⟨unsettled db 1, liveShares db ⟨1, none⟩⟩

theorem decided_pool (positions : Table Position.key) (collateral fees supply : ℚ)
    (providers : Table LPShare.key) :
    settlementPool (decided positions collateral fees supply providers).pools 1 1 =
      some ⟨1, none, 100, 100, collateral, 2 / 100, supply, fees⟩ := rfl

theorem scanOf_reads (positions : Table Position.key) (collateral fees supply : ℚ)
    (providers : Table LPShare.key) :
    (scanOf (decided positions collateral fees supply providers)).Reads
      (decided positions collateral fees supply providers) 1 1 := by
  refine ⟨.refl _, fun pool isPool => ?_⟩
  cases (decided_pool positions collateral fees supply providers).symm.trans isPool
  exact .refl _

theorem two_holders :
    (([⟨2, 1, 1, 10, 1 / 2, 0, none⟩, ⟨3, 1, 2, 4, 1 / 2, 0, none⟩] : List Position).map
      Position.key).Nodup := by decide

/-- User 2 holds ten winning shares and user 3 four losing ones. -/
def twoHolders : Table Position.key :=
  ⟨[⟨2, 1, 1, 10, 1 / 2, 0, none⟩, ⟨3, 1, 2, 4, 1 / 2, 0, none⟩], two_holders⟩

/-- User 4 provided all the liquidity. -/
def oneProvider : Table LPShare.key := ⟨[⟨⟨1, none⟩, 4, 100, 100⟩], by decide⟩

theorem decided_holders (collateral fees supply : ℚ) (providers : Table LPShare.key) :
    ∀ position ∈ unsettled (decided twoHolders collateral fees supply providers) 1,
      ((decided twoHolders collateral fees supply providers).wallets.find?
        position.userId).isSome = true ∧ 0 ≤ position.sharesHeld := by
  intro position member
  have rows : position ∈ twoHolders.rows := (List.mem_filter.mp member).1
  have all : ∀ row ∈ twoHolders.rows,
      ((decided twoHolders 0 0 0 .empty).wallets.find? row.userId).isSome = true ∧
        0 ≤ row.sharesHeld := by
    decide +kernel
  exact all position rows

theorem decided_due {supply : ℚ} {providers : Table LPShare.key}
    (has : ∀ share ∈ providers.rows,
      ((decided twoHolders 0 0 0 .empty).wallets.find? share.userId).isSome = true) :
    Due (scanOf (decided twoHolders 100 1 supply providers))
      (decided twoHolders 100 1 supply providers) 1 1 :=
  { recorded := ⟨_, rfl, rfl⟩
    reads := scanOf_reads _ _ _ _ _
    holders := fun position member => (decided_holders _ _ _ _ position member).1
    providers := fun pool isPool share member => has share (List.mem_filter.mp member).1
    shares := fun position member => (decided_holders _ _ _ _ position member).2
    fees := fun pool isPool => by
      cases (decided_pool _ _ _ _ _).symm.trans isPool
      exact zero_le_one }

theorem decided_not_short {supply : ℚ} {providers : Table LPShare.key}
    (backed : tokens (decided twoHolders 100 1 supply providers) ⟨1, none⟩ ≤ supply) :
    ¬ Short (decided twoHolders 100 1 supply providers) 1 1 := by
  have winners : owed (decided twoHolders 100 1 supply providers) 1 1 = 10 := by
    change owed (decided twoHolders 0 0 0 .empty) 1 1 = 10
    decide +kernel
  unfold Short
  rw [decided_pool]
  simp only [winners]
  exact not_or.mpr ⟨by norm_num, not_lt.mpr backed⟩

/-- One provider takes the 89 dollars that ten winning shares and one dollar of fees leave
of a hundred. -/
theorem one_provider_takes_residual :
    ∃ settled, settleMarket id 7 false (scanOf (decided twoHolders 100 1 100 oneProvider))
        (decided twoHolders 100 1 100 oneProvider) 1 1 = .ok (some settled) ∧
      Distributed (decided twoHolders 100 1 100 oneProvider) 1 1 settled := by
  have has : ∀ share ∈ oneProvider.rows,
      ((decided twoHolders 0 0 0 .empty).wallets.find? share.userId).isSome = true := by
    decide +kernel
  exact (settlement_distributes_escrow (decided_due has) 7).2
    (decided_not_short (by decide +kernel))

/-- In a market without liquidity providers the rows total the supply, and nobody takes
the residual. -/
theorem unprovided_residual_stays :
    Due (scanOf (decided twoHolders 100 1 0 .empty)) (decided twoHolders 100 1 0 .empty) 1 1 ∧
      tokens (decided twoHolders 100 1 0 .empty) ⟨1, none⟩ = 0 ∧
      ∃ settled, settleMarket id 7 false (scanOf (decided twoHolders 100 1 0 .empty))
          (decided twoHolders 100 1 0 .empty) 1 1 = .ok (some settled) ∧
        escrowOf settled.db 1 1 = 89 := by
  have noRow : ∀ share ∈ (Table.empty : Table LPShare.key).rows,
      ((decided twoHolders 0 0 0 .empty).wallets.find? share.userId).isSome = true := by
    decide +kernel
  refine ⟨decided_due noRow, by decide +kernel, ?_⟩
  have outcome : ((settleMarket id 7 false (scanOf (decided twoHolders 100 1 0 .empty))
      (decided twoHolders 100 1 0 .empty) 1 1).toOption.bind id).map
        (fun settled => escrowOf settled.db 1 1) = some 89 := by
    decide +kernel
  cases result : settleMarket id 7 false (scanOf (decided twoHolders 100 1 0 .empty))
      (decided twoHolders 100 1 0 .empty) 1 1 with
  | error reason => simp [result, Except.toOption] at outcome
  | ok returned =>
      cases returned with
      | none => simp [result, Except.toOption] at outcome
      | some settled =>
          refine ⟨settled, rfl, ?_⟩
          simpa [result, Except.toOption] using outcome

end PredictX.Settlement
