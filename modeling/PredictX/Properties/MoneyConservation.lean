import PredictX.Data.Numeric
import PredictX.Workers.SweepCases
import PredictX.Properties.LimitPrice

namespace PredictX

open PredictX.Data PredictX.Amm PredictX.MatchingEngine

/-! Money across one order.

Every wallet balance and every pool escrow are added up.  A match takes the price from
the buyer and hands it to the seller less the fee, which the pool receives; but the pool
is credited before the seller is checked, so a skipped match leaves the fee behind, out
of nothing.  The commit writes each balance and each escrow to eight decimals, so the money
is counted as the columns keep it.
-/

/-- All wallet balances and all pool escrows. -/
def Database.money (db : Database) : ℚ :=
  db.wallets.sum Wallet.balance + db.pools.sum LiquidityPool.collateral

/-- The same as the columns keep it. -/
def Database.storedMoney (db : Database) : ℚ :=
  db.wallets.sum (fun wallet => toNumeric scale wallet.balance) +
    db.pools.sum fun pool => toNumeric scale pool.collateral

/-- The fee sub-ledgers of all pools. -/
def Database.fees (db : Database) : ℚ := db.pools.sum LiquidityPool.protocolFees

namespace MatchingEngine

section Wallets

variable {wallets : Table Wallet.userId} {user : UserId}

def hasWallet (wallets : Table Wallet.userId) (user : UserId) : Bool :=
  (wallets.find? user).isSome

/-- A movement of one balance; a missing wallet absorbs it. -/
theorem sum_balance_modify {update : Wallet → Wallet}
    (keeps : ∀ wallet, (update wallet).userId = wallet.userId) {delta : ℚ}
    (moves : ∀ wallet, (update wallet).balance = wallet.balance + delta) :
    (wallets.modify user update keeps).sum Wallet.balance =
      wallets.sum Wallet.balance + if hasWallet wallets user then delta else 0 := by
  cases found : wallets.find? user with
  | none =>
      rw [Table.modify_of_find?_none found]
      simp [hasWallet, found]
  | some wallet =>
      rw [Table.sum_modify_add found (moves wallet)]
      simp [hasWallet, found]

theorem sum_balance_debit (amount : ℚ) :
    (wallets.modify user (Wallet.debit amount)).sum Wallet.balance =
      wallets.sum Wallet.balance - if hasWallet wallets user then amount else 0 := by
  rw [sum_balance_modify _ fun _ => sub_eq_add_neg _ amount]
  split <;> ring

theorem sum_balance_credit (amount : ℚ) :
    (wallets.modify user (Wallet.credit amount)).sum Wallet.balance =
      wallets.sum Wallet.balance + if hasWallet wallets user then amount else 0 :=
  sum_balance_modify _ fun _ => rfl

theorem sum_balance_release (amount : ℚ) :
    (wallets.modify user (Wallet.release amount)).sum Wallet.balance =
      wallets.sum Wallet.balance :=
  Table.sum_modify_eq fun _ _ => rfl

theorem sum_balance_payMatch (wallets : Table Wallet.userId) (maker : Order) (taker : UserId)
    (shares usdc fee : ℚ) :
    (payMatch wallets maker taker shares usdc fee).sum Wallet.balance =
      wallets.sum Wallet.balance -
        (if hasWallet wallets (buyerOf maker taker) then usdc else 0) +
        (if hasWallet wallets (sellerOf maker taker) then usdc - fee else 0) := by
  have sameWallets : hasWallet (wallets.modify (buyerOf maker taker) (Wallet.debit usdc))
      (sellerOf maker taker) = hasWallet wallets (sellerOf maker taker) :=
    Table.isSome_find?_modify
  unfold payMatch
  cases maker.side with
  | sell =>
      dsimp only
      rw [sum_balance_credit, sum_balance_debit, sameWallets]
  | buy =>
      dsimp only
      rw [sum_balance_release, sum_balance_credit, sum_balance_debit, sameWallets]

end Wallets

section Pools

variable {pools : Table LiquidityPool.key} {maker : Order} {fee : ℚ}

/-- A fee that finds its pool is booked once in the escrow and once in the sub-ledger. -/
theorem creditFee_sums (found : (feePool pools maker).isSome) (positive : 0 < fee) :
    (creditFee pools maker fee).sum LiquidityPool.collateral =
        pools.sum LiquidityPool.collateral + fee ∧
      (creditFee pools maker fee).sum LiquidityPool.protocolFees =
        pools.sum LiquidityPool.protocolFees + fee := by
  obtain ⟨pool, isPool⟩ := Option.isSome_iff_exists.mp found
  have row : pools.find? pool.key = some pool := by
    unfold feePool at isPool
    split at isPool
    · rename_i own
      cases isPool
      rw [Table.key_of_find? own]
      exact own
    · rw [Table.key_of_find? isPool]
      exact isPool
  simp only [creditFee, isPool, if_pos positive]
  exact ⟨Table.sum_modify_add row rfl, Table.sum_modify_add row rfl⟩

theorem isSome_creditFee (key : PoolKey) :
    ((creditFee pools maker fee).find? key).isSome = (pools.find? key).isSome := by
  unfold creditFee
  split
  · rfl
  · split
    · exact Table.isSome_find?_modify
    · rfl

theorem isSome_feePool {other : Table LiquidityPool.key}
    (same : ∀ key, (other.find? key).isSome = (pools.find? key).isSome) :
    (feePool other maker).isSome = (feePool pools maker).isSome := by
  have own := same ⟨maker.marketId, some maker.outcomeId⟩
  have binary := same ⟨maker.marketId, none⟩
  unfold feePool
  cases left : other.find? ⟨maker.marketId, some maker.outcomeId⟩ <;>
    cases right : pools.find? ⟨maker.marketId, some maker.outcomeId⟩ <;>
    simp_all

/-- The pool an order resolves to is the one its makers' fees go to, or stands behind it. -/
theorem isSome_feePool_of_resolved {market : MarketId} {outcome : OutcomeId} {parimutuel : Bool}
    {pool : LiquidityPool} (sameMarket : maker.marketId = market)
    (sameOutcome : maker.outcomeId = outcome)
    (found : pools.find? (MarketService.poolKey market outcome parimutuel) = some pool) :
    (feePool pools maker).isSome := by
  unfold feePool
  rw [sameMarket, sameOutcome]
  cases parimutuel with
  | true =>
      simp only [MarketService.poolKey, if_true] at found
      simp [found]
  | false =>
      simp only [MarketService.poolKey, Bool.false_eq_true, if_false] at found
      split
      · rfl
      · simp [found]

end Pools

/-! # Money along a trace -/

section Trace

variable {σ : Type} {now : Timestamp} {taker : Taker σ} {db after : Database} {fill final : σ}
  {offers : List Offer} {side : Side} {has : UserId → Bool}

theorem Trace.isSome_pool (trace : Trace now taker db fill offers after final) (key : PoolKey) :
    (after.pools.find? key).isSome = (db.pools.find? key).isSome := by
  induction trace with
  | done => rfl
  | skip _ _ _ ih => exact ih.trans (isSome_creditFee key)
  | deliver _ _ _ _ ih => exact ih.trans (isSome_creditFee key)

/-- The fees of the offers that were not delivered. -/
def skippedFees (offers : List Offer) : ℚ :=
  (offers.map fun offer => if offer.delivered then 0 else offer.fee).sum

@[simp] theorem skippedFees_nil : skippedFees [] = 0 := rfl

@[simp] theorem skippedFees_cons (offer : Offer) (offers : List Offer) :
    skippedFees (offer :: offers) =
      (if offer.delivered then 0 else offer.fee) + skippedFees offers := by
  simp [skippedFees]

/-- What a maker without a wallet is not paid, or not charged. -/
def orphaned (has : UserId → Bool) (side : Side) (offer : Offer) : ℚ :=
  if has offer.maker.userId then 0
  else
    match side with
    | .buy => offer.usdc - offer.fee
    | .sell => offer.usdc

/-- A taker who buys leaves unpaid sellers behind, one who sells uncharged buyers. -/
def orphanSign : Side → ℚ
  | .buy => -1
  | .sell => 1

/-- The offers a taker on `side` makes to the other side of one pool's book. -/
structure Booked (pools : Table LiquidityPool.key) (side : Side) (offer : Offer) : Prop where
  pooled : (feePool pools offer.maker).isSome
  quantity : 0 < offer.quantity
  price : 0 < offer.maker.price
  side : offer.maker.side = side.opposite

theorem Booked.fee_pos {pools : Table LiquidityPool.key} {offer : Offer}
    (booked : Booked pools side offer) : 0 < offer.fee := by
  have quantity := booked.quantity
  have price := booked.price
  have rate : 0 < protocolFeeRate := by decide +kernel
  unfold Offer.fee Offer.usdc
  positivity

theorem Booked.fee_lt {pools : Table LiquidityPool.key} {offer : Offer}
    (booked : Booked pools side offer) : 0 < offer.usdc - offer.fee := by
  have quantity := booked.quantity
  have price := booked.price
  have left : offer.usdc - offer.fee = offer.quantity * offer.maker.price * (99 / 100) := by
    unfold Offer.fee Offer.usdc protocolFeeRate
    ring
  rw [left]
  positivity

theorem Booked.orphaned_eq_zero_iff {pools : Table LiquidityPool.key} {offer : Offer}
    (booked : Booked pools side offer) :
    0 ≤ orphaned has side offer ∧
      (orphaned has side offer = 0 ↔ has offer.maker.userId = true) := by
  have paid := booked.fee_lt
  have charged : 0 < offer.usdc := by linarith [booked.fee_pos]
  unfold orphaned
  cases has offer.maker.userId with
  | true => simp
  | false =>
      simp only [Bool.false_eq_true, if_false, iff_false]
      cases side with
      | buy => exact ⟨paid.le, paid.ne'⟩
      | sell => exact ⟨charged.le, charged.ne'⟩

theorem Booked.congr {pools other : Table LiquidityPool.key} {offer : Offer}
    (same : ∀ key, (other.find? key).isSome = (pools.find? key).isSome)
    (booked : Booked pools side offer) : Booked other side offer :=
  ⟨(isSome_feePool same).trans booked.pooled, booked.quantity, booked.price, booked.side⟩

/-- A skipped offer leaves its fee in the pool. -/
theorem skipped_sums {maker : Order} {quantity : ℚ}
    (head : Booked db.pools side ⟨maker, quantity, false⟩) :
    (skipped db maker quantity).money = db.money + quantity * maker.price * protocolFeeRate ∧
      (skipped db maker quantity).fees =
        db.fees + quantity * maker.price * protocolFeeRate := by
  obtain ⟨escrow, ledger⟩ := creditFee_sums head.pooled head.fee_pos
  refine ⟨?_, ledger⟩
  unfold Database.money
  rw [show (skipped db maker quantity).pools.sum LiquidityPool.collateral = _ from escrow,
    ← add_assoc]
  rfl

/-- A delivered offer moves its price from the buyer to the seller and the pool. -/
theorem deliver_sums {maker : Order} {quantity : ℚ}
    (head : Booked db.pools side ⟨maker, quantity, true⟩) :
    (deliver now taker db maker quantity).money = db.money -
        (if hasWallet db.wallets (buyerOf maker taker.userId) then quantity * maker.price else 0) +
        (if hasWallet db.wallets (sellerOf maker taker.userId) then
          quantity * maker.price - quantity * maker.price * protocolFeeRate else 0) +
        quantity * maker.price * protocolFeeRate ∧
      (deliver now taker db maker quantity).fees =
        db.fees + quantity * maker.price * protocolFeeRate := by
  obtain ⟨escrow, ledger⟩ := creditFee_sums head.pooled head.fee_pos
  have balances := sum_balance_payMatch db.wallets maker taker.userId quantity
    (quantity * maker.price) (quantity * maker.price * protocolFeeRate)
  refine ⟨?_, ledger⟩
  unfold Database.money
  rw [show (deliver now taker db maker quantity).pools.sum LiquidityPool.collateral = _ from
    escrow, show (deliver now taker db maker quantity).wallets.sum Wallet.balance = _ from
    balances]
  simp only [Offer.fee, Offer.usdc]
  ring

/-- What a trace does to the money and to the fee ledgers. -/
theorem Trace.money (trace : Trace now taker db fill offers after final)
    (booked : ∀ offer ∈ offers, Booked db.pools side offer)
    (owners : ∀ user, hasWallet db.wallets user = has user) (owned : has taker.userId = true) :
    after.money = db.money + skippedFees offers +
        orphanSign side * deliveredSum offers (orphaned has side) ∧
      after.fees = db.fees + skippedFees offers + deliveredSum offers Offer.fee := by
  induction trace with
  | done => simp
  | @skip db _ _ _ maker quantity offers _ _ _ ih =>
      obtain ⟨stepMoney, stepFees⟩ := skipped_sums (booked _ List.mem_cons_self)
      obtain ⟨money, fees⟩ := ih
        (fun offer member => (booked offer (List.mem_cons_of_mem _ member)).congr isSome_creditFee)
        owners
      rw [money, fees, stepMoney, stepFees]
      simp only [skippedFees_cons, deliveredSum_cons, Offer.fee, Offer.usdc, Bool.false_eq_true,
        if_false]
      constructor <;> ring
  | @deliver db _ _ _ maker quantity offers _ _ _ _ ih =>
      have head := booked _ List.mem_cons_self
      obtain ⟨stepMoney, stepFees⟩ := deliver_sums head
      obtain ⟨money, fees⟩ := ih
        (fun offer member => (booked offer (List.mem_cons_of_mem _ member)).congr isSome_creditFee)
        (fun user => (isSome_payMatch _ _ _ _ _ _ _).trans (owners user))
      rw [money, fees, stepMoney, stepFees, owners, owners]
      have makerSide : maker.side = side.opposite := head.side
      simp only [skippedFees_cons, deliveredSum_cons, Offer.fee, if_true, orphaned, Offer.usdc]
      refine ⟨?_, by ring⟩
      cases side with
      | buy =>
          simp only [buyerOf, sellerOf, makerSide, Side.opposite, owned, if_true, orphanSign]
          split <;> ring
      | sell =>
          simp only [buyerOf, sellerOf, makerSide, Side.opposite, owned, if_true, orphanSign]
          split <;> ring

/-- A skipped offer's fee is never nothing. -/
theorem skippedFees_eq_zero_iff {pools : Table LiquidityPool.key}
    (booked : ∀ offer ∈ offers, Booked pools side offer) :
    skippedFees offers = 0 ↔ ∀ offer ∈ offers, offer.delivered = true := by
  unfold skippedFees
  rw [sum_map_eq_zero_iff]
  · refine forall₂_congr fun offer member => ?_
    have nonzero := (booked offer member).fee_pos.ne'
    cases offer.delivered <;> simp [nonzero]
  · intro offer member
    split
    · exact le_rfl
    · exact (booked offer member).fee_pos.le

/-- All makers are on one side, so what they leave behind has one sign. -/
theorem orphans_eq_zero_iff {pools : Table LiquidityPool.key}
    (booked : ∀ offer ∈ offers, Booked pools side offer)
    (all : ∀ offer ∈ offers, offer.delivered = true) :
    orphanSign side * deliveredSum offers (orphaned has side) = 0 ↔
      ∀ offer ∈ offers, has offer.maker.userId = true := by
  have sign : orphanSign side ≠ 0 := by
    cases side <;> simp [orphanSign]
  have plain : deliveredSum offers (orphaned has side) =
      (offers.map (orphaned has side)).sum := by
    unfold deliveredSum
    congr 1
    exact List.map_congr_left fun offer member => if_pos (all offer member)
  rw [mul_eq_zero, or_iff_right sign, plain, sum_map_eq_zero_iff fun offer member =>
    (booked offer member).orphaned_eq_zero_iff.1]
  exact forall₂_congr fun offer member => (booked offer member).orphaned_eq_zero_iff.2

theorem sum_deliveredDetails (outcomes : Table Outcome.id) (offers : List Offer) :
    ((deliveredDetails outcomes offers).map fun details =>
      details.matchUsdc * protocolFeeRate).sum = deliveredSum offers Offer.fee := by
  induction offers with
  | nil => rfl
  | cons offer offers ih =>
      cases delivered : offer.delivered with
      | false => simpa [deliveredDetails, delivered] using ih
      | true =>
          simp only [deliveredDetails, List.filter_cons_of_pos delivered, List.map_cons,
            List.sum_cons, deliveredSum_cons, delivered, if_true]
          rw [← ih]
          rfl

end Trace

/-! # Movements -/

section Movements

variable {σ : Type} {now : Timestamp} {taker : Taker σ} {db matched after : Database}
  {fill final : σ} {offers : List Offer} {side : Side}

/-- The pool a match's fee goes to, if there is one. -/
def feeKey (pools : Table LiquidityPool.key) (maker : Order) : PoolKey :=
  if (pools.find? ⟨maker.marketId, some maker.outcomeId⟩).isSome then
    ⟨maker.marketId, some maker.outcomeId⟩
  else ⟨maker.marketId, none⟩

/-- What a match takes from its buyer and gives its seller. -/
def Offer.moves (taker : UserId) (offer : Offer) : UserId → ℚ :=
  Pi.single (buyerOf offer.maker taker) (-offer.usdc) +
    Pi.single (sellerOf offer.maker taker) (offer.usdc - offer.fee)

/-- What the executed matches do to the balances. -/
def bookMoves (taker : UserId) (offers : List Offer) : UserId → ℚ :=
  ((offers.filter Offer.delivered).map (Offer.moves taker)).sum

/-- What the fees do to the escrows. -/
def bookFees (pools : Table LiquidityPool.key) (offers : List Offer) : PoolKey → ℚ :=
  (offers.map fun offer => (Pi.single (feeKey pools offer.maker) offer.fee : PoolKey → ℚ)).sum

/-- What movements of the balances and of the escrows add to the money that the columns keep. -/
def keptMovement (db : Database) (moves : UserId → ℚ) (escrows : PoolKey → ℚ) : ℚ :=
  db.wallets.sum (fun wallet =>
      toNumeric scale (wallet.balance + moves wallet.userId) - toNumeric scale wallet.balance) +
    db.pools.sum fun pool =>
      toNumeric scale (pool.collateral + escrows pool.key) - toNumeric scale pool.collateral

/-- Every offer is delivered, and the columns keep as much as the matches and an AMM leg for
`paid` take as they keep of what these give. -/
structure Settles (db : Database) (taker : UserId) (offers : List Offer) (pool : PoolKey)
    (paid : ℚ) : Prop where
  delivers : ∀ offer ∈ offers, offer.delivered = true
  cancels : keptMovement db (bookMoves taker offers + Pi.single taker (-paid))
    (bookFees db.pools offers + Pi.single pool paid) = 0

theorem settles_iff (db : Database) (taker : UserId) (offers : List Offer) (pool : PoolKey)
    (paid : ℚ) : Settles db taker offers pool paid ↔
      (∀ offer ∈ offers, offer.delivered = true) ∧
        keptMovement db (bookMoves taker offers + Pi.single taker (-paid))
          (bookFees db.pools offers + Pi.single pool paid) = 0 := by
  constructor
  · intro settles
    exact ⟨settles.delivers, settles.cancels⟩
  · intro both
    exact ⟨both.1, both.2⟩

instance (db : Database) (taker : UserId) (offers : List Offer) (pool : PoolKey) (paid : ℚ) :
    Decidable (Settles db taker offers pool paid) :=
  decidable_of_iff' _ (settles_iff db taker offers pool paid)

theorem isSome_feeKey (pools : Table LiquidityPool.key) (maker : Order) :
    (pools.find? (feeKey pools maker)).isSome = (feePool pools maker).isSome := by
  unfold feeKey feePool
  cases own : pools.find? ⟨maker.marketId, some maker.outcomeId⟩ with
  | none => simp
  | some pool => simp [own]

theorem payMatch_shifted (wallets : Table Wallet.userId) (maker : Order) (taker : UserId)
    (shares usdc fee : ℚ) :
    Table.Shifted Wallet.balance (Pi.single (buyerOf maker taker) (-usdc) +
        Pi.single (sellerOf maker taker) (usdc - fee)) wallets
      (payMatch wallets maker taker shares usdc fee) := by
  have paid : Table.Shifted Wallet.balance (Pi.single (buyerOf maker taker) (-usdc) +
        Pi.single (sellerOf maker taker) (usdc - fee)) wallets
      ((wallets.modify (buyerOf maker taker) (Wallet.debit usdc)).modify
        (sellerOf maker taker) (Wallet.credit (usdc - fee))) :=
    (Table.shifted_modify fun _ => sub_eq_add_neg _ usdc).trans (Table.shifted_modify fun _ => rfl)
  unfold payMatch
  cases maker.side with
  | sell => exact paid
  | buy =>
      rw [← add_zero (Pi.single _ _ + Pi.single _ _)]
      exact paid.trans (Table.shifted_modify_zero fun _ => rfl)

theorem creditFee_shifted (pools : Table LiquidityPool.key) (maker : Order) {fee : ℚ}
    (positive : 0 < fee) :
    Table.Shifted LiquidityPool.collateral (Pi.single (feeKey pools maker) fee) pools
      (creditFee pools maker fee) := by
  have key : ∀ pool, feePool pools maker = some pool → pool.key = feeKey pools maker := by
    intro pool isPool
    unfold feePool at isPool
    unfold feeKey
    split at isPool
    · rename_i own
      cases isPool
      rw [own, Option.isSome_some, if_pos rfl]
      exact Table.key_of_find? own
    · rename_i none_
      rw [none_, Option.isSome_none, if_neg (by simp)]
      exact Table.key_of_find? isPool
  unfold creditFee
  split
  · rename_i noPool
    have absent : ∀ row ∈ pools.rows, row.key ≠ feeKey pools maker := by
      refine Table.find?_eq_none.mp ?_
      unfold feePool at noPool
      unfold feeKey
      split at noPool
      · contradiction
      · rename_i none_
        rw [none_, Option.isSome_none, if_neg (by simp)]
        exact noPool
    refine List.map_congr_left fun row member => ?_
    rw [Pi.single_eq_of_ne (absent row member), add_zero]
  · rename_i pool isPool
    rw [if_pos positive, ← key pool isPool]
    exact Table.shifted_modify fun _ => rfl

theorem feeKey_creditFee (pools : Table LiquidityPool.key) (maker other : Order) (fee : ℚ) :
    feeKey (creditFee pools maker fee) other = feeKey pools other := by
  unfold feeKey
  rw [isSome_creditFee]

/-- What a trace does to each balance and to each escrow. -/
theorem Trace.shifted (trace : Trace now taker db fill offers after final)
    (positive : ∀ offer ∈ offers, 0 < offer.fee) :
    Table.Shifted Wallet.balance (bookMoves taker.userId offers) db.wallets after.wallets ∧
      Table.Shifted LiquidityPool.collateral (bookFees db.pools offers) db.pools after.pools := by
  have fees : ∀ (pools : Table LiquidityPool.key) (maker : Order) (fee : ℚ) (offers : List Offer),
      bookFees (creditFee pools maker fee) offers = bookFees pools offers := by
    intro pools maker fee offers
    simp only [bookFees, feeKey_creditFee]
  induction trace with
  | done => exact ⟨.refl _ _, .refl _ _⟩
  | @skip db _ _ _ maker quantity offers _ _ _ ih =>
      obtain ⟨wallets, pools⟩ := ih fun offer member => positive offer (List.mem_cons_of_mem _ member)
      have head := positive _ List.mem_cons_self
      have credited := creditFee_shifted db.pools maker head
      refine ⟨wallets, ?_⟩
      rw [bookFees, List.map_cons, List.sum_cons, ← bookFees]
      refine credited.trans ?_
      rw [← fees db.pools maker (quantity * maker.price * protocolFeeRate) offers]
      exact pools
  | @deliver db _ _ _ maker quantity offers _ _ _ _ ih =>
      obtain ⟨wallets, pools⟩ := ih fun offer member => positive offer (List.mem_cons_of_mem _ member)
      have head := positive _ List.mem_cons_self
      have paid := payMatch_shifted db.wallets maker taker.userId quantity
        (quantity * maker.price) (quantity * maker.price * protocolFeeRate)
      have credited := creditFee_shifted db.pools maker head
      constructor
      · rw [bookMoves, List.filter_cons_of_pos rfl, List.map_cons, List.sum_cons, ← bookMoves]
        exact paid.trans wallets
      · rw [bookFees, List.map_cons, List.sum_cons, ← bookFees]
        refine credited.trans ?_
        rw [← fees db.pools maker (quantity * maker.price * protocolFeeRate) offers]
        exact pools

/-- The money after movements. -/
theorem storedMoney_of_shifted {moves : UserId → ℚ} {escrows : PoolKey → ℚ}
    (wallets : Table.Shifted Wallet.balance moves db.wallets after.wallets)
    (pools : Table.Shifted LiquidityPool.collateral escrows db.pools after.pools) :
    after.storedMoney = db.storedMoney + keptMovement db moves escrows := by
  unfold Database.storedMoney keptMovement
  rw [wallets.sum_eq (toNumeric scale), pools.sum_eq (toNumeric scale), Table.sum_sub,
    Table.sum_sub]
  ring

end Movements

/-- The columns keep as much money as before, and the fee ledgers were booked the executed
matches' fees and the AMM leg's own. -/
def MoneyConserved (before after : Database) (executed : List MatchDetails) (legFee : ℚ) : Prop :=
  after.storedMoney = before.storedMoney ∧
    after.fees = before.fees +
      (executed.map fun details => details.matchUsdc * protocolFeeRate).sum + legFee

section Conserved

variable {σ : Type} {now : Timestamp} {taker : Taker σ} {db matched after : Database}
  {fill final : σ} {offers : List Offer} {side : Side} {executed : List MatchDetails}
  {legFee paid : ℚ} {pool : PoolKey}

/-- What follows the book leg moves money only between the taker and a pool. -/
theorem Trace.moneyConserved_iff (trace : Trace now taker db fill offers matched final)
    (booked : ∀ offer ∈ offers, Booked db.pools side offer)
    (owned : hasWallet db.wallets taker.userId = true)
    (reports : executed = deliveredDetails db.outcomes offers)
    (wallets : Table.Shifted Wallet.balance (Pi.single taker.userId (-paid)) matched.wallets
      after.wallets)
    (pools : Table.Shifted LiquidityPool.collateral (Pi.single pool paid) matched.pools
      after.pools)
    (fees : after.fees = matched.fees + legFee) :
    MoneyConserved db after executed legFee ↔ Settles db taker.userId offers pool paid := by
  obtain ⟨_, bookedFees⟩ := trace.money booked (fun _ => rfl) owned
  obtain ⟨bookWallets, bookPools⟩ := trace.shifted fun offer member => (booked offer member).fee_pos
  have money := storedMoney_of_shifted (bookWallets.trans wallets) (bookPools.trans pools)
  have skips := skippedFees_eq_zero_iff booked
  unfold MoneyConserved
  rw [money, reports, sum_deliveredDetails, fees, bookedFees]
  constructor
  · rintro ⟨sameMoney, sameFees⟩
    exact ⟨skips.mp (by linarith), by linarith⟩
  · rintro ⟨delivers, cancels⟩
    rw [skips.mpr delivers, cancels]
    simp

/-- Every offer is delivered, and every maker has a wallet. -/
def BookDelivers (db : Database) (offers : List Offer) : Prop :=
  ∀ offer ∈ offers, offer.delivered = true ∧ hasWallet db.wallets offer.maker.userId = true

/-- The exact sums of what the book moves. -/
theorem sum_bookMoves (booked : ∀ offer ∈ offers, Booked db.pools side offer)
    {user : UserId} (owned : hasWallet db.wallets user = true) :
    db.wallets.sum (fun wallet => bookMoves user offers wallet.userId) +
        db.pools.sum (fun row => bookFees db.pools offers row.key) =
      skippedFees offers +
        orphanSign side * deliveredSum offers (orphaned (hasWallet db.wallets) side) := by
  induction offers with
  | nil => simp [bookMoves, bookFees, Table.sum]
  | cons offer offers ih =>
      have head := booked _ List.mem_cons_self
      have rest := ih fun other member => booked other (List.mem_cons_of_mem _ member)
      have fee : db.pools.sum (fun row => bookFees db.pools (offer :: offers) row.key) =
          offer.fee + db.pools.sum fun row => bookFees db.pools offers row.key := by
        simp only [bookFees, List.map_cons, List.sum_cons, Pi.add_apply]
        rw [Table.sum_add, Table.sum_single, isSome_feeKey, head.pooled, if_pos rfl]
      have moves : db.wallets.sum (fun wallet => bookMoves user (offer :: offers) wallet.userId) =
          (if offer.delivered then
            (if hasWallet db.wallets (buyerOf offer.maker user) then -offer.usdc else 0) +
              (if hasWallet db.wallets (sellerOf offer.maker user) then offer.usdc - offer.fee
                else 0) else 0) +
          db.wallets.sum fun wallet => bookMoves user offers wallet.userId := by
        cases delivered : offer.delivered with
        | false => simp [bookMoves, delivered]
        | true =>
            simp only [bookMoves, List.filter_cons_of_pos delivered, List.map_cons, List.sum_cons,
              Offer.moves, Pi.add_apply]
            rw [Table.sum_add, Table.sum_add, Table.sum_single, Table.sum_single]
            rfl
      rw [fee, moves, skippedFees_cons, deliveredSum_cons]
      have makerSide : offer.maker.side = side.opposite := head.side
      cases offer.delivered with
      | false =>
          simp only [Bool.false_eq_true, if_false]
          linarith
      | true =>
          simp only [if_true, orphaned]
          cases side with
          | buy =>
              simp only [buyerOf, sellerOf, makerSide, Side.opposite, owned, if_true,
                orphanSign] at rest ⊢
              split <;> linarith
          | sell =>
              simp only [buyerOf, sellerOf, makerSide, Side.opposite, owned, if_true,
                orphanSign] at rest ⊢
              split <;> linarith

/-- Where no row and no movement has more than eight decimals, the columns keep the exact sums,
and these cancel when no maker is without a wallet. -/
theorem settles_iff_bookDelivers (booked : ∀ offer ∈ offers, Booked db.pools side offer)
    {user : UserId} (owned : hasWallet db.wallets user = true)
    (pooled : (db.pools.find? pool).isSome = true)
    (balances : ∀ wallet ∈ db.wallets.rows, OnGrid scale wallet.balance ∧ OnGrid scale
      (wallet.balance + (bookMoves user offers + Pi.single user (-paid) : UserId → ℚ) wallet.userId))
    (escrows : ∀ row ∈ db.pools.rows, OnGrid scale row.collateral ∧ OnGrid scale
      (row.collateral + (bookFees db.pools offers + Pi.single pool paid : PoolKey → ℚ) row.key)) :
    Settles db user offers pool paid ↔ BookDelivers db offers := by
  have whole : ∀ {x : ℚ}, OnGrid scale x → toNumeric scale x = x :=
    fun grid => (toNumeric_eq_self_iff scale_pos).mpr grid
  have walletMoves : db.wallets.sum (fun wallet =>
      toNumeric scale (wallet.balance + (bookMoves user offers + Pi.single user (-paid) : UserId → ℚ)
        wallet.userId) - toNumeric scale wallet.balance) =
      db.wallets.sum (fun wallet => bookMoves user offers wallet.userId) - paid := by
    have same : db.wallets.sum (fun wallet =>
        toNumeric scale (wallet.balance + (bookMoves user offers + Pi.single user (-paid) : UserId → ℚ)
          wallet.userId) - toNumeric scale wallet.balance) =
        db.wallets.sum fun wallet => bookMoves user offers wallet.userId +
          (Pi.single user (-paid) : UserId → ℚ) wallet.userId := by
      refine congrArg List.sum (List.map_congr_left fun wallet member => ?_)
      rw [whole (balances wallet member).1, whole (balances wallet member).2, add_sub_cancel_left,
        Pi.add_apply]
    have present : ((db.wallets.find? user).isSome) = true := owned
    rw [same, Table.sum_add, Table.sum_single, present, if_pos rfl, sub_eq_add_neg]
  have poolMoves : db.pools.sum (fun row =>
      toNumeric scale (row.collateral + (bookFees db.pools offers + Pi.single pool paid : PoolKey → ℚ) row.key) -
        toNumeric scale row.collateral) =
      db.pools.sum (fun row => bookFees db.pools offers row.key) + paid := by
    have same : db.pools.sum (fun row =>
        toNumeric scale (row.collateral + (bookFees db.pools offers + Pi.single pool paid : PoolKey → ℚ)
          row.key) - toNumeric scale row.collateral) =
        db.pools.sum fun row => bookFees db.pools offers row.key +
          (Pi.single pool paid : PoolKey → ℚ) row.key := by
      refine congrArg List.sum (List.map_congr_left fun row member => ?_)
      rw [whole (escrows row member).1, whole (escrows row member).2, add_sub_cancel_left,
        Pi.add_apply]
    rw [same, Table.sum_add, Table.sum_single, pooled, if_pos rfl]
  have total := sum_bookMoves booked owned
  have kept : keptMovement db (bookMoves user offers + Pi.single user (-paid))
      (bookFees db.pools offers + Pi.single pool paid) = skippedFees offers +
        orphanSign side * deliveredSum offers (orphaned (hasWallet db.wallets) side) := by
    unfold keptMovement
    rw [walletMoves, poolMoves, ← total]
    ring
  have delivered_iff := skippedFees_eq_zero_iff booked
  unfold BookDelivers
  rw [forall₂_and]
  constructor
  · rintro ⟨delivers, cancels⟩
    rw [kept, delivered_iff.mpr delivers, zero_add] at cancels
    exact ⟨delivers, (orphans_eq_zero_iff booked delivers).mp cancels⟩
  · rintro ⟨delivers, owners⟩
    refine ⟨delivers, ?_⟩
    rw [kept, delivered_iff.mpr delivers, (orphans_eq_zero_iff booked delivers).mpr owners,
      add_zero]

end Conserved

end MatchingEngine

/-! # Incoming orders -/

namespace OrderService

open MarketService

variable {env : Env} {db matched traded : Database} {user : UserId} {venue : Venue}
  {data : OrderRequest} {execution : Execution} {leg : AmmLeg}

/-- No reward is waiting for the user's first trade. -/
def Unreferred (db : Database) (user : UserId) : Prop :=
  ∀ referral ∈ db.referrals, referral.referredId = some user → referral.completed = true

theorem creditReferral_of_unreferred (unreferred : Unreferred db user) :
    creditReferral db user = db := by
  have none_ : (db.referrals.filter fun referral =>
      referral.referredId = some user && !referral.completed) = [] := by
    rw [List.filter_eq_nil_iff]
    intro referral member
    by_cases referred : referral.referredId = some user
    · simp [referred, unreferred referral member referred]
    · simp [referred]
  simp only [creditReferral, none_]

theorem writeLeg_sums (leg : AmmLeg) {pools : Table LiquidityPool.key} {key : PoolKey}
    {pool : LiquidityPool} (found : pools.find? key = some pool) (delta : ℚ) :
    (writeLeg pools key leg delta).sum LiquidityPool.collateral =
        pools.sum LiquidityPool.collateral + delta ∧
      (writeLeg pools key leg delta).sum LiquidityPool.protocolFees =
        pools.sum LiquidityPool.protocolFees + leg.protocolFee :=
  ⟨Table.sum_modify_add found rfl, Table.sum_modify_add found rfl⟩

theorem writeLeg_shifted (leg : AmmLeg) (pools : Table LiquidityPool.key) (key : PoolKey)
    (delta : ℚ) : Table.Shifted LiquidityPool.collateral (Pi.single key delta) pools
      (writeLeg pools key leg delta) := by
  unfold writeLeg
  exact Table.shifted_modify fun _ => rfl

/-- What the AMM takes from a user in exchange: the dollars of a buy, or less than nothing for
the shares of a sell. -/
def ammPaid (amm : BinaryAMM) (ammSide : ShareSide) (side : Side) (quantity : ℚ) : ℚ :=
  match side with
  | .buy => quantity
  | .sell =>
      match amm.sell ammSide quantity with
      | .ok (_, quote) => -quote.collateralIn
      | .error _ => 0

/-- What the order will pay the AMM for what the book leaves of it. -/
def plannedPaid (db : Database) (user : UserId) (venue : Venue) (data : OrderRequest) : ℚ :=
  if 0 < plannedRemainder db user venue data then
    match route venue data with
    | .ok .amm => ammPaid venue.amm venue.ammSide data.side (plannedRemainder db user venue data)
    | _ => 0
  else 0

/-- The AMM leg moves what it is paid from the wallet to the escrow. -/
theorem runAmmLeg_moves {remaining : ℚ} {pool : LiquidityPool}
    (found : matched.pools.find? venue.pool.key = some pool)
    (ran : runAmmLeg matched user venue data.side remaining = .ok (traded, leg)) :
    Table.Shifted Wallet.balance
        (Pi.single user (-ammPaid venue.amm venue.ammSide data.side remaining))
        matched.wallets traded.wallets ∧
      Table.Shifted LiquidityPool.collateral
        (Pi.single venue.pool.key (ammPaid venue.amm venue.ammSide data.side remaining))
        matched.pools traded.pools ∧
      traded.fees = matched.fees + leg.protocolFee ∧ traded.referrals = matched.referrals := by
  have paid : leg.paid = ammPaid venue.amm venue.ammSide data.side remaining := by
    cases side : data.side with
    | buy =>
        rw [side] at ran
        obtain ⟨_, _, _, _, isBuy, quantity, _⟩ := ammBuy_ok ran
        rw [AmmLeg.paid, isBuy]
        exact quantity
    | sell =>
        rw [side] at ran
        obtain ⟨_, sold, isSell, _⟩ := ammSell_ok ran
        rw [AmmLeg.paid, isSell]
        simp only [ammPaid, sold]
  obtain ⟨_, _, isTraded⟩ := runAmmLeg_traded ran
  rw [← paid, isTraded]
  refine ⟨?_, writeLeg_shifted leg _ _ _, (writeLeg_sums leg found leg.paid).2, rfl⟩
  dsimp only
  exact Table.shifted_modify fun _ => sub_eq_add_neg _ leg.paid

/-- What saving the fill writes is no money. -/
theorem finish_moves_nothing {fill : Fill} (unreferred : Unreferred db user)
    (finished : finish env db user venue data fill = .ok execution) :
    execution.db.wallets = db.wallets ∧ execution.db.pools = db.pools := by
  have same : creditReferral (saveFill env db user venue data fill
      (db.orders.insert (filledRow env db user venue data fill))) user =
      saveFill env db user venue data fill
        (db.orders.insert (filledRow env db user venue data fill)) :=
    creditReferral_of_unreferred unreferred
  rw [(finish_ok finished).1, same]
  exact ⟨rfl, rfl⟩

/-- A reservation moves no balance. -/
theorem restOrder_moves_nothing {book : BookFill}
    (rested : restOrder env db user venue data book = .ok execution) :
    Table.Shifted Wallet.balance 0 db.wallets execution.db.wallets ∧
      execution.db.pools = db.pools := by
  obtain ⟨_, _, _, locked, database, _⟩ := restOrder_ok rested
  rw [database]
  refine ⟨?_, rfl⟩
  rcases lockFunds_ok locked with ⟨_, rfl⟩ | ⟨_, _, _, _, rfl⟩
  · exact .refl _ _
  · dsimp only
    exact Table.shifted_modify_zero fun _ => rfl

/-- The makers of an incoming order trade against the venue's pool. -/
theorem bookPlan_booked {book : BookFill}
    (opened : openVenue env db data.marketId data.outcome = .ok venue)
    (trace : Trace env.now (bookTaker data.side data.amount user) db .empty
      (bookPlan db user venue data) matched book) :
    ∀ offer ∈ bookPlan db user venue data, Booked db.pools data.side offer := by
  intro offer member
  obtain ⟨_, _, _, _, pool, _⟩ := openVenue_ok opened
  obtain ⟨market, outcome, side, _⟩ := isMatch_iff.mp (mem_bookPlan member).2
  obtain ⟨quantity, price⟩ := bookPlan_positive trace offer member
  refine ⟨?_, quantity, price, side⟩
  exact isSome_feePool_of_resolved market outcome pool

theorem executeOrder_conserved_iff (executed : executeOrder env db user data = .ok execution)
    (opened : openVenue env db data.marketId data.outcome = .ok venue)
    (unreferred : Unreferred db user) :
    MoneyConserved db execution.db execution.matchDetails
        (AmmLeg.total execution.ammLeg AmmLeg.protocolFee) ↔
      (duplicateOf db user data = none → Settles db user (bookPlan db user venue data)
        venue.pool.key (plannedPaid db user venue data)) := by
  obtain ⟨_, openedAs, _, ⟨wallet, walletFound⟩, ways⟩ := executeOrder_ok executed
  cases opened.symm.trans openedAs
  rcases ways with ⟨existing, found, rfl⟩ | ⟨unseen, _, filled⟩
  · refine iff_of_true ?_ fun unseen => absurd (unseen.symm.trans found) (by simp)
    simp [MoneyConserved, duplicate, AmmLeg.total]
  obtain ⟨matched, book, trace, ends⟩ := fillOrder_ok filled
  have booked := bookPlan_booked opened trace
  have owned : hasWallet db.wallets user = true := by simp [hasWallet, walletFound]
  have reports : book.matchDetails = deliveredDetails db.outcomes (bookPlan db user venue data) := by
    simpa [BookFill.empty] using trace.bookFill.2.2
  have remaining := remainder_eq_planned trace
  have stillUnreferred : ∀ {other : Database}, other.referrals = matched.referrals →
      Unreferred other user := by
    intro other same
    unfold Unreferred
    rw [same, trace.sameElsewhere.referrals]
    exact unreferred
  have noMove : ∀ {wallets : Table Wallet.userId},
      Table.Shifted Wallet.balance 0 matched.wallets wallets →
      Table.Shifted Wallet.balance (Pi.single user (-0)) matched.wallets wallets := by
    intro wallets still
    simpa using still
  have noEscrow : Table.Shifted LiquidityPool.collateral (Pi.single venue.pool.key 0)
      matched.pools matched.pools := by
    rw [Pi.single_zero]
    exact .refl _ _
  rw [forall_prop_of_true unseen]
  rcases ends with ⟨left, routed, rested⟩ | ⟨left, routed, traded, leg, ran, finished⟩ |
    ⟨nothing, finished⟩
  · obtain ⟨_, _, _, _, _, details, noLeg, _⟩ := restOrder_ok rested
    obtain ⟨wallets, pools⟩ := restOrder_moves_nothing rested
    have unpaid : plannedPaid db user venue data = 0 := by
      unfold plannedPaid
      rw [routed, ite_self]
    rw [unpaid]
    refine trace.moneyConserved_iff booked owned (details.trans reports) (noMove wallets)
      (pools ▸ noEscrow) ?_
    rw [Database.fees, pools, noLeg]
    simp [AmmLeg.total, Database.fees]
  · obtain ⟨_, details, withLeg, _⟩ := finish_ok finished
    have pool : (matched.pools.find? venue.pool.key).isSome := by
      rw [trace.isSome_pool]
      obtain ⟨_, _, _, _, found, _⟩ := openVenue_ok opened
      rw [Table.key_of_find? found, found]
      rfl
    obtain ⟨row, found⟩ := Option.isSome_iff_exists.mp pool
    obtain ⟨legWallets, legPools, legFees, referrals⟩ := runAmmLeg_moves found ran
    obtain ⟨wallets, pools⟩ := finish_moves_nothing (stillUnreferred referrals) finished
    have paid : plannedPaid db user venue data =
        ammPaid venue.amm venue.ammSide data.side (remainder data book) := by
      unfold plannedPaid
      rw [← remaining, if_pos left, routed]
    rw [paid]
    refine trace.moneyConserved_iff booked owned (details.trans reports) (wallets ▸ legWallets)
      (pools ▸ legPools) ?_
    rw [Database.fees, pools, ← Database.fees, legFees, withLeg]
    rfl
  · obtain ⟨_, details, noLeg, _⟩ := finish_ok finished
    obtain ⟨wallets, pools⟩ := finish_moves_nothing (stillUnreferred rfl) finished
    have unpaid : plannedPaid db user venue data = 0 := by
      unfold plannedPaid
      rw [← remaining, if_neg (not_lt.mpr nothing)]
    rw [unpaid]
    refine trace.moneyConserved_iff booked owned (details.trans reports)
      (noMove (wallets ▸ .refl _ _)) (pools ▸ noEscrow) ?_
    rw [Database.fees, pools, noLeg]
    simp [AmmLeg.total, Database.fees]

theorem cancelOrder_conserved {orderId : OrderId} {after : Database}
    (cancelled : cancelOrder env db user orderId = .ok after) : MoneyConserved db after [] 0 := by
  unfold cancelOrder at cancelled
  split at cancelled
  · split at cancelled
    · cases cancelled
      refine ⟨?_, by simp [Database.fees]⟩
      unfold Database.storedMoney
      dsimp only
      split
      · exact congrArg (· + _) (Table.sum_modify_eq fun _ _ => rfl)
      · rfl
    · contradiction
  · contradiction

end OrderService

/-! # Swept orders -/

namespace LimitSweep

open OrderService MarketService

variable {now : Timestamp} {db : Database} {session : Session} {market : MarketId}
  {parimutuel : Bool} {orderId : OrderId} {order : Order} {turn : Turn} {processed : Processed}

theorem expireOrder_conserved (now : Timestamp) (db : Database) (order : Order) :
    MoneyConserved db (expireOrder now db order) [] 0 := by
  refine ⟨?_, by simp [Database.fees, expireOrder]⟩
  unfold Database.storedMoney expireOrder
  dsimp only
  split
  · rfl
  · exact congrArg (· + _) (Table.sum_modify_eq fun _ _ => rfl)

/-- A resting buy never asks a maker without a price. -/
theorem pending_price {after : Database} {fill final : PendingFill} {offers : List Offer}
    (trace : Trace now (pendingTaker now order) db fill offers after final)
    (buying : order.side = .buy) : ∀ offer ∈ offers, 0 < offer.maker.price := by
  intro offer member
  obtain ⟨asker, asked⟩ := trace.asked offer member
  by_contra unpriced
  simp [pendingTaker, buying, pendingQuantity, unpriced] at asked

instance (now : Timestamp) (session : Session) (turn : Turn) :
    Decidable (SweptToAmm now session turn) :=
  decidable_of_iff (turn.order.status.isOpen = true ∧ hasExpired now turn.order = false ∧
    0 < pendingRemainder turn.order
      (pendingPlan now session turn.market turn.order turn.outcome.id) ∧
    turn.canFill = true ∧
    (session.current.wallets.find? turn.order.userId).any (fun wallet =>
      match turn.order.side with
      | .buy => turn.order.remainingAmount ≤ wallet.available
      | .sell => turn.order.remainingAmount ≤
          Position.held session.current.positions turn.positionKey) = true) (by
    unfold SweptToAmm
    rw [Option.any_eq_true]
    cases turn.order.side <;> simp)

/-- What the resting order will pay the AMM for what the book leaves of it. -/
def sweptPaid (now : Timestamp) (session : Session) (turn : Turn) : ℚ :=
  if SweptToAmm now session turn then
    ammPaid turn.amm turn.ammSide turn.order.side (pendingRemainder turn.order
      (pendingPlan now session turn.market turn.order turn.outcome.id))
  else 0

theorem sweepLeg_moves {matched traded : Database} {leg : AmmLeg} {remaining : ℚ}
    {pool : LiquidityPool} (found : matched.pools.find? turn.poolKey = some pool)
    (ran : sweepLeg now matched turn remaining = .ok (some (traded, leg))) :
    Table.Shifted Wallet.balance
        (Pi.single turn.order.userId (-ammPaid turn.amm turn.ammSide turn.order.side remaining))
        matched.wallets traded.wallets ∧
      Table.Shifted LiquidityPool.collateral
        (Pi.single turn.poolKey (ammPaid turn.amm turn.ammSide turn.order.side remaining))
        matched.pools traded.pools ∧
      traded.fees = matched.fees + sweepFee leg := by
  have shifted : ∀ delta, Table.Shifted LiquidityPool.collateral (Pi.single turn.poolKey delta)
      matched.pools (writeSweepLeg matched.pools turn leg delta) := by
    intro delta
    unfold writeSweepLeg
    exact Table.shifted_modify fun _ => rfl
  have booked : ∀ delta, (writeSweepLeg matched.pools turn leg delta).sum
      LiquidityPool.protocolFees = matched.pools.sum LiquidityPool.protocolFees + sweepFee leg := by
    intro delta
    unfold writeSweepLeg
    exact Table.sum_modify_add found rfl
  rcases (sweepLeg_ok ran).2 with ⟨buying, _, _, _, rfl⟩ | ⟨selling, _, _, _, sold, _, rfl⟩
  · simp only [ammPaid, buying]
    refine ⟨?_, shifted remaining, booked remaining⟩
    simp only [recordLeg]
    exact Table.shifted_modify fun _ => sub_eq_add_neg _ remaining
  · simp only [ammPaid, selling, sold, neg_neg]
    refine ⟨?_, shifted _, booked _⟩
    simp only [recordLeg]
    exact Table.shifted_modify fun _ => rfl

theorem processOrder_conserved_iff (sweeping : Sweeping now db session)
    (found : session.current.orders.find? orderId = some order)
    (taken : takeTurn session.current market parimutuel order = some turn)
    (priced : 0 < order.price) (owned : hasWallet session.current.wallets order.userId = true)
    (ran : processOrder now market parimutuel session orderId = .ok processed) :
    MoneyConserved session.current processed.session.current processed.executed
        (AmmLeg.total processed.ammLeg sweepFee) ↔
      (order.status.isOpen = true → hasExpired now order = false →
        Settles session.current order.userId
          (pendingPlan now session market order turn.outcome.id) turn.poolKey
          (sweptPaid now session turn)) := by
  obtain ⟨rfl, rfl, _, _, key, pool, poolFound, _⟩ := takeTurn_some taken
  rcases processOrder_ok ran with ⟨rfl, passed⟩ | ⟨_, foundAs, _, expired, rfl⟩ |
    ⟨_, _, foundAs, opened, lasting, takenAs, traded⟩
  · refine iff_of_true (by simp [MoneyConserved, AmmLeg.total]) fun opened _ => ?_
    rcases passed _ found with closed | untaken
    · exact absurd opened (by simp [closed])
    · exact absurd (untaken.symm.trans taken) (by simp)
  · cases found.symm.trans foundAs
    exact iff_of_true (expireOrder_conserved now session.current _) fun _ lasting =>
      absurd lasting (by simp [expired])
  cases found.symm.trans foundAs
  cases taken.symm.trans takenAs
  rw [forall_prop_of_true opened, forall_prop_of_true lasting]
  have sent := tradeOrder_leg_iff sweeping opened lasting traded
  obtain ⟨matched, fill, trace, executed, ends⟩ := tradeOrder_ok traded
  obtain ⟨remaining, isExecuted⟩ := pendingFill_eq trace
  have reports : processed.executed = deliveredDetails session.current.outcomes
      (pendingPlan now session turn.market turn.order turn.outcome.id) := by
    rw [executed, isExecuted, List.nil_append]
  have booked : ∀ offer ∈ pendingPlan now session turn.market turn.order turn.outcome.id,
      Booked session.current.pools turn.order.side offer := by
    intro offer member
    obtain ⟨_, marketId, outcomeId, side, _, crosses⟩ :=
      pendingPlan_maker sweeping.consistent member
    refine ⟨isSome_feePool_of_resolved marketId outcomeId (key ▸ poolFound),
      pending_positive trace offer member, ?_, side⟩
    cases taker : turn.order.side with
    | buy => exact pending_price trace taker offer member
    | sell =>
        rw [taker] at crosses
        have bound : turn.order.price ≤ offer.maker.price := by simpa [priceCrosses] using crosses
        exact priced.trans_le bound
  rcases ends with ⟨noLeg, _, kept⟩ | ⟨after, leg, withLeg, _, _, legRan, kept⟩
  · have current : processed.session.current = matched := by
      rcases kept with isSession | isSession <;> rw [isSession]
    have unpaid : sweptPaid now session turn = 0 := if_neg (by rw [← sent, noLeg]; simp)
    rw [current, noLeg, unpaid]
    refine trace.moneyConserved_iff booked owned reports ?_ ?_ (by simp [AmmLeg.total])
    · rw [neg_zero, Pi.single_zero]
      exact .refl _ _
    · rw [Pi.single_zero]
      exact .refl _ _
  · have pool : (matched.pools.find? turn.poolKey).isSome := by
      rw [trace.isSome_pool, poolFound]
      rfl
    obtain ⟨row, rowFound⟩ := Option.isSome_iff_exists.mp pool
    obtain ⟨legWallets, legPools, legFees⟩ := sweepLeg_moves rowFound legRan
    have isRemaining : fill.remaining = pendingRemainder turn.order
        (pendingPlan now session turn.market turn.order turn.outcome.id) := remaining
    have paid : sweptPaid now session turn =
        ammPaid turn.amm turn.ammSide turn.order.side fill.remaining := by
      rw [isRemaining]
      exact if_pos (sent.mp (by simp [withLeg]))
    rw [kept, withLeg, paid]
    exact trace.moneyConserved_iff booked owned reports legWallets legPools legFees

end LimitSweep

open OrderService LimitSweep

/-- The seller of the quoted market has given her shares away since. -/
def emptyHanded : Database := { quotedMarket with positions := .empty }

end PredictX
