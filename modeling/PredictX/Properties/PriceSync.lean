import PredictX.Properties.BatchPrices
import PredictX.Workers.PriceTasks

namespace PredictX.PriceTasks

open PredictX.Data PredictX.MarketService PredictX.PriceCache

/-! What a run of `sync_amm_prices` publishes.

The client decodes responses, so the keys of a cached hash are text and the task's look-ups by
bytes find none of them: every price is compared with 0.5.
-/

variable {db : Database} {hashes : PriceHashes} {market : Market} {pair : ℚ × ℚ}

theorem priceMarket_market : (priceMarket db market).market = market := by
  unfold priceMarket
  split
  · rfl
  · dsimp only
    split <;> rfl

theorem priceMarket_prices :
    (priceMarket db market).prices = getMarketPricesFromDb db market.id := by
  unfold priceMarket getMarketPricesFromDb
  cases db.pools.find? ⟨market.id, none⟩ with
  | some pool => rfl
  | none =>
      dsimp only
      cases ((outcomePrices (loadOutcomePools db market.id)).map Prod.snd).max? with
      | none => rfl
      | some lead => rfl

theorem same_market {other : Market} (active : market ∈ activeMarkets db)
    (otherActive : other ∈ activeMarkets db) (same : other.id = market.id) : other = market :=
  List.inj_on_of_nodup_map db.markets.unique (List.mem_of_mem_filter otherActive)
    (List.mem_of_mem_filter active) same

/-- A decoded hash has no key of bytes. -/
theorem previousPrices_decoded (hash : Option (ℚ × ℚ)) :
    previousPrices (hgetall true hash) = evenPrices := by
  cases hash with
  | none => rfl
  | some cached =>
      unfold previousPrices
      split
      · rfl
      · simp [hgetall, Dict.get?_ofItems, evenPrices]

theorem mem_published {decodeResponses : Bool} {update : LimitSweep.PriceUpdate} :
    update ∈ published decodeResponses db hashes ↔
      ∃ market ∈ activeMarkets db,
        Differs (getMarketPricesFromDb db market.id)
          (previousPrices (hgetall decodeResponses (hashes market.id))) ∧
        update = (priceMarket db market).update := by
  unfold published
  simp only [List.mem_map, List.mem_filter, decide_eq_true_eq]
  constructor
  · rintro ⟨_, ⟨⟨market, active, rfl⟩, differs⟩, rfl⟩
    rw [priceMarket_prices, priceMarket_market] at differs
    exact ⟨market, active, differs, rfl⟩
  · rintro ⟨market, active, differs, rfl⟩
    refine ⟨_, ⟨⟨market, active, rfl⟩, ?_⟩, rfl⟩
    rwa [priceMarket_prices, priceMarket_market]

/-- A market's update is published when its prices are off the ones looked up. -/
theorem publishes_iff {decodeResponses : Bool} (active : market ∈ activeMarkets db) :
    (∃ update ∈ published decodeResponses db hashes, update.market = market.id) ↔
      Differs (getMarketPricesFromDb db market.id)
        (previousPrices (hgetall decodeResponses (hashes market.id))) := by
  constructor
  · rintro ⟨update, isPublished, same⟩
    obtain ⟨other, otherActive, differs, rfl⟩ := mem_published.mp isPublished
    rw [Priced.update, priceMarket_market] at same
    rwa [same_market active otherActive same] at differs
  · intro differs
    refine ⟨_, mem_published.mpr ⟨market, active, differs, rfl⟩, ?_⟩
    rw [Priced.update, priceMarket_market]

theorem writeUpdates_kept {updates : List LimitSweep.PriceUpdate} {id : MarketId}
    (held : hashes id = some pair)
    (same : ∀ update ∈ updates, update.market = id → (update.yesPrice, update.noPrice) = pair) :
    updates.foldl writeUpdate hashes id = some pair := by
  induction updates generalizing hashes with
  | nil => exact held
  | cons update rest ih =>
      refine ih ?_ fun other member => same other (List.mem_cons_of_mem _ member)
      unfold writeUpdate
      by_cases here : id = update.market
      · rw [here, Function.update_self, same update List.mem_cons_self here.symm]
      · rwa [Function.update_of_ne here]

theorem writePriced_kept {entries : List Priced} {id : MarketId} (held : hashes id = some pair)
    (same : ∀ entry ∈ entries, entry.market.id = id → entry.prices = pair) :
    entries.foldl writePriced hashes id = some pair := by
  induction entries generalizing hashes with
  | nil => exact held
  | cons entry rest ih =>
      refine ih ?_ fun other member => same other (List.mem_cons_of_mem _ member)
      unfold writePriced
      by_cases here : id = entry.market.id
      · rw [here, Function.update_self, same entry List.mem_cons_self here.symm]
      · rwa [Function.update_of_ne here]

/-- Whenever the publisher writes, a run leaves the prices of every active market. -/
theorem synced {early late : List LimitSweep.PriceUpdate} {decodeResponses : Bool}
    (own : ∀ update ∈ late, update ∈ published decodeResponses db hashes)
    (active : market ∈ activeMarkets db) :
    syncAmmPrices db early late hashes market.id =
      some (getMarketPricesFromDb db market.id) := by
  have samePrices : ∀ other ∈ activeMarkets db, other.id = market.id →
      (priceMarket db other).prices = getMarketPricesFromDb db market.id := by
    intro other otherActive same
    rw [same_market active otherActive same, priceMarket_prices]
  refine writeUpdates_kept ?_ ?_
  · obtain ⟨before, after, isMarkets⟩ := List.append_of_mem active
    rw [isMarkets, List.map_append, List.map_cons, List.foldl_append, List.foldl_cons]
    refine writePriced_kept ?_ ?_
    · rw [writePriced, priceMarket_market, Function.update_self, priceMarket_prices]
    · intro entry member same
      obtain ⟨other, isOther, rfl⟩ := List.mem_map.mp member
      rw [priceMarket_market] at same
      refine samePrices other ?_ same
      rw [isMarkets]
      exact List.mem_append_right _ (List.mem_cons_of_mem _ isOther)
  · intro update member same
    obtain ⟨other, otherActive, -, rfl⟩ := mem_published.mp (own update member)
    rw [Priced.update, priceMarket_market] at same
    exact samePrices other otherActive same

/-- A run publishes exactly the changes when no active market's cached prices tell another story
than 0.5 would. -/
theorem sync_publishes_changes_iff :
    ((∀ market ∈ activeMarkets db,
        ((∃ update ∈ published true db hashes, update.market = market.id) ↔
          Differs (getMarketPricesFromDb db market.id)
            ((hashes market.id).getD evenPrices))) ∧
      ∀ early late, (∀ update ∈ early ++ late, update ∈ published true db hashes) →
        ∀ market ∈ activeMarkets db, syncAmmPrices db early late hashes market.id =
          some (getMarketPricesFromDb db market.id)) ↔
    ∀ market ∈ activeMarkets db, ∀ cached, hashes market.id = some cached →
      (Differs (getMarketPricesFromDb db market.id) evenPrices ↔
        Differs (getMarketPricesFromDb db market.id) cached) := by
  have left : ∀ early late, (∀ update ∈ early ++ late, update ∈ published true db hashes) →
      ∀ market ∈ activeMarkets db, syncAmmPrices db early late hashes market.id =
        some (getMarketPricesFromDb db market.id) :=
    fun early late own market active =>
      synced (fun update member => own update (List.mem_append_right _ member)) active
  rw [and_iff_left left]
  refine forall₂_congr fun market active => ?_
  rw [publishes_iff active, previousPrices_decoded]
  cases hashes market.id with
  | none => simp
  | some cached => simp

/-- The race is cached as it stands. -/
def knownRace : PriceHashes := fun _ => some (3 / 5, 2 / 5)

/-- Nothing has changed, and it is published again. -/
theorem sync_repeats_itself :
    ¬ Differs (getMarketPricesFromDb raceMarket 1) ((knownRace 1).getD evenPrices) ∧
    (published true raceMarket knownRace).map LimitSweep.PriceUpdate.market = [1] := by
  refine ⟨by decide +kernel, by decide +kernel⟩

end PredictX.PriceTasks
