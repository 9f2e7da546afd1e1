import PredictX.Client.LivePrice

namespace PredictX.LivePrice

open PredictX.Data PredictX.JavaScript

/-! The two overlays of a frame agree; neither rests where the frame has a binary pair.

An outcome takes the price under its own name or under its name in lower case, so a key in another
spelling reaches it only if the outcome happens to carry that price already.
-/

variable {lower : String → String} {text : NumberText} {frame : LiveFrame} {market : MarketPrices}
  {prices : Dict String Value} {outcome : MarketOutcome}

/-- `Number(value)`. -/
def numeric (text : NumberText) : Value → Number
  | .undefined | .other => .nan
  | .null => .finite 0
  | .number value => value
  | .text value => text.read value

def patched (lower : String → String) (text : NumberText) (market : MarketPrices)
    (frame : LiveFrame) : MarketPrices :=
  (patchMarketPrices lower text market frame).getD market

def applied (lower : String → String) (market : MarketPrices) (frame : LiveFrame) : MarketPrices :=
  (applyLivePrices lower market frame).getD market

/-- A finite price of the frame under a name that is the outcome's ignoring case. -/
def IsNamedPrice (lower : String → String) (frame : LiveFrame) (outcome : MarketOutcome)
    (price : ℚ) : Prop :=
  ∃ prices, frame.outcomePrices = some prices ∧ ∃ key,
    prices.get? key = some (.number (.finite price)) ∧ lower key = lower (outcome.name.getD "")

/-- What `before` should become. -/
def IsReplaced (lower : String → String) (frame : LiveFrame) (before after : MarketOutcome) :
    Prop :=
  ((∃ price, IsNamedPrice lower frame before price) →
    ∃ price, IsNamedPrice lower frame before price ∧
      after = { before with price := .number (.finite price) }) ∧
  ((¬ ∃ price, IsNamedPrice lower frame before price) → after = before)

/-- Where the frame has a price for the outcome, the first of the exact and the lower-case key that
is there holds a finite number, or the outcome carries such a price already. -/
def IsReached (lower : String → String) (frame : LiveFrame) (outcome : MarketOutcome) : Prop :=
  (∃ price, IsNamedPrice lower frame outcome price) →
    (∃ prices, frame.outcomePrices = some prices ∧
      (framePrice lower prices outcome).finite? ≠ none) ∨
    ∃ price, IsNamedPrice lower frame outcome price ∧ outcome.price = .number (.finite price)

/-! # Outcomes -/

/-- The outcome in either result. -/
def overlaid (lower : String → String) (frame : LiveFrame) (outcome : MarketOutcome) :
    MarketOutcome :=
  match frame.outcomePrices with
  | none => outcome
  | some prices => (repriced lower prices outcome).getD outcome

theorem outcomes_overlaid (frame : LiveFrame) (market : MarketPrices) :
    (nextOutcomes lower frame market).or market.outcomes =
      market.outcomes.map fun outcomes => outcomes.map (overlaid lower frame) := by
  unfold nextOutcomes
  cases isFrame : frame.outcomePrices with
  | none =>
      have kept : overlaid lower frame = id := funext fun outcome => by simp [overlaid, isFrame]
      rw [kept, Option.none_or]
      simp
  | some prices =>
      have written : overlaid lower frame =
          fun outcome => (repriced lower prices outcome).getD outcome :=
        funext fun outcome => by simp [overlaid, isFrame]
      cases isMarket : market.outcomes with
      | none => rfl
      | some outcomes =>
          rw [written]
          by_cases changed : outcomes.any fun outcome => (repriced lower prices outcome).isSome
          · simp only [if_pos changed, Option.some_or, Option.map_some]
          · simp only [if_neg changed, Option.none_or, Option.map_some]
            have kept : ∀ outcome ∈ outcomes,
                (repriced lower prices outcome).getD outcome = outcome := by
              intro outcome member
              have same : repriced lower prices outcome = none := by
                simpa using fun some => changed (List.any_eq_true.mpr ⟨outcome, member, some⟩)
              rw [same, Option.getD_none]
            rw [List.map_congr_left kept, List.map_id']

theorem get?_of_property {key : String} {number : Number}
    (found : property prices key = .number number) : prices.get? key = some (.number number) := by
  unfold property at found
  cases own : prices.get? key with
  | some value =>
      simp only [own] at found
      rw [found]
  | none =>
      simp only [own] at found
      split at found <;> cases found

theorem framePrice_named (idempotent : ∀ name, lower (lower name) = lower name) {price : ℚ}
    (isFrame : frame.outcomePrices = some prices)
    (found : (framePrice lower prices outcome).finite? = some price) :
    IsNamedPrice lower frame outcome price := by
  rw [Value.finite?_eq_some] at found
  simp only [framePrice, Value.orElse] at found
  split at found
  · exact ⟨prices, isFrame, _, get?_of_property found, idempotent _⟩
  · exact ⟨prices, isFrame, _, get?_of_property found, idempotent _⟩
  · exact ⟨prices, isFrame, _, get?_of_property found, rfl⟩

theorem overlaid_of_found {price : ℚ} (isFrame : frame.outcomePrices = some prices)
    (found : (framePrice lower prices outcome).finite? = some price) :
    overlaid lower frame outcome = { outcome with price := .number (.finite price) } := by
  simp only [overlaid, isFrame, repriced, found]
  by_cases same : outcome.price = .number (.finite price)
  · rw [if_pos same, Option.getD_none, ← same]
  · rw [if_neg same, Option.getD_some]

theorem overlaid_of_not_found
    (missed : ∀ prices, frame.outcomePrices = some prices →
      (framePrice lower prices outcome).finite? = none) :
    overlaid lower frame outcome = outcome := by
  unfold overlaid
  cases isFrame : frame.outcomePrices with
  | none => rfl
  | some prices => simp only [repriced, missed prices isFrame, Option.getD_none]

theorem overlaid_replaced_iff (idempotent : ∀ name, lower (lower name) = lower name) :
    IsReplaced lower frame outcome (overlaid lower frame outcome) ↔
      IsReached lower frame outcome := by
  by_cases found : ∃ prices, frame.outcomePrices = some prices ∧
      (framePrice lower prices outcome).finite? ≠ none
  · -- The overlay writes a price that is named like the outcome.
    obtain ⟨prices, isFrame, isFinite⟩ := found
    obtain ⟨price, isPrice⟩ := Option.ne_none_iff_exists'.mp isFinite
    have named := framePrice_named idempotent isFrame isPrice
    rw [overlaid_of_found isFrame isPrice]
    refine iff_of_true ⟨fun _ => ⟨price, named, rfl⟩, fun none => absurd ⟨price, named⟩ none⟩ ?_
    exact fun _ => .inl ⟨prices, isFrame, isFinite⟩
  · -- The overlay leaves the outcome as it is.
    have missed : ∀ prices, frame.outcomePrices = some prices →
        (framePrice lower prices outcome).finite? = none := by
      intro prices isFrame
      by_contra isFinite
      exact found ⟨prices, isFrame, isFinite⟩
    rw [overlaid_of_not_found missed]
    constructor
    · rintro ⟨replaced, _⟩ named
      obtain ⟨price, isNamed, same⟩ := replaced named
      exact .inr ⟨price, isNamed, by rw [same]⟩
    · intro reached
      refine ⟨fun named => ?_, fun _ => rfl⟩
      obtain already | ⟨price, isNamed, same⟩ := reached named
      · exact absurd already found
      · exact ⟨price, isNamed, by rw [← same]⟩

/-! # The second time -/

theorem repriced_overlaid (isFrame : frame.outcomePrices = some prices)
    (outcome : MarketOutcome) : repriced lower prices (overlaid lower frame outcome) = none := by
  cases found : (framePrice lower prices outcome).finite? with
  | none =>
      have kept : overlaid lower frame outcome = outcome := by
        refine overlaid_of_not_found fun others isOthers => ?_
        rwa [Option.some.inj (isOthers.symm.trans isFrame)]
      rw [kept, repriced, found]
  | some price =>
      rw [overlaid_of_found isFrame found]
      have again : framePrice lower prices { outcome with price := .number (.finite price) } =
          framePrice lower prices outcome := rfl
      rw [repriced, again, found]
      exact if_pos rfl

theorem nextOutcomes_overlaid {after : MarketPrices}
    (isAfter : after.outcomes =
      market.outcomes.map fun outcomes => outcomes.map (overlaid lower frame)) :
    nextOutcomes lower frame after = none := by
  unfold nextOutcomes
  cases isFrame : frame.outcomePrices with
  | none => rfl
  | some prices =>
      cases isMarket : market.outcomes with
      | none => simp [isAfter, isMarket]
      | some outcomes =>
          rw [isMarket, Option.map_some] at isAfter
          simp only [isAfter]
          rw [if_neg]
          simp [repriced_overlaid isFrame]

theorem patched_outcomes : (patched lower text market frame).outcomes =
    market.outcomes.map fun outcomes => outcomes.map (overlaid lower frame) := by
  rw [← outcomes_overlaid, patched, patchMarketPrices]
  split
  · rename_i unchanged
    rw [unchanged.2.2, Option.none_or, Option.getD_none]
  · rw [Option.getD_some]

theorem applied_outcomes : (applied lower market frame).outcomes =
    market.outcomes.map fun outcomes => outcomes.map (overlaid lower frame) := by
  rw [← outcomes_overlaid, applied, applyLivePrices]
  split
  · rw [Option.getD_some]
  · rename_i unchanged
    cases written : nextOutcomes lower frame market with
    | none => rw [Option.none_or, Option.getD_none]
    | some outcomes => exact absurd (by simp [written]) unchanged

theorem patch_again_iff :
    patchMarketPrices lower text (patched lower text market frame) frame = none ↔
      frame.yesPrice.finite? = none ∧ frame.noPrice.finite? = none := by
  have rests : nextOutcomes lower frame (patched lower text market frame) = none :=
    nextOutcomes_overlaid patched_outcomes
  unfold patchMarketPrices
  simp [rests]

theorem apply_again_iff :
    applyLivePrices lower (applied lower market frame) frame = none ↔
      frame.yesPrice.finite? = none ∧ frame.noPrice.finite? = none := by
  have rests : nextOutcomes lower frame (applied lower market frame) = none :=
    nextOutcomes_overlaid applied_outcomes
  unfold applyLivePrices
  simp [rests]

/-! # Agreement -/

theorem patched_yesPrice : (patched lower text market frame).yesPrice =
    (frame.yesPrice.finite?.map fun price => Value.text (text.write price)).getD
      market.yesPrice := by
  rw [patched, patchMarketPrices]
  split
  · rename_i unchanged
    rw [unchanged.1]
    rfl
  · rfl

theorem patched_noPrice : (patched lower text market frame).noPrice =
    (frame.noPrice.finite?.map fun price => Value.text (text.write price)).getD
      market.noPrice := by
  rw [patched, patchMarketPrices]
  split
  · rename_i unchanged
    rw [unchanged.2.1]
    rfl
  · rfl

theorem unwritten_of_unchanged
    (unchanged : ¬ (frame.yesPrice.finite?.isSome || frame.noPrice.finite?.isSome ||
      (nextOutcomes lower frame market).isSome) = true) :
    frame.yesPrice.finite? = none ∧ frame.noPrice.finite? = none := by
  simp only [Bool.or_eq_true, not_or, Option.not_isSome_iff_eq_none] at unchanged
  exact unchanged.1

theorem applied_yesPrice : (applied lower market frame).yesPrice =
    if frame.yesPrice.finite?.isSome then frame.yesPrice else market.yesPrice := by
  rw [applied, applyLivePrices]
  split
  · rw [Option.getD_some]
  · rename_i unchanged
    rw [(unwritten_of_unchanged unchanged).1]
    rfl

theorem applied_noPrice : (applied lower market frame).noPrice =
    if frame.noPrice.finite?.isSome then frame.noPrice else market.noPrice := by
  rw [applied, applyLivePrices]
  split
  · rw [Option.getD_some]
  · rename_i unchanged
    rw [(unwritten_of_unchanged unchanged).2]
    rfl

theorem numeric_written (sent held : Value) :
    numeric text ((sent.finite?.map fun price => Value.text (text.write price)).getD held) =
      numeric text (if sent.finite?.isSome then sent else held) := by
  cases isFinite : sent.finite? with
  | none => rfl
  | some price =>
      rw [Value.finite?_eq_some.mp isFinite]
      exact text.read_write price

/-- The pair of prices reads the same from a text as from a number. -/
theorem overlays_agree :
    numeric text (patched lower text market frame).yesPrice =
        numeric text (applied lower market frame).yesPrice ∧
      numeric text (patched lower text market frame).noPrice =
        numeric text (applied lower market frame).noPrice ∧
      (patched lower text market frame).outcomes = (applied lower market frame).outcomes := by
  refine ⟨?_, ?_, by rw [patched_outcomes, applied_outcomes]⟩
  · rw [patched_yesPrice, applied_yesPrice]
    exact numeric_written frame.yesPrice market.yesPrice
  · rw [patched_noPrice, applied_noPrice]
    exact numeric_written frame.noPrice market.noPrice

/-- The overlays agree on every market and every frame.  An outcome's price is replaced as it
should be if and only if the frame's price reaches it, and the second application of a frame returns
the same market if and only if the frame has no binary price. -/
theorem overlays_iff (lower : String → String) (text : NumberText)
    (idempotent : ∀ name, lower (lower name) = lower name) (market : MarketPrices)
    (frame : LiveFrame) :
    (numeric text (patched lower text market frame).yesPrice =
        numeric text (applied lower market frame).yesPrice ∧
      numeric text (patched lower text market frame).noPrice =
        numeric text (applied lower market frame).noPrice ∧
      (patched lower text market frame).outcomes = (applied lower market frame).outcomes) ∧
    (∀ outcomes (index : ℕ) outcome, market.outcomes = some outcomes →
      outcomes[index]? = some outcome →
      ∃ afters after, (patched lower text market frame).outcomes = some afters ∧
        afters[index]? = some after ∧
        (IsReplaced lower frame outcome after ↔ IsReached lower frame outcome)) ∧
    (patchMarketPrices lower text (patched lower text market frame) frame = none ↔
      frame.yesPrice.finite? = none ∧ frame.noPrice.finite? = none) ∧
    (applyLivePrices lower (applied lower market frame) frame = none ↔
      frame.yesPrice.finite? = none ∧ frame.noPrice.finite? = none) := by
  refine ⟨overlays_agree, ?_, patch_again_iff, apply_again_iff⟩
  intro outcomes index outcome isMarket isOutcome
  refine ⟨outcomes.map (overlaid lower frame), overlaid lower frame outcome, ?_, ?_,
    overlaid_replaced_iff idempotent⟩
  · rw [patched_outcomes, isMarket, Option.map_some]
  · rw [List.getElem?_map, isOutcome, Option.map_some]

/-! A frame with a price of "Yes" and a price of an outcome in another spelling.  The texts of the
example are read as what they say; any other number is written by its code. -/

def exampleLower (name : String) : String :=
  if name = "Team A" ∨ name = "TEAM A" then "team a" else name

def exampleText : NumberText where
  write := fun number =>
    if number = 3 / 5 then "0.6"
    else if number = 1 / 2 then "0.5"
    else String.ofList (List.replicate (Encodable.encode number) '*')
  read := fun text =>
    if text = "0.6" then .finite (3 / 5)
    else if text = "0.5" then .finite (1 / 2)
    else match Encodable.decode text.length with
      | some number => .finite number
      | none => .nan
  read_write := by
    intro number
    by_cases isSixth : number = 3 / 5
    · rw [if_pos isSixth, if_pos rfl, isSixth]
    by_cases isHalf : number = 1 / 2
    · rw [if_neg isSixth, if_pos isHalf, if_neg (by decide), if_pos rfl, isHalf]
    have noText : ∀ text : String, '0' ∈ text.toList →
        String.ofList (List.replicate (Encodable.encode number) '*') ≠ text := by
      intro text member equal
      rw [← equal, String.toList_ofList] at member
      exact absurd (List.eq_of_mem_replicate member) (by decide)
    rw [if_neg isSixth, if_neg isHalf, if_neg (noText "0.6" (by decide)),
      if_neg (noText "0.5" (by decide)), String.length_ofList, List.length_replicate,
      Encodable.encodek]

def exampleMarket : MarketPrices where
  yesPrice := .text "0.5"
  noPrice := .text "0.5"
  outcomes := some [⟨some "Team A", .undefined⟩]

def exampleFrame : LiveFrame where
  yesPrice := .number (.finite (3 / 5))
  noPrice := .undefined
  outcomePrices := some (Dict.ofItems [("TEAM A", .number (.finite (3 / 10)))])

theorem overlay_repeats_and_misses :
    patchMarketPrices exampleLower exampleText
        (patched exampleLower exampleText exampleMarket exampleFrame) exampleFrame ≠ none ∧
      applyLivePrices exampleLower (applied exampleLower exampleMarket exampleFrame) exampleFrame ≠
        none ∧
      (patched exampleLower exampleText exampleMarket exampleFrame).outcomes =
        some [⟨some "Team A", .undefined⟩] ∧
      ¬ IsReplaced exampleLower exampleFrame ⟨some "Team A", .undefined⟩
        ⟨some "Team A", .undefined⟩ := by
  refine ⟨?_, ?_, ?_, ?_⟩
  · rw [Ne, patch_again_iff]
    exact fun unpriced => nomatch unpriced.1
  · rw [Ne, apply_again_iff]
    exact fun unpriced => nomatch unpriced.1
  · rw [patched_outcomes]
    decide +kernel
  · rintro ⟨replaced, _⟩
    have named : IsNamedPrice exampleLower exampleFrame ⟨some "Team A", .undefined⟩ (3 / 10) :=
      ⟨_, rfl, "TEAM A", rfl, rfl⟩
    obtain ⟨price, _, same⟩ := replaced ⟨_, named⟩
    cases same

theorem example_overlays :
    (numeric exampleText (patched exampleLower exampleText exampleMarket exampleFrame).yesPrice =
        numeric exampleText (applied exampleLower exampleMarket exampleFrame).yesPrice ∧
      numeric exampleText (patched exampleLower exampleText exampleMarket exampleFrame).noPrice =
        numeric exampleText (applied exampleLower exampleMarket exampleFrame).noPrice ∧
      (patched exampleLower exampleText exampleMarket exampleFrame).outcomes =
        (applied exampleLower exampleMarket exampleFrame).outcomes) ∧
    (∀ outcomes (index : ℕ) outcome, exampleMarket.outcomes = some outcomes →
      outcomes[index]? = some outcome →
      ∃ afters after, (patched exampleLower exampleText exampleMarket exampleFrame).outcomes =
          some afters ∧
        afters[index]? = some after ∧
        (IsReplaced exampleLower exampleFrame outcome after ↔
          IsReached exampleLower exampleFrame outcome)) ∧
    (patchMarketPrices exampleLower exampleText
        (patched exampleLower exampleText exampleMarket exampleFrame) exampleFrame = none ↔
      exampleFrame.yesPrice.finite? = none ∧ exampleFrame.noPrice.finite? = none) ∧
    (applyLivePrices exampleLower (applied exampleLower exampleMarket exampleFrame) exampleFrame =
        none ↔
      exampleFrame.yesPrice.finite? = none ∧ exampleFrame.noPrice.finite? = none) :=
  overlays_iff exampleLower exampleText
    (fun name => by
      unfold exampleLower
      by_cases special : name = "Team A" ∨ name = "TEAM A"
      · rw [if_pos special]
        decide
      · rw [if_neg special, if_neg special])
    exampleMarket exampleFrame

end PredictX.LivePrice
