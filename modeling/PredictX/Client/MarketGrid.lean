import PredictX.Websocket.GridFeed

namespace PredictX.MarketGrid

open PredictX.Data PredictX.MarketFeed PredictX.GridFeed

/-! `MarketList` as it renders: which markets its grid declares.

A card keeps what the filters read of a market.  An effect runs right after the render that
changed what it depends on; ids have no bar in them, so that the key made of them is the list.
-/

structure Card where
  id : MarketKey
  status : Option String
deriving DecidableEq, Repr

/-- `DEAD_MARKET_STATUSES`. -/
def deadMarketStatuses : List String := ["resolved", "closed"]

def isDead (card : Card) : Bool := card.status.getD "" ∈ deadMarketStatuses

/-- `marketIds`. -/
def marketIds (markets : List Card) (resolved : List MarketKey) (visibleIndices : List ℕ) :
    List MarketKey :=
  ((((markets.filter fun card => !isDead card).filter fun card =>
      card.id ∉ resolved).zipIdx.filter fun entry => entry.2 ∈ visibleIndices).map fun entry =>
        entry.1.id)

variable {π : Type}

structure Page (π : Type) where
  list : MarketList π
  /-- The ids that `useMarketGrid` was last given. -/
  declared : List MarketKey
  /-- The ids that the last effect ran with. -/
  kept : Option (List MarketKey)

def Page.mounted : Page π := ⟨.mounted, [], none⟩

/-- The effect that forgets markets that scrolled out. -/
def forget (ids : List MarketKey) (list : MarketList π) : MarketList π :=
  { list with
    live := fun market => if market ∈ ids then list.live market else none
    seqRef := fun market => if market ∈ ids then list.seqRef market else none }

def Page.render (page : Page π) (markets : List Card) (visibleIndices : List ℕ) : Page π :=
  let ids := marketIds markets page.list.resolvedRef visibleIndices
  if page.kept = some ids then { page with declared := ids }
  else ⟨forget ids page.list, ids, some ids⟩

inductive Event (π : Type) where
  /-- A batch arrives. -/
  | prices (batch : Batch π)
  /-- The timer fires. -/
  | flush
  | render (markets : List Card) (visibleIndices : List ℕ)

inductive Steps : Page π → Event π → Page π → Prop
  | prices {page : Page π} (batch : Batch π) :
      Steps page (.prices batch) { page with list := page.list.handlePrices batch }
  | flush {page : Page π} (scheduled : page.list.scheduled = true) :
      Steps page .flush { page with list := page.list.flush }
  | render {page : Page π} (markets : List Card) (visibleIndices : List ℕ) :
      Steps page (.render markets visibleIndices) (page.render markets visibleIndices)

end PredictX.MarketGrid
