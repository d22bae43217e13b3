import CropLedger.Price.View
import CropLedger.Store.Work

/-!
# Work on prices

The statements behind each operation on prices. A pair has at most one live price: a price is
created or restored only where its pair has none. A revision archives what the price was before it
changes the price.

* `Prices.create`, `Prices.revise`, `Prices.delete`, `Prices.restore`: the changes, each to be run
  as a unit;
* `Prices.view`, `Prices.page`, `Prices.history`, `Prices.points`: the questions.
-/

namespace CropLedger.Prices

open Work

/-- What a pair's price is called in a message. -/
def pairLabel (pair : Pair) : String :=
  s!"price for commodity {pair.commodity} at location {pair.location}"

/-- Refuses values below zero. -/
def checkValue (value : Decimal) : Except ServiceFault Unit :=
  if value.isNegative then .error (.validation "price value must not be negative") else .ok ()

/-- The live price of an identifier. -/
def live (id : Uuid) : Work Price := do
  orFail (.notFound s!"price {id}") (← statement (.livePrice id))

/-- Fails where a pair has a live price. -/
def free (pair : Pair) : Work Unit := do
  match ← statement (.livePriceOf pair) with
  | some _ => .fail (.alreadyExists (pairLabel pair))
  | none => return ()

/-! ### Changes -/

/-- Adds a price to a pair that has none. -/
def create (new : NewPrice) (id : Uuid) (now : Timestamp) : Work Price := do
  free new.pair
  statement (.insertPrice ⟨id, new.pair, new.value, now, now, none⟩)

/-- Archives what a price is, then gives it a new value, and reads it again. -/
def revise (id : Uuid) (value : Decimal) (now : Timestamp) : Work Price := do
  let existing ← live id
  statement (.archive existing now)
  let _ ← statement (.revisePrice id value now)
  live id

/-- Marks a live price as deleted. -/
def delete (id : Uuid) (now : Timestamp) : Work Unit := do
  let existing ← live id
  let _ ← statement (.markPrice existing.id (some now) now)
  return ()

/-- Takes the mark off a deleted price whose pair has no live one. -/
def restore (id : Uuid) (now : Timestamp) : Work Price := do
  let deleted ← orFail (.notFound s!"deleted price {id}") (← statement (.deletedPrice id))
  free deleted.pair
  statement (.markPrice deleted.id none now)

/-! ### Questions -/

/-- A live price as clients see it. -/
def view (id : Uuid) : Work PriceView := do return (← live id).view

/-- A page of live prices, counted first. -/
def page (s : PageSpec) : Work PricePage := do
  let total ← statement .countPrices
  bindOffset s
  let rows ← statement (.pricesOn s)
  return ⟨rows.map Price.view, s.page, s.limit, total⟩

/-- The archived values of a pair, then its live price. -/
def history (pair : Pair) : Work PriceHistory := do
  let archived ← statement (.archivedOf pair)
  let current ← statement (.livePriceOf pair)
  return ⟨archived, current⟩

/-- The points of the history of a pair that has a live price. -/
def points (pair : Pair) : Work (List PriceSnapshot) := do
  let h ← history pair
  if h.current.isNone then .fail (.notFound (pairLabel pair)) else return h.snapshots

end CropLedger.Prices
