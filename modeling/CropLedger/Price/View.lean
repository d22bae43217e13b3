import CropLedger.Paging
import CropLedger.Price.Basic

/-!
# Prices as clients see them

A client sees a live price without the mark of deletion, pages of them, and the history of a pair;
it asks for a new price by pair and value, and for a revision by value.
-/

namespace CropLedger

open Json

/-- A price as clients see it. -/
structure PriceView where
  id : Uuid
  pair : Pair
  value : Decimal
  createdAt : Timestamp
  updatedAt : Timestamp
  deriving DecidableEq

/-- What clients see of a price. -/
def Price.view (p : Price) : PriceView := ⟨p.id, p.pair, p.value, p.createdAt, p.updatedAt⟩

/-- The written form of a price as clients see it. -/
def PriceView.json (p : PriceView) : Json :=
  .object [("id", p.id), ("commodity_id", p.pair.commodity), ("location_id", p.pair.location),
    ("value", p.value), ("created_at", p.createdAt), ("updated_at", p.updatedAt)]

/-- Reads a price as clients see it. -/
def PriceView.reader : Reader PriceView :=
  Record.read "PriceResponse"
    (PriceView.mk <$> .field "id" .identifier <*> Pair.record <*> .field "value" .decimal
      <*> .field "created_at" .timestamp <*> .field "updated_at" .timestamp)

/-- A page of prices. -/
abbrev PricePage := Page PriceView

/-- The written form of a page of prices. -/
def PricePage.json : PricePage → Json := Page.json PriceView.json

/-- Reads a page of prices. -/
def PricePage.reader : Reader PricePage := Page.reader "PricePage" PriceView.reader

/-- The written form of a list of points. -/
def PriceSnapshot.listJson (snapshots : List PriceSnapshot) : Json :=
  .array (snapshots.map PriceSnapshot.json)

/-- Reads a list of points. -/
def PriceSnapshot.listReader : Reader (List PriceSnapshot) := .sequence PriceSnapshot.reader

/-- The history of a pair as clients see it. -/
structure HistoryView where
  pair : Pair
  data : List PriceSnapshot
  deriving DecidableEq

/-- The written form of a history. -/
def HistoryView.json (h : HistoryView) : Json :=
  .object [("commodity_id", h.pair.commodity), ("location_id", h.pair.location),
    ("data", PriceSnapshot.listJson h.data)]

/-- Reads a history. -/
def HistoryView.reader : Reader HistoryView :=
  Record.read "PriceHistoryResponse"
    (HistoryView.mk <$> Pair.record <*> .field "data" PriceSnapshot.listReader)

/-- A request for a new price. -/
structure NewPrice where
  pair : Pair
  value : Decimal
  deriving DecidableEq

/-- Reads a request for a new price. -/
def NewPrice.reader : Reader NewPrice :=
  Record.read "CreatePriceRequest" (NewPrice.mk <$> Pair.record <*> .field "value" .decimal)

/-- A request for a revision. -/
structure Revision where
  value : Decimal
  deriving DecidableEq

/-- Reads a request for a revision. -/
def Revision.reader : Reader Revision :=
  Record.read "UpdatePriceRequest" (Revision.mk <$> .field "value" .decimal)

end CropLedger
