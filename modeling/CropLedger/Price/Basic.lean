import CropLedger.Json.Record

/-!
# Prices

A price is the value of a commodity at a location. It keeps its identifier when its value is
revised; a revision archives the value it supersedes. A deleted price stays, marked with the time
of its deletion.

* `Price`, `ArchivedPrice`: the rows that are kept;
* `PriceSnapshot`: a point of a price's history, archived or current;
* `PriceHistory.snapshots`: the archived points, then the live price.
-/

namespace CropLedger

/-- What a price is the price of. -/
structure Pair where
  commodity : Uuid
  location : Uuid
  deriving DecidableEq

/-- A price, live or deleted. -/
structure Price where
  id : Uuid
  pair : Pair
  value : Decimal
  createdAt : Timestamp
  updatedAt : Timestamp
  deletedAt : Option Timestamp
  deriving DecidableEq

/-- Whether a price has not been deleted. -/
def Price.isLive (p : Price) : Bool := p.deletedAt.isNone

/-- A superseded value of a price, with the price's own times as they stood. The number tells the
order in which values were archived. -/
structure ArchivedPrice where
  number : Int
  price : Uuid
  pair : Pair
  value : Decimal
  createdAt : Timestamp
  updatedAt : Timestamp
  archivedAt : Timestamp
  deriving DecidableEq

/-- A point of a price's history. -/
structure PriceSnapshot where
  price : Uuid
  pair : Pair
  value : Decimal
  createdAt : Timestamp
  updatedAt : Timestamp
  current : Bool
  deriving DecidableEq

/-- The point that an archived value was. -/
def ArchivedPrice.snapshot (a : ArchivedPrice) : PriceSnapshot :=
  ⟨a.price, a.pair, a.value, a.createdAt, a.updatedAt, false⟩

/-- The point that a price is. -/
def Price.snapshot (p : Price) : PriceSnapshot :=
  ⟨p.id, p.pair, p.value, p.createdAt, p.updatedAt, true⟩

/-- The archived values of a pair, oldest first, and its live price. -/
structure PriceHistory where
  archived : List ArchivedPrice
  current : Option Price
  deriving DecidableEq

/-- The points of a history: the archived ones, then the live price. -/
def PriceHistory.snapshots (h : PriceHistory) : List PriceSnapshot :=
  h.archived.map ArchivedPrice.snapshot ++ h.current.toList.map Price.snapshot

/-! ### Written forms -/

open Json

/-- The pair of the fields that name it. -/
def Pair.record : Record Pair :=
  Pair.mk <$> .field "commodity_id" .identifier <*> .field "location_id" .identifier

/-- The written form of a price. -/
def Price.json (p : Price) : Json :=
  .object [("id", p.id), ("commodity_id", p.pair.commodity), ("location_id", p.pair.location),
    ("value", p.value), ("created_at", p.createdAt), ("updated_at", p.updatedAt),
    ("deleted_at", orNull (p.deletedAt.map fun t => t))]

/-- Reads a price. -/
def Price.reader : Reader Price :=
  Record.read "Model"
    (Price.mk <$> .field "id" .identifier <*> Pair.record <*> .field "value" .decimal
      <*> .field "created_at" .timestamp <*> .field "updated_at" .timestamp
      <*> .optional "deleted_at" .timestamp)

/-- The written form of an archived value. -/
def ArchivedPrice.json (a : ArchivedPrice) : Json :=
  .object [("id", .number a.number), ("price_id", a.price), ("commodity_id", a.pair.commodity),
    ("location_id", a.pair.location), ("value", a.value), ("created_at", a.createdAt),
    ("updated_at", a.updatedAt), ("archived_at", a.archivedAt)]

/-- Reads an archived value. -/
def ArchivedPrice.reader : Reader ArchivedPrice :=
  Record.read "Model"
    (ArchivedPrice.mk <$> .field "id" .signed <*> .field "price_id" .identifier <*> Pair.record
      <*> .field "value" .decimal <*> .field "created_at" .timestamp
      <*> .field "updated_at" .timestamp <*> .field "archived_at" .timestamp)

/-- The written form of a point of a history. -/
def PriceSnapshot.json (s : PriceSnapshot) : Json :=
  .object [("price_id", s.price), ("commodity_id", s.pair.commodity),
    ("location_id", s.pair.location), ("value", s.value), ("created_at", s.createdAt),
    ("updated_at", s.updatedAt), ("current", s.current)]

/-- Reads a point of a history. -/
def PriceSnapshot.reader : Reader PriceSnapshot :=
  Record.read "PriceSnapshot"
    (PriceSnapshot.mk <$> .field "price_id" .identifier <*> Pair.record <*> .field "value" .decimal
      <*> .field "created_at" .timestamp <*> .field "updated_at" .timestamp
      <*> .field "current" .boolean)

end CropLedger
