import CropLedger.Harvest.Basic
import CropLedger.Price.View

/-!
# Answers as they are held

An answer is held in memory before it is written for a cache. Its decimals can be zeros with a sign
there, and its times can have leap seconds after any second. What is read back from the written form
is neither.

* `HeldPrice`, `HeldSnapshot`, `HeldHarvest`: a price, a point of a history and a harvest;
* `HeldPrice.told` and the like: what clients see of them;
* `HeldPrice.IsPlain` and the like: there is no zero with a sign, and no leap second but in its
  place.
-/

namespace CropLedger

/-! ### Prices -/

/-- A price as it is held. -/
structure HeldPrice where
  id : Uuid
  pair : Pair
  value : SignedDecimal
  createdAt : LongTimestamp
  updatedAt : LongTimestamp
  deriving DecidableEq

/-- The written form of a price that is held. -/
def HeldPrice.json (p : HeldPrice) : Json :=
  .object [("id", p.id), ("commodity_id", p.pair.commodity), ("location_id", p.pair.location),
    ("value", p.value), ("created_at", p.createdAt), ("updated_at", p.updatedAt)]

/-- What clients see of a price that is held. -/
def HeldPrice.told (p : HeldPrice) : PriceView :=
  ⟨p.id, p.pair, p.value.plain, p.createdAt.told, p.updatedAt.told⟩

/-- Whether all parts of a price are plain. -/
def HeldPrice.IsPlain (p : HeldPrice) : Prop :=
  p.value.IsPlain ∧ p.createdAt.IsPlain ∧ p.updatedAt.IsPlain

/-- A price that clients see, as it is held. -/
def PriceView.held (p : PriceView) : HeldPrice :=
  ⟨p.id, p.pair, p.value.signed, p.createdAt.long, p.updatedAt.long⟩

/-! ### Points of a history -/

/-- A point of a history as it is held. -/
structure HeldSnapshot where
  price : Uuid
  pair : Pair
  value : SignedDecimal
  createdAt : LongTimestamp
  updatedAt : LongTimestamp
  current : Bool
  deriving DecidableEq

/-- The written form of a point that is held. -/
def HeldSnapshot.json (s : HeldSnapshot) : Json :=
  .object [("price_id", s.price), ("commodity_id", s.pair.commodity),
    ("location_id", s.pair.location), ("value", s.value), ("created_at", s.createdAt),
    ("updated_at", s.updatedAt), ("current", s.current)]

/-- What clients see of a point that is held. -/
def HeldSnapshot.told (s : HeldSnapshot) : PriceSnapshot :=
  ⟨s.price, s.pair, s.value.plain, s.createdAt.told, s.updatedAt.told, s.current⟩

/-- Whether all parts of a point are plain. -/
def HeldSnapshot.IsPlain (s : HeldSnapshot) : Prop :=
  s.value.IsPlain ∧ s.createdAt.IsPlain ∧ s.updatedAt.IsPlain

/-- A point that clients see, as it is held. -/
def PriceSnapshot.held (s : PriceSnapshot) : HeldSnapshot :=
  ⟨s.price, s.pair, s.value.signed, s.createdAt.long, s.updatedAt.long, s.current⟩

/-! ### Harvests -/

/-- A harvest as it is held. -/
structure HeldHarvest where
  id : Uuid
  landCommodity : Uuid
  date : Date
  quantity : SignedDecimal
  unit : String
  notes : Option String
  createdAt : LongTimestamp
  updatedAt : LongTimestamp
  deriving DecidableEq

/-- The written form of a harvest that is held: no notes leave no member behind. -/
def HeldHarvest.json (h : HeldHarvest) : Json :=
  let front : List (String × Json) := [("id", h.id), ("land_commodity_id", h.landCommodity),
    ("harvest_date", h.date), ("quantity", h.quantity), ("unit", h.unit)]
  let notes : List (String × Json) := (h.notes.map fun notes => ("notes", .text notes)).toList
  let times : List (String × Json) := [("created_at", h.createdAt), ("updated_at", h.updatedAt)]
  .object (front ++ notes ++ times)

/-- What clients see of a harvest that is held. -/
def HeldHarvest.told (h : HeldHarvest) : HarvestView :=
  ⟨h.id, h.landCommodity, h.date, h.quantity.plain, h.unit, h.notes, h.createdAt.told,
    h.updatedAt.told⟩

/-- Whether all parts of a harvest are plain. -/
def HeldHarvest.IsPlain (h : HeldHarvest) : Prop :=
  h.quantity.IsPlain ∧ h.createdAt.IsPlain ∧ h.updatedAt.IsPlain

/-- A harvest that clients see, as it is held. -/
def HarvestView.held (h : HarvestView) : HeldHarvest :=
  ⟨h.id, h.landCommodity, h.date, h.quantity.signed, h.unit, h.notes, h.createdAt.long,
    h.updatedAt.long⟩

end CropLedger
