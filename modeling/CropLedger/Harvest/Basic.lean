import CropLedger.Paging
import CropLedger.Text.Blank

/-!
# Harvests

A harvest is a quantity of a land's commodity brought in on a date. A deleted harvest stays,
marked with the time of its deletion.

* `NewHarvest.check`: which requests are accepted;
* `Harvest.view`: what clients see of a harvest.
-/

namespace CropLedger

open Json

/-- A harvest, live or deleted. -/
structure Harvest where
  id : Uuid
  landCommodity : Uuid
  date : Date
  quantity : Decimal
  unit : String
  notes : Option String
  createdAt : Timestamp
  updatedAt : Timestamp
  deletedAt : Option Timestamp
  deriving DecidableEq

/-- Whether a harvest has not been deleted. -/
def Harvest.isLive (h : Harvest) : Bool := h.deletedAt.isNone

/-- The written form of a harvest. -/
def Harvest.json (h : Harvest) : Json :=
  .object [("id", h.id), ("land_commodity_id", h.landCommodity), ("harvest_date", h.date),
    ("quantity", h.quantity), ("unit", h.unit), ("notes", orNull (h.notes.map .text)),
    ("created_at", h.createdAt), ("updated_at", h.updatedAt),
    ("deleted_at", orNull (h.deletedAt.map fun t => t))]

/-- Reads a harvest. -/
def Harvest.reader : Reader Harvest :=
  Record.read "Model"
    (Harvest.mk <$> .field "id" .identifier <*> .field "land_commodity_id" .identifier
      <*> .field "harvest_date" .date <*> .field "quantity" .decimal <*> .field "unit" .text
      <*> .optional "notes" .text <*> .field "created_at" .timestamp
      <*> .field "updated_at" .timestamp <*> .optional "deleted_at" .timestamp)

/-! ### What clients see -/

/-- A harvest as clients see it. -/
structure HarvestView where
  id : Uuid
  landCommodity : Uuid
  date : Date
  quantity : Decimal
  unit : String
  notes : Option String
  createdAt : Timestamp
  updatedAt : Timestamp
  deriving DecidableEq

/-- What clients see of a harvest. -/
def Harvest.view (h : Harvest) : HarvestView :=
  ⟨h.id, h.landCommodity, h.date, h.quantity, h.unit, h.notes, h.createdAt, h.updatedAt⟩

/-- The written form of a harvest as clients see it: no notes leave no member behind. -/
def HarvestView.json (h : HarvestView) : Json :=
  let front : List (String × Json) := [("id", h.id), ("land_commodity_id", h.landCommodity),
    ("harvest_date", h.date), ("quantity", h.quantity), ("unit", h.unit)]
  let notes : List (String × Json) := (h.notes.map fun notes => ("notes", .text notes)).toList
  let times : List (String × Json) := [("created_at", h.createdAt), ("updated_at", h.updatedAt)]
  .object (front ++ notes ++ times)

/-- Reads a harvest as clients see it. -/
def HarvestView.reader : Reader HarvestView :=
  Record.read "HarvestResponse"
    (HarvestView.mk <$> .field "id" .identifier <*> .field "land_commodity_id" .identifier
      <*> .field "harvest_date" .date <*> .field "quantity" .decimal <*> .field "unit" .text
      <*> .optional "notes" .text <*> .field "created_at" .timestamp
      <*> .field "updated_at" .timestamp)

/-- A page of harvests. -/
abbrev HarvestPage := Page HarvestView

/-- The written form of a page of harvests. -/
def HarvestPage.json : HarvestPage → Json := Page.json HarvestView.json

/-- Reads a page of harvests. -/
def HarvestPage.reader : Reader HarvestPage := Page.reader "HarvestPage" HarvestView.reader

/-! ### Requests -/

/-- A request to record a harvest. -/
structure NewHarvest where
  landCommodity : Uuid
  date : Date
  quantity : Decimal
  unit : String
  notes : Option String
  deriving DecidableEq

/-- Why a request is not accepted. -/
inductive HarvestFault
  | quantity
  | unit
  deriving DecidableEq

/-- What a fault is called in a message. -/
def HarvestFault.message : HarvestFault → String
  | .quantity => "quantity must be greater than zero"
  | .unit => "unit must not be empty"

namespace NewHarvest

/-- The unit without blanks around it. -/
def trimmedUnit (h : NewHarvest) : String := String.ofList (Text.trim h.unit.toList)

/-- A request is accepted if its quantity is positive and its unit is not blank. -/
def check (h : NewHarvest) : Except HarvestFault Unit :=
  if ¬h.quantity.isPositive then .error .quantity
  else if h.trimmedUnit = "" then .error .unit
  else .ok ()

/-- Reads a request; notes may be left out. -/
def reader : Reader NewHarvest :=
  Record.read "CreateHarvestRequest"
    (NewHarvest.mk <$> .field "land_commodity_id" .identifier <*> .field "harvest_date" .date
      <*> .field "quantity" .decimal <*> .field "unit" .text
      <*> .field "notes" (.nullable .text) (some none) (some none))

end NewHarvest

end CropLedger
