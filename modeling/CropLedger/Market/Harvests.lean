import CropLedger.Store.Work

/-!
# Work on harvests

The statements behind each operation on harvests. No operation changes more than one row, so none
has to be run as a unit.

* `Harvests.create`, `Harvests.delete`: the changes;
* `Harvests.page`, `Harvests.between`: the questions.
-/

namespace CropLedger.Harvests

open Work

/-- Refuses requests that are not accepted. -/
def check (new : NewHarvest) : Except ServiceFault Unit :=
  new.check.mapError fun fault => .validation fault.message

/-- Records a harvest; its unit is kept without the blanks around it. -/
def create (new : NewHarvest) (id : Uuid) (now : Timestamp) : Work HarvestView := do
  let kept ← statement (.insertHarvest ⟨id, new.landCommodity, new.date, new.quantity,
    new.trimmedUnit, new.notes, now, now, none⟩)
  return Harvest.view kept

/-- Marks a live harvest as deleted. -/
def delete (id : Uuid) (now : Timestamp) : Work Unit := do
  let existing ← orFail (.notFound s!"harvest {id}") (← statement (.liveHarvest id))
  statement (.deleteHarvest existing.id now)

/-- A page of the live harvests of a land's commodity, counted first. -/
def page (landCommodity : Uuid) (s : PageSpec) : Work HarvestPage := do
  let total ← statement (.countHarvests landCommodity)
  bindOffset s
  let rows ← statement (.harvestsOn landCommodity s)
  return ⟨List.map Harvest.view rows, s.page, s.limit, total⟩

/-- The live harvests of a land's commodity in a range. -/
def between (landCommodity : Uuid) (range : DateRange) : Work (List Harvest) :=
  statement (.harvestsBetween landCommodity range)

end CropLedger.Harvests
