import CropLedger.Paging
import CropLedger.Store.Schema
import CropLedger.Store.Tables

/-!
# Statements

All that is asked of the store, one statement at a time. A statement answers, and may leave other
tables behind; one that fails leaves the tables as they were.

* `Statement.Answer`: what a statement answers with;
* `Statement.perform`: what a statement does to the tables;
* `Statement.table`: the table that a statement needs.
-/

namespace CropLedger

/-- Something asked of the store. -/
inductive Statement
  | begin
  | commit
  | livePrice (id : Uuid)
  | deletedPrice (id : Uuid)
  | livePriceOf (pair : Pair)
  | insertPrice (price : Price)
  | revisePrice (id : Uuid) (value : Decimal) (now : Timestamp)
  | markPrice (id : Uuid) (deletedAt : Option Timestamp) (now : Timestamp)
  | countPrices
  | pricesOn (page : PageSpec)
  | archivedOf (pair : Pair)
  | archive (price : Price) (now : Timestamp)
  | insertArchived (value : ArchivedPrice)
  | liveHarvest (id : Uuid)
  | insertHarvest (harvest : Harvest)
  | deleteHarvest (id : Uuid) (now : Timestamp)
  | countHarvests (landCommodity : Uuid)
  | harvestsOn (landCommodity : Uuid) (page : PageSpec)
  | harvestsBetween (landCommodity : Uuid) (range : DateRange)
  | allPrices
  | allArchived
  | allHarvests

/-- Why a statement fails. -/
inductive StoreFault
  | refused
  | duplicate
  | full
  | missing
  deriving DecidableEq

/-- What a fault is called in a message. -/
def StoreFault.message : StoreFault → String
  | .refused => "the statement was refused"
  | .duplicate => "the identifier is taken"
  | .full => "no number is left"
  | .missing => "no row was changed"

namespace Statement

/-- What a statement answers with. -/
def Answer : Statement → Type
  | begin | commit | archive _ _ | insertArchived _ | deleteHarvest _ _ => Unit
  | livePrice _ | deletedPrice _ | livePriceOf _ => Option Price
  | insertPrice _ | revisePrice _ _ _ | markPrice _ _ _ => Price
  | countPrices | countHarvests _ => Nat
  | pricesOn _ | allPrices => List Price
  | archivedOf _ | allArchived => List ArchivedPrice
  | liveHarvest _ => Option Harvest
  | insertHarvest _ => Harvest
  | harvestsOn _ _ | harvestsBetween _ _ | allHarvests => List Harvest

/-- The table that a statement needs. -/
def table : Statement → Option Table
  | begin | commit => none
  | livePrice _ | deletedPrice _ | livePriceOf _ | insertPrice _ | revisePrice _ _ _
  | markPrice _ _ _ | countPrices | pricesOn _ | allPrices => some .prices
  | archivedOf _ | archive _ _ | insertArchived _ | allArchived => some .archived
  | liveHarvest _ | insertHarvest _ | deleteHarvest _ _ | countHarvests _ | harvestsOn _ _
  | harvestsBetween _ _ | allHarvests => some .harvests

/-- What comes of a statement. -/
abbrev Outcome (α : Type) := Except StoreFault (α × Tables)

/-- A question, which changes nothing. -/
def told {α : Type} (answer : α) (t : Tables) : Outcome α := .ok (answer, t)

/-- A change that cannot always be made. -/
def changed {α : Type} (answer : α) (fault : StoreFault) : Option Tables → Outcome α
  | some t => .ok (answer, t)
  | none => .error fault

/-- Changes the price of an identifier, and answers it. -/
def changePrice (id : Uuid) (change : Price → Price) (t : Tables) : Outcome Price :=
  match t.price? id with
  | some p => .ok ((change p).fetched, t.setPrice id change)
  | none => .error .missing

/-- Changes the harvest of an identifier. -/
def changeHarvest (id : Uuid) (change : Harvest → Harvest) (t : Tables) : Outcome Unit :=
  match t.harvest? id with
  | some _ => .ok ((), t.setHarvest id change)
  | none => .error .missing

/-- What a statement does. -/
def perform : (s : Statement) → Tables → Outcome s.Answer
  | begin, t => told () t
  | commit, t => told () t
  | livePrice id, t => told ((t.livePrice? id).map Price.fetched) t
  | deletedPrice id, t => told ((t.deletedPrice? id).map Price.fetched) t
  | livePriceOf pair, t => told ((t.livePriceOf? pair).map Price.fetched) t
  | insertPrice p, t => changed p.kept.fetched .duplicate (t.insertPrice? p)
  | revisePrice id value now, t =>
    changePrice id (fun p => { p with value := value.stored, updatedAt := now }) t
  | markPrice id deletedAt now, t =>
    changePrice id (fun p => { p with updatedAt := now, deletedAt }) t
  | countPrices, t => told t.livePrices.length t
  | pricesOn s, t => told (s.slice (t.livePrices.map Price.fetched)) t
  | archivedOf pair, t => told ((t.archivedOf pair).map ArchivedPrice.fetched) t
  | archive p now, t => changed () .full (t.archive? p now)
  | insertArchived a, t => changed () .duplicate (t.insertArchived? a)
  | liveHarvest id, t => told ((t.liveHarvest? id).map Harvest.fetched) t
  | insertHarvest h, t => changed h.kept.fetched .duplicate (t.insertHarvest? h)
  | deleteHarvest id now, t =>
    changeHarvest id (fun h => { h with updatedAt := now, deletedAt := some now }) t
  | countHarvests land, t => told (t.liveHarvests land).length t
  | harvestsOn land s, t => told (s.slice ((t.liveHarvests land).map Harvest.fetched)) t
  | harvestsBetween land range, t => told ((t.harvestsBetween land range).map Harvest.fetched) t
  | allPrices, t => told (t.prices.map Price.fetched) t
  | allArchived, t => told (t.archivedInOrder.map ArchivedPrice.fetched) t
  | allHarvests, t => told (t.harvests.map Harvest.fetched) t

end Statement

end CropLedger
