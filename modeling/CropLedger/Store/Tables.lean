import CropLedger.Decimal.Column
import CropLedger.Harvest.Basic
import CropLedger.Price.Basic
import CropLedger.Report.Range

/-!
# What the store holds

Rows are kept in the order in which they were inserted. Decimals are kept as the store gives them
back. Times are kept with their distance from UTC and given back in UTC; times and dates are
ordered by the text that is kept of them.

* `Price.kept`, `Price.fetched`: a row as it is written and as it is read;
* `Tables.livePrice?`, `Tables.livePriceOf?`: the live price of an identifier and of a pair;
* `Tables.livePrices`, `Tables.liveHarvests`: the rows behind the lists of clients;
* `Tables.insertPrice?`, `Tables.setPrice`, `Tables.archive?`: how rows come and change.
-/

namespace CropLedger

/-- The rows of all tables, and the largest number ever given to an archived value. -/
structure Tables where
  prices : List Price
  archived : List ArchivedPrice
  harvests : List Harvest
  lastNumber : Int
  deriving DecidableEq

/-- A price as it is written. -/
def Price.kept (p : Price) : Price := { p with value := p.value.stored }

/-- An archived value as it is written. -/
def ArchivedPrice.kept (a : ArchivedPrice) : ArchivedPrice := { a with value := a.value.stored }

/-- A harvest as it is written. -/
def Harvest.kept (h : Harvest) : Harvest := { h with quantity := h.quantity.stored }

/-- A price as it is read. -/
def Price.fetched (p : Price) : Price :=
  { p with
    createdAt := p.createdAt.utc
    updatedAt := p.updatedAt.utc
    deletedAt := p.deletedAt.map Timestamp.utc }

/-- An archived value as it is read. -/
def ArchivedPrice.fetched (a : ArchivedPrice) : ArchivedPrice :=
  { a with
    createdAt := a.createdAt.utc
    updatedAt := a.updatedAt.utc
    archivedAt := a.archivedAt.utc }

/-- A harvest as it is read. -/
def Harvest.fetched (h : Harvest) : Harvest :=
  { h with
    createdAt := h.createdAt.utc
    updatedAt := h.updatedAt.utc
    deletedAt := h.deletedAt.map Timestamp.utc }

namespace Tables

/-- Nothing is there yet. -/
def empty : Tables := ⟨[], [], [], 0⟩

/-- Whether a text comes before another or is the same, by its characters. -/
def textLe : List Char → List Char → Bool
  | [], _ => true
  | _ :: _, [] => false
  | a :: as, b :: bs => a < b || (a = b && textLe as bs)

/-! ### Prices -/

/-- The price of an identifier. -/
def price? (t : Tables) (id : Uuid) : Option Price := t.prices.find? fun p => p.id = id

/-- The live price of an identifier. -/
def livePrice? (t : Tables) (id : Uuid) : Option Price :=
  t.prices.find? fun p => p.id = id && p.isLive

/-- The deleted price of an identifier. -/
def deletedPrice? (t : Tables) (id : Uuid) : Option Price :=
  t.prices.find? fun p => p.id = id && !p.isLive

/-- The live price of a pair. -/
def livePriceOf? (t : Tables) (pair : Pair) : Option Price :=
  t.prices.find? fun p => p.pair = pair && p.isLive

/-- Whether a price stands before another in the list of prices: by the time of creation, then by
identifier. -/
def priceLe (a b : Price) : Bool :=
  if a.createdAt.columnText = b.createdAt.columnText then a.id.bits.toNat ≤ b.id.bits.toNat
  else textLe a.createdAt.columnText b.createdAt.columnText

/-- The live prices in the order of the list of prices. -/
def livePrices (t : Tables) : List Price := (t.prices.filter Price.isLive).mergeSort priceLe

/-- Adds a price under a new identifier. -/
def insertPrice? (t : Tables) (p : Price) : Option Tables :=
  if (t.price? p.id).isSome then none else some { t with prices := t.prices ++ [p.kept] }

/-- Changes the price of an identifier. -/
def setPrice (t : Tables) (id : Uuid) (change : Price → Price) : Tables :=
  { t with prices := t.prices.map fun p => if p.id = id then change p else p }

/-! ### Archived values -/

/-- The archived values in the order of their numbers. -/
def archivedInOrder (t : Tables) : List ArchivedPrice :=
  t.archived.mergeSort fun a b => a.number ≤ b.number

/-- The archived values of a pair, in the order of their numbers. -/
def archivedOf (t : Tables) (pair : Pair) : List ArchivedPrice :=
  t.archivedInOrder.filter fun a => a.pair = pair

/-- Adds an archived value under a new number. -/
def insertArchived? (t : Tables) (a : ArchivedPrice) : Option Tables :=
  if t.archived.any fun b => b.number = a.number then none
  else some { t with
    archived := t.archived ++ [a.kept]
    lastNumber := max t.lastNumber a.number }

/-- Adds what a price was under the next number, as long as there is one. -/
def archive? (t : Tables) (p : Price) (now : Timestamp) : Option Tables :=
  if t.lastNumber < Nat.pow 2 63 - 1 then
    t.insertArchived?
      ⟨t.lastNumber + 1, p.id, p.pair, p.value, p.createdAt, p.updatedAt, now⟩
  else none

/-! ### Harvests -/

/-- The harvest of an identifier. -/
def harvest? (t : Tables) (id : Uuid) : Option Harvest := t.harvests.find? fun h => h.id = id

/-- The live harvest of an identifier. -/
def liveHarvest? (t : Tables) (id : Uuid) : Option Harvest :=
  t.harvests.find? fun h => h.id = id && h.isLive

/-- The live harvests of a land's commodity, newest date first; of one date the last inserted
comes first. -/
def liveHarvests (t : Tables) (land : Uuid) : List Harvest :=
  ((t.harvests.filter fun h => h.landCommodity = land && h.isLive).reverse).mergeSort
    fun a b => textLe b.date.chars a.date.chars

/-- Whether a harvest stands before another in a report: by date, then by the time of creation. -/
def harvestLe (a b : Harvest) : Bool :=
  if a.date.chars = b.date.chars then textLe a.createdAt.columnText b.createdAt.columnText
  else textLe a.date.chars b.date.chars

/-- The live harvests of a land's commodity whose date as a text lies in a range. -/
def harvestsBetween (t : Tables) (land : Uuid) (range : DateRange) : List Harvest :=
  (t.harvests.filter fun h =>
    h.landCommodity = land && h.isLive && textLe range.first.chars h.date.chars &&
      textLe h.date.chars range.last.chars).mergeSort harvestLe

/-- Adds a harvest under a new identifier. -/
def insertHarvest? (t : Tables) (h : Harvest) : Option Tables :=
  if (t.harvest? h.id).isSome then none else some { t with harvests := t.harvests ++ [h.kept] }

/-- Changes the harvest of an identifier. -/
def setHarvest (t : Tables) (id : Uuid) (change : Harvest → Harvest) : Tables :=
  { t with harvests := t.harvests.map fun h => if h.id = id then change h else h }

end Tables

end CropLedger
