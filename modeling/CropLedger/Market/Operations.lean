import CropLedger.Market.Basic
import CropLedger.Market.Harvests
import CropLedger.Market.Prices

/-!
# What the market does

The operations on prices and harvests. Identifiers and the time are handed in by who calls.

* changes: `createPrice`, `revisePrice`, `deletePrice`, `restorePrice`, `createHarvest`,
  `deleteHarvest`;
* questions: `price`, `prices`, `history`, `harvests`.
-/

namespace CropLedger.Market

variable {σ : Type}

/-! ### Changes -/

/-- Creates a price for a pair that has none. -/
def createPrice (m : Market σ) (new : NewPrice) (id : Uuid) (now : Timestamp) :
    Operation σ Price :=
  checked (Prices.checkValue new.value)
    (m.commit .price (Prices.create new id now).atomically)

/-- Gives a price a new value and archives the one it had. -/
def revisePrice (m : Market σ) (id : Uuid) (value : Decimal) (now : Timestamp) :
    Operation σ Price :=
  checked (Prices.checkValue value) (m.commit .price (Prices.revise id value now).atomically)

/-- Deletes a price. -/
def deletePrice (m : Market σ) (id : Uuid) (now : Timestamp) : Operation σ Unit :=
  m.commit .price (Prices.delete id now).atomically

/-- Restores a deleted price. -/
def restorePrice (m : Market σ) (id : Uuid) (now : Timestamp) : Operation σ Price :=
  m.commit .price (Prices.restore id now).atomically

/-- Records a harvest. -/
def createHarvest (m : Market σ) (new : NewHarvest) (id : Uuid) (now : Timestamp) :
    Operation σ HarvestView :=
  checked (Harvests.check new) (m.commit .harvest (Harvests.create new id now).run)

/-- Deletes a harvest. -/
def deleteHarvest (m : Market σ) (id : Uuid) (now : Timestamp) : Operation σ Unit :=
  m.commit .harvest (Harvests.delete id now).run

/-! ### Questions -/

/-- Refuses pages that there cannot be. -/
def checkPage (s : PageSpec) : Except ServiceFault Unit :=
  if s.isPage then .ok () else .error (.validation PageSpec.refusal)

/-- The question for a price. -/
def priceQuery (m : Market σ) (id : Uuid) : CachedQuery PriceView where
  key := .price id
  ttl := m.defaultTtl
  reader := PriceView.reader
  json := PriceView.json
  work := Prices.view id

/-- The question for a page of prices. -/
def pricesQuery (m : Market σ) (s : PageSpec) : CachedQuery PricePage where
  key := .prices s
  ttl := m.defaultTtl
  reader := PricePage.reader
  json := PricePage.json
  work := Prices.page s

/-- The question for the history of a pair. -/
def historyQuery (m : Market σ) (pair : Pair) : CachedQuery (List PriceSnapshot) where
  key := .history pair
  ttl := m.historyTtl
  reader := PriceSnapshot.listReader
  json := PriceSnapshot.listJson
  work := Prices.points pair

/-- The question for a page of harvests. -/
def harvestsQuery (m : Market σ) (landCommodity : Uuid) (s : PageSpec) :
    CachedQuery HarvestPage where
  key := .harvests landCommodity s
  ttl := m.defaultTtl
  reader := HarvestPage.reader
  json := HarvestPage.json
  work := Harvests.page landCommodity s

/-- A live price. -/
def price (m : Market σ) (id : Uuid) : Operation σ PriceView := (m.priceQuery id).answer m.cache

/-- A page of live prices. -/
def prices (m : Market σ) (s : PageSpec) : Operation σ PricePage :=
  checked (checkPage s) ((m.pricesQuery s).answer m.cache)

/-- The history of a pair that has a live price. -/
def history (m : Market σ) (pair : Pair) : Operation σ (List PriceSnapshot) :=
  (m.historyQuery pair).answer m.cache

/-- A page of the live harvests of a land's commodity. -/
def harvests (m : Market σ) (landCommodity : Uuid) (s : PageSpec) : Operation σ HarvestPage :=
  checked (checkPage s) ((m.harvestsQuery landCommodity s).answer m.cache)

end CropLedger.Market
