import CropLedger.Paging
import CropLedger.Price.Basic

/-!
# Cache keys

The name under which the answer to a query is cached. Names start with the kind of what they
tell about, so a write can drop everything that depends on it.

* `CacheKey.text`: the name of a query;
* `Entity.label`: what the names of a kind start with.
-/

namespace CropLedger

/-- A kind of thing that queries are about. -/
inductive Entity
  | price
  | harvest
  deriving DecidableEq

/-- What the names of a kind start with. -/
def Entity.label : Entity → String
  | .price => "price"
  | .harvest => "harvest"

/-- A query whose answer is cached. -/
inductive CacheKey
  | price (id : Uuid)
  | prices (page : PageSpec)
  | history (pair : Pair)
  | harvests (landCommodity : Uuid) (page : PageSpec)
  deriving DecidableEq

namespace CacheKey

/-- The kind of thing that a query is about. -/
def entity : CacheKey → Entity
  | .harvests _ _ => .harvest
  | _ => .price

/-- The name of a page. -/
def pageText (s : PageSpec) : String := s!"_page_{s.page}_limit_{s.limit}"

/-- The name of a query. -/
def text : CacheKey → String
  | .price id => "price_" ++ id.toText
  | .prices s => "price_list" ++ pageText s
  | .history pair => "price_history_" ++ pair.commodity.toText ++ "_" ++ pair.location.toText
  | .harvests land s => "harvest_list_" ++ land.toText ++ pageText s

end CacheKey

end CropLedger
