import CropLedger.Text.Split
import CropLedger.Uuid
import CropLedger.Web.Percent

/-!
# Resources

What a path names. A path is matched part by part; parts that are identifiers are read only after
the resource is known. A part that spells no text counts before one that is no identifier.

* `Resource.ofPath?`: the resource of a path;
* `Resource.verbs`: what can be asked of it;
* `Resource.identify`: its identifiers, read.
-/

namespace CropLedger.Web

/-- What can be asked of a resource. -/
inductive Verb
  | get
  | head
  | post
  | put
  | delete
  deriving DecidableEq

namespace Verb

/-- The word of a verb. -/
def word : Verb → String
  | get => "GET"
  | head => "HEAD"
  | post => "POST"
  | put => "PUT"
  | delete => "DELETE"

/-- The verb of a word. -/
def ofWord? (word : String) : Option Verb :=
  [get, head, post, put, delete].find? fun v => v.word = word

end Verb

/-- What a path names, with identifiers of a type. -/
inductive Resource (α : Type)
  | prices
  | price (id : α)
  | restoration (id : α)
  | history (commodity location : α)
  | historyReport (commodity location : α)
  | historyFile (commodity location : α)
  | newHarvests
  | harvest (id : α)
  | harvests (landCommodity : α)
  | harvestReport (landCommodity : α)
  | harvestFile (landCommodity : α)
  deriving DecidableEq

/-- Why a path is refused. -/
inductive PathFault
  | text (name : String)
  | identifier (name value : String) (fault : Uuid.Fault)
  deriving DecidableEq

/-- What a fault is called in a message. -/
def PathFault.message : PathFault → String
  | .text name => s!"Invalid URL: Invalid UTF-8 in `{name}`"
  | .identifier name value fault =>
    s!"Invalid URL: Cannot parse `{name}` with value `{value}`: {fault.message}"

namespace Resource

variable {α β ε : Type}

/-- The parts of a path between slashes. -/
def parts (path : String) : List String := (Text.splitOn '/' path.toList).map String.ofList

/-- The resource of the parts of a path; identifiers are never empty. -/
def ofParts? : List String → Option (Resource String)
  | ["", "api", "prices"] => some .prices
  | ["", "api", "prices", id] => some (.price id)
  | ["", "api", "prices", id, "restore"] => some (.restoration id)
  | ["", "api", "prices", "history", c, l] => some (.history c l)
  | ["", "api", "prices", "history", c, l, "download"] => some (.historyReport c l)
  | ["", "api", "prices", "history", c, l, "download", "file"] => some (.historyFile c l)
  | ["", "api", "harvests"] => some .newHarvests
  | ["", "api", "harvests", id] => some (.harvest id)
  | ["", "api", "land-commodities", land, "harvests"] => some (.harvests land)
  | ["", "api", "land-commodities", land, "harvests", "download"] => some (.harvestReport land)
  | ["", "api", "land-commodities", land, "harvests", "download", "file"] =>
    some (.harvestFile land)
  | _ => none

/-- The resource of a path: no part but the first is empty. -/
def ofPath? (path : String) : Option (Resource String) :=
  if ((parts path).drop 1).contains "" then none else ofParts? (parts path)

/-- The verbs of a resource; what can be got can be asked for without its content. -/
def verbs : Resource α → List Verb
  | prices => [.get, .head, .post]
  | price _ => [.get, .head, .put, .delete]
  | restoration _ | newHarvests => [.post]
  | harvest _ => [.delete]
  | _ => [.get, .head]

/-- Reads every identifier, given the name of its part. -/
def traverse (read : String → α → Except ε β) : Resource α → Except ε (Resource β)
  | prices => .ok .prices
  | newHarvests => .ok .newHarvests
  | price id => return .price (← read "id" id)
  | restoration id => return .restoration (← read "id" id)
  | harvest id => return .harvest (← read "id" id)
  | history c l => return .history (← read "commodity_id" c) (← read "location_id" l)
  | historyReport c l => return .historyReport (← read "commodity_id" c) (← read "location_id" l)
  | historyFile c l => return .historyFile (← read "commodity_id" c) (← read "location_id" l)
  | harvests land => return .harvests (← read "land_commodity_id" land)
  | harvestReport land => return .harvestReport (← read "land_commodity_id" land)
  | harvestFile land => return .harvestFile (← read "land_commodity_id" land)

/-- The text of a part. -/
def readText (name part : String) : Except PathFault String :=
  match unescapeText? part with
  | some text => .ok text
  | none => .error (.text name)

/-- The identifier of a text. -/
def readIdentifier (name text : String) : Except PathFault Uuid :=
  (Uuid.read text).mapError (.identifier name text)

/-- A resource with its identifiers read: first all texts, then all identifiers. -/
def identify (r : Resource String) : Except PathFault (Resource Uuid) := do
  (← r.traverse readText).traverse readIdentifier

end Resource

end CropLedger.Web
