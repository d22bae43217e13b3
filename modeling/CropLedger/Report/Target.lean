import CropLedger.Price.Basic

/-!
# What a report is about

There are two kinds of report: the price history of a pair, and the harvests of a land's
commodity. The written form of a target names its kind in a member of its own.

* `ReportTarget.json`, `ReportTarget.reader`: the written form and its reading.
-/

namespace CropLedger

open Json

/-- A kind of report. -/
inductive ReportKind
  | priceHistory
  | harvest
  deriving DecidableEq

namespace ReportKind

/-- The kinds in the order in which their queues are declared. -/
def all : List ReportKind := [.priceHistory, .harvest]

/-- The key under which jobs of the kind are published. -/
def routingKey : ReportKind → String
  | .priceHistory => "price-history"
  | .harvest => "harvest"

/-- The queue that holds jobs of the kind. -/
def queue (k : ReportKind) : String := "report." ++ k.routingKey

/-- The name of the kind, in messages and in front of file names. -/
def name : ReportKind → String
  | .priceHistory => "price_history"
  | .harvest => "harvest"

/-- The names of the kinds. -/
def names : List String := all.map name

/-- The kind of a name. -/
def ofName? (s : String) : Option ReportKind := all.find? fun k => k.name = s

/-- The kind of a position. -/
def ofIndex? (n : Nat) : Option ReportKind := all[n]?

theorem ofName?_name (k : ReportKind) : ofName? k.name = some k := by cases k <;> decide

/-- Reads the name of a kind. -/
def reader : Reader ReportKind
  | .text content => do
    let s ← ofStop content.read
    match ofName? s with
    | some k => return k
    | none => throw (.here (.unknownVariant s names))
  | tree => tree.wrongType .variant

/-- Reads the name of a kind, or its position. -/
def positionReader : Reader ReportKind
  | .number numeral =>
    match numeral.value? with
    | some (.unsigned n) =>
      match ofIndex? n with
      | some k => .ok k
      | none => (Scan.number numeral).wrongValue (.variantIndex all.length)
    | _ => (Scan.number numeral).wrongType .variant
  | tree => reader tree

end ReportKind

/-- What a report is about. -/
inductive ReportTarget
  | priceHistory (pair : Pair)
  | harvest (landCommodity : Uuid)
  deriving DecidableEq

namespace ReportTarget

/-- The kind of report. -/
def kind : ReportTarget → ReportKind
  | .priceHistory _ => .priceHistory
  | .harvest _ => .harvest

/-- The identifiers that a target is made of. -/
def identifiers : ReportTarget → List Uuid
  | .priceHistory pair => [pair.commodity, pair.location]
  | .harvest land => [land]

/-- The members of the written form. -/
def members (t : ReportTarget) : List (String × Json) :=
  ("kind", .text t.kind.name) ::
    match t with
    | .priceHistory pair => [("commodity_id", pair.commodity), ("location_id", pair.location)]
    | .harvest land => [("land_commodity_id", land)]

/-- The written form. -/
def json (t : ReportTarget) : Json := .object t.members

/-- The fields of a target besides its kind. -/
def record : ReportKind → Record ReportTarget
  | .priceHistory => .priceHistory <$> Pair.record
  | .harvest => .harvest <$> .field "land_commodity_id" .identifier

/-- What a kind of target is called in a message. -/
def title : ReportKind → String
  | .priceHistory => "struct variant ReportTarget::PriceHistory"
  | .harvest => "struct variant ReportTarget::Harvest"

/-- The number of containers that a value kept for later may not reach. -/
def maxDepth : Nat := 127

/-- Reads a target from members that stand in an object: the kind is read where it is met, the
fields of the kind once all members are there. -/
def ofMembers (readKind : Reader ReportKind) (stop : Option Stop)
    (members : List (RawText × Scan)) : Except Fault ReportTarget := do
  let checks := [("kind", fun tree => (readKind tree).map fun _ => ())]
  let known ← Record.collect checks (Scan.buffer maxDepth) stop [] members
  match known.lookup "kind" with
  | none => throw (.here (.missing "kind"))
  | some tree =>
    let r := record (← readKind tree)
    let known ← Record.collect r.checks Scan.skip none [] members
    r.fromMembers fun name => known.lookup name

/-- Reads a target, from an object or from an array that starts with the kind. -/
def reader : Reader ReportTarget
  | .object members stop => ofMembers ReportKind.reader stop members
  | .array [] stop => do
    ofStop (Scan.stopped stop)
    throw (.here (.missing "kind"))
  | .array (first :: items) stop => do
    let kind ← ReportKind.reader first
    ofStop (Scan.bufferItems maxDepth stop items)
    let r := record kind
    r.readArray (title kind) (fun n => .here (.tooLong n r.checks.length)) items none
  | tree => tree.wrongType (.tagged "ReportTarget")

end ReportTarget

end CropLedger
