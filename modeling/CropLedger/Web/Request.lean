import CropLedger.Harvest.Basic
import CropLedger.Price.View
import CropLedger.Report.Request
import CropLedger.Web.Form
import CropLedger.Web.MediaType
import CropLedger.Web.Resource
import CropLedger.Web.Response

/-!
# Requests

A request is understood in a fixed order: its path, its verb, its identifiers, its query, its
body. The first of these that is refused decides the answer.

* `Request.action`: what a request asks for, or the answer that refuses it.
-/

namespace CropLedger.Web

/-- A request as it comes in. -/
structure Request where
  method : String
  uri : String
  contentType : Option String
  body : Bytes
  deriving DecidableEq

/-- What is asked of the market. -/
inductive Action
  | listPrices (page : PageSpec)
  | createPrice (new : NewPrice)
  | showPrice (id : Uuid)
  | revisePrice (id : Uuid) (revision : Revision)
  | deletePrice (id : Uuid)
  | restorePrice (id : Uuid)
  | showHistory (pair : Pair)
  | requestReport (request : ReportRequest)
  | fetchReport (request : ReportRequest)
  | createHarvest (new : NewHarvest)
  | deleteHarvest (id : Uuid)
  | listHarvests (landCommodity : Uuid) (page : PageSpec)
  deriving DecidableEq

namespace Request

/-- The address without what follows a number sign. -/
def address (r : Request) : List Char := r.uri.toList.takeWhile (· ≠ '#')

/-- The path of the address. -/
def path (r : Request) : String := String.ofList (r.address.takeWhile (· ≠ '?'))

/-- The query of the address. -/
def query (r : Request) : Form :=
  Form.parse (String.ofList ((r.address.dropWhile (· ≠ '?')).drop 1))

/-- The refusal of a query. -/
def refuseQuery (fault : Form.Fault) : Response := .ofRefusal (.ofQuery fault.message)

/-- The page that the query asks for. -/
def page (r : Request) : Except Response PageSpec := do
  let q ← r.query.page.mapError refuseQuery
  q.resolve.mapError fun fault => .ofRefusal (.badRequest fault.message)

/-- The range that the query asks for. -/
def range (r : Request) : Except Response DateRange := r.query.range.mapError refuseQuery

/-- The largest number of bytes of a body. -/
def maxBody : Nat := 2097152

/-- The refusal of a body. -/
def refuseBody : Json.Fault → Response
  | .stopped _ => .text 400 "Failed to parse the request body as JSON"
  | .mismatch path cause => .text 422
    ("Failed to deserialize the JSON body into the target type: " ++ Json.Fault.place path ++
      cause.message)

/-- Whether the body is said to be Json. -/
def saysJson (r : Request) : Bool :=
  (r.contentType.bind MediaType.read?).any MediaType.isJson

/-- The value that the body holds. -/
def read {α : Type} (reader : Json.Reader α) (r : Request) : Except Response α :=
  if ¬r.saysJson then
    .error (.text 415 "Expected request with `Content-Type: application/json`")
  else if maxBody < r.body.length then
    .error (.text 413 "Failed to buffer the request body: length limit exceeded")
  else (Json.Reader.decode reader r.body).mapError refuseBody

/-- What is asked of a resource by a verb that it has. -/
def actionOn (r : Request) (verb : Verb) : Resource Uuid → Except Response Action
  | .prices =>
    if verb = .post then return .createPrice (← r.read NewPrice.reader)
    else return .listPrices (← r.page)
  | .price id =>
    if verb = .put then return .revisePrice id (← r.read Revision.reader)
    else if verb = .delete then return .deletePrice id
    else return .showPrice id
  | .restoration id => return .restorePrice id
  | .history c l => return .showHistory ⟨c, l⟩
  | .historyReport c l => return .requestReport ⟨.priceHistory ⟨c, l⟩, ← r.range⟩
  | .historyFile c l => return .fetchReport ⟨.priceHistory ⟨c, l⟩, ← r.range⟩
  | .newHarvests => return .createHarvest (← r.read NewHarvest.reader)
  | .harvest id => return .deleteHarvest id
  | .harvests land => return .listHarvests land (← r.page)
  | .harvestReport land => return .requestReport ⟨.harvest land, ← r.range⟩
  | .harvestFile land => return .fetchReport ⟨.harvest land, ← r.range⟩

/-- What a request asks for. -/
def action (r : Request) : Except Response Action := do
  let some resource := Resource.ofPath? r.path | throw (.empty 404)
  let notAllowed : Response := .notAllowed (resource.verbs.map Verb.word)
  let some verb := Verb.ofWord? r.method | throw notAllowed
  if ¬resource.verbs.contains verb then throw notAllowed
  let resource ← resource.identify.mapError fun fault => .text 400 fault.message
  r.actionOn verb resource

end Request

end CropLedger.Web
