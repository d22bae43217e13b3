import CropLedger.Market.Operations
import CropLedger.Report.Dispatcher
import CropLedger.Web.Request

/-!
# The market on the web

Requests are answered from the market, the broker and the reports directory.

* `App.perform`: does what was asked for;
* `App.handle`: answers a request.
-/

namespace CropLedger.Web

/-- The market and who takes report jobs. -/
structure App (σ τ : Type) where
  market : Market σ
  dispatcher : Dispatcher τ

/-- The states of the market, the broker and the reports directory. -/
structure AppState (σ τ : Type) where
  market : MarketState σ
  broker : τ
  reports : Directory

namespace App

variable {σ τ α : Type}

/-- The answer to an operation, if it succeeds. -/
def answer (respond : α → Response) : Except ServiceFault α → Response
  | .ok a => respond a
  | .error fault => .ofService fault

/-- Runs an operation on the market. -/
def run (operation : Operation σ α) (respond : α → Response) (s : AppState σ τ) :
    Response × AppState σ τ :=
  let (result, market) := operation s.market
  (answer respond result, { s with market })

/-- The answer to a request for a report. -/
def ticketAnswer : Except DispatchFault ReportTicket → Response
  | .ok ticket => .json 200 ticket.json
  | .error (.range fault) => .ofRefusal (.badRequest fault.message)
  | .error fault => .ofRefusal (.internal "Failed to queue report" fault.message)

/-- Whether a name can stand in a header: no control characters but the tabulator. -/
def fitsHeader (name : String) : Bool :=
  name.toList.all fun c => c = '\t' || (32 ≤ c.toNat && c.toNat ≠ 127)

/-- The newest report of a request. -/
def fetch (r : ReportRequest) (d : Directory) : Response :=
  match r.range.check with
  | .error fault => .ofRefusal (.badRequest fault.message)
  | .ok () =>
    match d.newest r with
    | .error .notReady =>
      .ofRefusal (.of 404 "REPORT_NOT_READY" "Report not found, it may still be generating")
    | .error fault => .ofRefusal (.internal "Failed to look up report" fault.message)
    | .ok name =>
      match d.load name with
      | .error fault => .ofRefusal (.internal "Failed to read report" fault.message)
      | .ok content =>
        if fitsHeader name then .file name content
        else .ofRefusal (.internal "Invalid report file name" "failed to parse header value")

/-- Does what was asked for, at a time, with an identifier for what is created. -/
def perform (app : App σ τ) (id : Uuid) (now : Timestamp) (a : Action) (s : AppState σ τ) :
    Response × AppState σ τ :=
  match a with
  | .listPrices page => run (app.market.prices page) (fun p => .json 200 (PricePage.json p)) s
  | .createPrice new =>
    run (app.market.createPrice new id now) (fun p => .json 201 p.view.json) s
  | .showPrice id => run (app.market.price id) (fun p => .json 200 p.json) s
  | .revisePrice id revision =>
    run (app.market.revisePrice id revision.value now) (fun p => .json 200 p.view.json) s
  | .deletePrice id => run (app.market.deletePrice id now) (fun () => .empty 204) s
  | .restorePrice id =>
    run (app.market.restorePrice id now) (fun p => .json 200 p.view.json) s
  | .showHistory pair =>
    run (app.market.history pair) (fun data => .json 200 (HistoryView.json ⟨pair, data⟩)) s
  | .createHarvest new =>
    run (app.market.createHarvest new id now) (fun h => .json 201 h.json) s
  | .deleteHarvest id => run (app.market.deleteHarvest id now) (fun () => .empty 204) s
  | .listHarvests land page =>
    run (app.market.harvests land page) (fun p => .json 200 (HarvestPage.json p)) s
  | .requestReport r =>
    let (result, broker) := app.dispatcher.request r s.broker
    (ticketAnswer result, { s with broker })
  | .fetchReport r => (fetch r s.reports, s)

/-- Answers a request. A request for no content is answered like one for the content. -/
def handle (app : App σ τ) (id : Uuid) (now : Timestamp) (r : Request) (s : AppState σ τ) :
    Response × AppState σ τ :=
  let (response, s) := match r.action with
    | .ok a => app.perform id now a s
    | .error refusal => (refusal, s)
  (if r.method = Verb.head.word then response.withoutContent else response, s)

end App

end CropLedger.Web
