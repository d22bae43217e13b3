import CropLedger.Market.Harvests
import CropLedger.Market.Prices
import CropLedger.Report.Rendering
import CropLedger.Report.Selection

/-!
# Working off report jobs

A job's message names the report; its data are read from the store when it is rendered. Nothing is
kept between jobs but the store and the files.

* `ReportRequest.book`: the work that finds the workbook of a request;
* `ReportWorker.process`: a message from its bytes to the file.
-/

namespace CropLedger

/-- The work that finds the workbook of a request. -/
def ReportRequest.book (r : ReportRequest) : Work (Except WorkbookFault Workbook) :=
  match r.target with
  | .priceHistory pair => do
    let history ← Prices.history pair
    return Workbook.ofSnapshots (r.range.select history.snapshots)
  | .harvest land => do
    let harvests ← Harvests.between land r.range
    return Workbook.ofHarvests harvests

/-- Why a job led to no file. -/
inductive WorkerFault
  | decode (fault : Json.Fault)
  | load (fault : ServiceFault)
  | render (fault : RenderFault)

/-- What a worker works on. -/
structure ReportWorker where
  store : Database
  reports : Directory

namespace ReportWorker

/-- Renders the report of a request. -/
def render (r : ReportRequest) (now : Timestamp) (w : ReportWorker) :
    Except WorkerFault String × ReportWorker :=
  match r.book.run w.store with
  | (.error fault, store) => (.error (.load fault), { w with store })
  | (.ok book, store) =>
    let (result, reports) := r.render now book w.reports
    (result.mapError .render, ⟨store, reports⟩)

/-- Reads the message of a job and renders its report. -/
def process (payload : Bytes) (now : Timestamp) (w : ReportWorker) :
    Except WorkerFault String × ReportWorker :=
  match Json.Reader.decode ReportRequest.jobReader payload with
  | .error fault => (.error (.decode fault), w)
  | .ok r => render r now w

/-- Works off messages one after another; what comes of one is no matter to the next. -/
def processAll (now : Timestamp) (payloads : List Bytes) (w : ReportWorker) : ReportWorker :=
  payloads.foldl (fun w payload => (process payload now w).2) w

end ReportWorker

end CropLedger
