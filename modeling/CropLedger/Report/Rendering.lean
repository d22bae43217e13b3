import CropLedger.Report.Directory

/-!
# Rendering a report

A rendered report is a workbook saved under the name that its request and the time of rendering
give it. A workbook that cannot be built writes nothing.

* `ReportRequest.render`: saves a built workbook, and answers its name.
-/

namespace CropLedger

/-- Why a report was not rendered. -/
inductive RenderFault
  | workbook (fault : WorkbookFault)
  | files (fault : FileFault)
  deriving DecidableEq

/-- What a fault is called in a message. -/
def RenderFault.message : RenderFault → String
  | .workbook fault => "failed to build workbook: " ++ fault.message
  | .files fault => "failed to write report file: " ++ fault.message

/-- Saves a workbook, if it could be built, under the name of a request and a time. -/
def ReportRequest.render (r : ReportRequest) (generatedAt : Timestamp)
    (book : Except WorkbookFault Workbook) (d : Directory) :
    Except RenderFault String × Directory :=
  match book with
  | .error fault => (.error (.workbook fault), d)
  | .ok book =>
    match d.save (r.fileName generatedAt) book with
    | (.ok (), d) => (.ok (r.fileName generatedAt), d)
    | (.error fault, d) => (.error (.files fault), d)

theorem ReportRequest.render_unbuilt (r : ReportRequest) (generatedAt : Timestamp)
    (fault : WorkbookFault) (d : Directory) :
    r.render generatedAt (.error fault) d = (.error (.workbook fault), d) := rfl

end CropLedger
