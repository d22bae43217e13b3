import CropLedger.Report.Range
import CropLedger.Report.Target
import CropLedger.Text.Trim

/-!
# Requests for reports

A request is a target and a range. It is all that ties a report to who asked for it: the job's
message, the names of the files rendered for it and the address to fetch them from are made of
the request alone.

* `ReportRequest.stem`, `ReportRequest.fileName`, `ReportRequest.matchesName`: the names of its
  files;
* `ReportRequest.downloadUrl`: where its newest file is fetched;
* `ReportRequest.jobJson`, `ReportRequest.jobReader`: the job's message and its reading.
-/

namespace CropLedger

open Json

/-- A report that is asked for. -/
structure ReportRequest where
  target : ReportTarget
  range : DateRange
  deriving DecidableEq

namespace ReportRequest

/-- The kind of report. -/
def kind (r : ReportRequest) : ReportKind := r.target.kind

/-! ### Files -/

/-- The ending of report files. -/
def extension : List Char := ['.', 'x', 'l', 's', 'x']

/-- What the names of all files of a request start with: kind, identifiers and range. -/
def stemChars (r : ReportRequest) : List Char :=
  r.kind.name.toList ++ '_' ::
    (r.target.identifiers.flatMap fun id => id.chars ++ ['_']) ++
    r.range.first.chars ++ '_' :: r.range.last.chars ++ ['_']

/-- What the names of all files of a request start with. -/
def stem (r : ReportRequest) : String := String.ofList r.stemChars

/-- The name of the file rendered at a time. -/
def fileName (r : ReportRequest) (generatedAt : Timestamp) : String :=
  String.ofList (r.stemChars ++ generatedAt.fileText ++ extension)

/-- Whether a name is that of a finished file of the request: between the stem and the ending
stands something without an underscore. -/
def matchesName (r : ReportRequest) (name : String) : Bool :=
  match r.stemChars.isPrefixOf? name.toList with
  | none => false
  | some rest =>
    match extension.isSuffixOf? rest with
    | none => false
    | some time => !time.isEmpty && !time.contains '_'

/-! ### The address -/

/-- The path from which files of a target are fetched. -/
def path : ReportTarget → String
  | .priceHistory pair => s!"/api/prices/history/{pair.commodity}/{pair.location}/download/file"
  | .harvest land => s!"/api/land-commodities/{land}/harvests/download/file"

/-- The address from which the newest file of a request is fetched. The base may end in slashes. -/
def downloadUrl (r : ReportRequest) (base : String) : String :=
  String.ofList (Text.dropEndWhile (· = '/') base.toList) ++ path r.target ++
    s!"?start_date={r.range.first}&end_date={r.range.last}"

/-! ### The job's message -/

/-- The message of a job: the members of the target, then those of the range. -/
def jobJson (r : ReportRequest) : Json := .object (r.target.members ++ r.range.members)

/-- The bytes of a job's message. -/
def jobBytes (r : ReportRequest) : Bytes := Utf8.encode r.jobJson.render

/-- Reads a job's message. The dates are read where they are met; everything else is kept, and
the target is read from it at the end. -/
def jobReader : Reader ReportRequest
  | .object members stop => do
    let range := DateRange.record
    let known ← Record.collect range.checks (Scan.buffer ReportTarget.maxDepth) stop [] members
    let range ← range.fromMembers fun name => known.lookup name
    let target ← ReportTarget.ofMembers ReportKind.positionReader none members
    return ⟨target, range⟩
  | tree => tree.wrongType (.record "ReportJobMessage")

end ReportRequest

/-- What is handed to who asked for a report. -/
structure ReportTicket where
  message : String
  downloadUrl : String
  deriving DecidableEq

namespace ReportTicket

/-- The ticket of an accepted request. -/
def of (r : ReportRequest) (base : String) : ReportTicket :=
  ⟨"Report is being generated, please check back later using the download url",
    r.downloadUrl base⟩

/-- The written form. -/
def json (t : ReportTicket) : Json :=
  .object [("message", .text t.message), ("download_url", .text t.downloadUrl)]

/-- Reads a ticket. -/
def reader : Reader ReportTicket :=
  Record.read "ReportTicket"
    (ReportTicket.mk <$> .field "message" .text <*> .field "download_url" .text)

end ReportTicket

end CropLedger
