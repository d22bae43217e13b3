import CropLedger.Report.Directory
import CropLedger.Web.Envelope

/-!
# Answers

An answer has a status and what goes with it: a Json value, a text, a report file, or nothing.

* `Response.json`, `Response.text`, `Response.file`: the kinds of answers;
* `Response.ofRefusal`, `Response.ofService`: the answer to a refused request and to a failed
  operation;
* `Response.dropped`: no answer.
-/

namespace CropLedger.Web

/-- What an answer carries. -/
inductive Content
  | none
  | text (value : String)
  | json (value : Json)
  | file (content : FileContent)

/-- An answer. -/
structure Response where
  status : Nat
  contentType : Option String
  disposition : Option String
  allow : Option String
  content : Content

namespace Response

/-- An answer of nothing but a status. -/
def empty (status : Nat) : Response := ⟨status, none, none, none, .none⟩

/-- An answer in plain text. -/
def text (status : Nat) (value : String) : Response :=
  { empty status with contentType := some "text/plain; charset=utf-8", content := .text value }

/-- An answer in Json. -/
def json (status : Nat) (value : Json) : Response :=
  { empty status with contentType := some "application/json", content := .json value }

/-- The media type of reports. -/
def reportType : String := "application/vnd.openxmlformats-officedocument.spreadsheetml.sheet"

/-- A report to be saved under a name. -/
def file (name : String) (content : FileContent) : Response :=
  { empty 200 with
    contentType := some reportType
    disposition := some s!"attachment; filename=\"{name}\""
    content := .file content }

/-- The answer to a method that is not understood here. -/
def notAllowed (methods : List String) : Response :=
  { empty 405 with allow := some (",".intercalate methods) }

/-- The answer to a refused request. -/
def ofRefusal (r : Refusal) : Response := json r.status r.envelope.json

/-- No answer, because the connection is dropped before there is one. Its status is none of the
protocol. -/
def dropped : Response := empty 0

/-- The answer to a failed operation. -/
def ofService (fault : ServiceFault) : Response :=
  match Refusal.ofService? fault with
  | some refusal => ofRefusal refusal
  | none => dropped

/-- The answer without what it carries. -/
def withoutContent (r : Response) : Response := { r with content := .none }

end Response

end CropLedger.Web
