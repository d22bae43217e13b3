import CropLedger.Calendar.Date
import CropLedger.Paging
import CropLedger.Report.Range
import CropLedger.Text.Split
import CropLedger.Text.Whole
import CropLedger.Web.Percent

/-!
# Queries of an address

The query of an address is a list of named values: `&` stands between them, `=` after a name, `+`
for a blank. Values are read in the order in which they stand, and the first fault counts.

* `Form.parse`: the named values of a query;
* `Form.page`, `Form.range`: the queries that the market understands.
-/

namespace CropLedger.Web

/-- The named values of a query. -/
abbrev Form := List (String × String)

namespace Form

/-- The text of bytes; a byte that belongs to no character is shown by U+FFFD. -/
def shownText (bytes : Bytes) : String :=
  String.ofList ((Utf8.symbols bytes).map fun s => s.getD (Char.ofNat 0xFFFD))

/-- The text of a name or value. -/
def component (bytes : Bytes) : String :=
  shownText (unescape (bytes.map fun b => if b = 0x2B then 0x20 else b))

/-- A name and its value; without a `=` the value is empty. -/
def pair (part : Bytes) : String × String :=
  (component (part.takeWhile (· ≠ 0x3D)), component ((part.dropWhile (· ≠ 0x3D)).drop 1))

/-- The named values of a query. -/
def parse (query : String) : Form :=
  ((Text.splitOn 0x26 (Utf8.encode query)).filter (· ≠ [])).map pair

/-- Why a value is not what its name asks for. -/
inductive Cause
  | whole (fault : Whole.Fault)
  | calendar (fault : Calendar.Fault)

/-- What a cause is called in a message. -/
def Cause.message : Cause → String
  | .whole fault => fault.message
  | .calendar fault => fault.message

/-- Why a query is refused. -/
inductive Fault
  | value (name : String) (cause : Cause)
  | missing (name : String)
  | duplicate (name : String)

/-- What a fault is called in a message. -/
def Fault.message : Fault → String
  | .value name cause => s!"{name}: {cause.message}"
  | .missing name => s!"missing field `{name}`"
  | .duplicate name => s!"duplicate field `{name}`"

/-- Sets a value that was not there yet. -/
def once {α : Type} (name : String) (seen : Option α) (read : Except Cause α) :
    Except Fault (Option α) :=
  match seen, read with
  | some _, _ => .error (.duplicate name)
  | none, .ok a => .ok (some a)
  | none, .error cause => .error (.value name cause)

/-- A whole number. -/
def whole (text : String) : Except Cause Nat := (Whole.read text).mapError .whole

/-- A date. -/
def date (text : String) : Except Cause Date := (Date.read text).mapError .calendar

/-- Takes one named value into a query for a page. -/
def addToPage (q : PageQuery) (entry : String × String) : Except Fault PageQuery :=
  if entry.1 = "page" then do
    return { q with page := ← once "page" q.page (whole entry.2) }
  else if entry.1 = "limit" then do
    return { q with limit := ← once "limit" q.limit (whole entry.2) }
  else .ok q

/-- The page that a query asks for. -/
def page (form : Form) : Except Fault PageQuery := form.foldlM addToPage ⟨none, none⟩

/-- Takes one named value into the two ends of a range. -/
def addToRange (ends : Option Date × Option Date) (entry : String × String) :
    Except Fault (Option Date × Option Date) :=
  if entry.1 = "start_date" then do
    return (← once "start_date" ends.1 (date entry.2), ends.2)
  else if entry.1 = "end_date" then do
    return (ends.1, ← once "end_date" ends.2 (date entry.2))
  else .ok ends

/-- The range that a query asks for. -/
def range (form : Form) : Except Fault DateRange := do
  match ← form.foldlM addToRange (none, none) with
  | (none, _) => throw (.missing "start_date")
  | (some _, none) => throw (.missing "end_date")
  | (some first, some last) => return ⟨first, last⟩

end Form

end CropLedger.Web
