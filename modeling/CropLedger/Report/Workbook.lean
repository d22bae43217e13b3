import CropLedger.Decimal.Cell
import CropLedger.Harvest.Basic
import CropLedger.Price.Basic

/-!
# Workbooks

A report is a workbook of one sheet: a row of headers, then a numbered row for each record. A
sheet holds only so many rows, and a cell only so many characters.

* `Workbook.ofSnapshots`, `Workbook.ofHarvests`: the two kinds of report;
* `Workbook.build`: what fits a sheet.
-/

namespace CropLedger

/-- What stands in a cell. A number is kept in its shortest written form. -/
inductive Cell
  | empty
  | text (value : String)
  | number (value : String)
  deriving DecidableEq

namespace Cell

/-- A cell with a text; no text leaves it empty. -/
def ofText (value : String) : Cell := if value = "" then .empty else .text value

/-- A cell with a whole number. -/
def ofNat (n : Nat) : Cell := .number (String.ofList (Digits.shortest n))

/-- A cell with a decimal. -/
def ofDecimal (d : Decimal) : Cell := .number d.cellText

end Cell

/-- A workbook of one sheet. -/
structure Workbook where
  sheet : String
  rows : List (List Cell)
  deriving DecidableEq

/-- Why records do not fit a sheet. -/
inductive WorkbookFault
  | row
  | text
  deriving DecidableEq

/-- What a fault is called in a message. -/
def WorkbookFault.message : WorkbookFault → String
  | .row => "Row or column exceeds Excel's allowed limits (1,048,576 x 16,384)."
  | .text => "String exceeds Excel's limit of 32,767 characters."

namespace Workbook

/-- The number of rows of a sheet. -/
def maxRows : Nat := 1048576

/-- The number of characters of a cell. -/
def maxCharacters : Nat := 32767

/-- Whether a cell is not too long. -/
def fits : Cell → Bool
  | .text value => value.length ≤ maxCharacters
  | _ => true

/-- Checks rows in order, the first of which has the given index. -/
def check : Nat → List (List Cell) → Except WorkbookFault Unit
  | _, [] => .ok ()
  | index, row :: rows =>
    if maxRows ≤ index then .error .row
    else if row.all fits then check (index + 1) rows
    else .error .text

/-- Numbers rows from one. -/
def numbered : Nat → List (List Cell) → List (List Cell)
  | _, [] => []
  | n, row :: rows => (Cell.ofNat n :: row) :: numbered (n + 1) rows

/-- A sheet with headers and numbered rows, if they fit. -/
def build (sheet : String) (headers : List String) (records : List (List Cell)) :
    Except WorkbookFault Workbook :=
  let rows := headers.map Cell.ofText :: numbered 1 records
  (check 0 rows).map fun _ => ⟨sheet, rows⟩

theorem length_numbered (n : Nat) (rows : List (List Cell)) :
    (numbered n rows).length = rows.length := by
  induction rows generalizing n with
  | nil => rfl
  | cons row rows ih => simp [numbered, ih]

/-! ### The two kinds of report -/

/-- The cells of a point of a price's history. -/
def snapshotCells (s : PriceSnapshot) : List Cell :=
  [.ofText s.pair.commodity.toText, .ofText s.pair.location.toText, .ofDecimal s.value,
    .ofText (if s.current then "current" else "archived"), .ofText s.createdAt.sheetText,
    .ofText s.updatedAt.sheetText]

/-- The cells of a harvest. -/
def harvestCells (h : Harvest) : List Cell :=
  [.ofText h.landCommodity.toText, .ofText h.date.toText, .ofDecimal h.quantity, .ofText h.unit,
    .ofText (h.notes.getD "")]

/-- The workbook of a price history. -/
def ofSnapshots (snapshots : List PriceSnapshot) : Except WorkbookFault Workbook :=
  build "Price History"
    ["No", "Commodity ID", "Location ID", "Price", "Status", "Created At", "Updated At"]
    (snapshots.map snapshotCells)

/-- The workbook of harvests. -/
def ofHarvests (harvests : List Harvest) : Except WorkbookFault Workbook :=
  build "Harvests" ["No", "Land Commodity ID", "Harvest Date", "Quantity", "Unit", "Notes"]
    (harvests.map harvestCells)

end Workbook

end CropLedger
