import CropLedger.Price.Basic
import CropLedger.Report.Range

/-!
# The points of a price history in a range

A report on a range shows the points dated inside it, and before them the one that was in effect
when the range opened: the last point dated before its first day. A point is dated by its own
local date.

* `DateRange.select`: the points shown;
* `DateRange.select_sublist`: they stand in their old order, none twice.
-/

namespace CropLedger

/-- The local date of a point. -/
def PriceSnapshot.date (s : PriceSnapshot) : Date := s.updatedAt.date

namespace DateRange

/-- Whether a point is dated before the range. -/
def precedes (r : DateRange) (s : PriceSnapshot) : Bool := s.date < r.first

/-- The points of a history that are shown, oldest first. -/
def select (r : DateRange) : List PriceSnapshot → List PriceSnapshot
  | [] => []
  | s :: later =>
    if r.contains s.date || (r.precedes s && !later.any r.precedes) then s :: r.select later
    else r.select later

theorem select_sublist (r : DateRange) (snapshots : List PriceSnapshot) :
    (r.select snapshots).Sublist snapshots := by
  induction snapshots with
  | nil => exact .slnil
  | cons s later ih =>
    unfold select
    split
    · exact ih.cons_cons s
    · exact ih.cons s

end DateRange

end CropLedger
