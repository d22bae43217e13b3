import CropLedger.Json.Record

/-!
# Ranges of dates

A report covers the days from a first to a last one, both included.

* `DateRange.contains`: the days covered;
* `DateRange.check`: the first day must not be after the last.
-/

namespace CropLedger

open Json

/-- The days from a first to a last one. -/
structure DateRange where
  first : Date
  last : Date
  deriving DecidableEq

/-- A range whose first day is after its last. -/
structure RangeFault where
  first : Date
  last : Date
  deriving DecidableEq

/-- What the fault is called in a message. -/
def RangeFault.message (f : RangeFault) : String :=
  s!"start_date {f.first} must not be after end_date {f.last}"

namespace DateRange

/-- Whether a day is covered. -/
def contains (r : DateRange) (date : Date) : Bool := r.first ≤ date && date ≤ r.last

/-- Refuses a range whose first day is after its last. -/
def check (r : DateRange) : Except RangeFault Unit :=
  if r.last < r.first then .error ⟨r.first, r.last⟩ else .ok ()

theorem check_eq_ok_iff (r : DateRange) : r.check = .ok () ↔ r.first ≤ r.last := by
  have : r.last < r.first ↔ ¬ r.first ≤ r.last := by
    show r.last.key < r.first.key ↔ ¬ r.first.key ≤ r.last.key
    omega
  unfold check
  split <;> simp_all

/-- The members of the written form. -/
def members (r : DateRange) : List (String × Json) :=
  [("start_date", r.first), ("end_date", r.last)]

/-- The written form. -/
def json (r : DateRange) : Json := .object r.members

/-- The fields of a range. -/
def record : Record DateRange :=
  DateRange.mk <$> .field "start_date" .date <*> .field "end_date" .date

/-- Reads a range. -/
def reader : Reader DateRange := record.read "DateRange"

end DateRange

end CropLedger
