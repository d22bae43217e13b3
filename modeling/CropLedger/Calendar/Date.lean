import CropLedger.Calendar.Fault

/-!
# Dates

Days of the Gregorian calendar, continued without end to both sides, within the years that the
market keeps. A date is its year, month and day; dates are compared by one number.

* `key_injective`: dates of equal number are equal;
* `Date.next?` and `Date.previous?`: the neighbours, absent at the two ends.
-/

namespace CropLedger

/-- Whether a year has a 29 February. -/
def isLeapYear (year : Int) : Bool :=
  year % 4 == 0 && (year % 100 != 0 || year % 400 == 0)

/-- The number of days of a month. -/
def daysIn (year : Int) (month : Nat) : Nat :=
  if month = 2 then (if isLeapYear year then 29 else 28)
  else if month = 4 ∨ month = 6 ∨ month = 9 ∨ month = 11 then 30
  else 31

/-- Whether year, month and day are a date. -/
def IsDate (year : Int) (month day : Nat) : Prop :=
  -262143 ≤ year ∧ year ≤ 262142 ∧ 1 ≤ month ∧ month ≤ 12 ∧ 1 ≤ day ∧ day ≤ daysIn year month

instance (year : Int) (month day : Nat) : Decidable (IsDate year month day) := by
  unfold IsDate; infer_instance

/-- A day of the calendar. -/
structure Date where
  year : Int
  month : Nat
  day : Nat
  isDate : IsDate year month day
  deriving DecidableEq

namespace Date

/-- A number that grows with the date; it counts every month as 31 days. -/
def key (d : Date) : Int := (d.year * 12 + d.month) * 31 + d.day

instance : LE Date := ⟨fun a b => a.key ≤ b.key⟩
instance : LT Date := ⟨fun a b => a.key < b.key⟩
instance (a b : Date) : Decidable (a ≤ b) := inferInstanceAs (Decidable (a.key ≤ b.key))
instance (a b : Date) : Decidable (a < b) := inferInstanceAs (Decidable (a.key < b.key))

theorem daysIn_le (year : Int) (month : Nat) : daysIn year month ≤ 31 := by
  unfold daysIn; (repeat' split) <;> omega

theorem key_injective {a b : Date} (h : a.key = b.key) : a = b := by
  obtain ⟨ya, ma, da, ha⟩ := a
  obtain ⟨yb, mb, db, hb⟩ := b
  have h₁ := daysIn_le ya ma
  have h₂ := daysIn_le yb mb
  simp only [key] at h
  simp only [IsDate] at ha hb
  have hy : ya = yb := by omega
  have hm : ma = mb := by omega
  have hd : da = db := by omega
  subst hy hm hd
  rfl

/-- The date of a year, month and day that are one. -/
def of? (year : Int) (month day : Nat) : Option Date :=
  if h : IsDate year month day then some ⟨year, month, day, h⟩ else none

/-- The day after, unless the calendar ends. -/
def next? (d : Date) : Option Date :=
  of? d.year d.month (d.day + 1) <|> of? d.year (d.month + 1) 1 <|> of? (d.year + 1) 1 1

/-- The day before, unless the calendar starts. -/
def previous? (d : Date) : Option Date :=
  of? d.year d.month (d.day - 1) <|>
    of? d.year (d.month - 1) (daysIn d.year (d.month - 1)) <|> of? (d.year - 1) 12 31

/-! ### Writing -/

/-- A year has at least four digits; one that has more, or is negative, has a sign. -/
def yearText (year : Int) : List Char :=
  if year < 0 then '-' :: Digits.padded 4 year.natAbs
  else if year ≤ 9999 then Digits.padded 4 year.natAbs
  else '+' :: Digits.padded 4 year.natAbs

/-- Year, month and day with hyphens. -/
def chars (d : Date) : List Char :=
  yearText d.year ++ '-' :: Digits.fixed 10 2 d.month ++ '-' :: Digits.fixed 10 2 d.day

/-- The written form as a text. -/
def toText (d : Date) : String := String.ofList d.chars

instance : ToString Date := ⟨toText⟩

/-! ### Reading -/

open Calendar

/-- A year: up to four digits, or a sign and any number of them. -/
def readYear : Step Int := fun text =>
  match Text.trimStart text with
  | '-' :: rest => do
    let (n, rest) ← readNumber rest.length rest
    inRange (-(n : Int)) rest
  | '+' :: rest => do
    let (n, rest) ← readNumber rest.length rest
    inRange n rest
  | text => do
    let (n, rest) ← readNumber 4 text
    inRange n rest
where
  /-- Years beyond 32 bits are refused at once. -/
  inRange (year : Int) (rest : List Char) : Except Fault (Int × List Char) :=
    if -Nat.pow 2 31 ≤ year ∧ year < Nat.pow 2 31 then .ok (year, rest) else .error .outOfRange

/-- Year, month and day, not yet known to be a date. -/
def readParts : Step (Int × Nat × Nat) := fun text => do
  let (year, text) ← readYear text
  let ((), text) ← readSeparator '-' text
  let (month, text) ← readField 1 12 text
  let ((), text) ← readSeparator '-' text
  let (day, text) ← readField 1 31 text
  return ((year, month, day), text)

/-- Reads a date. -/
def read (text : String) : Except Fault Date := do
  let ((year, month, day), rest) ← readParts text.toList
  if Text.trimStart rest ≠ [] then throw .trailing
  match of? year month day with
  | some date => return date
  | none => throw .outOfRange

end Date

end CropLedger
