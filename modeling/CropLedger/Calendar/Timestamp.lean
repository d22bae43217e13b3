import CropLedger.Calendar.Date

/-!
# Points in time

A point in time is a local date and time of day to the nanosecond with its distance from UTC in
minutes. A second of 60 is a leap second. Points are ordered by their date and time in UTC.

A calculation can also make a leap second of any other second, by giving it a second billion of
nanoseconds. Such a point is written as one in the second after.

* `Timestamp.utc`: the same point with no distance;
* `Timestamp.chars`, `Timestamp.read`: the form with `T`, and its reading, which is more
  tolerant;
* `Timestamp.columnText`, `Timestamp.sheetText`, `Timestamp.fileText`: the forms kept in the
  store, shown in reports, and used in file names;
* `LongTimestamp`: a point in time any second of which can be a leap second.
-/

namespace CropLedger

/-- The date in UTC of a local date and minute of the day, `offset` minutes east. -/
def utcDate? (date : Date) (minuteOfDay offset : Int) : Option Date :=
  if minuteOfDay - offset < 0 then date.previous?
  else if minuteOfDay - offset < 1440 then some date
  else date.next?

/-- Whether the parts are a point in time whose date in UTC exists. -/
def IsTime (date : Date) (hour minute second nanos : Nat) (offset : Int) : Prop :=
  hour < 24 ∧ minute < 60 ∧ second ≤ 60 ∧ nanos < 1000000000 ∧ -1440 < offset ∧ offset < 1440 ∧
    (utcDate? date (hour * 60 + minute : Nat) offset).isSome

instance (date : Date) (hour minute second nanos : Nat) (offset : Int) :
    Decidable (IsTime date hour minute second nanos offset) := by
  unfold IsTime; infer_instance

/-- A point in time. -/
structure Timestamp where
  date : Date
  hour : Nat
  minute : Nat
  second : Nat
  nanos : Nat
  offset : Int
  isTime : IsTime date hour minute second nanos offset
  deriving DecidableEq

namespace Timestamp

/-- The point in time of parts that are one. -/
def of? (date : Date) (hour minute second nanos : Nat) (offset : Int) : Option Timestamp :=
  if h : IsTime date hour minute second nanos offset then
    some ⟨date, hour, minute, second, nanos, offset, h⟩
  else none

/-- The local minute of the day. -/
def minuteOfDay (t : Timestamp) : Nat := t.hour * 60 + t.minute

/-- The date in UTC. -/
def utcDate (t : Timestamp) : Date :=
  (utcDate? t.date t.minuteOfDay t.offset).get t.isTime.2.2.2.2.2.2

/-- The minute of the day in UTC. -/
def utcMinute (t : Timestamp) : Nat := ((t.minuteOfDay - t.offset) % 1440).toNat

/-- A point in UTC. -/
def ofUtc (date : Date) (minute second nanos : Nat) (hm : minute < 1440) (hs : second ≤ 60)
    (hn : nanos < 1000000000) : Timestamp :=
  ⟨date, minute / 60, minute % 60, second, nanos, 0, by
    refine ⟨by omega, by omega, hs, hn, by omega, by omega, ?_⟩
    rw [utcDate?, if_neg (by omega), if_pos (by omega)]
    rfl⟩

/-- The same point in UTC. -/
def utc (t : Timestamp) : Timestamp :=
  ofUtc t.utcDate t.utcMinute t.second t.nanos (by unfold utcMinute; omega) t.isTime.2.2.1
    t.isTime.2.2.2.1

/-- A number that grows with the point in time, leap seconds included. -/
def key (t : Timestamp) : Int :=
  ((t.utcDate.key * 1440 + t.utcMinute) * 61 + t.second) * 1000000000 + t.nanos

instance : LE Timestamp := ⟨fun a b => a.key ≤ b.key⟩
instance : LT Timestamp := ⟨fun a b => a.key < b.key⟩
instance (a b : Timestamp) : Decidable (a ≤ b) := inferInstanceAs (Decidable (a.key ≤ b.key))
instance (a b : Timestamp) : Decidable (a < b) := inferInstanceAs (Decidable (a.key < b.key))

/-- A date some days later, or the last date. -/
def laterDate : Nat → Date → Date
  | 0, d => d
  | days + 1, d =>
    match d.next? with
    | some next => laterDate days next
    | none => d

/-- The point in UTC some seconds later; after a leap second the next minute starts. -/
def later (seconds : Nat) (t : Timestamp) : Timestamp :=
  let total := t.utcMinute * 60 + t.second + seconds
  ofUtc (laterDate (total / 86400) t.utcDate) (total % 86400 / 60) (total % 60) t.nanos
    (by omega) (by omega) t.isTime.2.2.2.1

/-! ### Writing -/

/-- Hour, minute and second with colons. -/
def clock (t : Timestamp) : List Char :=
  Digits.fixed 10 2 t.hour ++ ':' :: Digits.fixed 10 2 t.minute ++ ':' :: Digits.fixed 10 2 t.second

/-- No fraction, or the fewest of three, six and nine digits that are exact. -/
def fraction (nanos : Nat) : List Char :=
  if nanos = 0 then []
  else if nanos % 1000000 = 0 then '.' :: Digits.fixed 10 3 (nanos / 1000000)
  else if nanos % 1000 = 0 then '.' :: Digits.fixed 10 6 (nanos / 1000)
  else '.' :: Digits.fixed 10 9 nanos

/-- The sign, hours and minutes of a distance from UTC. -/
def offsetText (offset : Int) : List Char :=
  (if offset < 0 then '-' else '+') :: Digits.fixed 10 2 (offset.natAbs / 60) ++
    ':' :: Digits.fixed 10 2 (offset.natAbs % 60)

/-- Date and time with `T` between them, and the fraction. -/
def localText (t : Timestamp) : List Char :=
  t.date.chars ++ 'T' :: t.clock ++ fraction t.nanos

/-- The written form: no distance from UTC is a `Z`. -/
def chars (t : Timestamp) : List Char :=
  t.localText ++ (if t.offset = 0 then ['Z'] else offsetText t.offset)

/-- The written form as a text. -/
def toText (t : Timestamp) : String := String.ofList t.chars

/-- The form kept in the store: the distance from UTC is always written out. -/
def columnText (t : Timestamp) : List Char := t.localText ++ offsetText t.offset

/-- The form shown in reports: local date and time to the second. -/
def sheetText (t : Timestamp) : String :=
  String.ofList (t.date.chars ++ ' ' :: t.clock)

/-- The form used in file names: UTC without separators, cut to milliseconds. -/
def fileText (t : Timestamp) : List Char :=
  let u := t.utc
  Date.yearText u.date.year ++ Digits.fixed 10 2 u.date.month ++ Digits.fixed 10 2 u.date.day ++
    'T' :: Digits.fixed 10 2 u.hour ++ Digits.fixed 10 2 u.minute ++ Digits.fixed 10 2 u.second ++
    '.' :: Digits.fixed 10 3 (u.nanos / 1000000) ++ ['Z']

/-! ### Reading -/

open Calendar

/-- A fraction of a second in nanoseconds; digits after the ninth are dropped. -/
def readFraction : Step Nat
  | '.' :: text => do
    let (digits, rest) ← readDigits 9 text
    return (Digits.value 10 digits * Nat.pow 10 (9 - digits.length), (Digits.takeDecimal rest).2)
  | text => .ok (0, text)

/-- Two digits, the first of which is at most `high`. -/
def readPair (high : Nat) : Step Nat
  | [] => .error .premature
  | [c] => .error (if c.utf8Size < 2 then .premature else .invalid)
  | c :: d :: rest =>
    match Digits.decimal? c, Digits.decimal? d with
    | some x, some y => if x ≤ high then .ok (x * 10 + y, rest) else .error .outOfRange
    | _, _ => .error .invalid

/-- Colons and blanks. -/
def skipColons (text : List Char) : List Char :=
  text.dropWhile fun c => c = ':' || Text.isBlank c

/-- Hours and minutes after the sign of a distance from UTC. -/
def readHoursMinutes : Step Nat := fun text => do
  let (hours, text) ← readPair 9 text
  let (minutes, text) ← readPair 5 (skipColons text)
  return (hours * 60 + minutes, text)

/-- A distance from UTC in minutes: `Z`, `UTC`, or a sign with hours and minutes. -/
def readOffset : Step Int := fun text =>
  match text with
  | [] => .error .premature
  | 'Z' :: rest | 'z' :: rest => .ok (0, rest)
  | '+' :: rest => do let (n, rest) ← readHoursMinutes rest; return ((n : Int), rest)
  | '-' :: rest | '−' :: rest => do let (n, rest) ← readHoursMinutes rest; return (-(n : Int), rest)
  | u :: t :: c :: rest =>
    if [u, t, c].map Char.toLower = ['u', 't', 'c'] then .ok (0, rest) else .error .invalid
  | _ => .error .invalid

/-- One of the characters between date and time. -/
def readBetween : Step Unit
  | 'T' :: rest | 't' :: rest | ' ' :: rest => .ok ((), rest)
  | [] => .error .premature
  | _ => .error .invalid

/-- Reads a point in time. -/
def read (text : String) : Except Fault Timestamp := do
  let ((year, month, day), text) ← Date.readParts text.toList
  let ((), text) ← readBetween text
  let (hour, text) ← readField 0 23 text
  let ((), text) ← readSeparator ':' text
  let (minute, text) ← readField 0 59 text
  let ((), text) ← readSeparator ':' text
  let (second, text) ← readField 0 60 text
  let (nanos, text) ← readFraction text
  let (offset, text) ← readOffset (Text.trimStart text)
  if Text.trimStart text ≠ [] then throw .trailing
  match Date.of? year month day with
  | none => throw .outOfRange
  | some date =>
    if -1440 < offset ∧ offset < 1440 then
      match of? date hour minute second nanos offset with
      | some t => return t
      | none => throw .impossible
    else throw .outOfRange

end Timestamp

/-! ### Leap seconds anywhere -/

/-- A point in time whose second may have up to two billion nanoseconds. -/
structure LongTimestamp where
  date : Date
  hour : Nat
  minute : Nat
  second : Nat
  nanos : Nat
  offset : Int
  isTime : IsTime date hour minute second (nanos % 1000000000) offset ∧ second < 60 ∧
    nanos < 2000000000
  deriving DecidableEq

namespace LongTimestamp

/-- What is written of a point in time: a second billion of nanoseconds is the next second. -/
def told (t : LongTimestamp) : Timestamp where
  date := t.date
  hour := t.hour
  minute := t.minute
  second := t.second + t.nanos / 1000000000
  nanos := t.nanos % 1000000000
  offset := t.offset
  isTime := by
    obtain ⟨⟨hhour, hminute, -, hrest⟩, hsecond, hnanos⟩ := t.isTime
    exact ⟨hhour, hminute, by omega, hrest⟩

/-- The written form as a text. -/
def toText (t : LongTimestamp) : String := t.told.toText

/-- Whether the second is no leap second, or is the last one of its minute. -/
def IsPlain (t : LongTimestamp) : Prop := t.nanos < 1000000000 ∨ t.second = 59

instance (t : LongTimestamp) : Decidable t.IsPlain := inferInstanceAs (Decidable (_ ∨ _))

end LongTimestamp

/-- A point in time, with a second of 60 as the second billion of nanoseconds of the one before. -/
def Timestamp.long (t : Timestamp) : LongTimestamp where
  date := t.date
  hour := t.hour
  minute := t.minute
  second := t.second - t.second / 60
  nanos := t.nanos + t.second / 60 * 1000000000
  offset := t.offset
  isTime := by
    obtain ⟨hhour, hminute, hsecond, hnanos, hrest⟩ := t.isTime
    refine ⟨⟨hhour, hminute, by omega, by omega, hrest⟩, by omega, by omega⟩

end CropLedger
