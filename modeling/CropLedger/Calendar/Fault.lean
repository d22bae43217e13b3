import CropLedger.Text.Blank
import CropLedger.Text.Digits

/-!
# Reading calendar texts

The steps from which dates and points in time are read: numbers of limited width, fixed
characters and blanks. A step answers what it read and the text after it, or why it stopped.
-/

namespace CropLedger.Calendar

/-- Why a text is not a date or a point in time. -/
inductive Fault
  | premature
  | invalid
  | outOfRange
  | trailing
  | impossible
  deriving DecidableEq

/-- What a fault is called in a message. -/
def Fault.message : Fault → String
  | .premature => "premature end of input"
  | .invalid => "input contains invalid characters"
  | .outOfRange => "input is out of range"
  | .trailing => "trailing input"
  | .impossible => "no possible date and time matching input"

/-- A step of a reader. -/
abbrev Step (α : Type) := List Char → Except Fault (α × List Char)

/-- At most `width` decimal digits from the front of a text, at least one. -/
def readDigits (width : Nat) (text : List Char) : Except Fault (List Nat × List Char) :=
  match Digits.takeDecimal (text.take width) with
  | ([], []) => .error .premature
  | ([], _) => .error .invalid
  | (digits, after) => .ok (digits, after ++ text.drop width)

/-- A number of at most `width` digits. -/
def readNumber (width : Nat) : Step Nat := fun text => do
  let (digits, rest) ← readDigits width text
  return (Digits.value 10 digits, rest)

/-- A fixed character. -/
def readChar (c : Char) : Step Unit
  | [] => .error .premature
  | d :: rest => if d = c then .ok ((), rest) else .error .invalid

/-- A number of one or two digits from `low` to `high`, after any blanks. -/
def readField (low high : Nat) : Step Nat := fun text => do
  let (n, rest) ← readNumber 2 (Text.trimStart text)
  if low ≤ n ∧ n ≤ high then return (n, rest) else throw .outOfRange

/-- A separator after any blanks. -/
def readSeparator (c : Char) : Step Unit := fun text => readChar c (Text.trimStart text)

end CropLedger.Calendar
