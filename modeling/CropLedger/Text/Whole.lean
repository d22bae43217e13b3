import CropLedger.Text.Digits

/-!
# Whole numbers of 64 bits

A whole number in a setting or an address: decimal digits, with an optional plus in front. The
first fault from the left counts.
-/

namespace CropLedger.Whole

/-- Why a text is not a whole number of 64 bits. -/
inductive Fault
  | empty
  | digit
  | tooLarge
  deriving DecidableEq

/-- What a fault is called in a message. -/
def Fault.message : Fault → String
  | .empty => "cannot parse integer from empty string"
  | .digit => "invalid digit found in string"
  | .tooLarge => "number too large to fit in target type"

/-- Reads digits after a number already read. -/
def readFrom : Nat → List Char → Except Fault Nat
  | seen, [] => .ok seen
  | seen, c :: rest =>
    match Digits.decimal? c with
    | none => .error .digit
    | some d =>
      if Nat.pow 2 64 ≤ seen * 10 + d then .error .tooLarge
      else readFrom (seen * 10 + d) rest

/-- Reads a whole number. -/
def read (text : String) : Except Fault Nat :=
  match text.toList with
  | [] => .error .empty
  | ['+'] => .error .digit
  | '+' :: digits => readFrom 0 digits
  | digits => readFrom 0 digits

end CropLedger.Whole
