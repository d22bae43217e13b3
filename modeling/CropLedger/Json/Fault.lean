import CropLedger.Binary64.Shortest
import CropLedger.Calendar.Fault
import CropLedger.Json.Scan
import CropLedger.Text.Quoted
import CropLedger.Uuid

/-!
# Why a Json text is refused

A text is refused because it is no Json, because it ends early, or because a value does not fit
the record it is read as. A misfit has a cause and the place where it was found; the wording of
causes is in one place.

* `Mismatch.message`: the wording of a misfit;
* `Fault.inside`: the place of a fault, from the outside in.
-/

namespace CropLedger.Json

/-- What a reader wanted. -/
inductive Wanted
  | text
  | unsigned
  | signed
  | boolean
  | sequence
  | identifier
  | date
  | timestamp
  | decimal
  | record (name : String)
  | tagged (name : String)
  | variant
  | variantIndex (count : Nat)

/-- What a wanted value is called. -/
def Wanted.name : Wanted → String
  | .text => "a string"
  | .unsigned => "u64"
  | .signed => "i64"
  | .boolean => "a boolean"
  | .sequence => "a sequence"
  | .identifier => "a formatted UUID string"
  | .date => "a formatted date string"
  | .timestamp => "an RFC 3339 formatted date and time string"
  | .decimal => "a Decimal type representing a fixed-point number"
  | .record name => "struct " ++ name
  | .tagged name => "internally tagged enum " ++ name
  | .variant => "variant identifier"
  | .variantIndex count => s!"variant index 0 <= i < {count}"

/-- What a reader found. -/
inductive Found
  | null
  | boolean (value : Bool)
  | integer (value : Int)
  | real (negative : Bool) (magnitude : Binary64)
  | text (value : String)
  | sequence
  | map

/-- What a found value is called. -/
def Found.name : Found → String
  | .null => "null"
  | .boolean value => s!"boolean `{value}`"
  | .integer value => s!"integer `{value}`"
  | .real negative magnitude =>
    "floating point `" ++ (if negative then "-" else "") ++
      String.ofList magnitude.scientific ++ "`"
  | .text value => "string " ++ Text.quoted value
  | .sequence => "sequence"
  | .map => "map"

/-- Why a value does not fit. -/
inductive Mismatch
  | wrongType (found : Found) (wanted : Wanted)
  | wrongValue (found : Found) (wanted : Wanted)
  | missing (field : String)
  | duplicate (field : String)
  | tooShort (length : Nat) (of : String) (fields : Nat)
  | tooLong (length fields : Nat)
  | unknownVariant (found : String) (known : List String)
  | identifier (fault : Uuid.Fault)
  | calendar (fault : Calendar.Fault)

/-- A number of elements in words. -/
def elements (n : Nat) : String := if n = 1 then "1 element" else s!"{n} elements"

/-- What a misfit is called in a message. -/
def Mismatch.message : Mismatch → String
  | .wrongType found wanted => s!"invalid type: {found.name}, expected {wanted.name}"
  | .wrongValue found wanted => s!"invalid value: {found.name}, expected {wanted.name}"
  | .missing field => s!"missing field `{field}`"
  | .duplicate field => s!"duplicate field `{field}`"
  | .tooShort length of fields =>
    s!"invalid length {length}, expected {of} with {elements fields}"
  | .tooLong length fields =>
    s!"invalid length {length}, expected {elements fields} in sequence"
  | .unknownVariant found known =>
    s!"unknown variant `{found}`, expected " ++
      " or ".intercalate (known.map fun name => s!"`{name}`")
  | .identifier fault => fault.message
  | .calendar fault => fault.message

/-- A step from a value to one inside it. -/
inductive PathStep
  | field (name : String)
  | item (index : Nat)

/-- Why a text is refused. -/
inductive Fault
  | stopped (stop : Stop)
  | mismatch (path : List PathStep) (cause : Mismatch)

namespace Fault

/-- A misfit at the place where the reader stands. -/
def here (cause : Mismatch) : Fault := .mismatch [] cause

/-- A fault that was found one step further inside. -/
def inside (step : PathStep) : Fault → Fault
  | .mismatch path cause => .mismatch (step :: path) cause
  | fault => fault

/-- The place of a misfit, followed by a colon, if it is inside the value. -/
def place : List PathStep → String
  | [] => ""
  | .field name :: [] => name ++ ": "
  | .field name :: .item index :: path => name ++ place (.item index :: path)
  | .field name :: path => name ++ "." ++ place path
  | .item index :: [] => s!"[{index}]: "
  | .item index :: .item inner :: path => s!"[{index}]" ++ place (.item inner :: path)
  | .item index :: path => s!"[{index}]." ++ place path

end Fault

end CropLedger.Json
