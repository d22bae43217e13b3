import CropLedger.Calendar.Timestamp
import CropLedger.Decimal.Reader
import CropLedger.Json.Fault
import CropLedger.Json.Value

/-!
# Reading values from Json

A reader takes a tree and answers a value or the first fault. The readers of plain values are
here: texts, numbers, identifiers, dates, points in time and decimals, and what may be null, and
sequences of anything. Beside each stands how the value is written.
-/

namespace CropLedger.Json

/-- A way to read a value from a tree. -/
abbrev Reader (α : Type) := Scan → Except Fault α

/-- A fault of the text's shape. -/
def ofStop {α : Type} : Except Stop α → Except Fault α
  | .ok a => .ok a
  | .error stop => .error (.stopped stop)

namespace Scan

/-- What a tree shows at its root. -/
def found : Scan → Except Fault Found
  | .null => .ok .null
  | .boolean value => .ok (.boolean value)
  | .number numeral =>
    match numeral.value? with
    | some (.unsigned n) => .ok (.integer n)
    | some (.negative n) => .ok (.integer n)
    | some (.real negative x) => .ok (.real negative x)
    | none => .error (.stopped .malformed)
  | .text content => (ofStop content.read).map .text
  | .array _ _ => .ok .sequence
  | .object _ _ => .ok .map
  | .cutNumeral => .error (.stopped .truncated)
  | .broken stop => .error (.stopped stop)

/-- The tree is of the wrong type. -/
def wrongType {α : Type} (wanted : Wanted) (tree : Scan) : Except Fault α := do
  throw (.here (.wrongType (← tree.found) wanted))

/-- The tree is of a right type with a wrong value. -/
def wrongValue {α : Type} (wanted : Wanted) (tree : Scan) : Except Fault α := do
  throw (.here (.wrongValue (← tree.found) wanted))

end Scan

namespace Reader

/-! ### Plain values -/

/-- A text, read on. -/
def readText {α : Type} (wanted : Wanted) (read : String → Except Fault α) : Reader α
  | .text content => do read (← ofStop content.read)
  | tree => tree.wrongType wanted

/-- A text. -/
def text : Reader String := readText .text .ok

/-- A whole number of 64 bits without a sign. -/
def unsigned : Reader Nat
  | .number numeral =>
    match numeral.value? with
    | some (.unsigned n) => .ok n
    | some (.negative _) => (Scan.number numeral).wrongValue .unsigned
    | _ => (Scan.number numeral).wrongType .unsigned
  | tree => tree.wrongType .unsigned

/-- A whole number of 64 bits with a sign. -/
def signed : Reader Int
  | .number numeral =>
    match numeral.value? with
    | some (.unsigned n) =>
      if n < Nat.pow 2 63 then .ok n else (Scan.number numeral).wrongValue .signed
    | some (.negative n) => .ok n
    | _ => (Scan.number numeral).wrongType .signed
  | tree => tree.wrongType .signed

/-- A truth value. -/
def boolean : Reader Bool
  | .boolean value => .ok value
  | tree => tree.wrongType .boolean

/-- An identifier. -/
def identifier : Reader Uuid := readText .identifier fun s =>
  match Uuid.read s with
  | .ok id => .ok id
  | .error fault => .error (.here (.identifier fault))

/-- A date. -/
def date : Reader Date := readText .date fun s =>
  match Date.read s with
  | .ok date => .ok date
  | .error fault => .error (.here (.calendar fault))

/-- A point in time. -/
def timestamp : Reader Timestamp := readText .timestamp fun s =>
  match Timestamp.read s with
  | .ok time => .ok time
  | .error fault => .error (.here (.calendar fault))

/-- A decimal, from a text or a number. -/
def decimal : Reader Decimal := fun tree =>
  let fits (d : Option Decimal) : Except Fault Decimal :=
    match d with
    | some d => .ok d
    | none => tree.wrongValue .decimal
  match tree with
  | .text content => do fits (Decimal.read? (← ofStop content.read))
  | .number numeral =>
    match numeral.value? with
    | some (.unsigned n) => fits (Decimal.ofInt? n)
    | some (.negative n) => fits (Decimal.ofInt? n)
    | some (.real negative x) => fits (Decimal.ofReal? negative x)
    | none => tree.wrongType .decimal
  | tree => tree.wrongType .decimal

/-- A value that may be null. -/
def nullable {α : Type} (read : Reader α) : Reader (Option α)
  | .null => .ok none
  | tree => (read tree).map some

/-- The items of a sequence, each at its place. -/
def readItems {α : Type} (read : Reader α) (stop : Option Stop) :
    Nat → List Scan → Except Fault (List α)
  | _, [] =>
    match stop with
    | some stop => .error (.stopped stop)
    | none => .ok []
  | index, item :: items => do
    let a ← (read item).mapError (.inside (.item index))
    return a :: (← readItems read stop (index + 1) items)

/-- A sequence. -/
def sequence {α : Type} (read : Reader α) : Reader (List α)
  | .array items stop => readItems read stop 0 items
  | tree => tree.wrongType .sequence

/-- Reads a whole text: nothing but blanks may follow the value. -/
def decode {α : Type} (read : Reader α) (bytes : Bytes) : Except Fault α := do
  let (tree, more) := Scan.ofBytes bytes
  let a ← read tree
  if more then throw (.stopped .malformed) else return a

end Reader

/-! ### How they are written -/

instance : Coe String Json := ⟨.text⟩
instance : Coe Uuid Json := ⟨fun id => .text id.toText⟩
instance : Coe Date Json := ⟨fun date => .text date.toText⟩
instance : Coe Timestamp Json := ⟨fun time => .text time.toText⟩
instance : Coe LongTimestamp Json := ⟨fun time => .text time.toText⟩
instance : Coe Decimal Json := ⟨fun d => .text d.toText⟩
instance : Coe SignedDecimal Json := ⟨fun d => .text d.toText⟩
instance : Coe Nat Json := ⟨fun n => .number n⟩
instance : Coe Bool Json := ⟨.boolean⟩

end CropLedger.Json
