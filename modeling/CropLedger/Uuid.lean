import CropLedger.Text.Digits

/-!
# Identifiers

The 128-bit identifiers of prices, harvests and what they belong to. They are written as 32
hexadecimal digits in groups of 8, 4, 4, 4 and 12; they are read in that form, in that form
between braces or after `urn:uuid:`, and without hyphens.

* `Uuid.length_chars`: the written form has 36 characters.
-/

namespace CropLedger

/-- A 128-bit identifier. -/
structure Uuid where
  bits : BitVec 128
  deriving DecidableEq

namespace Uuid

/-- The order of the bytes of two identifiers. -/
def before (a b : Uuid) : Bool := a.bits.toNat < b.bits.toNat

/-- The sizes of the groups between hyphens. -/
def groupSizes : List Nat := [8, 4, 4, 4, 12]

/-! ### Writing -/

/-- Digits in groups with hyphens between them. -/
def hyphenate : List Nat → List Char → List Char
  | [], _ => []
  | [_], digits => digits
  | size :: sizes, digits => digits.take size ++ '-' :: hyphenate sizes (digits.drop size)

/-- The written form. -/
def chars (id : Uuid) : List Char := hyphenate groupSizes (Digits.fixed 16 32 id.bits.toNat)

theorem length_chars (id : Uuid) : id.chars.length = 36 := by
  have h := Digits.length_fixed 16 32 id.bits.toNat
  simp only [chars, groupSizes, hyphenate, List.length_append, List.length_cons, List.length_take,
    List.length_drop, h]
  decide

/-- The written form as a text. -/
def toText (id : Uuid) : String := String.ofList id.chars

instance : ToString Uuid := ⟨toText⟩

/-! ### Reading -/

/-- Why a text is not an identifier. -/
inductive Fault
  | length (found : Nat)
  | character (found : Char) (index : Nat)
  | groupCount (found : Nat)
  | groupLength (group expected found : Nat)
  deriving DecidableEq

/-- What a fault is called in a message. -/
def Fault.message : Fault → String
  | .length found => s!"UUID parsing failed: invalid length: found {found}"
  | .character found index =>
    s!"UUID parsing failed: invalid character: found `{found}` at {index}"
  | .groupCount found => s!"UUID parsing failed: invalid group count: expected 5, found {found}"
  | .groupLength group expected found =>
    "UUID parsing failed: invalid group length in group " ++
      s!"{group}: expected {expected}, found {found}"

/-- The values of hexadecimal digits, if there is nothing else. -/
def hexes? : List Char → Option (List Nat)
  | [] => some []
  | c :: rest => do return (← Digits.hex? c) :: (← hexes? rest)

/-- The digits of a text in groups with hyphens between them. -/
def groups? : List Nat → List Char → Option (List Nat)
  | [], text => if text.isEmpty then some [] else none
  | [size], text => if text.length = size then hexes? text else none
  | size :: sizes, text =>
    match text.drop size with
    | '-' :: rest => do return (← hexes? (text.take size)) ++ (← groups? sizes rest)
    | _ => none

/-- Text with small letters of plain text in place of capitals. -/
def lowered (text : List Char) : List Char := text.map Char.toLower

/-- What stands inside braces or after `urn:uuid:`, where it starts, and whether there was such a
wrapping. -/
def unwrap (text : List Char) : List Char × Nat × Bool :=
  let urn := "urn:uuid:".toList
  if text.head? = some '\x7b' ∧ text.getLast? = some '\x7d' ∧ 2 ≤ text.length then
    ((text.drop 1).dropLast, 1, true)
  else if lowered (text.take urn.length) = urn then (text.drop urn.length, urn.length, true)
  else (text, 0, false)

/-- The number of bytes of a text. -/
def byteLength : List Char → Nat
  | [] => 0
  | c :: rest => c.utf8Size + byteLength rest

/-- The first character that is neither a digit nor a hyphen, with its place in bytes. -/
def stranger? : Nat → List Char → Option (Char × Nat)
  | _, [] => none
  | index, c :: rest =>
    if c = '-' ∨ (Digits.hex? c).isSome then stranger? (index + c.utf8Size) rest
    else some (c, index)

/-- The places of the hyphens. -/
def hyphens : Nat → List Char → List Nat
  | _, [] => []
  | index, c :: rest =>
    if c = '-' then index :: hyphens (index + c.utf8Size) rest
    else hyphens (index + c.utf8Size) rest

/-- The first group that ends at the wrong place, given where each group has to start, how long
it has to be, and the places of the hyphens. -/
def wrongGroup? (group start : Nat) : List Nat → List Nat → Option Fault
  | size :: sizes, hyphen :: rest =>
    if hyphen = start + size then wrongGroup? (group + 1) (start + size + 1) sizes rest
    else some (.groupLength group size (hyphen - start))
  | _, _ => none

/-- The fault of a text that is no identifier. -/
def fault (text : List Char) : Fault :=
  let (body, offset, wrapped) := unwrap text
  match stranger? offset body with
  | some (c, index) => .character c index
  | none =>
    let places := hyphens 0 body
    if places.isEmpty ∧ ¬wrapped then .length (byteLength text)
    else if places.length ≠ 4 then .groupCount (places.length + 1)
    else (wrongGroup? 0 0 groupSizes places).getD (.groupLength 4 12 (byteLength text - 24))

/-- The digits of a text that is an identifier. -/
def digits? (text : List Char) : Option (List Nat) :=
  (if text.length = 32 then hexes? text else none) <|> groups? groupSizes (unwrap text).1

/-- The identifier that hexadecimal digits stand for. -/
def ofDigits (ds : List Nat) : Uuid := ⟨BitVec.ofNat 128 (Digits.value 16 ds)⟩

/-- Reads an identifier. -/
def read (text : String) : Except Fault Uuid :=
  let size := byteLength text.toList
  if size = 0 ∨ 45 < size then .error (.length size)
  else match digits? text.toList with
    | some ds => .ok (ofDigits ds)
    | none => .error (fault text.toList)

end Uuid

end CropLedger
