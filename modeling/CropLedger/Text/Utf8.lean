/-!
# UTF-8

Bytes and the characters they spell. Reading never fails: a byte that belongs to no character is
a symbol of its own, so a reader can go past it and say what is wrong where it matters.

* `symbols`: the reading of any bytes;
* `decode?`: the text of bytes that are all characters.
-/

namespace CropLedger

/-- A sequence of bytes. -/
abbrev Bytes := List UInt8

namespace Utf8

/-- A character, or a byte that belongs to none. -/
abbrev Symbol := Option Char

/-- The six bits that a continuation byte carries. -/
def continuation? (b : UInt8) : Option Nat :=
  if 0x80 ≤ b.toNat ∧ b.toNat < 0xC0 then some (b.toNat - 0x80) else none

/-- The character of a code that is at least `low`: a longer form than needed spells nothing. -/
def charAbove? (low code : Nat) : Option Char :=
  if h : low ≤ code ∧ code.isValidChar then some ⟨code.toUInt32, by
    have := h.2
    simp only [UInt32.isValidChar, Nat.toUInt32_eq, UInt32.toNat_ofNat']
    rw [Nat.mod_eq_of_lt (by rcases this with h | h <;> omega)]
    exact this⟩ else none

/-- The character that starts a sequence of bytes, and the number of its bytes. -/
def first? : Bytes → Option (Char × Nat)
  | [] => none
  | a :: rest =>
    let a := a.toNat
    if a < 0x80 then (charAbove? 0 a).map (·, 1)
    else if a < 0xC0 then none
    else if a < 0xE0 then
      match rest with
      | b :: _ => do
        let x ← continuation? b
        return (← charAbove? 0x80 ((a - 0xC0) * 64 + x), 2)
      | _ => none
    else if a < 0xF0 then
      match rest with
      | b :: c :: _ => do
        let x ← continuation? b
        let y ← continuation? c
        return (← charAbove? 0x800 (((a - 0xE0) * 64 + x) * 64 + y), 3)
      | _ => none
    else if a < 0xF8 then
      match rest with
      | b :: c :: d :: _ => do
        let x ← continuation? b
        let y ← continuation? c
        let z ← continuation? d
        return (← charAbove? 0x10000 ((((a - 0xF0) * 64 + x) * 64 + y) * 64 + z), 4)
      | _ => none
    else none

/-- Reads on after skipping the bytes of a character already read. -/
def symbolsAfter : Nat → Bytes → List Symbol
  | _, [] => []
  | skip + 1, _ :: rest => symbolsAfter skip rest
  | 0, a :: rest =>
    match first? (a :: rest) with
    | some (c, size) => some c :: symbolsAfter (size - 1) rest
    | none => none :: symbolsAfter 0 rest

/-- The symbols of a sequence of bytes, from the left. -/
def symbols (bytes : Bytes) : List Symbol := symbolsAfter 0 bytes

/-- The number of bytes of a symbol. -/
def Symbol.size : Symbol → Nat
  | some c => c.utf8Size
  | none => 1

/-- The number of bytes of symbols. -/
def size : List Symbol → Nat
  | [] => 0
  | s :: rest => s.size + size rest

/-- The characters, if every symbol is one. -/
def text? : List Symbol → Option (List Char)
  | [] => some []
  | some c :: rest => (text? rest).map (c :: ·)
  | none :: _ => none

/-- The text that bytes spell, if they spell one. -/
def decode? (bytes : Bytes) : Option String := (text? (symbols bytes)).map String.ofList

/-- The bytes of a character. -/
def encodeChar (c : Char) : Bytes :=
  let n := c.toNat
  if n < 0x80 then [n.toUInt8]
  else if n < 0x800 then [(0xC0 + n / 64).toUInt8, (0x80 + n % 64).toUInt8]
  else if n < 0x10000 then
    [(0xE0 + n / 4096).toUInt8, (0x80 + n / 64 % 64).toUInt8, (0x80 + n % 64).toUInt8]
  else
    [(0xF0 + n / 262144).toUInt8, (0x80 + n / 4096 % 64).toUInt8, (0x80 + n / 64 % 64).toUInt8,
      (0x80 + n % 64).toUInt8]

/-- The bytes of a text. -/
def encode (text : String) : Bytes := text.toList.flatMap encodeChar

theorem text?_map_some (cs : List Char) : text? (cs.map some) = some cs := by
  induction cs with
  | nil => rfl
  | cons c cs ih => simp [text?, ih]

end Utf8

end CropLedger
