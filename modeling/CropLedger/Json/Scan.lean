import CropLedger.Json.Numeral
import CropLedger.Text.Utf8

/-!
# Json texts as they are read

A Json text is read into a tree as far as it goes. Where the text stops being Json the tree holds
the stop, so a reader that walks the tree from left to right meets faults in the order in which
they stand in the text, and what it never looks at does no harm.

* `Scan.ofBytes`: the tree of a sequence of bytes;
* `RawText.read`: the text between two quotes;
* `Scan.skip`, `Scan.buffer`: the fault of a value that is passed over, or kept for later.
-/

namespace CropLedger.Json

open Utf8 (Symbol)

/-- Why a text stops being Json: by what stands there, or by ending. -/
inductive Stop
  | malformed
  | truncated
  deriving DecidableEq

/-- A piece of a text between quotes: a character, half of a character outside the first plane, or
a byte that belongs to no character. -/
inductive Piece
  | char (c : Char)
  | surrogate (code : Nat)
  | stray
  deriving DecidableEq

/-- The pieces between two quotes, up to where the text stops being Json. -/
structure RawText where
  pieces : List Piece
  stop : Option Stop
  deriving DecidableEq

/-- The tree of a Json text. A numeral that the text ends inside of is cut. -/
inductive Scan
  | null
  | boolean (value : Bool)
  | number (numeral : Numeral)
  | text (content : RawText)
  | array (items : List Scan) (stop : Option Stop)
  | object (members : List (RawText × Scan)) (stop : Option Stop)
  | cutNumeral
  | broken (stop : Stop)

/-! ### Texts between quotes -/

namespace RawText

/-- The character of a leading and a trailing half. -/
def joined (lead trail : Nat) : Char :=
  Char.ofNat (0x10000 + (lead - 0xD800) * 0x400 + (trail - 0xDC00))

/-- The characters of the pieces. Halves have to come in pairs; a stray byte is found at the
closing quote. -/
def chars (stop : Option Stop) : List Piece → Except Stop (List Char)
  | [] =>
    match stop with
    | some s => .error s
    | none => .ok []
  | .char c :: rest => (chars stop rest).map (c :: ·)
  | .stray :: rest => (chars stop rest).bind fun _ => .error .malformed
  | .surrogate lead :: rest =>
    if 0xDC00 ≤ lead then .error .malformed
    else match rest with
      | [] => .error (stop.getD .malformed)
      | .surrogate trail :: rest =>
        if 0xDC00 ≤ trail then (chars stop rest).map (joined lead trail :: ·) else .error .malformed
      | _ => .error .malformed

/-- The text, or where it breaks. -/
def read (t : RawText) : Except Stop String := (chars t.stop t.pieces).map String.ofList

end RawText

/-! ### Scanning -/

namespace Scan

/-- Json's blanks. -/
def isBlank (s : Symbol) : Bool :=
  s = some ' ' || s = some '\n' || s = some '\t' || s = some '\r'

/-- What follows the blanks at the front. -/
def skipBlanks (input : List Symbol) : List Symbol := input.dropWhile isBlank

/-- The decimal digits at the front, and what follows them. -/
def takeDigits : List Symbol → List Nat × List Symbol
  | [] => ([], [])
  | s :: rest =>
    match s.bind Digits.decimal? with
    | some d => let (ds, after) := takeDigits rest; (d :: ds, after)
    | none => ([], s :: rest)

/-- Digits have to stand here: a numeral cut by the end of the text, or broken. -/
def noDigits (rest : List Symbol) : Scan :=
  if rest.isEmpty then .cutNumeral else .broken .malformed

/-- The exponent of a numeral, if one is marked. -/
def scanExponent (input : List Symbol) : Except Scan (Option Int × List Symbol) :=
  match input with
  | some 'e' :: rest | some 'E' :: rest =>
    let (negative, rest) : Bool × List Symbol := match rest with
      | some '-' :: rest => (true, rest)
      | some '+' :: rest => (false, rest)
      | rest => (false, rest)
    match takeDigits rest with
    | ([], rest) => .error (noDigits rest)
    | (digits, rest) =>
      let n : Int := Digits.value 10 digits
      .ok (some (if negative then -n else n), rest)
  | _ => .ok (none, input)

/-- The digits after the point of a numeral, if it has one. -/
def scanFraction (input : List Symbol) : Except Scan (List Nat × List Symbol) :=
  match input with
  | some '.' :: rest =>
    match takeDigits rest with
    | ([], rest) => .error (noDigits rest)
    | (digits, rest) => .ok (digits, rest)
  | _ => .ok ([], input)

/-- A numeral after its sign: no digits may follow a zero at its front. -/
def scanUnsigned (negative : Bool) (input : List Symbol) : Except Scan (Numeral × List Symbol) :=
  match takeDigits input with
  | ([], rest) => .error (noDigits rest)
  | (whole, rest) => do
    if whole.head? = some 0 ∧ 1 < whole.length then throw (.broken .malformed)
    let (fraction, rest) ← scanFraction rest
    let (exponent, rest) ← scanExponent rest
    return (⟨negative, whole, fraction, exponent⟩, rest)

/-- A tree, and the text after it unless the tree holds a stop. -/
abbrev Result := Scan × Option (List Symbol)

/-- A numeral. -/
def scanNumeral (input : List Symbol) : Result :=
  let read := match input with
    | some '-' :: rest => scanUnsigned true rest
    | input => scanUnsigned false input
  match read with
  | .ok (numeral, rest) => (.number numeral, some rest)
  | .error stopped => (stopped, none)

/-- A fixed word. -/
def scanWord (value : Scan) : List Char → List Symbol → Result
  | [], rest => (value, some rest)
  | _ :: _, [] => (.broken .truncated, none)
  | c :: word, s :: rest =>
    if s = some c then scanWord value word rest else (.broken .malformed, none)

/-- The character that an escape of one letter stands for. -/
def shortEscape? : Char → Option Char
  | '"' => some '"'
  | '\\' => some '\\'
  | '/' => some '/'
  | 'b' => some (Char.ofNat 8)
  | 'f' => some (Char.ofNat 12)
  | 'n' => some '\n'
  | 'r' => some '\r'
  | 't' => some '\t'
  | _ => none

/-- The four hexadecimal digits of an escape. Four bytes have to be there to be looked at. -/
def scanHex (input : List Symbol) : Except Stop (Nat × List Symbol) :=
  if Utf8.size (input.take 4) < 4 then .error .truncated
  else match input with
    | some a :: some b :: some c :: some d :: rest =>
      match Digits.hex? a, Digits.hex? b, Digits.hex? c, Digits.hex? d with
      | some a, some b, some c, some d => .ok (Digits.value 16 [a, b, c, d], rest)
      | _, _, _, _ => .error .malformed
    | _ => .error .malformed

/-- The piece that a code of four digits stands for. -/
def pieceOfCode (code : Nat) : Piece :=
  if 0xD800 ≤ code ∧ code < 0xE000 then .surrogate code else .char (Char.ofNat code)

/-- Pieces up to a quote, after the pieces read so far in reverse. -/
def scanPieces : Nat → List Piece → List Symbol → RawText × List Symbol
  | 0, seen, rest => (⟨seen.reverse, some .malformed⟩, rest)
  | _, seen, [] => (⟨seen.reverse, some .truncated⟩, [])
  | _, seen, some '"' :: rest => (⟨seen.reverse, none⟩, rest)
  | _, seen, [some '\\'] => (⟨seen.reverse, some .truncated⟩, [])
  | fuel + 1, seen, some '\\' :: some 'u' :: rest =>
    match scanHex rest with
    | .ok (code, rest) => scanPieces fuel (pieceOfCode code :: seen) rest
    | .error stop => (⟨seen.reverse, some stop⟩, rest)
  | fuel + 1, seen, some '\\' :: s :: rest =>
    match s.bind shortEscape? with
    | some c => scanPieces fuel (.char c :: seen) rest
    | none => (⟨seen.reverse, some .malformed⟩, rest)
  | fuel + 1, seen, some c :: rest =>
    if c.toNat < 32 then (⟨seen.reverse, some .malformed⟩, rest)
    else scanPieces fuel (.char c :: seen) rest
  | fuel + 1, seen, none :: rest => scanPieces fuel (.stray :: seen) rest

/-- A text after its opening quote. -/
def scanText (input : List Symbol) : RawText × List Symbol := scanPieces (input.length + 1) [] input

/-- Items, how the array ends, and what follows it unless it holds a stop. -/
abbrev Items := List Scan × Option Stop × Option (List Symbol)

/-- Members, how the object ends, and what follows it unless it holds a stop. -/
abbrev Members := List (RawText × Scan) × Option Stop × Option (List Symbol)

mutual

/-- The value at the front of a text. -/
def scanValue : Nat → List Symbol → Result
  | 0, _ => (.broken .malformed, none)
  | fuel + 1, input =>
    match skipBlanks input with
    | [] => (.broken .truncated, none)
    | some 'n' :: rest => scanWord .null ['u', 'l', 'l'] rest
    | some 't' :: rest => scanWord (.boolean true) ['r', 'u', 'e'] rest
    | some 'f' :: rest => scanWord (.boolean false) ['a', 'l', 's', 'e'] rest
    | some '"' :: rest =>
      let (content, rest) := scanText rest
      (.text content, if content.stop.isSome then none else some rest)
    | some '[' :: rest =>
      let (items, stop, rest) := scanItems fuel rest
      (.array items stop, rest)
    | some '\x7b' :: rest =>
      let (members, stop, rest) := scanMembers fuel rest
      (.object members stop, rest)
    | some c :: rest =>
      if c = '-' ∨ (Digits.decimal? c).isSome then scanNumeral (some c :: rest)
      else (.broken .malformed, none)
    | none :: _ => (.broken .malformed, none)

/-- Items after an opening bracket. -/
def scanItems : Nat → List Symbol → Items
  | 0, _ => ([], some .malformed, none)
  | fuel + 1, input =>
    match skipBlanks input with
    | [] => ([], some .truncated, none)
    | some ']' :: rest => ([], none, some rest)
    | input => scanItem fuel input

/-- An item and the ones after it. -/
def scanItem : Nat → List Symbol → Items
  | 0, _ => ([], some .malformed, none)
  | fuel + 1, input =>
    match scanValue fuel input with
    | (item, none) => ([item], some .malformed, none)
    | (item, some rest) =>
      let (items, stop, rest) := scanMoreItems fuel rest
      (item :: items, stop, rest)

/-- Items after an item. -/
def scanMoreItems : Nat → List Symbol → Items
  | 0, _ => ([], some .malformed, none)
  | fuel + 1, input =>
    match skipBlanks input with
    | [] => ([], some .truncated, none)
    | some ']' :: rest => ([], none, some rest)
    | some ',' :: rest =>
      match skipBlanks rest with
      | some ']' :: _ => ([], some .malformed, none)
      | rest => scanItem fuel rest
    | _ => ([], some .malformed, none)

/-- Members after an opening brace. -/
def scanMembers : Nat → List Symbol → Members
  | 0, _ => ([], some .malformed, none)
  | fuel + 1, input =>
    match skipBlanks input with
    | [] => ([], some .truncated, none)
    | some '\x7d' :: rest => ([], none, some rest)
    | input => scanMember fuel input

/-- A member and the ones after it. -/
def scanMember : Nat → List Symbol → Members
  | 0, _ => ([], some .malformed, none)
  | fuel + 1, input =>
    match input with
    | [] => ([], some .truncated, none)
    | some '"' :: rest =>
      let (key, rest) := scanText rest
      if key.stop.isSome then ([(key, .null)], some .malformed, none)
      else match skipBlanks rest with
        | [] => ([(key, .broken .truncated)], some .malformed, none)
        | some ':' :: rest =>
          match scanValue fuel rest with
          | (value, none) => ([(key, value)], some .malformed, none)
          | (value, some rest) =>
            let (members, stop, rest) := scanMoreMembers fuel rest
            ((key, value) :: members, stop, rest)
        | _ => ([(key, .broken .malformed)], some .malformed, none)
    | _ => ([], some .malformed, none)

/-- Members after a member. -/
def scanMoreMembers : Nat → List Symbol → Members
  | 0, _ => ([], some .malformed, none)
  | fuel + 1, input =>
    match skipBlanks input with
    | [] => ([], some .truncated, none)
    | some '\x7d' :: rest => ([], none, some rest)
    | some ',' :: rest => scanMember fuel (skipBlanks rest)
    | _ => ([], some .malformed, none)

end

/-- The tree of a text, and whether anything but blanks follows it. -/
def ofSymbols (input : List Symbol) : Scan × Bool :=
  match scanValue (3 * input.length + 3) input with
  | (value, some rest) => (value, !(skipBlanks rest).isEmpty)
  | (value, none) => (value, false)

/-- The tree of a sequence of bytes, and whether anything but blanks follows it. -/
def ofBytes (bytes : Bytes) : Scan × Bool := ofSymbols (Utf8.symbols bytes)

/-! ### Values that are not looked at -/

/-- The end of a container or of a text between quotes. -/
def stopped : Option Stop → Except Stop Unit
  | some stop => .error stop
  | none => .ok ()

mutual

/-- The fault of a value that is passed over: only the shape of its text matters. -/
def skip : Scan → Except Stop Unit
  | .broken stop => .error stop
  | .cutNumeral => .error .malformed
  | .text content => stopped content.stop
  | .array items stop => skipItems stop items
  | .object members stop => skipMembers stop members
  | _ => .ok ()

/-- The fault of items that are passed over. -/
def skipItems (stop : Option Stop) : List Scan → Except Stop Unit
  | [] => stopped stop
  | item :: items => do skip item; skipItems stop items

/-- The fault of members that are passed over. -/
def skipMembers (stop : Option Stop) : List (RawText × Scan) → Except Stop Unit
  | [] => stopped stop
  | (key, value) :: members => do stopped key.stop; skip value; skipMembers stop members

end

mutual

/-- The fault of a value that is kept for later: its numbers and texts are read, and `depth` is
one more than the containers it may nest. -/
def buffer (depth : Nat) : Scan → Except Stop Unit
  | .broken stop => .error stop
  | .cutNumeral => .error .truncated
  | .number numeral => if numeral.value?.isSome then .ok () else .error .malformed
  | .text content => do let _ ← content.read
  | .array items stop =>
    if depth ≤ 1 then .error .malformed else bufferItems (depth - 1) stop items
  | .object members stop =>
    if depth ≤ 1 then .error .malformed else bufferMembers (depth - 1) stop members
  | _ => .ok ()

/-- The fault of items that are kept for later. -/
def bufferItems (depth : Nat) (stop : Option Stop) : List Scan → Except Stop Unit
  | [] => stopped stop
  | item :: items => do buffer depth item; bufferItems depth stop items

/-- The fault of members that are kept for later. -/
def bufferMembers (depth : Nat) (stop : Option Stop) : List (RawText × Scan) → Except Stop Unit
  | [] => stopped stop
  | (key, value) :: members => do
    let _ ← key.read
    buffer depth value
    bufferMembers depth stop members

end

end Scan

end CropLedger.Json
