import CropLedger.Text.Utf8

/-!
# The bytes of a text spell the text

* `Utf8.first?_encodeChar`: a character is read off the front of its bytes;
* `Utf8.symbols_encode`: the symbols of the bytes of a text are its characters;
* `Utf8.decode?_encode`: a text is decoded from its bytes.
-/

namespace CropLedger.Utf8

theorem toNat_toUInt8 {n : Nat} (h : n < 256) : n.toUInt8.toNat = n := by
  simp only [Nat.toUInt8_eq, UInt8.toNat_ofNat']
  exact Nat.mod_eq_of_lt h

theorem toNat_lt (c : Char) : c.toNat < 0x110000 := by
  have h : c.toNat < 0xD800 ∨ 0xDFFF < c.toNat ∧ c.toNat < 0x110000 := c.valid
  omega

theorem charAbove?_toNat {low : Nat} {c : Char} (h : low ≤ c.toNat) :
    charAbove? low c.toNat = some c := by
  have hv : c.toNat.isValidChar := c.valid
  rw [charAbove?, dif_pos ⟨h, hv⟩]
  congr 1
  apply Char.ext
  exact UInt32.ofNat_toNat

theorem continuation?_of_lt {x : Nat} (h : x < 64) : continuation? (0x80 + x).toUInt8 = some x := by
  rw [continuation?, toNat_toUInt8 (by omega), if_pos (by omega), Nat.add_sub_cancel_left]

/-! ### One character, by the number of its bytes -/

section Bytes

variable {a x y z : Nat} (rest : Bytes)

theorem first?_one (ha : a < 0x80) :
    first? (a.toUInt8 :: rest) = (charAbove? 0 a).map (·, 1) := by
  simp only [first?, toNat_toUInt8 (show a < 256 by omega), if_pos ha]

theorem first?_two (ha : a < 0x20) (hx : x < 64) :
    first? ((0xC0 + a).toUInt8 :: (0x80 + x).toUInt8 :: rest) =
      (charAbove? 0x80 (a * 64 + x)).map (·, 2) := by
  have hhead : (0xC0 + a).toUInt8.toNat = 0xC0 + a := toNat_toUInt8 (by omega)
  simp only [first?, hhead, if_neg (show ¬0xC0 + a < 0x80 by omega),
    if_neg (show ¬0xC0 + a < 0xC0 by omega), if_pos (show 0xC0 + a < 0xE0 by omega),
    continuation?_of_lt hx, Nat.add_sub_cancel_left]
  exact (Option.map_eq_bind ..).symm

theorem first?_three (ha : a < 0x10) (hx : x < 64) (hy : y < 64) :
    first? ((0xE0 + a).toUInt8 :: (0x80 + x).toUInt8 :: (0x80 + y).toUInt8 :: rest) =
      (charAbove? 0x800 ((a * 64 + x) * 64 + y)).map (·, 3) := by
  have hhead : (0xE0 + a).toUInt8.toNat = 0xE0 + a := toNat_toUInt8 (by omega)
  simp only [first?, hhead, if_neg (show ¬0xE0 + a < 0x80 by omega),
    if_neg (show ¬0xE0 + a < 0xC0 by omega), if_neg (show ¬0xE0 + a < 0xE0 by omega),
    if_pos (show 0xE0 + a < 0xF0 by omega), continuation?_of_lt hx, continuation?_of_lt hy,
    Nat.add_sub_cancel_left]
  exact (Option.map_eq_bind ..).symm

theorem first?_four (ha : a < 0x08) (hx : x < 64) (hy : y < 64) (hz : z < 64) :
    first? ((0xF0 + a).toUInt8 :: (0x80 + x).toUInt8 :: (0x80 + y).toUInt8 ::
        (0x80 + z).toUInt8 :: rest) =
      (charAbove? 0x10000 (((a * 64 + x) * 64 + y) * 64 + z)).map (·, 4) := by
  have hhead : (0xF0 + a).toUInt8.toNat = 0xF0 + a := toNat_toUInt8 (by omega)
  simp only [first?, hhead, if_neg (show ¬0xF0 + a < 0x80 by omega),
    if_neg (show ¬0xF0 + a < 0xC0 by omega), if_neg (show ¬0xF0 + a < 0xE0 by omega),
    if_neg (show ¬0xF0 + a < 0xF0 by omega), if_pos (show 0xF0 + a < 0xF8 by omega),
    continuation?_of_lt hx, continuation?_of_lt hy, continuation?_of_lt hz,
    Nat.add_sub_cancel_left]
  exact (Option.map_eq_bind ..).symm

end Bytes

/-- A character is read off the front of its bytes. -/
theorem first?_encodeChar (c : Char) (rest : Bytes) :
    first? (encodeChar c ++ rest) = some (c, (encodeChar c).length) := by
  have hc := toNat_lt c
  unfold encodeChar
  simp only
  split <;> rename_i h₁
  · refine (first?_one rest h₁).trans ?_
    rw [charAbove?_toNat (Nat.zero_le _)]
    rfl
  split <;> rename_i h₂
  · refine (first?_two rest (by omega) (by omega)).trans ?_
    rw [show c.toNat / 64 * 64 + c.toNat % 64 = c.toNat by omega, charAbove?_toNat (by omega)]
    rfl
  split <;> rename_i h₃
  · refine (first?_three rest (by omega) (by omega) (by omega)).trans ?_
    rw [show (c.toNat / 4096 * 64 + c.toNat / 64 % 64) * 64 + c.toNat % 64 = c.toNat by omega,
      charAbove?_toNat (by omega)]
    rfl
  · refine (first?_four rest (by omega) (by omega) (by omega) (by omega)).trans ?_
    rw [show ((c.toNat / 262144 * 64 + c.toNat / 4096 % 64) * 64 + c.toNat / 64 % 64) * 64 +
        c.toNat % 64 = c.toNat by omega, charAbove?_toNat (by omega)]
    rfl

theorem encodeChar_ne_nil (c : Char) : encodeChar c ≠ [] := by
  unfold encodeChar
  simp only
  (repeat' split) <;> exact List.cons_ne_nil _ _

/-! ### Whole texts -/

theorem symbolsAfter_append (skipped rest : Bytes) :
    symbolsAfter skipped.length (skipped ++ rest) = symbols rest := by
  induction skipped with
  | nil => rfl
  | cons b skipped ih => exact ih

theorem symbols_encodeChar_append (c : Char) (rest : Bytes) :
    symbols (encodeChar c ++ rest) = some c :: symbols rest := by
  have hf := first?_encodeChar c rest
  obtain ⟨b, tail, hb⟩ := List.exists_cons_of_ne_nil (encodeChar_ne_nil c)
  rw [hb, List.cons_append] at hf
  rw [hb, List.cons_append, symbols, symbolsAfter, hf]
  simp only [List.length_cons, Nat.add_sub_cancel]
  rw [symbolsAfter_append]

/-- **The bytes of a text spell its characters.** -/
theorem symbols_encode (text : String) : symbols (encode text) = text.toList.map some := by
  unfold encode
  induction text.toList with
  | nil => rfl
  | cons c cs ih =>
    rw [List.flatMap_cons, symbols_encodeChar_append, ih]
    rfl

theorem decode?_encode (text : String) : decode? (encode text) = some text := by
  rw [decode?, symbols_encode, text?_map_some]
  simp

theorem encode_injective {a b : String} (h : encode a = encode b) : a = b := by
  have hd := decode?_encode a
  rw [h, decode?_encode] at hd
  exact (Option.some.inj hd).symm

end CropLedger.Utf8
