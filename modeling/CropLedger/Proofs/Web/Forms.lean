import CropLedger.Proofs.Calendar.Written
import CropLedger.Proofs.Text.Split
import CropLedger.Proofs.Text.Utf8
import CropLedger.Web.Form

/-!
# Values in a query are read back

A value that is put into the query of an address as it is, is read as it was, unless it has one of
the characters that mean something else there: `&` and `=` part values, a percent sign starts an
escape, and `+` stands for a blank. The written form of a date has none of them but the sign of a
year after 9999; a blank is not taken for a sign, and no other form of a year has five digits.

* `Utf8.mem_of_byte_mem`: a byte of plain text belongs to the character that it is;
* `Form.component_encode`, `Form.component_encode_plus`: a value is read as it is, or with a blank in
  place of the `+` that it starts with;
* `Form.parse_pairs`: two named values are read from a query;
* `Form.range_parse_ofRange`: a range is read from the query that names its ends, unless a year has
  five digits.
-/

namespace CropLedger

/-! ### Bytes of plain text -/

namespace Utf8

theorem encode_append (a b : String) : encode (a ++ b) = encode a ++ encode b := by
  simp [encode]

/-- A byte of plain text belongs to the character that it is. -/
theorem mem_of_byte_mem {b : UInt8} (hb : b.toNat < 0x80) {text : String} (h : b ∈ encode text) :
    ∃ c ∈ text.toList, c.toNat = b.toNat := by
  obtain ⟨c, hc, hbyte⟩ := List.mem_flatMap.1 h
  refine ⟨c, hc, ?_⟩
  have hlt := toNat_lt c
  have hself {n : Nat} (hn : n < 256) (h : b = n.toUInt8) : b.toNat = n := by
    rw [h, toNat_toUInt8 hn]
  -- all bytes of longer forms are beyond plain text
  have hbeyond {n : Nat} (hn : n < 256) (hge : 0x80 ≤ n) (h : b = n.toUInt8) : False := by
    have := hself hn h
    omega
  unfold encodeChar at hbyte
  simp only at hbyte
  split at hbyte
  · exact (hself (by omega) (List.mem_singleton.1 hbyte)).symm
  split at hbyte
  · simp only [List.mem_cons, List.not_mem_nil, or_false] at hbyte
    rcases hbyte with h | h
    · exact (hbeyond (by omega) (by omega) h).elim
    · exact (hbeyond (by omega) (by omega) h).elim
  split at hbyte
  · simp only [List.mem_cons, List.not_mem_nil, or_false] at hbyte
    rcases hbyte with h | h | h
    · exact (hbeyond (by omega) (by omega) h).elim
    · exact (hbeyond (by omega) (by omega) h).elim
    · exact (hbeyond (by omega) (by omega) h).elim
  · simp only [List.mem_cons, List.not_mem_nil, or_false] at hbyte
    rcases hbyte with h | h | h | h
    · exact (hbeyond (by omega) (by omega) h).elim
    · exact (hbeyond (by omega) (by omega) h).elim
    · exact (hbeyond (by omega) (by omega) h).elim
    · exact (hbeyond (by omega) (by omega) h).elim

/-- A character of plain text that a text does not have is not among its bytes. -/
theorem byte_not_mem {c : Char} (hc : c.toNat < 0x80) {text : String} (h : c ∉ text.toList) :
    c.toNat.toUInt8 ∉ encode text := by
  have hbyte : c.toNat.toUInt8.toNat = c.toNat := toNat_toUInt8 (by omega)
  intro hm
  obtain ⟨d, hd, hn⟩ := mem_of_byte_mem (by omega) hm
  have hdc : d = c := Char.toNat_inj.1 (hn.trans hbyte)
  exact h (hdc ▸ hd)

end Utf8

/-! ### Dates -/

namespace Date

open Calendar Digits

/-- The written form without the sign of the year. -/
def unsigned (d : Date) : List Char :=
  padded 4 d.year.natAbs ++ '-' :: fixed 10 2 d.month ++ '-' :: fixed 10 2 d.day

theorem chars_of_late {d : Date} (h : 9999 < d.year) : d.chars = '+' :: d.unsigned := by
  rw [chars, yearText, if_neg (by omega), if_neg (by omega)]
  rfl

theorem mem_unsigned {d : Date} {c : Char} (h : c ∈ d.unsigned) :
    (∃ k < 10, c = char k) ∨ c = '-' := by
  have hfixed {n : Nat} (h : c ∈ fixed 10 2 n) : ∃ k < 10, c = char k := by
    rw [fixed_eq_map] at h
    obtain ⟨k, hk, rfl⟩ := List.mem_map.1 h
    exact ⟨k, lt_of_mem_fixedDigits (by decide) hk, rfl⟩
  simp only [unsigned, List.mem_append, List.mem_cons] at h
  rcases h with (h | rfl | h) | rfl | h
  · rw [padded_eq_map] at h
    obtain ⟨k, hk, rfl⟩ := List.mem_map.1 h
    exact .inl ⟨k, lt_of_mem_paddedDigits hk, rfl⟩
  · exact .inr rfl
  · exact .inl (hfixed h)
  · exact .inr rfl
  · exact .inl (hfixed h)

theorem not_mem_unsigned {c : Char} (hd : decimal? c = none) (hm : c ≠ '-') (d : Date) :
    c ∉ d.unsigned := by
  intro h
  rcases mem_unsigned h with ⟨k, hk, hck⟩ | hc
  · exact char_ne hk hd hck.symm
  · exact hm hc

/-- Only the sign of a year after 9999 is neither a digit nor a hyphen. -/
theorem not_mem_chars {c : Char} (hd : decimal? c = none) (hm : c ≠ '-') {d : Date}
    (hp : c ≠ '+' ∨ d.year ≤ 9999) : c ∉ d.chars := by
  have hrest := not_mem_unsigned hd hm d
  unfold chars yearText
  split
  · exact List.not_mem_cons_of_ne_of_not_mem hm hrest
  split
  · exact hrest
  · rename_i hlate
    exact List.not_mem_cons_of_ne_of_not_mem (hp.resolve_right hlate) hrest

/-! ### Years of five digits -/

theorem inRange_of_lt {year : Nat} (h : year < 10 ^ 4) (rest : List Char) :
    readYear.inRange year rest = .ok (year, rest) :=
  if_pos ⟨Int.le_trans (by decide) (Int.natCast_nonneg year),
    Int.lt_trans (Int.ofNat_lt.2 h) (by decide)⟩

/-- A year of five digits is read no further than four digits if it has no sign. -/
theorem readParts_unsigned {n : Nat} (h : 9999 < n) (rest : List Char) :
    readParts (' ' :: (padded 4 n ++ rest)) = .error .invalid := by
  have hlong : 4 < (paddedDigits 4 n).length := lt_length_paddedDigits (by omega)
  obtain ⟨d, ds, e, tail, hsplit, hlen⟩ : ∃ d ds e tail,
      paddedDigits 4 n = (d :: ds) ++ e :: tail ∧ (d :: ds).length = 4 := by
    match hdigits : paddedDigits 4 n, hlong with
    | a :: b :: c :: d :: e :: tail, _ => exact ⟨a, [b, c, d], e, tail, rfl, rfl⟩
  have hlt : ∀ x ∈ (d :: ds) ++ e :: tail, x < 10 := fun x hx =>
    lt_of_mem_paddedDigits (hsplit ▸ hx)
  have hfour : ∀ x ∈ d :: ds, x < 10 := fun x hx => hlt x (List.mem_append_left _ hx)
  have he : e < 10 := hlt e (List.mem_append_right _ List.mem_cons_self)
  have hvalue : value 10 (d :: ds) < 10 ^ 4 := hlen ▸ value_lt_pow_length hfour
  have htext : padded 4 n ++ rest = (d :: ds).map char ++ char e :: (tail.map char ++ rest) := by
    rw [padded_eq_map, hsplit, List.map_append, List.append_assoc,
      List.map_cons (f := char) (a := e), List.cons_append (a := char e)]
  have hyear : readYear (' ' :: (padded 4 n ++ rest)) =
      .ok ((value 10 (d :: ds) : Nat), char e :: (tail.map char ++ rest)) := by
    have hblank (text : List Char) : readYear (' ' :: text) = readYear text := rfl
    have hnum := @readNumber_append 4 (d :: ds) (char e :: (tail.map char ++ rest)) hfour
      (List.cons_ne_nil _ _) (Nat.le_of_eq hlen) (.inl hlen)
    rw [hblank, htext]
    rw [List.map_cons, List.cons_append] at hnum ⊢
    rw [readYear_digit (hfour d List.mem_cons_self) hnum, inRange_of_lt hvalue]
  rw [readParts]
  simp only [hyear, bind, Except.bind]
  rw [readSeparator, trimStart_cons (isBlank_char e he), readChar, if_neg (char_ne he rfl)]

/-- A date after the year 9999 is not read with a blank in the place of its sign. -/
theorem read_blank_unsigned {d : Date} (h : 9999 < d.year) :
    read (" " ++ String.ofList d.unsigned) = .error .invalid := by
  have htext : (" " ++ String.ofList d.unsigned).toList = ' ' :: (padded 4 d.year.natAbs ++
      ('-' :: fixed 10 2 d.month ++ '-' :: fixed 10 2 d.day)) := by
    simp only [String.toList_append, String.toList_ofList, unsigned, List.append_assoc]
    rfl
  rw [read, htext, readParts_unsigned (by omega)]
  rfl

end Date

namespace Web

/-! ### Escapes -/

/-- Where there is no percent sign, nothing is an escape. -/
theorem unescape_of_not_mem {bytes : Bytes} (h : 0x25 ∉ bytes) : unescape bytes = bytes := by
  induction bytes with
  | nil => rfl
  | cons b rest ih =>
    rw [List.mem_cons, not_or] at h
    have hb : b ≠ 0x25 := Ne.symm h.1
    rw [unescape, ih h.2]
    intro a a' rest' hbe
    exact absurd hbe hb

theorem unescapeText?_of_not_mem {part : String} (h : '%' ∉ part.toList) :
    unescapeText? part = some part := by
  rw [unescapeText?, unescape_of_not_mem (Utf8.byte_not_mem (by decide) h), Utf8.decode?_encode]

namespace Form

/-! ### Values -/

theorem shownText_encode (text : String) : shownText (Utf8.encode text) = text := by
  rw [shownText, Utf8.symbols_encode, List.map_map]
  have hid : (text.toList.map ((fun s => Option.getD s (Char.ofNat 0xFFFD)) ∘ some)) =
      text.toList := List.map_id' _
  rw [hid, String.ofList_toList]

theorem map_plus {text : String} (h : '+' ∉ text.toList) :
    (Utf8.encode text).map (fun b => if b = 0x2B then 0x20 else b) = Utf8.encode text := by
  have hne : ∀ b ∈ Utf8.encode text, b ≠ '+'.toNat.toUInt8 :=
    fun b hb he => Utf8.byte_not_mem (by decide) h (he ▸ hb)
  exact (List.map_congr_left fun b hb => if_neg (hne b hb)).trans (List.map_id' _)

/-- A text is read as it is, if it has neither an escape nor a blank written as `+`. -/
theorem component_encode {text : String} (hp : '+' ∉ text.toList) (he : '%' ∉ text.toList) :
    component (Utf8.encode text) = text := by
  rw [component, map_plus hp, unescape_of_not_mem (Utf8.byte_not_mem (by decide) he),
    shownText_encode]

/-- A text that starts with `+` is read as if it started with a blank. -/
theorem component_encode_plus {text : String} (hp : '+' ∉ text.toList) (he : '%' ∉ text.toList) :
    component (Utf8.encode ("+" ++ text)) = " " ++ text := by
  have hblank : (Utf8.encode ("+" ++ text)).map (fun b => if b = 0x2B then 0x20 else b) =
      Utf8.encode (" " ++ text) := by
    rw [Utf8.encode_append, Utf8.encode_append, List.map_append, map_plus hp]
    rfl
  have hescape : '%' ∉ (" " ++ text).toList := by
    rw [String.toList_append, List.mem_append, not_or]
    exact ⟨by decide, he⟩
  rw [component, hblank, unescape_of_not_mem (Utf8.byte_not_mem (by decide) hescape),
    shownText_encode]

/-! ### Named values -/

/-- A value is cut off its name at the first `=`. -/
theorem pair_encode {name value : String} (h : '=' ∉ name.toList) :
    pair (Utf8.encode (name ++ "=" ++ value)) =
      (component (Utf8.encode name), component (Utf8.encode value)) := by
  have hname : 0x3D ∉ Utf8.encode name := Utf8.byte_not_mem (by decide) h
  have hparts : Utf8.encode (name ++ "=" ++ value) =
      Utf8.encode name ++ 0x3D :: Utf8.encode value := by
    rw [Utf8.encode_append, Utf8.encode_append, List.append_assoc]
    rfl
  rw [pair, hparts, Text.takeWhile_append_separator hname, Text.dropWhile_append_separator hname]
  rfl

/-- Two named values are read from a query. -/
theorem parse_pairs {a b c d : String} (ha : '&' ∉ (a ++ "=" ++ b).toList)
    (hc : '&' ∉ (c ++ "=" ++ d).toList) :
    parse (a ++ "=" ++ b ++ "&" ++ (c ++ "=" ++ d)) =
      [pair (Utf8.encode (a ++ "=" ++ b)), pair (Utf8.encode (c ++ "=" ++ d))] := by
  have hfirst : 0x26 ∉ Utf8.encode (a ++ "=" ++ b) := Utf8.byte_not_mem (by decide) ha
  have hlast : 0x26 ∉ Utf8.encode (c ++ "=" ++ d) := Utf8.byte_not_mem (by decide) hc
  have hne (x y : String) : Utf8.encode (x ++ "=" ++ y) ≠ [] := by
    rw [Utf8.encode_append, Utf8.encode_append]
    simp [Utf8.encode, Utf8.encodeChar]
  have hparts : Utf8.encode (a ++ "=" ++ b ++ "&" ++ (c ++ "=" ++ d)) =
      Utf8.encode (a ++ "=" ++ b) ++ 0x26 :: Utf8.encode (c ++ "=" ++ d) := by
    rw [Utf8.encode_append, Utf8.encode_append (a ++ "=" ++ b), List.append_assoc]
    rfl
  rw [parse, hparts, Text.splitOn_append hfirst, Text.splitOn_of_not_mem hlast,
    List.filter_cons_of_pos (by simpa using hne a b),
    List.filter_cons_of_pos (by simpa using hne c d)]
  rfl

/-! ### Ranges -/

/-- The query that names the two ends of a range. -/
def ofRange (r : DateRange) : String := s!"start_date={r.first}&end_date={r.last}"

/-- A date is read back, unless its sign is taken for a blank. -/
theorem date_component (d : Date) : date (component (Utf8.encode d.toText)) =
    if d.year ≤ 9999 then .ok d else .error (.calendar .invalid) := by
  have hescape : '%' ∉ d.toText.toList := by
    rw [Date.toText, String.toList_ofList]
    exact Date.not_mem_chars rfl (by decide) (.inl (by decide))
  split
  · rename_i hyear
    have hplus : '+' ∉ d.toText.toList := by
      rw [Date.toText, String.toList_ofList]
      exact Date.not_mem_chars rfl (by decide) (.inr hyear)
    rw [component_encode hplus hescape, date, Date.read_toText]
    rfl
  · rename_i hlate
    have hlate : 9999 < d.year := by omega
    have htext : d.toText = "+" ++ String.ofList d.unsigned := by
      rw [Date.toText, Date.chars_of_late hlate, String.ofList_cons]
      rfl
    have hrest {c : Char} (hd : Digits.decimal? c = none) (hm : c ≠ '-') :
        c ∉ (String.ofList d.unsigned).toList := by
      rw [String.toList_ofList]
      exact Date.not_mem_unsigned hd hm d
    rw [htext, component_encode_plus (hrest rfl (by decide)) (hrest rfl (by decide)), date,
      Date.read_blank_unsigned hlate]
    rfl

theorem ofRange_eq (r : DateRange) : ofRange r = "start_date" ++ "=" ++ r.first.toText ++ "&" ++
    ("end_date" ++ "=" ++ r.last.toText) := by
  rw [← String.toList_inj]
  simp [ofRange, toString]

theorem not_mem_named {c : Char} (hd : Digits.decimal? c = none) (hm : c ≠ '-') (hp : c ≠ '+')
    {name : String} (hn : c ∉ (name ++ "=").toList) (d : Date) :
    c ∉ (name ++ "=" ++ d.toText).toList := by
  rw [String.toList_append, List.mem_append, not_or, Date.toText, String.toList_ofList]
  exact ⟨hn, Date.not_mem_chars hd hm (.inl hp)⟩

theorem parse_ofRange (r : DateRange) : parse (ofRange r) =
    [("start_date", component (Utf8.encode r.first.toText)),
      ("end_date", component (Utf8.encode r.last.toText))] := by
  rw [ofRange_eq,
    parse_pairs (not_mem_named rfl (by decide) (by decide) (by decide) _)
      (not_mem_named rfl (by decide) (by decide) (by decide) _),
    pair_encode (by decide), pair_encode (by decide), component_encode (by decide) (by decide),
    @component_encode "end_date" (by decide) (by decide)]

/-- The query of a range does not end an address. -/
theorem number_sign_not_mem_ofRange (r : DateRange) : '#' ∉ (ofRange r).toList := by
  rw [ofRange_eq, String.toList_append, String.toList_append, List.mem_append, List.mem_append,
    not_or, not_or]
  exact ⟨⟨not_mem_named rfl (by decide) (by decide) (by decide) _, by decide⟩,
    not_mem_named rfl (by decide) (by decide) (by decide) _⟩

/-- **A range is read from the query that names its ends**, if its years have no more than four
digits; otherwise the first end that has five is refused. -/
theorem range_parse_ofRange (r : DateRange) : range (parse (ofRange r)) =
    if 9999 < r.first.year then .error (.value "start_date" (.calendar .invalid))
    else if 9999 < r.last.year then .error (.value "end_date" (.calendar .invalid))
    else .ok r := by
  have hfirst : addToRange (none, none) ("start_date", component (Utf8.encode r.first.toText)) =
      if 9999 < r.first.year then .error (.value "start_date" (.calendar .invalid))
      else .ok (some r.first, none) := by
    rw [addToRange, if_pos rfl, date_component]
    split
    · rw [if_neg (by omega)]
      rfl
    · rw [if_pos (by omega)]
      rfl
  have hlast : addToRange (some r.first, none) ("end_date", component (Utf8.encode r.last.toText)) =
      if 9999 < r.last.year then .error (.value "end_date" (.calendar .invalid))
      else .ok (some r.first, some r.last) := by
    rw [addToRange, if_neg (by decide : "end_date" ≠ "start_date"), if_pos rfl, date_component]
    split
    · rw [if_neg (by omega)]
      rfl
    · rw [if_pos (by omega)]
      rfl
  rw [parse_ofRange, range, List.foldlM_cons, hfirst]
  by_cases hf : 9999 < r.first.year
  · rw [if_pos hf, if_pos hf]
    rfl
  · rw [if_neg hf, if_neg hf]
    simp only [bind, Except.bind, List.foldlM_cons, hlast]
    by_cases hl : 9999 < r.last.year
    · rw [if_pos hl, if_pos hl]
    · rw [if_neg hl, if_neg hl]
      rfl

end Form

end Web

end CropLedger
