import CropLedger.Calendar.Timestamp
import CropLedger.Proofs.Text.Digits

/-!
# Dates and points in time are read back

* `Date.readParts_chars`: a date is read off the front of any text;
* `Date.read_toText`: a date is read from its written form, whatever its year;
* `Timestamp.read_toText`: a point in time is read from its written form, with its fraction and its
  distance from UTC;
* `LongTimestamp.long_told_iff`: which points with a leap second anywhere are written as such.
-/

namespace CropLedger

open Digits

/-! ### Numbers of limited width -/

namespace Calendar

theorem isBlank_char : ∀ d, d < 10 → Text.isBlank (char d) = false := by decide

theorem trimStart_cons {c : Char} (h : Text.isBlank c = false) (rest : List Char) :
    Text.trimStart (c :: rest) = c :: rest := by
  rw [Text.trimStart, List.dropWhile_cons_of_neg (by simp [h])]

theorem noDigitAhead_take {rest : List Char} (h : NoDigitAhead rest) (k : Nat) :
    NoDigitAhead (rest.take k) := by
  cases k with
  | zero => exact noDigitAhead_nil
  | succ k =>
    cases rest with
    | nil => exact noDigitAhead_nil
    | cons c rest => exact noDigitAhead_cons (h c rfl) _

/-- A run of digits is read as far as it goes, if the width or another character ends it. -/
theorem readDigits_append {width : Nat} {ds : List Nat} {rest : List Char}
    (hd : ∀ d ∈ ds, d < 10) (hne : ds ≠ []) (hw : ds.length ≤ width)
    (hr : ds.length = width ∨ NoDigitAhead rest) :
    readDigits width (ds.map char ++ rest) = .ok (ds, rest) := by
  have hahead : NoDigitAhead (rest.take (width - ds.length)) := by
    rcases hr with hr | hr
    · rw [hr, Nat.sub_self]
      exact noDigitAhead_nil
    · exact noDigitAhead_take hr _
  have htake : (ds.map char ++ rest).take width = ds.map char ++ rest.take (width - ds.length) := by
    rw [List.take_append, List.take_of_length_le (by rwa [List.length_map]), List.length_map]
  have hdrop : (ds.map char ++ rest).drop width = rest.drop (width - ds.length) := by
    rw [List.drop_append, List.drop_eq_nil_of_le (by rwa [List.length_map]), List.nil_append,
      List.length_map]
  rw [readDigits, htake, hdrop, takeDecimal_append hd hahead]
  cases ds with
  | nil => exact absurd rfl hne
  | cons d ds =>
    simp only
    rw [List.take_append_drop]

theorem readNumber_append {width : Nat} {ds : List Nat} {rest : List Char}
    (hd : ∀ d ∈ ds, d < 10) (hne : ds ≠ []) (hw : ds.length ≤ width)
    (hr : ds.length = width ∨ NoDigitAhead rest) :
    readNumber width (ds.map char ++ rest) = .ok (value 10 ds, rest) := by
  rw [readNumber, readDigits_append hd hne hw hr]
  rfl

theorem fixed_two (n : Nat) : fixed 10 2 n = [char (n / 10 % 10), char (n % 10)] := rfl

theorem readField_fixed {low high n : Nat} (hl : low ≤ n) (hh : n ≤ high) (h : n < 100)
    (rest : List Char) : readField low high (fixed 10 2 n ++ rest) = .ok (n, rest) := by
  have hdigit : n / 10 % 10 < 10 := Nat.mod_lt _ (by decide)
  have hn := @readNumber_append 2 (fixedDigits 10 2 n) rest
    (fun _ => lt_of_mem_fixedDigits (by decide)) (List.cons_ne_nil _ _) (Nat.le_of_eq rfl)
    (.inl rfl)
  rw [value_fixedDigits_of_lt (show n < 10 ^ 2 from h), ← fixed_eq_map] at hn
  rw [readField, fixed_two, List.cons_append, trimStart_cons (isBlank_char _ hdigit),
    ← List.cons_append, ← fixed_two, hn]
  simp only [bind, Except.bind]
  rw [if_pos ⟨hl, hh⟩]
  rfl

theorem readSeparator_cons {c : Char} (h : Text.isBlank c = false) (rest : List Char) :
    readSeparator c (c :: rest) = .ok ((), rest) := by
  rw [readSeparator, trimStart_cons h, readChar, if_pos rfl]

end Calendar

open Calendar

/-! ### Dates -/

namespace Date

/-- A year is read from its digits, the sign apart, if another character ends them. -/
theorem readNumber_padded {width n : Nat} (hw : (paddedDigits 4 n).length ≤ width)
    {rest : List Char} (hr : NoDigitAhead rest) :
    readNumber width (padded 4 n ++ rest) = .ok (n, rest) := by
  rw [padded_eq_map, readNumber_append (fun _ => lt_of_mem_paddedDigits) (paddedDigits_ne_nil 4 n)
    hw (.inr hr), value_paddedDigits]

/-- A year without a sign has at most four digits. -/
theorem readYear_digit {e n : Nat} (he : e < 10) {text rest : List Char}
    (h : readNumber 4 (char e :: text) = .ok (n, rest)) :
    readYear (char e :: text) = readYear.inRange n rest := by
  rw [readYear, trimStart_cons (isBlank_char e he)]
  split
  · rename_i hsign
    exact absurd (List.cons.inj hsign).1 (char_ne he rfl)
  · rename_i hsign
    exact absurd (List.cons.inj hsign).1 (char_ne he rfl)
  · simp only [h, bind, Except.bind]

theorem readYear_yearText (d : Date) {rest : List Char} (hr : NoDigitAhead rest) :
    readYear (yearText d.year ++ rest) = .ok (d.year, rest) := by
  obtain ⟨hlow, hhigh, -⟩ := d.isDate
  have hrange : readYear.inRange d.year rest = .ok (d.year, rest) := by
    rw [readYear.inRange,
      if_pos ⟨Int.le_trans (by decide) hlow, Int.lt_of_le_of_lt hhigh (by decide)⟩]
  have hnum := @readNumber_padded _ d.year.natAbs (Nat.le_add_right _ rest.length) rest hr
  rw [show (paddedDigits 4 d.year.natAbs).length + rest.length =
    (padded 4 d.year.natAbs ++ rest).length by
      rw [padded_eq_map, List.length_append, List.length_map]] at hnum
  unfold yearText
  split
  · rename_i hneg
    have hyear : -(d.year.natAbs : Int) = d.year := by omega
    rw [List.cons_append, readYear, trimStart_cons rfl]
    simp only [hnum, bind, Except.bind, hyear, hrange]
  · split
    · rename_i hneg hfour
      have hyear : (d.year.natAbs : Int) = d.year := by omega
      have hlen : (paddedDigits 4 d.year.natAbs).length = 4 :=
        length_paddedDigits (by decide) (by omega)
      have hnum := @readNumber_padded 4 d.year.natAbs (Nat.le_of_eq hlen) rest hr
      obtain ⟨e, es, he⟩ := List.exists_cons_of_ne_nil (paddedDigits_ne_nil 4 d.year.natAbs)
      have hlt : e < 10 := lt_of_mem_paddedDigits (he ▸ List.mem_cons_self)
      rw [padded_eq_map, he, List.map_cons, List.cons_append] at hnum ⊢
      rw [readYear_digit hlt hnum, hyear, hrange]
    · rename_i hneg hmore
      have hyear : (d.year.natAbs : Int) = d.year := by omega
      rw [List.cons_append, readYear, trimStart_cons rfl]
      simp only [hnum, bind, Except.bind, hyear, hrange]

theorem readParts_chars (d : Date) (rest : List Char) :
    readParts (d.chars ++ rest) = .ok ((d.year, d.month, d.day), rest) := by
  obtain ⟨-, -, hm₁, hm₂, hd₁, hd₂⟩ := d.isDate
  have hday : d.day ≤ 31 := Nat.le_trans hd₂ (daysIn_le _ _)
  rw [chars, List.append_assoc, readParts]
  simp only [List.cons_append, List.append_assoc, bind, Except.bind]
  rw [readYear_yearText d (noDigitAhead_cons rfl _)]
  simp only
  rw [readSeparator_cons rfl]
  simp only
  rw [readField_fixed hm₁ hm₂ (by omega)]
  simp only
  rw [readSeparator_cons rfl]
  simp only
  rw [readField_fixed hd₁ hday (by omega)]
  rfl

/-- What stands in front tells dates apart, whatever follows. -/
theorem append_inj {a b : Date} {rest rest' : List Char} (h : a.chars ++ rest = b.chars ++ rest') :
    a = b ∧ rest = rest' := by
  have hp := readParts_chars a rest
  rw [h, readParts_chars] at hp
  obtain ⟨hparts, rfl⟩ := Prod.mk.inj (Except.ok.inj hp)
  obtain ⟨year, month, day, ha⟩ := a
  obtain ⟨year', month', day', hb⟩ := b
  cases hparts
  exact ⟨rfl, rfl⟩

theorem of?_eq_some (d : Date) : of? d.year d.month d.day = some d := dif_pos d.isDate

/-- **A date is read from its written form.** -/
theorem read_toText (d : Date) : read d.toText = .ok d := by
  have hp := readParts_chars d []
  rw [List.append_nil] at hp
  rw [read, toText, String.toList_ofList, hp]
  simp only [bind, Except.bind, of?_eq_some]
  rfl

end Date

/-! ### Points in time -/

namespace Timestamp

/-- What can stand after the fraction of a second. -/
def StartsOffset (rest : List Char) : Prop :=
  ∃ c tail, rest = c :: tail ∧ (c = 'Z' ∨ c = '+' ∨ c = '-')

theorem StartsOffset.noDigitAhead {rest : List Char} (h : StartsOffset rest) :
    NoDigitAhead rest := by
  obtain ⟨c, tail, rfl, rfl | rfl | rfl⟩ := h <;> exact noDigitAhead_cons rfl _

theorem StartsOffset.trimStart {rest : List Char} (h : StartsOffset rest) :
    Text.trimStart rest = rest := by
  obtain ⟨c, tail, rfl, rfl | rfl | rfl⟩ := h <;> exact trimStart_cons rfl _

theorem readFraction_point {width n : Nat} (hw : 0 < width) (hle : width ≤ 9)
    (h : n < 10 ^ width) {rest : List Char} (hr : StartsOffset rest) :
    readFraction ('.' :: (fixed 10 width n ++ rest)) = .ok (n * 10 ^ (9 - width), rest) := by
  have hlen := length_fixedDigits 10 width n
  have hne : fixedDigits 10 width n ≠ [] := by
    intro he
    rw [he] at hlen
    exact absurd hlen.symm (Nat.ne_of_gt hw)
  rw [readFraction, fixed_eq_map, readDigits_append (fun _ => lt_of_mem_fixedDigits (by decide)) hne
    (by rw [hlen]; exact hle) (.inr hr.noDigitAhead)]
  simp only [bind, Except.bind]
  rw [hlen, value_fixedDigits_of_lt h, takeDecimal_of_noDigitAhead hr.noDigitAhead]
  rfl

theorem readFraction_fraction {nanos : Nat} (h : nanos < 1000000000) {rest : List Char}
    (hr : StartsOffset rest) : readFraction (fraction nanos ++ rest) = .ok (nanos, rest) := by
  unfold fraction
  split
  · rename_i hzero
    subst hzero
    obtain ⟨c, tail, rfl, rfl | rfl | rfl⟩ := hr <;> rfl
  split
  · rename_i hmillis
    rw [List.cons_append, readFraction_point (by decide) (by decide) (by omega) hr]
    congr 2
    omega
  split
  · rename_i hmicros
    rw [List.cons_append, readFraction_point (by decide) (by decide) (by omega) hr]
    congr 2
    omega
  · rw [List.cons_append, readFraction_point (by decide) (by decide) h hr]
    congr 2
    omega

theorem readPair_fixed {high n : Nat} (hn : n < 100) (h : n / 10 ≤ high) (rest : List Char) :
    readPair high (fixed 10 2 n ++ rest) = .ok (n, rest) := by
  have hlt (k : Nat) : k % 10 < 10 := Nat.mod_lt _ (by decide)
  rw [fixed_two, List.cons_append, List.singleton_append, readPair, decimal?_char _ (hlt _),
    decimal?_char _ (hlt _)]
  simp only
  rw [if_pos (by omega)]
  congr 2
  omega

theorem readHoursMinutes_fixed {n : Nat} (h : n < 1440) :
    readHoursMinutes (fixed 10 2 (n / 60) ++ ':' :: fixed 10 2 (n % 60)) = .ok (n, []) := by
  have hskip : skipColons (':' :: fixed 10 2 (n % 60)) = fixed 10 2 (n % 60) := by
    have hlt : n % 60 / 10 % 10 < 10 := Nat.mod_lt _ (by decide)
    rw [skipColons, List.dropWhile_cons_of_pos (by decide), fixed_two, List.dropWhile_cons_of_neg]
    simp [isBlank_char _ hlt, char_ne hlt (c := ':') rfl]
  have hmin := @readPair_fixed 5 (n % 60) (by omega) (by omega) []
  rw [List.append_nil] at hmin
  rw [readHoursMinutes]
  simp only [bind, Except.bind]
  rw [readPair_fixed (by omega) (by omega)]
  simp only [hskip, hmin]
  have hsum : n / 60 * 60 + n % 60 = n := by omega
  rw [hsum]
  rfl

theorem readOffset_offsetText {offset : Int} (h₁ : -1440 < offset) (h₂ : offset < 1440) :
    readOffset (offsetText offset) = .ok (offset, []) := by
  have hm := readHoursMinutes_fixed (n := offset.natAbs) (by omega)
  unfold offsetText
  split
  · rename_i hneg
    have ho : -(offset.natAbs : Int) = offset := by omega
    rw [List.cons_append, readOffset]
    simp only [hm, bind, Except.bind, ho]
    rfl
  · rename_i hneg
    have ho : (offset.natAbs : Int) = offset := by omega
    rw [List.cons_append, readOffset]
    simp only [hm, bind, Except.bind, ho]
    rfl

/-- The written distance from UTC. -/
def zoneText (t : Timestamp) : List Char := if t.offset = 0 then ['Z'] else offsetText t.offset

theorem startsOffset_zoneText (t : Timestamp) : StartsOffset t.zoneText := by
  unfold zoneText offsetText
  split
  · exact ⟨_, _, rfl, .inl rfl⟩
  · split
    · exact ⟨_, _, rfl, .inr (.inr rfl)⟩
    · exact ⟨_, _, rfl, .inr (.inl rfl)⟩

theorem readOffset_zoneText (t : Timestamp) : readOffset t.zoneText = .ok (t.offset, []) := by
  obtain ⟨-, -, -, -, h₁, h₂, -⟩ := t.isTime
  unfold zoneText
  split
  · rename_i h
    rw [h]
    rfl
  · exact readOffset_offsetText h₁ h₂

theorem of?_eq_some (t : Timestamp) :
    of? t.date t.hour t.minute t.second t.nanos t.offset = some t := dif_pos t.isTime

/-- **A point in time is read from its written form**, leap seconds included. -/
theorem read_toText (t : Timestamp) : read t.toText = .ok t := by
  obtain ⟨hh, hm, hs, hn, h₁, h₂, -⟩ := t.isTime
  have hchars : t.chars = t.date.chars ++ 'T' :: (fixed 10 2 t.hour ++ ':' ::
      (fixed 10 2 t.minute ++
        ':' :: (fixed 10 2 t.second ++ (fraction t.nanos ++ t.zoneText)))) := by
    simp [chars, localText, clock, zoneText]
  rw [read, toText, String.toList_ofList, hchars]
  simp only [bind, Except.bind]
  rw [Date.readParts_chars]
  simp only [readBetween]
  rw [readField_fixed (Nat.zero_le _) (by omega) (by omega)]
  simp only
  rw [readSeparator_cons rfl]
  simp only
  rw [readField_fixed (Nat.zero_le _) (by omega) (by omega)]
  simp only
  rw [readSeparator_cons rfl]
  simp only
  rw [readField_fixed (Nat.zero_le _) (by omega) (by omega)]
  simp only
  rw [readFraction_fraction hn t.startsOffset_zoneText]
  simp only
  rw [t.startsOffset_zoneText.trimStart, readOffset_zoneText]
  simp only [Date.of?_eq_some, if_pos (And.intro h₁ h₂), of?_eq_some]
  rfl

end Timestamp

namespace LongTimestamp

@[simp] theorem told_long (t : Timestamp) : t.long.told = t := by
  obtain ⟨date, hour, minute, second, nanos, offset, hhour, hminute, hsecond, hnanos, hrest⟩ := t
  have hseconds : second - second / 60 + (nanos + second / 60 * 1000000000) / 1000000000 =
      second := by omega
  have hbillion : (nanos + second / 60 * 1000000000) % 1000000000 = nanos := by omega
  simp only [told, Timestamp.long, hseconds, hbillion]

/-- **A point is what was written of it unless its leap second is out of place.** -/
theorem long_told_iff {t : LongTimestamp} : t.told.long = t ↔ t.IsPlain := by
  obtain ⟨date, hour, minute, second, nanos, offset, htime, hsecond, hnanos⟩ := t
  simp only [told, Timestamp.long, LongTimestamp.mk.injEq, IsPlain, true_and, and_true]
  omega

end LongTimestamp

end CropLedger
