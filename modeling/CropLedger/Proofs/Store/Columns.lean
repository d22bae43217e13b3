import CropLedger.Proofs.Calendar.FileTimes
import CropLedger.Proofs.Calendar.Written
import CropLedger.Store.Tables

/-!
# The order of columns

Dates and times are kept as texts, and the store orders and compares the texts. Years of four digits
have no sign and are written with one width, so for them the order of the texts is that of the
calendar. A year that has more digits or is negative starts with a sign, and a sign comes before all
digits: such a date is put before all others. Times are ordered by their texts as the points in time
are if they are written without a distance from UTC in such years. A fraction of a second is cut to
three or six digits where the rest is zeros; what follows the fraction is a sign, so the shorter text
comes first there too.

* `Tables.textLe_iff`: the store's order of texts is the order of lists of characters;
* `Tables.byText_trans`, `Tables.byText_total`: rows in the order of a text, then in another one;
* `Date.chars_append_lt`, `Date.textLe_chars`: the order of the texts of dates;
* `Timestamp.columnText_lt`, `Timestamp.columnLe_iff`: the order of the texts of times.
-/

namespace CropLedger

/-! ### Texts -/

namespace Tables

theorem textLe_cons {c d : Char} {a b : List Char} :
    textLe (c :: a) (d :: b) = true ↔ c < d ∨ c = d ∧ textLe a b = true := by
  simp [textLe]

theorem textLe_trans {a b c : List Char} (hab : textLe a b = true) (hbc : textLe b c = true) :
    textLe a c = true := by
  induction a generalizing b c with
  | nil => rfl
  | cons x a ih =>
    cases b with
    | nil => cases hab
    | cons y b =>
      cases c with
      | nil => cases hbc
      | cons z c =>
        rw [textLe_cons] at *
        obtain hxy | ⟨rfl, hab⟩ := hab
        · obtain hyz | ⟨rfl, -⟩ := hbc
          · exact .inl (Char.lt_trans hxy hyz)
          · exact .inl hxy
        · obtain hxz | ⟨rfl, hbc⟩ := hbc
          · exact .inl hxz
          · exact .inr ⟨rfl, ih hab hbc⟩

theorem textLe_total (a b : List Char) : textLe a b = true ∨ textLe b a = true := by
  induction a generalizing b with
  | nil => exact .inl rfl
  | cons x a ih =>
    cases b with
    | nil => exact .inr rfl
    | cons y b =>
      rw [textLe_cons, textLe_cons]
      by_cases hxy : x < y
      · exact .inl (.inl hxy)
      by_cases hyx : y < x
      · exact .inr (.inl hyx)
      have he : x = y := Char.le_antisymm (Char.not_lt.1 hyx) (Char.not_lt.1 hxy)
      exact (ih b).imp (fun h => .inr ⟨he, h⟩) fun h => .inr ⟨he.symm, h⟩

theorem textLe_refl (a : List Char) : textLe a a = true := (textLe_total a a).elim id id

theorem textLe_antisymm {a b : List Char} (hab : textLe a b = true) (hba : textLe b a = true) :
    a = b := by
  induction a generalizing b with
  | nil =>
    cases b with
    | nil => rfl
    | cons y b => cases hba
  | cons x a ih =>
    cases b with
    | nil => cases hab
    | cons y b =>
      rw [textLe_cons] at *
      obtain hxy | ⟨rfl, hab⟩ := hab
      · obtain hyx | ⟨rfl, -⟩ := hba
        · exact absurd hyx (Char.lt_asymm hxy)
        · exact absurd hxy (Char.lt_irrefl _)
      · obtain hxx | ⟨-, hba⟩ := hba
        · exact absurd hxx (Char.lt_irrefl _)
        · rw [ih hab hba]

/-- The store's order of texts is the order of lists of characters. -/
theorem textLe_iff {a b : List Char} : textLe a b = true ↔ ¬b < a := by
  induction a generalizing b with
  | nil => exact iff_of_true rfl (List.not_lt_nil b)
  | cons x a ih =>
    cases b with
    | nil => exact iff_of_false Bool.false_ne_true (not_not_intro (List.nil_lt_cons x a))
    | cons y b =>
      rw [textLe_cons, List.cons_lt_cons_iff, ih, not_or, Char.not_lt, not_and]
      constructor
      · rintro (hxy | ⟨rfl, h⟩)
        · exact ⟨Char.not_lt.1 (Char.lt_asymm hxy), fun he => absurd (he ▸ hxy) (Char.lt_irrefl _)⟩
        · exact ⟨Char.le_refl _, fun _ => h⟩
      · rintro ⟨hxy, h⟩
        by_cases hyx : y ≤ x
        · have he := Char.le_antisymm hxy hyx
          exact .inr ⟨he, h he.symm⟩
        · exact .inl (Char.not_le.1 hyx)

/-! ### Rows by a text -/

section ByText

variable {α : Type}

/-- Rows in the order of a text, and where that is the same, in another order. -/
def byText (text : α → List Char) (next : α → α → Bool) (a b : α) : Bool :=
  if text a = text b then next a b else textLe (text a) (text b)

variable {text : α → List Char} {next : α → α → Bool} {a b c : α}

theorem byText_iff :
    byText text next a b = true ↔
      textLe (text a) (text b) = true ∧ (text a = text b → next a b = true) := by
  unfold byText
  split
  · rename_i he
    simp [he, textLe_refl]
  · rename_i hne
    simp [hne]

theorem byText_trans (hnext : next a b = true → next b c = true → next a c = true)
    (hab : byText text next a b = true) (hbc : byText text next b c = true) :
    byText text next a c = true := by
  rw [byText_iff] at *
  refine ⟨textLe_trans hab.1 hbc.1, fun hac => ?_⟩
  have hb : text a = text b := textLe_antisymm hab.1 (hac ▸ hbc.1)
  exact hnext (hab.2 hb) (hbc.2 (hb.symm.trans hac))

theorem byText_total (hnext : (next a b || next b a) = true) :
    (byText text next a b || byText text next b a) = true := by
  rw [Bool.or_eq_true] at *
  rw [byText_iff, byText_iff]
  by_cases he : text a = text b
  · rw [he]
    exact hnext.imp (fun h => ⟨textLe_refl _, fun _ => h⟩) fun h => ⟨textLe_refl _, fun _ => h⟩
  · exact (textLe_total (text a) (text b)).imp (fun h => ⟨h, fun h' => absurd h' he⟩)
      fun h => ⟨h, fun h' => absurd h'.symm he⟩

end ByText

end Tables

/-! ### Digits -/

namespace Digits

/-- A number of some width is the number in front of its last digits, then these. -/
theorem fixed_add (base width last n : Nat) :
    fixed base (width + last) n = fixed base width (n / base ^ last) ++ fixed base last n := by
  induction last generalizing n with
  | zero => simp [fixed]
  | succ l ih =>
    rw [← Nat.add_assoc, fixed, ih, fixed, Nat.div_div_eq_div_mul, ← Nat.pow_succ',
      List.append_assoc]

theorem fixed_mod (base width n : Nat) : fixed base width (n % base ^ width) = fixed base width n := by
  induction width generalizing n with
  | zero => rfl
  | succ w ih =>
    rw [fixed, fixed, Nat.pow_succ, Nat.mod_mul_left_div_self, Nat.mod_mul_left_mod, ih]

/-- Groups of three digits of a fraction, as far as they are not all zeros, then the rest. -/
def groups (rest : List Char) : Nat → Nat → List Char
  | 0, _ => rest
  | g + 1, n => if n = 0 then rest else fixed 10 3 (n / 1000 ^ g) ++ groups rest g (n % 1000 ^ g)

theorem lt_iff_div_mod (m n k : Nat) :
    m < n ↔ m / k < n / k ∨ m / k = n / k ∧ m % k < n % k := by
  have hm := Nat.div_add_mod m k
  have hn := Nat.div_add_mod n k
  constructor
  · intro h
    rcases Nat.lt_or_eq_of_le (Nat.div_le_div_right (c := k) (Nat.le_of_lt h)) with hlt | heq
    · exact .inl hlt
    · rw [heq] at hm
      exact .inr ⟨heq, by omega⟩
  · rintro (hlt | ⟨heq, hmod⟩)
    · exact Nat.lt_of_div_lt_div hlt
    · rw [heq] at hm
      omega

theorem zero_le_char : ∀ d < 10, '0' ≤ char d := by decide

/-- A fraction with fewer groups comes first if a character in front of the digits follows. -/
theorem groups_lt {c : Char} (hc : c < '0') (after : List Char) {g m n : Nat} (hm : m < 1000 ^ g)
    (hn : n < 1000 ^ g) : groups (c :: after) g m < groups (c :: after) g n ↔ m < n := by
  have hirrefl : ¬c :: after < c :: after := List.lt_irrefl _
  have hfront (k : Nat) (rest : List Char) : c :: after < fixed 10 3 k ++ rest :=
    List.cons_lt_cons_iff.2 (.inl (Std.lt_of_lt_of_le hc (zero_le_char _ (Nat.mod_lt _ (by decide)))))
  induction g generalizing m n with
  | zero =>
    rw [Nat.pow_zero] at hm hn
    exact iff_of_false hirrefl (by omega)
  | succ g ih =>
    have hpos : 0 < 1000 ^ g := Nat.pow_pos (by decide)
    rw [Nat.pow_succ] at hm hn
    rw [groups, groups]
    split <;> split <;> rename_i h0 h0'
    · exact iff_of_false hirrefl (by omega)
    · exact iff_of_true (hfront _ _) (by omega)
    · exact iff_of_false (List.lt_asymm (hfront _ _)) (by omega)
    · have hgroup {k : Nat} (hk : k < 1000 ^ g * 1000) : k / 1000 ^ g < 10 ^ 3 :=
        Nat.div_lt_of_lt_mul hk
      refine (fixed_append_lt (hgroup hm) (hgroup hn)).trans ?_
      refine Iff.trans (or_congr_right (and_congr_right fun _ => ?_)) (lt_iff_div_mod m n _).symm
      exact ih (Nat.mod_lt m hpos) (Nat.mod_lt n hpos)

end Digits

/-! ### Dates -/

namespace Date

open Digits

/-- **Texts that start with dates of four-digit years** are compared by the dates, then by the
rest. -/
theorem chars_append_lt {a b : Date} (ha : a.HasPlainYear) (hb : b.HasPlainYear)
    {rest rest' : List Char} :
    a.chars ++ rest < b.chars ++ rest' ↔ a < b ∨ a = b ∧ rest < rest' := by
  obtain ⟨hlow, hhigh⟩ := id ha
  obtain ⟨hlow', hhigh'⟩ := id hb
  obtain ⟨-, -, -, hmonth, -, hday⟩ := a.isDate
  obtain ⟨-, -, -, hmonth', -, hday'⟩ := b.isDate
  have h31 := daysIn_le a.year a.month
  have h31' := daysIn_le b.year b.month
  simp only [chars, yearText_of_plain ha, yearText_of_plain hb, List.append_assoc, List.cons_append]
  rw [fixed_append_lt (by omega) (by omega), List.cons_lt_cons_iff,
    fixed_append_lt (by omega) (by omega), List.cons_lt_cons_iff,
    fixed_append_lt (by omega) (by omega), eq_iff]
  show _ ↔ a.key < b.key ∨ _
  rw [key_lt_iff]
  by_cases hrest : rest < rest' <;>
    simp only [Char.lt_irrefl, hrest, false_or, true_and, and_true, and_false, or_false] <;> omega

/-- Dates of four-digit years stand in the order of their texts. -/
theorem textLe_chars {a b : Date} (ha : a.HasPlainYear) (hb : b.HasPlainYear) :
    Tables.textLe a.chars b.chars = true ↔ a ≤ b := by
  have h := @chars_append_lt b a hb ha [] []
  rw [List.append_nil, List.append_nil] at h
  rw [Tables.textLe_iff, h]
  have hirrefl : ¬([] : List Char) < [] := List.lt_irrefl _
  show ¬(b.key < a.key ∨ b = a ∧ [] < []) ↔ a.key ≤ b.key
  simp only [hirrefl, and_false, or_false, Int.not_lt]

/-- A year with a sign puts a date before all dates without one. -/
theorem chars_lt_of_not_plain {a b : Date} (ha : ¬a.HasPlainYear) (hb : b.HasPlainYear) :
    a.chars < b.chars := by
  have hfront : ∃ c rest, a.chars = c :: rest ∧ c < '0' := by
    rw [HasPlainYear] at ha
    unfold chars yearText
    split
    · exact ⟨_, _, rfl, by decide⟩
    · rw [if_neg (by omega)]
      exact ⟨_, _, rfl, by decide⟩
  obtain ⟨c, rest, hchars, hc⟩ := hfront
  rw [hchars, chars, yearText_of_plain hb]
  have hdigit := zero_le_char _ (Nat.mod_lt (b.year.natAbs / 10 / 10 / 10) (by decide : 0 < 10))
  exact List.cons_lt_cons_iff.2 (.inl (Std.lt_of_lt_of_le hc hdigit))

end Date

/-! ### Points in time -/

namespace Timestamp

open Digits

/-- A fraction is written in groups of three digits. -/
theorem fraction_append (nanos : Nat) (rest : List Char) :
    fraction nanos ++ rest = if nanos = 0 then rest else '.' :: groups rest 3 nanos := by
  have hmiddle : fixed 10 3 (nanos % 1000000 / 1000 ^ 1) = fixed 10 3 (nanos / 1000) := by
    rw [← fixed_mod 10 3 (nanos / 1000)]
    congr 1
    omega
  have hlast : fixed 10 3 (nanos % 1000000 % 1000 ^ 1 / 1000 ^ 0) = fixed 10 3 nanos := by
    rw [← fixed_mod 10 3 nanos]
    congr 1
    omega
  have hsix : fixed 10 6 (nanos / 1000) =
      fixed 10 3 (nanos / 1000000) ++ fixed 10 3 (nanos / 1000) := by
    rw [fixed_add 10 3 3, Nat.div_div_eq_div_mul]
    rfl
  have hnine : fixed 10 9 nanos =
      fixed 10 3 (nanos / 1000000) ++ fixed 10 3 (nanos / 1000) ++ fixed 10 3 nanos := by
    rw [fixed_add 10 6 3, ← hsix]
    rfl
  unfold fraction
  by_cases h0 : nanos = 0
  · rw [if_pos h0, if_pos h0, List.nil_append]
  rw [if_neg h0, if_neg h0, groups, if_neg h0, show 1000 ^ 2 = 1000000 from rfl]
  by_cases h6 : nanos % 1000000 = 0
  · rw [if_pos h6, groups, if_pos h6]
    rfl
  rw [if_neg h6, groups, if_neg h6, hmiddle]
  by_cases h3 : nanos % 1000 = 0
  · have : nanos % 1000000 % 1000 ^ 1 = 0 := by omega
    rw [if_pos h3, hsix, groups, if_pos this, List.cons_append, List.append_assoc]
  · have : nanos % 1000000 % 1000 ^ 1 ≠ 0 := by omega
    rw [if_neg h3, hnine, groups, if_neg this, hlast, groups]
    simp only [List.cons_append, List.append_assoc]

/-- Fractions of a second before a sign are compared by what they stand for. -/
theorem fraction_append_lt {m n : Nat} (hm : m < 1000000000) (hn : n < 1000000000)
    (after : List Char) :
    fraction m ++ '+' :: after < fraction n ++ '+' :: after ↔ m < n := by
  have hpoint : '+' < '.' := by decide
  rw [fraction_append, fraction_append]
  split <;> split <;> rename_i h0 h0'
  · exact iff_of_false (List.lt_irrefl _) (by omega)
  · exact iff_of_true (List.cons_lt_cons_iff.2 (.inl hpoint)) (by omega)
  · exact iff_of_false (List.lt_asymm (List.cons_lt_cons_iff.2 (.inl hpoint))) (by omega)
  · rw [List.cons_lt_cons_iff, groups_lt (by decide) after hm hn]
    simp only [Char.lt_irrefl, false_or, true_and]

/-- Whether a time is written without a distance from UTC, in a year of four digits. -/
def IsPlainUtc (t : Timestamp) : Prop := t.offset = 0 ∧ t.HasPlainYear

instance (t : Timestamp) : Decidable t.IsPlainUtc := by
  unfold IsPlainUtc
  infer_instance

/-- **Times in UTC stand in the order of their texts.** -/
theorem columnText_lt {t u : Timestamp} (ht : t.IsPlainUtc) (hu : u.IsPlainUtc) :
    t.columnText < u.columnText ↔ t < u := by
  obtain ⟨ht0, htyear⟩ := ht
  obtain ⟨hu0, huyear⟩ := hu
  have hoffset : offsetText 0 = '+' :: ['0', '0', ':', '0', '0'] := by decide
  have hplain : t.date.HasPlainYear := by
    rw [HasPlainYear, utcDate_of_offset ht0] at htyear
    exact htyear
  have hplain' : u.date.HasPlainYear := by
    rw [HasPlainYear, utcDate_of_offset hu0] at huyear
    exact huyear
  obtain ⟨hh, hm, hs, hn, -⟩ := t.isTime
  obtain ⟨hh', hm', hs', hn', -⟩ := u.isTime
  have htext (x : Timestamp) (h0 : x.offset = 0) : x.columnText = x.date.chars ++ 'T' ::
      (fixed 10 2 x.hour ++ ':' :: (fixed 10 2 x.minute ++ ':' :: (fixed 10 2 x.second ++
        (fraction x.nanos ++ '+' :: ['0', '0', ':', '0', '0'])))) := by
    simp only [columnText, localText, clock, h0, hoffset, List.append_assoc, List.cons_append]
  -- field by field, the first one that differs decides
  rw [htext t ht0, htext u hu0, Date.chars_append_lt hplain hplain', List.cons_lt_cons_iff,
    fixed_append_lt (by omega) (by omega), List.cons_lt_cons_iff,
    fixed_append_lt (by omega) (by omega), List.cons_lt_cons_iff,
    fixed_append_lt (by omega) (by omega), fraction_append_lt hn hn', lt_iff,
    utcDate_of_offset ht0, utcDate_of_offset hu0, utcMinute_of_offset ht0, utcMinute_of_offset hu0,
    minuteOfDay, minuteOfDay]
  simp only [Char.lt_irrefl, false_or, true_and]
  show t.date.key < u.date.key ∨ _ ↔ _
  by_cases hday : t.date = u.date
  · simp only [hday, true_and]
    omega
  · simp only [hday, false_and]

/-- Whether a time is not after another one in the order of their texts. -/
def ColumnLe (t u : Timestamp) : Prop := Tables.textLe t.columnText u.columnText = true

theorem columnLe_iff {t u : Timestamp} (ht : t.IsPlainUtc) (hu : u.IsPlainUtc) :
    t.ColumnLe u ↔ t ≤ u := by
  rw [ColumnLe, Tables.textLe_iff, columnText_lt hu ht]
  exact Int.not_lt

end Timestamp

end CropLedger
