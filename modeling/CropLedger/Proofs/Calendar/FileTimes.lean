import CropLedger.Proofs.Calendar.Utc
import CropLedger.Proofs.Text.Digits

/-!
# Times in file names sort as the times do

The form of a time that stands in a file name has a fixed width, with the most significant field
first and no separator between fields of the date. So within the years of four digits two such texts
stand in the order of the two points in time, as far as their milliseconds tell; a leap second comes
after the second before it and before the next minute.

* `Digits.fixed_append_lt`: texts that start with numbers of one width are compared by the numbers
  first;
* `Timestamp.cut`: a point in time without what comes after its milliseconds;
* `Timestamp.fileText_append_lt`: the order of the texts is the order of the cut points.
-/

namespace CropLedger

/-! ### Numbers of one width -/

namespace Digits

theorem char_lt_char : ∀ d < 10, ∀ e < 10, (char d < char e ↔ d < e) := by decide

theorem char_inj : ∀ d < 10, ∀ e < 10, (char d = char e ↔ d = e) := by decide

/-- Texts that start with numbers of one width are compared by the numbers, then by the rest. -/
theorem fixed_append_lt {width m n : Nat} (hm : m < 10 ^ width) (hn : n < 10 ^ width)
    {rest rest' : List Char} :
    fixed 10 width m ++ rest < fixed 10 width n ++ rest' ↔ m < n ∨ m = n ∧ rest < rest' := by
  induction width generalizing m n rest rest' with
  | zero =>
    have hz : m = 0 ∧ n = 0 := by
      rw [Nat.pow_zero] at hm hn
      omega
    simp [fixed, hz.1, hz.2]
  | succ w ih =>
    have hm' : m / 10 < 10 ^ w := by
      rw [Nat.pow_succ] at hm
      omega
    have hn' : n / 10 < 10 ^ w := by
      rw [Nat.pow_succ] at hn
      omega
    have hlast := char_lt_char (m % 10) (Nat.mod_lt _ (by decide)) (n % 10)
      (Nat.mod_lt _ (by decide))
    have hsame := char_inj (m % 10) (Nat.mod_lt _ (by decide)) (n % 10)
      (Nat.mod_lt _ (by decide))
    simp only [fixed, List.append_assoc, List.singleton_append]
    rw [ih hm' hn', List.cons_lt_cons_iff, hlast, hsame]
    constructor
    · rintro (h | ⟨h, h' | ⟨h', hr⟩⟩)
      · exact .inl (by omega)
      · exact .inl (by omega)
      · exact .inr ⟨by omega, hr⟩
    · rintro (h | ⟨rfl, hr⟩)
      · by_cases hq : m / 10 < n / 10
        · exact .inl hq
        · exact .inr ⟨by omega, .inl (by omega)⟩
      · exact .inr ⟨rfl, .inr ⟨rfl, hr⟩⟩

theorem fixedDigits_zero (width : Nat) : fixedDigits 10 width 0 = List.replicate width 0 := by
  induction width with
  | zero => rfl
  | succ w ih => rw [fixedDigits, Nat.zero_div, Nat.zero_mod, ih, ← List.replicate_succ']

theorem paddedDigits_eq_fixedDigits {width n : Nat} (hw : 0 < width) (h : n < 10 ^ width) :
    paddedDigits width n = fixedDigits 10 width n := by
  induction width generalizing n with
  | zero => omega
  | succ w ih =>
    rw [paddedDigits, shortestDigits, fixedDigits]
    split <;> rename_i hn
    · rw [Nat.div_eq_of_lt hn, Nat.mod_eq_of_lt hn, fixedDigits_zero]
      rfl
    · have hw' : 0 < w := by
        rcases Nat.eq_zero_or_pos w with rfl | hw'
        · omega
        · exact hw'
      have hq : n / 10 < 10 ^ w := by
        rw [Nat.pow_succ] at h
        omega
      rw [List.length_append, List.length_singleton, Nat.add_sub_add_right, ← List.append_assoc,
        ← ih hw' hq, paddedDigits]

/-- A number that needs no more than its width is only filled up. -/
theorem padded_eq_fixed {width n : Nat} (hw : 0 < width) (h : n < 10 ^ width) :
    padded width n = fixed 10 width n := by
  rw [padded_eq_map, fixed_eq_map, paddedDigits_eq_fixedDigits hw h]

end Digits

/-! ### Dates -/

namespace Date

/-- Dates are compared by year, then month, then day. -/
theorem key_lt_iff (a b : Date) :
    a.key < b.key ↔ a.year < b.year ∨
      a.year = b.year ∧ (a.month < b.month ∨ a.month = b.month ∧ a.day < b.day) := by
  obtain ⟨-, -, hm, hm', hd, hd'⟩ := a.isDate
  obtain ⟨-, -, hn, hn', he, he'⟩ := b.isDate
  have h31 := daysIn_le a.year a.month
  have h31' := daysIn_le b.year b.month
  unfold key
  omega

/-- A date is known by its fields. -/
theorem eq_iff {a b : Date} : a = b ↔ a.year = b.year ∧ a.month = b.month ∧ a.day = b.day := by
  cases a
  cases b
  exact mk.injEq .. ▸ Iff.rfl

/-- Whether the year has at most four digits and no sign. -/
def HasPlainYear (d : Date) : Prop := 0 ≤ d.year ∧ d.year ≤ 9999

instance (d : Date) : Decidable d.HasPlainYear := by
  unfold HasPlainYear
  infer_instance

theorem yearText_of_plain {d : Date} (h : d.HasPlainYear) :
    yearText d.year = Digits.fixed 10 4 d.year.natAbs := by
  obtain ⟨hlow, hhigh⟩ := h
  rw [yearText, if_neg (by omega), if_pos hhigh, Digits.padded_eq_fixed (by decide) (by omega)]

end Date

/-! ### Points in time -/

namespace Timestamp

open Digits

/-- A point in time without what comes after its milliseconds. -/
def cut (t : Timestamp) : Timestamp :=
  { t with
    nanos := t.nanos / 1000000 * 1000000
    isTime := by
      obtain ⟨hh, hm, hs, hn, hrest⟩ := t.isTime
      exact ⟨hh, hm, hs, by omega, hrest⟩ }

/-- Whether the year in UTC has at most four digits and no sign. -/
def HasPlainYear (t : Timestamp) : Prop := 0 ≤ t.utcDate.year ∧ t.utcDate.year ≤ 9999

instance (t : Timestamp) : Decidable t.HasPlainYear := by
  unfold HasPlainYear
  infer_instance

/-- The fields of a time in the text of a file name, each of its width. -/
theorem fileText_eq {t : Timestamp} (h : t.HasPlainYear) (rest : List Char) :
    t.fileText ++ rest =
      fixed 10 4 t.utcDate.year.natAbs ++ (fixed 10 2 t.utcDate.month ++
        (fixed 10 2 t.utcDate.day ++ 'T' :: (fixed 10 2 (t.utcMinute / 60) ++
          (fixed 10 2 (t.utcMinute % 60) ++ (fixed 10 2 t.second ++
            '.' :: (fixed 10 3 (t.nanos / 1000000) ++ 'Z' :: rest)))))) := by
  have hyear := Date.yearText_of_plain (d := t.utcDate) h
  have hdate : t.utc.date = t.utcDate := rfl
  have hclock : t.utc.hour = t.utcMinute / 60 ∧ t.utc.minute = t.utcMinute % 60 ∧
      t.utc.second = t.second ∧ t.utc.nanos = t.nanos := ⟨rfl, rfl, rfl, rfl⟩
  simp only [fileText, hdate, hclock, hyear, List.append_assoc, List.cons_append, List.nil_append]

/-- A number put together of two, the second of which is below a bound. -/
theorem mul_add_lt_mul_add {a b c d k : Int} (hc : 0 ≤ c ∧ c < k) (hd : 0 ≤ d ∧ d < k) :
    a * k + c < b * k + d ↔ a < b ∨ a = b ∧ c < d := by
  constructor
  · intro h
    rcases Int.lt_trichotomy a b with hab | rfl | hab
    · exact .inl hab
    · exact .inr ⟨rfl, by omega⟩
    · have := Int.mul_le_mul_of_nonneg_right (show b + 1 ≤ a by omega) (show 0 ≤ k by omega)
      rw [Int.add_mul, Int.one_mul] at this
      omega
  · rintro (hab | ⟨rfl, hcd⟩)
    · have := Int.mul_le_mul_of_nonneg_right (show a + 1 ≤ b by omega) (show 0 ≤ k by omega)
      rw [Int.add_mul, Int.one_mul] at this
      omega
    · omega

/-- Points in time are compared by date, then minute, then second, then nanosecond. -/
theorem lt_iff (t u : Timestamp) :
    t < u ↔
      t.utcDate.key < u.utcDate.key ∨ t.utcDate = u.utcDate ∧ (t.utcMinute < u.utcMinute ∨
        t.utcMinute = u.utcMinute ∧ (t.second < u.second ∨
          t.second = u.second ∧ t.nanos < u.nanos)) := by
  have hday : t.utcDate.key = u.utcDate.key ↔ t.utcDate = u.utcDate :=
    ⟨Date.key_injective, fun h => h ▸ rfl⟩
  have hm := t.utcMinute_lt
  have hm' := u.utcMinute_lt
  obtain ⟨-, -, hs, hn, -⟩ := t.isTime
  obtain ⟨-, -, hs', hn', -⟩ := u.isTime
  show t.key < u.key ↔ _
  rw [key, key, mul_add_lt_mul_add (by omega) (by omega), mul_add_lt_mul_add (by omega) (by omega),
    ← hday]
  omega

theorem cut_lt (t u : Timestamp) :
    t.cut < u.cut ↔
      t.utcDate.key < u.utcDate.key ∨ t.utcDate = u.utcDate ∧ (t.utcMinute < u.utcMinute ∨
        t.utcMinute = u.utcMinute ∧ (t.second < u.second ∨
          t.second = u.second ∧ t.nanos / 1000000 < u.nanos / 1000000)) := by
  have hnanos : t.cut.nanos < u.cut.nanos ↔ t.nanos / 1000000 < u.nanos / 1000000 := by
    show t.nanos / 1000000 * 1000000 < u.nanos / 1000000 * 1000000 ↔ _
    omega
  rw [lt_iff, hnanos]
  rfl

/-- **The text of a time in a file name sorts as the time does**, cut to milliseconds. -/
theorem fileText_append_lt {t u : Timestamp} (ht : t.HasPlainYear) (hu : u.HasPlainYear)
    (rest : List Char) : t.fileText ++ rest < u.fileText ++ rest ↔ t.cut < u.cut := by
  obtain ⟨hlow, hhigh⟩ := id ht
  obtain ⟨hlow', hhigh'⟩ := id hu
  obtain ⟨-, -, -, hmonth, -, hday⟩ := t.utcDate.isDate
  obtain ⟨-, -, -, hmonth', -, hday'⟩ := u.utcDate.isDate
  have h31 := Date.daysIn_le t.utcDate.year t.utcDate.month
  have h31' := Date.daysIn_le u.utcDate.year u.utcDate.month
  have hm := t.utcMinute_lt
  have hm' := u.utcMinute_lt
  obtain ⟨-, -, hs, hn, -⟩ := t.isTime
  obtain ⟨-, -, hs', hn', -⟩ := u.isTime
  -- field by field, the first one that differs decides
  rw [fileText_eq ht, fileText_eq hu, fixed_append_lt (by omega) (by omega),
    fixed_append_lt (by omega) (by omega), fixed_append_lt (by omega) (by omega),
    List.cons_lt_cons_iff, fixed_append_lt (by omega) (by omega),
    fixed_append_lt (by omega) (by omega), fixed_append_lt (by omega) (by omega),
    List.cons_lt_cons_iff, fixed_append_lt (by omega) (by omega), cut_lt, Date.key_lt_iff, Date.eq_iff]
  have hend : ¬ 'Z' :: rest < 'Z' :: rest := List.lt_irrefl _
  simp only [Char.lt_irrefl, hend, false_or, true_and, and_false, or_false]
  omega

end Timestamp

end CropLedger
