import CropLedger.Proofs.Binary64.Nearest
import CropLedger.Proofs.Decimal.Places

/-!
# The digits taken from a double

A double that is a whole number is read as it is. Of a double with a fraction digits are taken, and
given up from the last place on until they fit a mantissa, by rounding half up at each place. So the
digits at a place are off by up to five ninths of a unit, and not by half a unit. If the double is
near a decimal, then the digits at its places, and at later ones, are those of the decimal, or one
more; and one more only if the double exceeds the decimal by more than four ninths of a unit.

* `Decimal.ofDouble_of_value_eq`: whole numbers;
* `Decimal.Reading`: the digits taken from a double that is near a decimal;
* `Decimal.Reading.digits_eq`: the digits at a place;
* `Decimal.Reading.fitted_eq`: the places that are left;
* `Decimal.exists_reading`: fractions are read in this way.
-/

namespace CropLedger.Decimal

open Binary64 (Near)

/-! ### Whole numbers -/

/-- A double that is a whole number is read as that number. -/
theorem ofDouble_of_value_eq {x : Binary64} {n : Nat} (h : x.value = n) (hn : 0 < n)
    (hlt : n < 2 ^ 96) : ofDouble x = (n, 0) := by
  obtain ⟨mantissa, exponent⟩ := x
  have hpos : mantissa ≠ 0 := by
    rintro rfl
    rw [Binary64.value, Nat.cast_zero, zero_mul] at h
    exact hn.ne' (by exact_mod_cast h.symm)
  rw [ofDouble]
  simp only [hpos, if_false]
  rw [Binary64.value] at h
  by_cases hneg : exponent < 0
  · obtain ⟨halves, rfl⟩ := Int.exists_eq_neg_ofNat (by omega : exponent ≤ 0)
    have hmantissa : mantissa = n * 2 ^ halves := by
      rw [zpow_neg, zpow_natCast, ← div_eq_mul_inv, div_eq_iff (by positivity)] at h
      exact_mod_cast h
    simp only [hneg, if_true, neg_neg, Int.toNat_natCast, hmantissa, takeHalves_mul_pow]
    simp
  · obtain ⟨doublings, rfl⟩ := Int.eq_ofNat_of_zero_le (by omega : 0 ≤ exponent)
    have hmantissa : mantissa * 2 ^ doublings = n := by
      rw [zpow_natCast] at h
      exact_mod_cast h
    simp only [hneg, if_false, Int.toNat_natCast]
    rw [takeDoublings_of_lt (hmantissa ▸ hlt), hmantissa]
    simp

/-- The step of a double that may have a fraction. -/
theorem step_eq (halves : Nat) : (2 : ℚ) ^ (-(halves : Int)) = 1 / 2 ^ halves := by
  rw [zpow_neg, zpow_natCast, one_div]

theorem value_of_halves (mantissa halves : Nat) :
    Binary64.value ⟨mantissa, -(halves : Int)⟩ = mantissa / 2 ^ halves := by
  rw [Binary64.value, step_eq, mul_one_div]

/-! ### The digits at a place -/

/-- **The digits taken from a double that is near a decimal**: `digits` at `places` are the double
`mantissa * 2 ^ (-halves)`, or a little less; the decimal is `n` at `s` places. -/
structure Reading (mantissa halves digits places n s : Nat) : Prop where
  full : 2 ^ 52 ≤ mantissa
  fits : mantissa < 2 ^ 53
  close : |(mantissa : ℚ) / 2 ^ halves * 10 ^ s - n| ≤ 10 ^ s / 2 ^ halves / 2
  upper : (digits : ℚ) / 10 ^ places ≤ mantissa / 2 ^ halves
  lower : (mantissa : ℚ) / 2 ^ halves ≤
    digits / 10 ^ places + mantissa / 2 ^ halves * (1000 / 2 ^ 96)
  scale : 0 < s ∧ s ≤ 28
  positive : 0 < n
  short : n < 2 ^ 52
  last : n % 10 ≠ 0

/-- The digits at a place. -/
theorem digit_bounds (digits : Nat) {places r : Nat} (hr : r ≤ places) :
    (digits : ℚ) / 10 ^ places * 10 ^ r - 4 / 9 < dropDigit^[places - r] digits ∧
      (dropDigit^[places - r] digits : ℚ) < digits / 10 ^ places * 10 ^ r + 5 / 9 := by
  obtain ⟨hlow, hhigh⟩ := dropDigit_iterate_bounds (places - r) digits
  generalize dropDigit^[places - r] digits = a at hlow hhigh ⊢
  have hlow : (9 * digits + 4 : ℚ) ≤ 9 * 10 ^ (places - r) * a + 4 * 10 ^ (places - r) := by
    exact_mod_cast hlow
  have hhigh : 9 * 10 ^ (places - r) * a + 5 ≤ (9 * digits + 5 * 10 ^ (places - r) : ℚ) := by
    exact_mod_cast hhigh
  have hunit : (0 : ℚ) < 10 ^ (places - r) := by positivity
  have hquot : (digits : ℚ) / 10 ^ places * 10 ^ r = digits / 10 ^ (places - r) := by
    rw [div_mul_eq_mul_div, div_eq_div_iff (by positivity) (by positivity), mul_assoc, ← pow_add,
      Nat.add_sub_cancel' hr]
  have hdigits : (digits : ℚ) = digits / 10 ^ (places - r) * 10 ^ (places - r) := by field_simp
  rw [hquot]
  generalize (digits : ℚ) / 10 ^ (places - r) = q at hdigits
  rw [hdigits] at hlow hhigh
  constructor
  · refine lt_of_mul_lt_mul_right ?_ hunit.le
    linarith
  · refine lt_of_mul_lt_mul_right ?_ hunit.le
    linarith

namespace Reading

variable {mantissa halves digits places n s r : Nat}

/-- Half a step of the double is less than half a unit in the last place of the decimal. -/
theorem unit_lt (h : Reading mantissa halves digits places n s) : (10 : ℚ) ^ s < 2 ^ halves := by
  by_contra hge
  have hstep : (1 : ℚ) ≤ 10 ^ s / 2 ^ halves := by
    rw [le_div_iff₀ (by positivity), one_mul]
    exact not_lt.1 hge
  have hfull : (2 ^ 52 : ℚ) ≤ mantissa := by exact_mod_cast h.full
  have hshort : (n : ℚ) ≤ 2 ^ 52 - 1 := by
    have : (n : ℚ) + 1 ≤ 2 ^ 52 := by exact_mod_cast h.short
    linarith
  have hclose := (abs_le.1 h.close).2
  rw [div_mul_eq_mul_div, mul_div_assoc] at hclose
  nlinarith

/-- The decimal is near the double at every later place, too. -/
theorem close_at (h : Reading mantissa halves digits places n s) (hr : s ≤ r) :
    |(mantissa : ℚ) / 2 ^ halves * 10 ^ r - n * 10 ^ (r - s)| ≤ 10 ^ r / 2 ^ halves / 2 := by
  have hpow : (10 : ℚ) ^ r = 10 ^ s * 10 ^ (r - s) := by rw [← pow_add, Nat.add_sub_cancel' hr]
  have hscaled : (mantissa : ℚ) / 2 ^ halves * 10 ^ r - n * 10 ^ (r - s) =
      ((mantissa : ℚ) / 2 ^ halves * 10 ^ s - n) * 10 ^ (r - s) := by
    rw [hpow]
    ring
  have hunit : (0 : ℚ) < 10 ^ (r - s) := by positivity
  rw [hscaled, abs_mul, abs_of_pos hunit, hpow]
  calc _ ≤ (10 : ℚ) ^ s / 2 ^ halves / 2 * 10 ^ (r - s) :=
        mul_le_mul_of_nonneg_right h.close hunit.le
    _ = _ := by ring

/-- At places whose unit is longer than a step of the double, hardly anything of it is lost. -/
theorem loss_le (h : Reading mantissa halves digits places n s) (hr : (10 : ℚ) ^ r < 2 ^ halves) :
    (mantissa : ℚ) / 2 ^ halves * 10 ^ r ≤ digits / 10 ^ places * 10 ^ r + 1 / 1000 := by
  have hunit : (0 : ℚ) < 10 ^ r := by positivity
  have hfits : (mantissa : ℚ) < 2 ^ 53 := by exact_mod_cast h.fits
  have hwhole : (mantissa : ℚ) / 2 ^ halves * 10 ^ r ≤ 2 ^ 53 := by
    rw [div_mul_eq_mul_div, div_le_iff₀ (by positivity)]
    nlinarith
  have hlower := mul_le_mul_of_nonneg_right h.lower hunit.le
  linarith

/-- At places whose unit is no longer than a step of the double, the digits are too many. -/
theorem large_of_le (h : Reading mantissa halves digits places n s) (hplaces : r ≤ places)
    (hr : (2 : ℚ) ^ halves ≤ 10 ^ r) : 2 ^ 52 ≤ dropDigit^[places - r] digits := by
  have hunit : (0 : ℚ) < 10 ^ r := by positivity
  have hfull : (2 ^ 52 : ℚ) ≤ mantissa := by exact_mod_cast h.full
  have hwhole : (2 ^ 52 : ℚ) ≤ mantissa / 2 ^ halves * 10 ^ r := by
    rw [div_mul_eq_mul_div, le_div_iff₀ (by positivity)]
    nlinarith
  have hlower := mul_le_mul_of_nonneg_right h.lower hunit.le
  have hdigit := (digit_bounds digits hplaces).1
  have : (2 ^ 52 : ℚ) < dropDigit^[places - r] digits + 1 := by linarith
  exact Nat.lt_succ_iff.1 (by exact_mod_cast this)

/-- No place of the decimal has been taken out. -/
theorem le_places (h : Reading mantissa halves digits places n s) : s ≤ places := by
  by_contra hlt
  obtain ⟨k, rfl⟩ : ∃ k, s = places + (k + 1) := ⟨s - places - 1, by omega⟩
  have hloss := h.loss_le h.unit_lt
  have hwhole : (digits : ℚ) / 10 ^ places * 10 ^ (places + (k + 1)) =
      (digits * 10 ^ (k + 1) : Nat) := by
    rw [pow_add]
    push_cast
    field_simp
  have hunit : (0 : ℚ) < 10 ^ (places + (k + 1)) := by positivity
  have hupper := mul_le_mul_of_nonneg_right h.upper hunit.le
  have hstep : (10 : ℚ) ^ (places + (k + 1)) / 2 ^ halves < 1 :=
    (div_lt_one (by positivity)).2 h.unit_lt
  obtain ⟨hclose, hclose'⟩ := abs_le.1 h.close
  rw [hwhole] at hloss hupper
  have hle : ((digits * 10 ^ (k + 1) : Nat) : ℚ) < (n : ℚ) + 1 := by linarith
  have hge : (n : ℚ) < ((digits * 10 ^ (k + 1) : Nat) : ℚ) + 1 := by linarith
  have heq : n = digits * 10 ^ (k + 1) := by
    have hle : digits * 10 ^ (k + 1) < n + 1 := by exact_mod_cast hle
    have hge : n < digits * 10 ^ (k + 1) + 1 := by exact_mod_cast hge
    omega
  refine h.last ?_
  rw [heq, pow_succ, ← mul_assoc]
  exact Nat.mul_mod_left _ _

/-- **The digits at a place** whose unit is longer than a step of the double are those of the
decimal, or one more; and they are one more only if the double exceeds the decimal by more than four
ninths of a unit. -/
theorem digits_eq (h : Reading mantissa halves digits places n s) (hs : s ≤ r)
    (hplaces : r ≤ places) (hr : (10 : ℚ) ^ r < 2 ^ halves) :
    dropDigit^[places - r] digits = n * 10 ^ (r - s) ∨
      dropDigit^[places - r] digits = n * 10 ^ (r - s) + 1 ∧
        4 / 9 < (mantissa : ℚ) / 2 ^ halves * 10 ^ r - n * 10 ^ (r - s) := by
  have hunit : (0 : ℚ) < 10 ^ r := by positivity
  have hstep : (10 : ℚ) ^ r / 2 ^ halves < 1 := (div_lt_one (by positivity)).2 hr
  have hupper := mul_le_mul_of_nonneg_right h.upper hunit.le
  have hloss := h.loss_le hr
  obtain ⟨hclose, hclose'⟩ := abs_le.1 (h.close_at hs)
  obtain ⟨hlow, hhigh⟩ := digit_bounds digits hplaces
  generalize dropDigit^[places - r] digits = a at hlow hhigh ⊢
  have hcast : ((n * 10 ^ (r - s) : Nat) : ℚ) = n * 10 ^ (r - s) := by push_cast; rfl
  rw [← hcast] at hclose hclose' ⊢
  generalize n * 10 ^ (r - s) = k at hclose hclose' ⊢
  have hge : k < a + 1 := by
    have : (k : ℚ) < a + 1 := by linarith
    exact_mod_cast this
  have hle : a < k + 2 := by
    have : (a : ℚ) < k + 2 := by linarith
    exact_mod_cast this
  obtain rfl | rfl : a = k ∨ a = k + 1 := by omega
  · exact .inl rfl
  · refine .inr ⟨rfl, ?_⟩
    push_cast at hhigh
    linarith

end Reading

/-! ### The places that are left -/

/-- The digits and places that are left once the digits fit a mantissa. -/
def fitted (places digits : Nat) : Nat × Nat :=
  fitMantissa (cutPlaces places digits).2 (cutPlaces places digits).1

/-- What is left is what has lost its last digits, or nothing. -/
theorem fitted_spec (places digits : Nat) :
    fitted places digits = (0, 0) ∧ dropDigit^[places - min places 28] digits = 0 ∨
      ∃ r ≤ places, r ≤ 28 ∧ fitted places digits = (dropDigit^[places - r] digits, r) ∧
        (r = 0 ∨ dropDigit^[places - r] digits < 2 ^ 52) ∧
        ∀ r', r < r' → r' ≤ places → r' ≤ 28 → 2 ^ 52 ≤ dropDigit^[places - r'] digits := by
  rcases cutPlaces_spec places digits with hcut | ⟨hcut, hzero⟩
  · obtain ⟨r, hr, hfit, hsmall, habove⟩ :=
      fitMantissa_spec (min places 28) (dropDigit^[places - min places 28] digits)
    have hstep {r' : Nat} (hr' : r' ≤ min places 28) :
        dropDigit^[min places 28 - r'] (dropDigit^[places - min places 28] digits) =
          dropDigit^[places - r'] digits := by
      rw [← Function.iterate_add_apply]
      congr 1
      omega
    refine .inr ⟨r, by omega, by omega, ?_, hstep hr ▸ hsmall, fun r' h h' h'' => ?_⟩
    · rw [fitted, hcut, hfit, hstep hr]
    · have hr' : r' ≤ min places 28 := by omega
      rw [← hstep hr']
      exact habove r' h hr'
  · refine .inl ⟨?_, hzero⟩
    rw [fitted, hcut]
    rfl

/-- Of a decimal near a double all places are left, unless its digits just fit a mantissa. -/
theorem Reading.fitted_eq {mantissa halves digits places n s : Nat}
    (h : Reading mantissa halves digits places n s) :
    (∃ r, s ≤ r ∧ r ≤ places ∧ r ≤ 28 ∧
      fitted places digits = (dropDigit^[places - r] digits, r) ∧
      dropDigit^[places - r] digits < 2 ^ 52) ∨
    n + 1 = 2 ^ 52 ∧ 4 / 9 < (mantissa : ℚ) / 2 ^ halves * 10 ^ s - n := by
  have hown := h.digits_eq le_rfl h.le_places h.unit_lt
  rw [Nat.sub_self, pow_zero, pow_zero, mul_one, mul_one] at hown
  have hpositive : dropDigit^[places - s] digits ≠ 0 := by
    have := h.positive
    omega
  rcases fitted_spec places digits with ⟨-, hzero⟩ | ⟨r, hr, hr28, hfitted, hsmall, habove⟩
  · have hle : places - min places 28 ≤ places - s := by
      have hpoint := h.scale.2
      have := h.le_places
      omega
    exact absurd (dropDigit_iterate_eq_zero hzero hle) hpositive
  · rcases Nat.lt_or_ge r s with hlt | hge
    · -- the digits at the places of the decimal are too many, so they must have been rounded up
      have hlarge := habove s hlt h.le_places h.scale.2
      rcases hown with hown | ⟨hown, hoff⟩
      · exact absurd h.short (by omega)
      · exact .inr ⟨by have := h.short; omega, hoff⟩
    · have hpos : 0 < r := h.scale.1.trans_le hge
      exact .inl ⟨r, hge, hr, hr28, hfitted, hsmall.resolve_left hpos.ne'⟩

/-! ### Doubles with a fraction -/

/-- How a double that may have a fraction is read. -/
theorem ofDouble_of_neg {mantissa halves : Nat} (hm : mantissa ≠ 0) (hh : 0 < halves) :
    ∃ digits places,
      ofDouble ⟨mantissa, -(halves : Int)⟩ =
        dropZeros (fitted places digits).2 (fitted places digits).1 ∧
      (digits : ℚ) / 10 ^ places ≤ mantissa / 2 ^ halves ∧
      (mantissa : ℚ) / 2 ^ halves ≤
        digits / 10 ^ places + mantissa / 2 ^ halves * (5 * halves / 2 ^ 96) := by
  obtain ⟨digits, c, htake, hc, hupper, hlower⟩ :=
    takeHalves_spec halves mantissa (-(halves : Int))
  obtain ⟨places, rfl⟩ := Nat.exists_eq_add_of_le hc
  refine ⟨digits, places, ?_, ?_, ?_⟩
  · have hneg : -((c + places : Nat) : Int) < 0 := by omega
    have hpower : -((c + places : Nat) : Int) + c = -(places : Int) := by push_cast; ring
    rw [ofDouble]
    simp only [hm, if_false, hneg, if_true, neg_neg, Int.toNat_natCast, htake, hpower]
    rcases Nat.eq_zero_or_pos places with rfl | hplaces
    · simp [fitted, cutPlaces, fitMantissa, dropZeros]
    · rw [if_neg (by omega)]
      rfl
  all_goals
    have hscale : (0 : ℚ) < 10 ^ (c + places) := by positivity
    have hwhole : (mantissa : ℚ) * 5 ^ (c + places) =
        mantissa / 2 ^ (c + places) * 10 ^ (c + places) := by
      rw [show (10 : ℚ) = 2 * 5 by norm_num, mul_pow]
      field_simp
    have htaken : (digits : ℚ) * 10 ^ c = digits / 10 ^ places * 10 ^ (c + places) := by
      rw [pow_add]
      field_simp
  · have hupper : (digits : ℚ) * 10 ^ c ≤ mantissa * 5 ^ (c + places) := by exact_mod_cast hupper
    rw [hwhole, htaken] at hupper
    exact le_of_mul_le_mul_right hupper hscale
  · have hlower : (2 : ℚ) ^ 96 * (mantissa * 5 ^ (c + places)) ≤ 2 ^ 96 * (digits * 10 ^ c) +
        5 * (c + places : Nat) * (mantissa * 5 ^ (c + places)) := by exact_mod_cast hlower
    rw [hwhole, htaken] at hlower
    refine le_of_mul_le_mul_right ?_ hscale
    linarith

/-- No fraction is smaller than one unit in the last place. -/
theorem unit_le {n s : Nat} (hn : 0 < n) (hs : s ≤ 28) : (1 : ℚ) / 10 ^ 28 ≤ n / 10 ^ s := by
  have hn : (1 : ℚ) ≤ n := by exact_mod_cast hn
  have hpow : (10 : ℚ) ^ s ≤ 10 ^ 28 := pow_le_pow_right₀ (by norm_num) hs
  exact div_le_div₀ (by linarith) hn (by positivity) hpow

section Near

variable {mantissa : Nat} {v : ℚ}

/-- A double with no fraction is at least `2 ^ 52`, so it is near no smaller number. -/
theorem exponent_neg {exponent : Int} (hx : Near ⟨mantissa, exponent⟩ v) (hv : v ≤ 2 ^ 52 - 1) :
    exponent < 0 := by
  by_contra hge
  have hfull : (2 ^ 52 : ℚ) ≤ mantissa := by exact_mod_cast hx.full
  have hstep : (1 : ℚ) ≤ 2 ^ exponent := one_le_zpow₀ one_le_two (not_lt.1 hge)
  have habove := (abs_le.1 hx.close).2
  simp only [Binary64.value] at habove
  nlinarith

/-- A double with a long fraction is less than any decimal. -/
theorem halves_le {halves : Nat} (hx : Near ⟨mantissa, -(halves : Int)⟩ v)
    (hv : 1 / 10 ^ 28 ≤ v) : halves ≤ 200 := by
  by_contra hgt
  have hfits : (mantissa : ℚ) < 2 ^ 53 := by exact_mod_cast hx.fits
  have hbelow := (abs_le.1 hx.close).1
  rw [value_of_halves, step_eq] at hbelow
  have hpow : (2 : ℚ) ^ 200 ≤ 2 ^ halves := pow_le_pow_right₀ (by norm_num) (by omega)
  have hunit : (1 : ℚ) / 2 ^ halves ≤ 1 / 2 ^ 200 :=
    one_div_le_one_div_of_le (by positivity) hpow
  have hwhole : (mantissa : ℚ) / 2 ^ halves ≤ 2 ^ 53 / 2 ^ 200 :=
    div_le_div₀ (by positivity) hfits.le (by positivity) hpow
  norm_num at hv hwhole
  linarith [show (1 : ℚ) / 2 ^ 200 < 1 / 10 ^ 29 by norm_num]

end Near

/-- The digits of a fraction, taken from the double nearest to it. -/
theorem exists_reading {x : Binary64} {n s : Nat} (hx : Near x ((n : ℚ) / 10 ^ s))
    (hs : 0 < s ∧ s ≤ 28) (hn : 0 < n) (hlt : n < 2 ^ 52) (hlast : n % 10 ≠ 0) :
    ∃ halves digits places : Nat, x.exponent = -(halves : Int) ∧
      Reading x.mantissa halves digits places n s ∧
      ofDouble x = dropZeros (fitted places digits).2 (fitted places digits).1 := by
  obtain ⟨mantissa, exponent⟩ := x
  have hle : (n : ℚ) / 10 ^ s ≤ 2 ^ 52 - 1 := by
    have hn : (n : ℚ) + 1 ≤ 2 ^ 52 := by exact_mod_cast hlt
    calc (n : ℚ) / 10 ^ s ≤ n := div_le_self (Nat.cast_nonneg n) (one_le_pow₀ (by norm_num))
      _ ≤ 2 ^ 52 - 1 := by linarith
  have hneg := exponent_neg hx hle
  obtain ⟨halves, rfl⟩ := Int.exists_eq_neg_ofNat hneg.le
  have hpos : mantissa ≠ 0 := (Nat.lt_of_lt_of_le (by decide) hx.full).ne'
  obtain ⟨digits, places, hread, hupper, hlower⟩ := ofDouble_of_neg hpos (by omega : 0 < halves)
  refine ⟨halves, digits, places, rfl,
    ⟨hx.full, hx.fits, ?_, hupper, ?_, hs, hn, hlt, hlast⟩, hread⟩
  · have hunit : (0 : ℚ) < 10 ^ s := by positivity
    have hclose := hx.close
    rw [value_of_halves, step_eq] at hclose
    have hscaled : (mantissa : ℚ) / 2 ^ halves * 10 ^ s - n =
        (mantissa / 2 ^ halves - n / 10 ^ s) * 10 ^ s := by field_simp
    rw [hscaled, abs_mul, abs_of_pos hunit]
    calc _ ≤ (1 : ℚ) / 2 ^ halves / 2 * 10 ^ s := mul_le_mul_of_nonneg_right hclose hunit.le
      _ = _ := by ring
  · have hhalves : (halves : ℚ) ≤ 200 := by exact_mod_cast halves_le hx (unit_le hn hs.2)
    have hloss : (5 * halves : ℚ) / 2 ^ 96 ≤ 1000 / 2 ^ 96 := by gcongr; linarith
    exact hlower.trans (add_le_add_right (mul_le_mul_of_nonneg_left hloss (by positivity)) _)

end CropLedger.Decimal
