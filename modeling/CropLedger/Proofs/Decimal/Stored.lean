import CropLedger.Proofs.Decimal.Readings

/-!
# What the store makes of a value that was read from it

A decimal that has been read from the store is written as the nearest double and read again when it
is archived. A whole number comes back as it is. Of a fraction the double is off by at most half a
step, and half a step is less than half of the last place that is read. But the digits that are read
go up already beyond four ninths of a unit. Between four ninths and a half there is room at four
places only, where a power of ten is a little less than a power of two: `10 ^ 3`, `10 ^ 6`, `10 ^ 9`
and `10 ^ 12`. There a value may come back with one more unit in the last place, everywhere else it
comes back as it was.

* `Decimal.value`: the number that a decimal is;
* `Decimal.IsRead`: what can be read from the store;
* `Decimal.DriftsAt`: a value that comes back with one more unit;
* `Decimal.stored_stored`: what becomes of a value that was read from the store.
-/

namespace CropLedger.Decimal

open Binary64 (nearest Near near_nearest value_nearest)

/-- The number that a decimal is. -/
def value (d : Decimal) : ℚ := d.coefficient / 10 ^ d.scale

/-! ### What is read from the store -/

/-- **What can be read from the store**: a whole number that is a double, or a fraction without
trailing zeros whose digits fit a mantissa. The largest decimals are read as one that is neither. -/
inductive IsRead : Nat → Nat → Prop
  | whole {m e : Nat} (fits : m < 2 ^ 53) (bounded : m * 2 ^ e < 2 ^ 96) : IsRead (m * 2 ^ e) 0
  | fraction {n s : Nat} (scale : 0 < s ∧ s ≤ 28) (positive : 0 < n) (short : n < 2 ^ 52)
    (last : n % 10 ≠ 0) : IsRead n s
  | largest : IsRead (2 ^ 96 - 6) 0

theorem IsRead.of_lt {n : Nat} (h : n < 2 ^ 53) : IsRead n 0 := by
  have hread : IsRead (n * 2 ^ 0) 0 := .whole h (by omega)
  rwa [pow_zero, mul_one] at hread

theorem IsRead.bounded {n s : Nat} (h : IsRead n s) : n < 2 ^ 96 ∧ s ≤ 28 := by
  cases h with
  | whole fits bounded => exact ⟨bounded, Nat.zero_le _⟩
  | fraction scale positive short last => exact ⟨by omega, scale.2⟩
  | largest => exact ⟨by norm_num, Nat.zero_le _⟩

/-- Of a double that may have a fraction. -/
theorem isRead_dropZeros {mantissa halves digits places : Nat} (hfits : mantissa < 2 ^ 53)
    (hh : 0 < halves) (hupper : (digits : ℚ) / 10 ^ places ≤ mantissa / 2 ^ halves) :
    ∃ n s, dropZeros (fitted places digits).2 (fitted places digits).1 = (n, s) ∧ IsRead n s := by
  rcases fitted_spec places digits with ⟨hnone, -⟩ | ⟨r, hr, hr28, hfitted, hsmall, -⟩
  · exact ⟨0, 0, by rw [hnone]; rfl, .of_lt (by norm_num)⟩
  · obtain ⟨n, z, hdrop, hz, hdigits, hend⟩ := dropZeros_spec r (dropDigit^[places - r] digits)
    rw [hfitted]
    refine ⟨n, r - z, hdrop, ?_⟩
    have hle : n ≤ dropDigit^[places - r] digits :=
      hdigits ▸ Nat.le_mul_of_pos_right n (Nat.pow_pos (by decide))
    rcases Nat.lt_or_eq_of_le hz with hlt | rfl
    · have hlast : n % 10 ≠ 0 := hend.resolve_left hlt.ne
      refine .fraction (by omega) ?_ (hle.trans_lt (hsmall.resolve_left (by omega))) hlast
      exact Nat.pos_of_ne_zero fun hzero => hlast (by rw [hzero])
    · rw [Nat.sub_self]
      refine .of_lt (hle.trans_lt ?_)
      rcases hsmall with rfl | hsmall
      · -- a double with a fraction is less than `2 ^ 52`, and is rounded up by less than a unit
        have hhigh := (digit_bounds digits hr).2
        have hfits : (mantissa : ℚ) < 2 ^ 53 := by exact_mod_cast hfits
        have htwo : (2 : ℚ) ≤ 2 ^ halves := le_self_pow₀ one_le_two hh.ne'
        have hwhole : (mantissa : ℚ) / 2 ^ halves ≤ 2 ^ 53 / 2 :=
          div_le_div₀ (by positivity) hfits.le (by norm_num) htwo
        rw [pow_zero, mul_one] at hhigh
        have : (dropDigit^[places - 0] digits : ℚ) < 2 ^ 53 := by linarith
        exact_mod_cast this
      · omega

/-- The double nearest to a decimal that is not zero. -/
theorem near_toDouble {n s : Nat} (hn : 0 < n) (hs : s ≤ 28) :
    Near (nearest n (Nat.pow 10 s)) ((n : ℚ) / 10 ^ s) := by
  have hleast : (2 : ℚ) ^ (-1022 : Int) ≤ n / (Nat.pow 10 s : Nat) := by
    rw [Nat.pow_eq, Nat.cast_pow, Nat.cast_ofNat]
    calc (2 : ℚ) ^ (-1022 : Int) ≤ 2 ^ (-94 : Int) :=
          zpow_le_zpow_right₀ one_le_two (by norm_num)
      _ ≤ 1 / 10 ^ 28 := by norm_num
      _ ≤ n / 10 ^ s := unit_le hn hs
  have hnear := near_nearest hn (Nat.pow_pos (n := s) (by decide : 0 < 10)) hleast
  rwa [Nat.cast_pow, Nat.cast_ofNat] at hnear

/-- Of a double without a fraction. No decimal reaches `2 ^ 96`, but the nearest double may. -/
theorem isRead_of_whole {mantissa doublings : Nat} {v : ℚ} (hx : Near ⟨mantissa, doublings⟩ v)
    (hv : v < 2 ^ 96) : ∃ n s, ofDouble ⟨mantissa, doublings⟩ = (n, s) ∧ IsRead n s := by
  have hfull : (2 ^ 52 : ℚ) ≤ mantissa := by exact_mod_cast hx.full
  have habove := (abs_le.1 hx.close).2
  rw [Binary64.value, zpow_natCast] at habove
  rcases Nat.lt_or_ge doublings 44 with hlt | hge
  · have hbounded : mantissa * 2 ^ doublings < 2 ^ 96 := by
      calc mantissa * 2 ^ doublings < 2 ^ 53 * 2 ^ doublings :=
            Nat.mul_lt_mul_of_pos_right hx.fits (Nat.pow_pos (by decide))
        _ ≤ 2 ^ 53 * 2 ^ 43 := Nat.mul_le_mul_left _ (Nat.pow_le_pow_right (by decide) (by omega))
        _ = 2 ^ 96 := by norm_num
    have hpos : 0 < mantissa * 2 ^ doublings :=
      Nat.mul_pos (Nat.lt_of_lt_of_le (by decide) hx.full) (Nat.pow_pos (by decide))
    refine ⟨_, 0, ofDouble_of_value_eq ?_ hpos hbounded, .whole hx.fits hbounded⟩
    rw [Binary64.value, zpow_natCast]
    push_cast
    rfl
  · have hdoublings : doublings = 44 := by
      by_contra hne
      have hpow : (2 : ℚ) ^ 45 ≤ 2 ^ doublings := pow_le_pow_right₀ one_le_two (by omega)
      have hlarge := mul_le_mul (by linarith : (2 ^ 52 - 1 / 2 : ℚ) ≤ mantissa - 1 / 2) hpow
        (by norm_num) (by linarith)
      linarith
    subst hdoublings
    have hmantissa : mantissa = 2 ^ 52 := by
      have hlt : (mantissa : ℚ) < 2 ^ 52 + 1 := by linarith
      exact le_antisymm (Nat.lt_succ_iff.1 (by exact_mod_cast hlt)) hx.full
    subst hmantissa
    exact ⟨2 ^ 96 - 6, 0, by decide +kernel, .largest⟩

/-- Whatever decimal was written, what is read can be read. -/
theorem exists_isRead {n s : Nat} (hn : n < 2 ^ 96) (hs : s ≤ 28) :
    ∃ n' s', ofDouble (nearest n (Nat.pow 10 s)) = (n', s') ∧ IsRead n' s' := by
  rcases Nat.eq_zero_or_pos n with rfl | hpos
  · exact ⟨0, 0, rfl, .of_lt (by norm_num)⟩
  have hx := near_toDouble hpos hs
  have hv : (n : ℚ) / 10 ^ s < 2 ^ 96 := by
    calc (n : ℚ) / 10 ^ s ≤ n := div_le_self (Nat.cast_nonneg n) (one_le_pow₀ (by norm_num))
      _ < 2 ^ 96 := by exact_mod_cast hn
  generalize nearest n (Nat.pow 10 s) = x at hx
  obtain ⟨mantissa, exponent⟩ := x
  rcases Int.lt_or_le exponent 0 with hneg | hge
  · obtain ⟨halves, rfl⟩ := Int.exists_eq_neg_ofNat hneg.le
    have hne : mantissa ≠ 0 := (Nat.lt_of_lt_of_le (by decide) hx.full).ne'
    obtain ⟨digits, places, hread, hupper, -⟩ := ofDouble_of_neg hne (by omega : 0 < halves)
    rw [hread]
    exact isRead_dropZeros hx.fits (by omega) hupper
  · obtain ⟨doublings, rfl⟩ := Int.eq_ofNat_of_zero_le hge
    exact isRead_of_whole hx hv

/-! ### Reading again -/

/-- The places at which half a step of a double may be more than four ninths of a unit, each with
the power of two from which on it is. -/
def drifts : List (Nat × Nat) := [(12, 12), (9, 22), (6, 32), (3, 42)]

/-- There are no other such places. -/
theorem mem_drifts {r halves : Nat} (hr : r ≤ 28) (hunit : (10 : ℚ) ^ r < 2 ^ halves)
    (hoff : 8 * (2 : ℚ) ^ halves < 9 * 10 ^ r) : halves ≤ 52 ∧ (r, 52 - halves) ∈ drifts := by
  have hunit : 10 ^ r < 2 ^ halves := by exact_mod_cast hunit
  have hoff : 8 * 2 ^ halves < 9 * 10 ^ r := by exact_mod_cast hoff
  have hhalves : halves < 94 := by
    refine (Nat.pow_lt_pow_iff_right (by decide : 1 < 2)).1 ?_
    have hpow : 10 ^ r ≤ 10 ^ 28 := Nat.pow_le_pow_right (by decide) hr
    have hlarge : 9 * 10 ^ 28 < 8 * 2 ^ 94 := by norm_num
    omega
  have hall : ∀ (r : Fin 29) (halves : Fin 94), 10 ^ r.1 < 2 ^ halves.1 →
      8 * 2 ^ halves.1 < 9 * 10 ^ r.1 → halves.1 ≤ 52 ∧ (r.1, 52 - halves.1) ∈ drifts := by
    decide +kernel
  exact hall ⟨r, by omega⟩ ⟨halves, hhalves⟩ hunit hoff

/-- Half a step of a double near a decimal is more than four ninths of a unit at few places only. -/
theorem Reading.mem_drifts {mantissa halves digits places n s r : Nat}
    (h : Reading mantissa halves digits places n s) (hs : s ≤ r) (hr : r ≤ 28)
    (hunit : (10 : ℚ) ^ r < 2 ^ halves)
    (hoff : 4 / 9 < (mantissa : ℚ) / 2 ^ halves * 10 ^ r - n * 10 ^ (r - s)) :
    halves ≤ 52 ∧ (r, 52 - halves) ∈ drifts := by
  refine Decimal.mem_drifts hr hunit ?_
  have hclose := (abs_le.1 (h.close_at hs)).2
  have hstep : (8 / 9 : ℚ) < 10 ^ r / 2 ^ halves := by linarith
  rw [lt_div_iff₀ (by positivity)] at hstep
  linarith

/-- The numbers whose digits just fit a mantissa come back as they were. -/
theorem ofDouble_nearest_of_just_fits {s low : Nat} (h : (s, low) ∈ drifts) :
    ofDouble (nearest (2 ^ 52 - 1) (Nat.pow 10 s)) = (2 ^ 52 - 1, s) := by
  have hall : ∀ d ∈ drifts,
      ofDouble (nearest (2 ^ 52 - 1) (Nat.pow 10 d.1)) = (2 ^ 52 - 1, d.1) := by decide +kernel
  have hd := hall (s, low) h
  dsimp only at hd
  exact hd

/-- Places that hold zero are given up. -/
theorem dropZeros_mul_pow {n s r : Nat} (hs : s ≤ r) (hn : n % 10 ≠ 0) :
    dropZeros r (n * 10 ^ (r - s)) = (n, s) := by
  obtain ⟨k, rfl⟩ := Nat.exists_eq_add_of_le hs
  rw [Nat.add_sub_cancel_left]
  induction k with
  | zero =>
    cases s with
    | zero => simp [dropZeros]
    | succ s => simp [dropZeros, hn]
  | succ k ih =>
    rw [pow_succ, ← mul_assoc, ← add_assoc, dropZeros, if_pos (Nat.mul_mod_left _ _),
      Nat.mul_div_cancel _ (by decide)]
    exact ih (Nat.le_add_right _ _)

/-- **A value that comes back with one more unit**: the place of the unit, and the power of two that
the value is not below. -/
structure DriftsAt (w : Decimal) (places low : Nat) : Prop where
  listed : (places, low) ∈ drifts
  above : 2 ^ low ≤ w.value
  under : w.value < 2 ^ 52 / 10 ^ places
  off : 4 / 9 / 10 ^ places < w.toDouble.value - w.value
  up : w.stored.value = w.value + 1 / 10 ^ places

/-- Only large values change. -/
theorem DriftsAt.large {w : Decimal} {places low : Nat} (h : w.DriftsAt places low) :
    2 ^ 12 ≤ w.value := by
  have hlow : ∀ place ∈ drifts, 12 ≤ place.2 := by decide
  calc (2 : ℚ) ^ 12 ≤ 2 ^ low := pow_le_pow_right₀ one_le_two (hlow _ h.listed)
    _ ≤ w.value := h.above

theorem eq_of_parts {d d' : Decimal} (hc : d.coefficient = d'.coefficient)
    (hs : d.scale = d'.scale) : d = d' := by
  obtain ⟨c, s, h⟩ := d
  obtain ⟨c', s', h'⟩ := d'
  obtain rfl : c = c' := hc
  obtain rfl : s = s' := hs
  rfl

section Parts

variable {w : Decimal} {n s : Nat}

theorem toDouble_eq (hc : w.coefficient = (n : Nat)) (hs : w.scale = s) :
    w.toDouble = nearest n (Nat.pow 10 s) := by
  rw [toDouble, hc, hs, Int.natAbs_natCast]

theorem value_eq (hc : w.coefficient = (n : Nat)) (hs : w.scale = s) :
    w.value = n / 10 ^ s := by
  rw [value, hc, hs, Int.cast_natCast]

/-- What is read of a decimal without a sign. -/
theorem stored_parts (hc : w.coefficient = (n : Nat)) {n' s' : Nat}
    (hread : ofDouble w.toDouble = (n', s')) (hn' : n' < 2 ^ 96) (hs' : s' ≤ 28) :
    w.stored.coefficient = (n' : Nat) ∧ w.stored.scale = s' := by
  have hsign : w.isNegative = false := by
    rw [isNegative, hc]
    exact decide_eq_false (Int.not_lt.2 (Int.natCast_nonneg n))
  have hmin : min n' (Nat.pow 2 96 - 1) = n' := by
    rw [Nat.pow_eq]
    omega
  simp only [stored, hread, hsign, saturated, hmin, Nat.min_eq_left hs']
  exact ⟨rfl, trivial⟩

/-- A decimal that is read as it was written. -/
theorem stored_eq_self (hc : w.coefficient = (n : Nat)) (hs : w.scale = s)
    (hread : ofDouble w.toDouble = (n, s)) (h : IsRead n s) : w.stored = w := by
  obtain ⟨hc', hs'⟩ := stored_parts hc hread h.bounded.1 h.bounded.2
  exact eq_of_parts (hc'.trans hc.symm) (hs'.trans hs.symm)

/-- Below the power of two that a double starts from, the steps are half as long, and half a step is
less than four ninths of a unit. -/
theorem pow_le_of_off {x : Binary64} {v : ℚ} (hx : Near x v) {halves r : Nat}
    (hexponent : x.exponent = -(halves : Int)) (hhalves : halves ≤ 52)
    (hunit : (10 : ℚ) ^ r < 2 ^ halves) (hoff : 4 / 9 < (x.value - v) * 10 ^ r) :
    2 ^ (52 - halves) ≤ v := by
  by_contra hlt
  have hpow : (0 : ℚ) < 10 ^ r := by positivity
  rw [not_le, pow_sub₀ 2 two_ne_zero hhalves, ← one_div, ← step_eq, ← hexponent] at hlt
  have hclose := mul_le_mul_of_nonneg_right (hx.below hlt) hpow.le
  rw [hexponent, step_eq] at hclose
  have hquarter : (1 : ℚ) / 2 ^ halves / 4 * 10 ^ r < 1 / 4 := by
    rw [div_mul_eq_mul_div, div_lt_div_iff_of_pos_right (by norm_num), one_div_mul_eq_div]
    exact (div_lt_one (by positivity)).2 hunit
  linarith

/-- A decimal whose digits are read as one more at a place comes back with one more unit. -/
theorem driftsAt_of_digits (hc : w.coefficient = (n : Nat)) (hs : w.scale = s) {halves r : Nat}
    (hx : Near w.toDouble (n / 10 ^ s)) (hexponent : w.toDouble.exponent = -(halves : Int))
    (hsr : s ≤ r) (hunit : (10 : ℚ) ^ r < 2 ^ halves)
    (hoff : 4 / 9 < (w.toDouble.mantissa : ℚ) / 2 ^ halves * 10 ^ r - n * 10 ^ (r - s))
    (hdrifts : halves ≤ 52 ∧ (r, 52 - halves) ∈ drifts)
    (hsmall : n * 10 ^ (r - s) + 1 < 2 ^ 52) (hr28 : r ≤ 28)
    (hread : ofDouble w.toDouble = dropZeros r (n * 10 ^ (r - s) + 1)) :
    w.DriftsAt r (52 - halves) := by
  obtain ⟨n', z, hdrop, hz, hsplit, -⟩ := dropZeros_spec r (n * 10 ^ (r - s) + 1)
  have hle : n' ≤ n * 10 ^ (r - s) + 1 :=
    hsplit ▸ Nat.le_mul_of_pos_right n' (Nat.pow_pos (by decide))
  obtain ⟨hc', hs'⟩ := stored_parts hc (hread.trans hdrop) (by omega) (by omega)
  have hpow : (0 : ℚ) < 10 ^ r := by positivity
  have hvalue : w.value * 10 ^ r = n * 10 ^ (r - s) := by
    rw [value_eq hc hs, ← Nat.add_sub_cancel' hsr, pow_add, Nat.add_sub_cancel_left]
    field_simp
  have hdouble : w.toDouble.value = w.toDouble.mantissa / 2 ^ halves := by
    rw [Binary64.value, hexponent, step_eq, mul_one_div]
  rw [← hdouble, ← hvalue, ← sub_mul] at hoff
  refine ⟨hdrifts.2, ?_, ?_, ?_, ?_⟩
  · rw [value_eq hc hs] at hoff ⊢
    exact pow_le_of_off hx hexponent hdrifts.1 hunit hoff
  · rw [lt_div_iff₀ hpow, hvalue]
    have hlt : n * 10 ^ (r - s) < 2 ^ 52 := by omega
    exact_mod_cast hlt
  · rwa [div_lt_iff₀ hpow]
  · have hunits : (w.value + 1 / 10 ^ r) * 10 ^ r = n' * 10 ^ z := by
      rw [add_mul, hvalue, one_div, inv_mul_cancel₀ hpow.ne']
      exact_mod_cast hsplit
    have hzeros : (0 : ℚ) < 10 ^ z := by positivity
    rw [value, hc', hs', Int.cast_natCast, div_eq_iff (by positivity)]
    refine mul_right_cancel₀ hzeros.ne' ?_
    rw [mul_assoc, ← pow_add, Nat.sub_add_cancel hz, hunits]

/-- **A fraction comes back as it was, or with one more unit.** -/
theorem stored_fraction (hc : w.coefficient = (n : Nat)) (hs : w.scale = s)
    (scale : 0 < s ∧ s ≤ 28) (positive : 0 < n) (short : n < 2 ^ 52) (last : n % 10 ≠ 0) :
    w.stored = w ∨ ∃ places low, w.DriftsAt places low := by
  have hx : Near w.toDouble (n / 10 ^ s) := by
    rw [toDouble_eq hc hs]
    exact near_toDouble positive scale.2
  obtain ⟨halves, digits, places, hexponent, h, hread⟩ :=
    exists_reading hx scale positive short last
  have hisRead : IsRead n s := .fraction scale positive short last
  rcases h.fitted_eq with ⟨r, hsr, hr, hr28, hfitted, hsmall⟩ | ⟨hfull, hoff⟩
  · have hunit : (10 : ℚ) ^ r < 2 ^ halves := by
      by_contra hge
      exact absurd (h.large_of_le hr (not_lt.1 hge)) (Nat.not_le.2 hsmall)
    rw [hfitted] at hread
    rcases h.digits_eq hsr hr hunit with hdigits | ⟨hdigits, hoff⟩
    · rw [hdigits, dropZeros_mul_pow hsr last] at hread
      exact .inl (stored_eq_self hc hs hread hisRead)
    · rw [hdigits] at hread hsmall
      exact .inr ⟨r, 52 - halves, driftsAt_of_digits hc hs hx hexponent hsr hunit hoff
        (h.mem_drifts hsr hr28 hunit hoff) hsmall hr28 hread⟩
  · have hmem := (h.mem_drifts le_rfl scale.2 h.unit_lt (by simpa using hoff)).2
    obtain rfl : n = 2 ^ 52 - 1 := by omega
    refine .inl (stored_eq_self hc hs ?_ hisRead)
    rw [toDouble_eq hc hs]
    exact ofDouble_nearest_of_just_fits hmem

/-- **A whole number comes back as it was.** -/
theorem stored_whole {m e : Nat} (hc : w.coefficient = (m * 2 ^ e : Nat)) (hs : w.scale = 0)
    (fits : m < 2 ^ 53) (bounded : m * 2 ^ e < 2 ^ 96) : w.stored = w := by
  refine stored_eq_self hc hs ?_ (.whole fits bounded)
  rw [toDouble_eq hc hs]
  rcases Nat.eq_zero_or_pos (m * 2 ^ e) with hzero | hpos
  · rw [hzero]
    rfl
  · refine ofDouble_of_value_eq ?_ hpos bounded
    have hwhole : ((m * 2 ^ e : Nat) : ℚ) / (Nat.pow 10 0 : Nat) = (m * 2 ^ e : Nat) := by
      rw [Nat.pow_eq, pow_zero, Nat.cast_one, div_one]
    have hleast : (2 : ℚ) ^ (-1022 : Int) ≤ (m * 2 ^ e : Nat) / (Nat.pow 10 0 : Nat) := by
      rw [hwhole]
      calc (2 : ℚ) ^ (-1022 : Int) ≤ 1 := zpow_le_one_of_nonpos₀ one_le_two (by norm_num)
        _ ≤ (m * 2 ^ e : Nat) := by exact_mod_cast hpos
    have hsplit : ((m * 2 ^ e : Nat) : ℚ) / (Nat.pow 10 0 : Nat) = m * 2 ^ (e : Int) := by
      rw [hwhole, zpow_natCast]
      push_cast
      rfl
    exact (value_nearest hpos (by decide) hleast fits hsplit).trans hwhole

/-- The largest decimals come back as they were once they have been read. -/
theorem stored_largest (hc : w.coefficient = (2 ^ 96 - 6 : Nat)) (hs : w.scale = 0) :
    w.stored = w := by
  refine stored_eq_self hc hs ?_ .largest
  rw [toDouble_eq hc hs]
  decide +kernel

theorem stored_of_isRead (hc : w.coefficient = (n : Nat)) (hs : w.scale = s) (h : IsRead n s) :
    w.stored = w ∨ ∃ places low, w.DriftsAt places low := by
  cases h with
  | whole fits bounded => exact .inl (stored_whole hc hs fits bounded)
  | fraction scale positive short last => exact stored_fraction hc hs scale positive short last
  | largest => exact .inl (stored_largest hc hs)

end Parts

/-- What the store gives back of a decimal that is not below zero. -/
theorem exists_isRead_stored {d : Decimal} (hd : d.isNegative = false) :
    ∃ n s, d.stored.coefficient = (n : Nat) ∧ d.stored.scale = s ∧ IsRead n s := by
  have hc : d.coefficient = (d.coefficient.natAbs : Nat) :=
    (Int.natAbs_of_nonneg (Int.not_lt.1 (of_decide_eq_false hd))).symm
  obtain ⟨n, s, hread, h⟩ := exists_isRead d.bounded.1 d.bounded.2
  obtain ⟨hn, hs⟩ := stored_parts hc hread h.bounded.1 h.bounded.2
  exact ⟨n, s, hn, hs, h⟩

/-- **What becomes of a value that was read from the store** when it is written and read once more:
it is as it was, unless it is one of those that come back with one more unit. -/
theorem stored_stored {d : Decimal} (hd : d.isNegative = false) :
    d.stored.stored = d.stored ∨ ∃ places low, d.stored.DriftsAt places low := by
  obtain ⟨n, s, hc, hs, h⟩ := exists_isRead_stored hd
  exact stored_of_isRead hc hs h

end CropLedger.Decimal
