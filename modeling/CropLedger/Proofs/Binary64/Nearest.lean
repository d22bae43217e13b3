import Mathlib.Algebra.Order.Field.Power
import Mathlib.Data.Rat.Cast.Order
import Mathlib.Tactic.FieldSimp
import Mathlib.Tactic.Linarith
import Mathlib.Tactic.Positivity
import Mathlib.Tactic.Ring
import CropLedger.Binary64.Basic

/-!
# How near the nearest double is

The double nearest to a fraction is off by at most half a step, where a step is the power of two
that its mantissa counts; just below a power of two the steps are half as long, and so is what it
may be off. A number that is a double already is not changed.

* `Binary64.value`: the number that a double is;
* `Binary64.floorLog_spec`: the power of two below a fraction;
* `Binary64.Near`: what is known of the double nearest to a number;
* `Binary64.near_nearest`, `Binary64.value_nearest`: rounding is near, and exact on doubles.
-/

namespace CropLedger

/-! ### Quotients -/

/-- A rounded quotient is off by at most a half. -/
theorem roundQuotient_bounds (num : Nat) {den : Nat} (h : 0 < den) :
    2 * num ≤ 2 * (roundQuotient num den * den) + den ∧
      2 * (roundQuotient num den * den) ≤ 2 * num + den := by
  have hsplit := Nat.div_add_mod num den
  have hrest := Nat.mod_lt num h
  rw [Nat.mul_comm] at hsplit
  simp only [roundQuotient]
  split_ifs with hbelow htie
  · omega
  · -- a tie goes up by one or not at all, and is off by exactly a half either way
    rcases Nat.mod_two_eq_zero_or_one (num / den) with hparity | hparity <;>
      rw [hparity] <;> simp only [Nat.add_zero, Nat.add_mul, Nat.one_mul] <;> omega
  · simp only [Nat.add_mul, Nat.one_mul]
    omega

theorem abs_roundQuotient_sub_le (num : Nat) {den : Nat} (h : 0 < den) :
    |(roundQuotient num den : ℚ) - num / den| ≤ 1 / 2 := by
  have hden : (0 : ℚ) < den := by exact_mod_cast h
  obtain ⟨hlow, hhigh⟩ := roundQuotient_bounds num h
  have hlow : (2 * num : ℚ) ≤ 2 * (roundQuotient num den * den) + den := by exact_mod_cast hlow
  have hhigh : 2 * (roundQuotient num den * den) ≤ (2 * num + den : ℚ) := by exact_mod_cast hhigh
  have hscaled : ((roundQuotient num den : ℚ) - num / den) * den =
      roundQuotient num den * den - num := by field_simp
  rw [abs_le]
  constructor
  · refine le_of_mul_le_mul_right ?_ hden
    linarith
  · refine le_of_mul_le_mul_right ?_ hden
    linarith

/-- A power of two as a fraction of natural numbers. -/
theorem two_zpow_eq (e : Int) : (2 : ℚ) ^ e = 2 ^ e.toNat / 2 ^ (-e).toNat := by
  have hsplit : e = (e.toNat : Int) - ((-e).toNat : Int) := by omega
  conv_lhs => rw [hsplit]
  rw [zpow_sub₀ two_ne_zero, zpow_natCast, zpow_natCast]

namespace Binary64

/-- The number that a double is. -/
def value (x : Binary64) : ℚ := x.mantissa * 2 ^ x.exponent

/-! ### The power of two below a fraction -/

theorem two_pow_log2_bounds {n : Nat} (h : 0 < n) :
    (2 : ℚ) ^ Nat.log2 n ≤ n ∧ (n : ℚ) < 2 ^ (Nat.log2 n + 1) := by
  have hne : n ≠ 0 := h.ne'
  refine ⟨?_, ?_⟩
  · exact_mod_cast Nat.log2_self_le hne
  · exact_mod_cast Nat.lt_log2_self

/-- The guess from the bit lengths is the logarithm, or one more. -/
theorem guess_bounds {num den : Nat} (hn : 0 < num) (hd : 0 < den) :
    (2 : ℚ) ^ ((Nat.log2 num : Int) - Nat.log2 den - 1) < num / den ∧
      (num : ℚ) / den < 2 ^ ((Nat.log2 num : Int) - Nat.log2 den + 1) := by
  have hden : (0 : ℚ) < den := by exact_mod_cast hd
  obtain ⟨hn₁, hn₂⟩ := two_pow_log2_bounds hn
  obtain ⟨hd₁, hd₂⟩ := two_pow_log2_bounds hd
  constructor
  · rw [sub_sub, zpow_sub₀ two_ne_zero, lt_div_iff₀ hden, ← Nat.cast_one, ← Nat.cast_add,
      zpow_natCast, zpow_natCast, div_mul_eq_mul_div, div_lt_iff₀ (by positivity)]
    calc (2 : ℚ) ^ Nat.log2 num * den ≤ num * den := by gcongr
      _ < num * 2 ^ (Nat.log2 den + 1) := by
        have hnum : (0 : ℚ) < num := by exact_mod_cast hn
        gcongr
  · rw [sub_add_eq_add_sub, zpow_sub₀ two_ne_zero, div_lt_iff₀ hden, ← Nat.cast_one,
      ← Nat.cast_add, zpow_natCast, zpow_natCast, div_mul_eq_mul_div,
      lt_div_iff₀ (by positivity)]
    calc (num : ℚ) * 2 ^ Nat.log2 den ≤ num * den := by gcongr
      _ < 2 ^ (Nat.log2 num + 1) * den := by gcongr

theorem floorLog_spec {num den : Nat} (hn : 0 < num) (hd : 0 < den) :
    (2 : ℚ) ^ floorLog num den ≤ num / den ∧ (num : ℚ) / den < 2 ^ (floorLog num den + 1) := by
  have hden : (0 : ℚ) < den := by exact_mod_cast hd
  obtain ⟨hlow, hhigh⟩ := guess_bounds hn hd
  generalize hguess : (Nat.log2 num : Int) - Nat.log2 den = guess at hlow hhigh
  have htest : den * Nat.pow 2 guess.toNat ≤ num * Nat.pow 2 (-guess).toNat ↔
      (2 : ℚ) ^ guess ≤ num / den := by
    rw [two_zpow_eq, div_le_div_iff₀ (by positivity) hden, mul_comm]
    exact_mod_cast Iff.rfl
  unfold floorLog
  simp only [hguess]
  by_cases h : den * Nat.pow 2 guess.toNat ≤ num * Nat.pow 2 (-guess).toNat
  · rw [if_pos h]
    exact ⟨htest.1 h, hhigh⟩
  · rw [if_neg h, sub_add_cancel]
    exact ⟨hlow.le, lt_of_not_ge fun hge => h (htest.2 hge)⟩

/-! ### The nearest double -/

/-- **What is known of the double nearest to a number** that is not too small: its mantissa has all
its bits, it is off by at most half a step, and by at most a quarter of its step if the number lies
below the power of two that it starts from. -/
structure Near (x : Binary64) (v : ℚ) : Prop where
  full : 2 ^ 52 ≤ x.mantissa
  fits : x.mantissa < 2 ^ 53
  close : |x.value - v| ≤ 2 ^ x.exponent / 2
  below : v < 2 ^ 52 * 2 ^ x.exponent → x.value - v ≤ 2 ^ x.exponent / 4

section Nearest

variable {num den : Nat}

/-- The exponent for a fraction that is not too small. -/
theorem max_exponent_eq (hn : 0 < num) (hd : 0 < den) (hv : (2 : ℚ) ^ (-1022 : Int) ≤ num / den) :
    max (-1074) (floorLog num den - 52) = floorLog num den - 52 := by
  have hlog : (2 : ℚ) ^ (-1022 : Int) < 2 ^ (floorLog num den + 1) :=
    hv.trans_lt (floorLog_spec hn hd).2
  have := (zpow_lt_zpow_iff_right₀ one_lt_two).1 hlog
  omega

/-- The quotient whose rounding is the mantissa. -/
theorem scaled_quotient_eq (num den : Nat) (e : Int) :
    ((num * Nat.pow 2 (-e).toNat : Nat) : ℚ) / ((den * Nat.pow 2 e.toNat : Nat) : ℚ) =
      num / den / 2 ^ e := by
  rw [two_zpow_eq e]
  push_cast [Nat.pow_eq]
  field_simp

/-- A quotient rounded to a full mantissa is near. -/
theorem near_of_rounded {m : Nat} {q : ℚ} {e : Int} (hlow : 2 ^ 52 ≤ q) (hfull : 2 ^ 52 ≤ m)
    (hfits : m < 2 ^ 53) (hround : |(m : ℚ) - q| ≤ 1 / 2) : Near ⟨m, e⟩ (q * 2 ^ e) := by
  have hstep : (0 : ℚ) < 2 ^ e := by positivity
  have hvalue : value ⟨m, e⟩ - q * 2 ^ e = (m - q) * 2 ^ e := by rw [value]; ring
  refine ⟨hfull, hfits, ?_, fun hbelow => ?_⟩
  · rw [hvalue, abs_mul, abs_of_pos hstep, div_eq_inv_mul, ← one_div]
    exact mul_le_mul_of_nonneg_right hround hstep.le
  · have hlt : q < 2 ^ 52 := lt_of_mul_lt_mul_right hbelow hstep.le
    linarith

/-- A quotient rounded up to one bit more is near: its mantissa is full again one exponent higher,
where a step is twice as long. -/
theorem near_of_carried {q : ℚ} {e : Int} (hhigh : q < 2 ^ 53) (hround : 2 ^ 53 - q ≤ 1 / 2) :
    Near ⟨Nat.pow 2 52, e + 1⟩ (q * 2 ^ e) := by
  have hstep : (0 : ℚ) < 2 ^ e := by positivity
  have hdouble : (2 : ℚ) ^ (e + 1) = 2 * 2 ^ e := by rw [zpow_add_one₀ two_ne_zero, mul_comm]
  have hvalue : value ⟨Nat.pow 2 52, e + 1⟩ - q * 2 ^ e = (2 ^ 53 - q) * 2 ^ e := by
    rw [value, hdouble]
    push_cast [Nat.pow_eq]
    ring
  have hnonneg : 0 ≤ (2 ^ 53 - q) * 2 ^ e := mul_nonneg (by linarith) hstep.le
  have hoff : (2 ^ 53 - q) * 2 ^ e ≤ 1 / 2 * 2 ^ e := mul_le_mul_of_nonneg_right hround hstep.le
  refine ⟨le_rfl, by norm_num, ?_, fun _ => ?_⟩
  · rw [hvalue, abs_of_nonneg hnonneg, hdouble]
    linarith
  · rw [hvalue, hdouble]
    linarith

/-- **The double nearest to a number is near.** -/
theorem near_nearest (hn : 0 < num) (hd : 0 < den) (hv : (2 : ℚ) ^ (-1022 : Int) ≤ num / den) :
    Near (nearest num den) (num / den) := by
  obtain ⟨hlow, hhigh⟩ := floorLog_spec hn hd
  unfold nearest
  simp only [hn.ne', if_false, max_exponent_eq hn hd hv]
  obtain ⟨e, he⟩ : ∃ e, floorLog num den = e + 52 := ⟨_, (sub_add_cancel _ 52).symm⟩
  rw [he, add_sub_cancel_right]
  rw [he] at hlow hhigh
  have hlow : 2 ^ 52 ≤ (num : ℚ) / den / 2 ^ e := by
    rw [le_div_iff₀ (by positivity), mul_comm]
    rwa [zpow_add₀ two_ne_zero] at hlow
  have hhigh : (num : ℚ) / den / 2 ^ e < 2 ^ 53 := by
    rw [div_lt_iff₀ (by positivity), mul_comm]
    rwa [add_assoc, zpow_add₀ two_ne_zero] at hhigh
  have hden : 0 < den * Nat.pow 2 e.toNat := Nat.mul_pos hd (Nat.pow_pos (by decide))
  have hround := abs_roundQuotient_sub_le (num * Nat.pow 2 (-e).toNat) hden
  rw [scaled_quotient_eq] at hround
  generalize roundQuotient (num * Nat.pow 2 (-e).toNat) (den * Nat.pow 2 e.toNat) = m at hround ⊢
  have hv : (num : ℚ) / den = num / den / 2 ^ e * 2 ^ e := by field_simp
  generalize (num : ℚ) / den / 2 ^ e = q at hlow hhigh hround hv
  rw [hv]
  obtain ⟨hbelow, habove⟩ := abs_le.1 hround
  have hfull : 2 ^ 52 ≤ m := by
    have : (2 ^ 52 : ℚ) < m + 1 := by linarith
    exact Nat.lt_succ_iff.1 (by exact_mod_cast this)
  have hle : m ≤ 2 ^ 53 := by
    have : (m : ℚ) < 2 ^ 53 + 1 := by linarith
    exact Nat.lt_succ_iff.1 (by exact_mod_cast this)
  by_cases hcarry : m = Nat.pow 2 53
  · subst hcarry
    rw [if_pos rfl]
    push_cast [Nat.pow_eq] at habove
    exact near_of_carried hhigh habove
  · rw [if_neg hcarry]
    exact near_of_rounded hlow hfull (lt_of_le_of_ne hle hcarry) hround

/-- **A number that is a double already is not changed.** -/
theorem value_nearest (hn : 0 < num) (hd : 0 < den) (hv : (2 : ℚ) ^ (-1022 : Int) ≤ num / den)
    {m : Nat} {f : Int} (hm : m < 2 ^ 53) (h : (num : ℚ) / den = m * 2 ^ f) :
    (nearest num den).value = num / den := by
  obtain ⟨hlow, hhigh⟩ := floorLog_spec hn hd
  unfold nearest
  simp only [hn.ne', if_false, max_exponent_eq hn hd hv]
  generalize hexp : floorLog num den - 52 = e
  have hef : e ≤ f := by
    have hlt : (2 : ℚ) ^ floorLog num den < 2 ^ (f + 53) := by
      calc (2 : ℚ) ^ floorLog num den ≤ m * 2 ^ f := h ▸ hlow
        _ < 2 ^ 53 * 2 ^ f := by
          have : (m : ℚ) < 2 ^ 53 := by exact_mod_cast hm
          gcongr
        _ = 2 ^ (f + 53) := by
          rw [zpow_add₀ two_ne_zero, mul_comm]
          norm_num
    have := (zpow_lt_zpow_iff_right₀ one_lt_two).1 hlt
    omega
  have hden : 0 < den * Nat.pow 2 e.toNat := Nat.mul_pos hd (Nat.pow_pos (by decide))
  -- the quotient is exact
  have hquot : num * Nat.pow 2 (-e).toNat = m * 2 ^ (f - e).toNat * (den * Nat.pow 2 e.toNat) := by
    have hcast : ((den * Nat.pow 2 e.toNat : Nat) : ℚ) ≠ 0 := by exact_mod_cast hden.ne'
    have hq := scaled_quotient_eq num den e
    rw [h, mul_div_assoc, ← zpow_sub₀ two_ne_zero, div_eq_iff hcast] at hq
    have hpow : (2 : ℚ) ^ (f - e) = ((2 ^ (f - e).toNat : Nat) : ℚ) := by
      rw [Nat.cast_pow, Nat.cast_ofNat, ← zpow_natCast, Int.toNat_of_nonneg (by omega)]
    rw [hpow] at hq
    exact_mod_cast hq
  rw [hquot, roundQuotient_mul _ _ hden]
  have hvalue : ((m * 2 ^ (f - e).toNat : Nat) : ℚ) * 2 ^ e = num / den := by
    rw [h, Nat.cast_mul, mul_assoc, Nat.cast_pow, Nat.cast_ofNat, ← zpow_natCast,
      ← zpow_add₀ two_ne_zero]
    congr 2
    omega
  split_ifs with hcarry
  · rw [value, ← hvalue, hcarry, zpow_add_one₀ two_ne_zero]
    push_cast [Nat.pow_eq]
    ring
  · exact hvalue

end Nearest

end Binary64

end CropLedger
