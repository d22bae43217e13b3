import Mathlib.Algebra.Order.Ring.Nat
import Mathlib.Tactic.Linarith
import Mathlib.Tactic.Ring
import CropLedger.Decimal.Column

/-!
# Giving up places

How the steps by which a decimal is read from a double change its digits. Halves are taken out
against places of a power of ten with next to no loss. Places are then given up one by one, each
rounded half up: so a number is rounded more than once, and goes up already if what is given up is
more than four ninths of a unit.

* `Decimal.takeHalves_spec`: what taking out halves keeps;
* `Decimal.dropDigit_iterate_bounds`: digits given up one by one;
* `Decimal.cutPlaces_spec`, `Decimal.fitMantissa_spec`, `Decimal.dropZeros_spec`: the places that
  are left in the end.
-/

namespace CropLedger.Decimal

/-! ### Halves and doublings -/

/-- As many factors of two as there are halves are taken out exactly. -/
theorem takeHalves_mul_pow (halves n : Nat) (power : Int) :
    takeHalves halves (n * 2 ^ halves) power = (n, power + halves) := by
  induction halves generalizing power with
  | zero => simp [takeHalves]
  | succ halves ih =>
    have heven : n * 2 ^ (halves + 1) % 2 = 0 := by
      rw [pow_succ, ← mul_assoc]
      exact Nat.mul_mod_left _ _
    have hhalf : n * 2 ^ (halves + 1) / 2 = n * 2 ^ halves := by
      rw [pow_succ, ← mul_assoc]
      exact Nat.mul_div_cancel _ (by decide)
    rw [takeHalves, if_pos heven, hhalf, ih]
    push_cast
    congr 1
    ring

/-- **What taking out halves keeps**: `c` of them are paid for by the mantissa, which moves the
point; the number never grows, and each half costs it at most a part in `2 ^ 96 / 5`. -/
theorem takeHalves_spec (halves m : Nat) (power : Int) :
    ∃ n c, takeHalves halves m power = (n, power + (c : Nat)) ∧ c ≤ halves ∧
      n * 10 ^ c ≤ m * 5 ^ halves ∧
      2 ^ 96 * (m * 5 ^ halves) ≤ 2 ^ 96 * (n * 10 ^ c) + 5 * halves * (m * 5 ^ halves) := by
  induction halves generalizing m power with
  | zero => exact ⟨m, 0, by simp [takeHalves], le_rfl, by simp, by simp⟩
  | succ halves ih =>
    rw [takeHalves]
    split_ifs with heven hroom
    · obtain ⟨n, c, htake, hc, hupper, hlower⟩ := ih (m / 2) (power + 1)
      have hm : m = 2 * (m / 2) := by omega
      have hall : m * 5 ^ (halves + 1) = 10 * (m / 2 * 5 ^ halves) := by
        rw [pow_succ]
        nlinarith [hm, Nat.pow_pos (n := halves) (show 0 < 5 by decide)]
      refine ⟨n, c + 1, ?_, by omega, ?_, ?_⟩
      · rw [htake]
        push_cast
        congr 1
        ring
      · rw [hall, pow_succ 10 c]
        linarith
      · rw [hall, pow_succ 10 c]
        linarith [Nat.zero_le (m / 2 * 5 ^ halves)]
    · obtain ⟨n, c, htake, hc, hupper, hlower⟩ := ih (m * 5) power
      have hall : m * 5 ^ (halves + 1) = m * 5 * 5 ^ halves := by ring
      refine ⟨n, c, htake, by omega, hall ▸ hupper, ?_⟩
      rw [hall]
      linarith [Nat.zero_le (m * 5 * 5 ^ halves)]
    · -- there is no room: the last bit is lost, which is little since the mantissa is large
      obtain ⟨n, c, htake, hc, hupper, hlower⟩ := ih (m / 2) (power + 1)
      have hm : m = 2 * (m / 2) + 1 := by omega
      have hall : m * 5 ^ (halves + 1) = 10 * (m / 2 * 5 ^ halves) + 5 ^ (halves + 1) := by
        conv_lhs => rw [hm]
        ring
      have hlarge : 2 ^ 96 * 5 ^ (halves + 1) ≤ 5 * (m * 5 ^ (halves + 1)) := by
        rw [← mul_assoc 5]
        exact Nat.mul_le_mul_right _ (Nat.not_lt.1 hroom)
      refine ⟨n, c + 1, ?_, by omega, ?_, ?_⟩
      · rw [htake]
        push_cast
        congr 1
        ring
      · rw [hall, pow_succ 10 c]
        linarith [Nat.zero_le (5 ^ (halves + 1))]
      · rw [hall] at hlarge ⊢
        rw [pow_succ 10 c]
        linarith [Nat.zero_le (halves * 5 ^ (halves + 1))]

/-- While there is room, doublings are taken in exactly. -/
theorem takeDoublings_of_lt {doublings m : Nat} {power : Int} (h : m * 2 ^ doublings < 2 ^ 96) :
    takeDoublings doublings m power = (m * 2 ^ doublings, power - doublings) := by
  induction doublings generalizing m power with
  | zero => simp [takeDoublings]
  | succ doublings ih =>
    have hsplit : m * 2 ^ (doublings + 1) = m * 2 * 2 ^ doublings := by ring
    have hroom : m < Nat.pow 2 95 := by
      have : m * 2 * 1 ≤ m * 2 * 2 ^ doublings :=
        Nat.mul_le_mul_left _ (Nat.pow_pos (by decide))
      rw [Nat.pow_eq]
      omega
    rw [takeDoublings, if_pos hroom, ih (hsplit ▸ h), hsplit]
    push_cast
    congr 1
    ring

/-! ### Digits given up one by one -/

theorem dropDigit_bounds (m : Nat) : m ≤ 10 * dropDigit m + 4 ∧ 10 * dropDigit m ≤ m + 5 := by
  unfold dropDigit
  split_ifs <;> omega

/-- **Digits given up one by one.** Rounding half up again and again rounds up whatever exceeds four
ninths of a unit, and no less. -/
theorem dropDigit_iterate_bounds (t m : Nat) :
    9 * m + 4 ≤ 9 * 10 ^ t * dropDigit^[t] m + 4 * 10 ^ t ∧
      9 * 10 ^ t * dropDigit^[t] m + 5 ≤ 9 * m + 5 * 10 ^ t := by
  induction t with
  | zero => simp
  | succ t ih =>
    obtain ⟨hlow, hhigh⟩ := ih
    rw [Function.iterate_succ_apply']
    generalize dropDigit^[t] m = a at hlow hhigh ⊢
    obtain ⟨ha, ha'⟩ := dropDigit_bounds a
    rw [pow_succ]
    constructor
    · calc 9 * m + 4 ≤ 9 * 10 ^ t * a + 4 * 10 ^ t := hlow
        _ ≤ 9 * 10 ^ t * (10 * dropDigit a + 4) + 4 * 10 ^ t := by gcongr
        _ = 9 * (10 ^ t * 10) * dropDigit a + 4 * (10 ^ t * 10) := by ring
    · calc 9 * (10 ^ t * 10) * dropDigit a + 5 = 9 * 10 ^ t * (10 * dropDigit a) + 5 := by ring
        _ ≤ 9 * 10 ^ t * (a + 5) + 5 := by gcongr
        _ = 9 * 10 ^ t * a + 5 + 45 * 10 ^ t := by ring
        _ ≤ 9 * m + 5 * 10 ^ t + 45 * 10 ^ t := by gcongr
        _ = 9 * m + 5 * (10 ^ t * 10) := by ring

theorem dropDigit_zero : dropDigit 0 = 0 := rfl

theorem dropDigit_iterate_eq_zero {s t m : Nat} (h : dropDigit^[s] m = 0) (hst : s ≤ t) :
    dropDigit^[t] m = 0 := by
  obtain ⟨k, rfl⟩ := Nat.exists_eq_add_of_le' hst
  rw [Function.iterate_add_apply, h, Function.iterate_fixed dropDigit_zero]

/-! ### Places -/

/-- Places are cut to 28, unless nothing is left on the way. -/
theorem cutPlaces_spec (places m : Nat) :
    cutPlaces places m = (dropDigit^[places - min places 28] m, min places 28) ∨
      cutPlaces places m = (0, 0) ∧ dropDigit^[places - min places 28] m = 0 := by
  induction places generalizing m with
  | zero => exact .inl rfl
  | succ places ih =>
    rw [cutPlaces]
    by_cases hfew : places + 1 ≤ 28
    · rw [if_pos hfew, Nat.min_eq_left hfew, Nat.sub_self]
      exact .inl rfl
    · have hmin : min (places + 1) 28 = min places 28 := by omega
      have hsub : places + 1 - min places 28 = (places - min places 28) + 1 := by omega
      rw [if_neg hfew, hmin, hsub, Function.iterate_succ_apply]
      split_ifs with hzero
      · rw [hzero, Function.iterate_fixed dropDigit_zero]
        exact .inr ⟨rfl, rfl⟩
      · exact ih (dropDigit m)

/-- Places are given up until the digits fit: the places that are left are the first at which they
do, or there are none. -/
theorem fitMantissa_spec (places m : Nat) :
    ∃ r ≤ places, fitMantissa places m = (dropDigit^[places - r] m, r) ∧
      (r = 0 ∨ dropDigit^[places - r] m < 2 ^ 52) ∧
      ∀ r', r < r' → r' ≤ places → 2 ^ 52 ≤ dropDigit^[places - r'] m := by
  induction places generalizing m with
  | zero => exact ⟨0, le_rfl, rfl, .inl rfl, fun r' h h' => by omega⟩
  | succ places ih =>
    rw [fitMantissa, Nat.pow_eq]
    by_cases hlarge : 2 ^ 52 ≤ m
    · obtain ⟨r, hr, hfit, hsmall, habove⟩ := ih (dropDigit m)
      have hstep {r' : Nat} (hr' : r' ≤ places) :
          dropDigit^[places + 1 - r'] m = dropDigit^[places - r'] (dropDigit m) := by
        rw [Nat.succ_sub hr', Function.iterate_succ_apply]
      refine ⟨r, by omega, ?_, ?_, fun r' h h' => ?_⟩
      · rw [if_pos hlarge, hfit, hstep hr]
      · rwa [hstep hr]
      · rcases Nat.lt_or_eq_of_le h' with h' | rfl
        · rw [hstep (Nat.lt_succ_iff.1 h')]
          exact habove r' h (Nat.lt_succ_iff.1 h')
        · rwa [Nat.sub_self]
    · refine ⟨places + 1, le_rfl, ?_, .inr ?_, fun r' h h' => by omega⟩
      · rw [if_neg hlarge, Nat.sub_self]
        rfl
      · rw [Nat.sub_self]
        exact Nat.not_le.1 hlarge

/-- **Places that hold zero are given up**, and nothing else. -/
theorem dropZeros_spec (places m : Nat) :
    ∃ n z, dropZeros places m = (n, places - z) ∧ z ≤ places ∧ m = n * 10 ^ z ∧
      (z = places ∨ n % 10 ≠ 0) := by
  induction places generalizing m with
  | zero => exact ⟨m, 0, rfl, le_rfl, by simp, .inl rfl⟩
  | succ places ih =>
    rw [dropZeros]
    split_ifs with hzero
    · obtain ⟨n, z, hdrop, hz, hm, hend⟩ := ih (m / 10)
      refine ⟨n, z + 1, ?_, by omega, ?_, ?_⟩
      · rw [hdrop, Nat.add_sub_add_right]
      · rw [pow_succ, ← mul_assoc, ← hm]
        omega
      · exact hend.imp_left fun h => by omega
    · exact ⟨m, 0, rfl, Nat.zero_le _, by simp, .inr hzero⟩

end CropLedger.Decimal
