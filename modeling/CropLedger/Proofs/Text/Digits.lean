import Mathlib.Data.Nat.Basic
import Mathlib.Data.List.Induction
import Mathlib.Tactic.Ring
import CropLedger.Text.Digits

/-!
# Digits that are read back

Each way to write a number is a run of digit values, character by character, and each reader takes
the run off the front of a text as far as the digits go.

* `Digits.shortestDigits`, `Digits.fixedDigits`, `Digits.paddedDigits`: the runs behind the written
  forms;
* `value_shortestDigits`, `value_fixedDigits`, `value_paddedDigits`: what the runs stand for;
* `takeDecimal_append`: a run is taken off the front of a text that goes on with something else.
-/

namespace CropLedger.Digits

/-! ### Runs of digits -/

/-- The digits of the shortest decimal form. -/
def shortestDigits (n : Nat) : List Nat :=
  if n < 10 then [n] else shortestDigits (n / 10) ++ [n % 10]

/-- The digits of a form of fixed width. -/
def fixedDigits (base : Nat) : Nat → Nat → List Nat
  | 0, _ => []
  | width + 1, n => fixedDigits base width (n / base) ++ [n % base]

/-- The digits of a form that is filled up with zeros. -/
def paddedDigits (width n : Nat) : List Nat :=
  List.replicate (width - (shortestDigits n).length) 0 ++ shortestDigits n

theorem digitChar_eq_char : ∀ d, d < 10 → Nat.digitChar d = char d := by decide

theorem shortest_eq_map (n : Nat) : shortest n = (shortestDigits n).map char := by
  induction n using Nat.strong_induction_on with
  | _ n ih =>
    unfold shortest at ih ⊢
    rw [shortestDigits, Nat.toDigits_eq_if (by decide)]
    split <;> rename_i hn
    · rw [digitChar_eq_char n hn]
      rfl
    · rw [ih (n / 10) (by omega), digitChar_eq_char _ (Nat.mod_lt _ (by decide)), List.map_append]
      rfl

theorem fixed_eq_map (base width n : Nat) :
    fixed base width n = (fixedDigits base width n).map char := by
  induction width generalizing n with
  | zero => rfl
  | succ w ih => rw [fixed, fixedDigits, ih, List.map_append, List.map_singleton]

theorem padded_eq_map (width n : Nat) : padded width n = (paddedDigits width n).map char := by
  rw [padded, paddedDigits, shortest_eq_map, List.map_append, List.map_replicate, List.length_map]
  rfl

theorem length_fixedDigits (base width n : Nat) : (fixedDigits base width n).length = width := by
  have h := length_fixed base width n
  rwa [fixed_eq_map, List.length_map] at h

/-! ### Digits below their base -/

theorem lt_of_mem_shortestDigits {n d : Nat} (h : d ∈ shortestDigits n) : d < 10 := by
  induction n using Nat.strong_induction_on with
  | _ n ih =>
    rw [shortestDigits] at h
    split at h <;> rename_i hn
    · rw [List.mem_singleton.1 h]
      exact hn
    · rcases List.mem_append.1 h with h | h
      · exact ih (n / 10) (by omega) h
      · rw [List.mem_singleton.1 h]
        exact Nat.mod_lt _ (by decide)

theorem lt_of_mem_fixedDigits {base width n d : Nat} (hb : 0 < base)
    (h : d ∈ fixedDigits base width n) : d < base := by
  induction width generalizing n with
  | zero => cases h
  | succ w ih =>
    rcases List.mem_append.1 h with h | h
    · exact ih h
    · rw [List.mem_singleton.1 h]
      exact Nat.mod_lt _ hb

theorem lt_of_mem_paddedDigits {width n d : Nat} (h : d ∈ paddedDigits width n) : d < 10 := by
  rcases List.mem_append.1 h with h | h
  · rw [List.eq_of_mem_replicate h]
    decide
  · exact lt_of_mem_shortestDigits h

/-! ### What a run stands for -/

theorem value_append (base : Nat) (ds : List Nat) (d : Nat) :
    value base (ds ++ [d]) = value base ds * base + d :=
  valueFrom_append base 0 ds d

theorem valueFrom_eq (base seen : Nat) (ds : List Nat) :
    valueFrom base seen ds = seen * base ^ ds.length + value base ds := by
  induction ds using List.reverseRecOn with
  | nil => simp [valueFrom, value]
  | append_singleton ds d ih =>
    rw [valueFrom_append, ih, value_append, List.length_append, List.length_singleton, Nat.pow_succ]
    ring

theorem value_shortestDigits (n : Nat) : value 10 (shortestDigits n) = n := by
  induction n using Nat.strong_induction_on with
  | _ n ih =>
    rw [shortestDigits]
    split <;> rename_i hn
    · show 0 * 10 + n = n
      omega
    · rw [value_append, ih (n / 10) (by omega)]
      omega

theorem value_fixedDigits (base width n : Nat) :
    value base (fixedDigits base width n) = n % base ^ width := by
  induction width generalizing n with
  | zero => exact (Nat.mod_one n).symm
  | succ w ih =>
    rw [fixedDigits, value_append, ih, Nat.pow_succ', Nat.mod_mul, Nat.mul_comm, Nat.add_comm]

theorem value_fixedDigits_of_lt {base width n : Nat} (h : n < base ^ width) :
    value base (fixedDigits base width n) = n := by
  rw [value_fixedDigits, Nat.mod_eq_of_lt h]

theorem value_replicate_append (base count : Nat) (ds : List Nat) :
    value base (List.replicate count 0 ++ ds) = value base ds := by
  induction count with
  | zero => rfl
  | succ k ih =>
    rw [List.replicate_succ, List.cons_append, value, valueFrom, Nat.zero_mul]
    exact ih

theorem value_paddedDigits (width n : Nat) : value 10 (paddedDigits width n) = n := by
  rw [paddedDigits, value_replicate_append, value_shortestDigits]

/-- A run stands for less than the power of the base that its length gives. -/
theorem value_lt_pow_length {base : Nat} {ds : List Nat} (h : ∀ d ∈ ds, d < base) :
    value base ds < base ^ ds.length := by
  induction ds using List.reverseRecOn with
  | nil => exact Nat.one_pos
  | append_singleton ds d ih =>
    have hd : d < base := h d (List.mem_append_right _ List.mem_cons_self)
    have hds := ih fun e he => h e (List.mem_append_left _ he)
    rw [value_append, List.length_append, List.length_singleton, Nat.pow_succ]
    calc value base ds * base + d < (value base ds + 1) * base := by
          rw [Nat.add_mul, Nat.one_mul]
          exact Nat.add_lt_add_left hd _
      _ ≤ base ^ ds.length * base := Nat.mul_le_mul_right base hds

/-! ### Lengths and leading zeros -/

theorem shortestDigits_ne_nil (n : Nat) : shortestDigits n ≠ [] := by
  rw [shortestDigits]
  split
  · exact List.cons_ne_nil _ _
  · exact List.append_ne_nil_of_right_ne_nil _ (List.cons_ne_nil _ _)

theorem paddedDigits_ne_nil (width n : Nat) : paddedDigits width n ≠ [] :=
  List.append_ne_nil_of_right_ne_nil _ (shortestDigits_ne_nil n)

theorem length_shortestDigits_le {n width : Nat} (hw : 0 < width) (h : n < 10 ^ width) :
    (shortestDigits n).length ≤ width := by
  induction width generalizing n with
  | zero => omega
  | succ w ih =>
    rw [shortestDigits]
    split <;> rename_i hn
    · exact Nat.succ_le_succ (Nat.zero_le w)
    · rw [List.length_append, List.length_singleton]
      have hw' : 0 < w := by
        rcases Nat.eq_zero_or_pos w with rfl | hw
        · omega
        · exact hw
      have := ih hw' (n := n / 10) (by rw [Nat.pow_succ] at h; omega)
      omega

theorem length_paddedDigits {n width : Nat} (hw : 0 < width) (h : n < 10 ^ width) :
    (paddedDigits width n).length = width := by
  have := length_shortestDigits_le hw h
  rw [paddedDigits, List.length_append, List.length_replicate]
  omega

theorem lt_length_paddedDigits {n width : Nat} (h : 10 ^ width ≤ n) :
    width < (paddedDigits width n).length := by
  have hlt := @value_lt_pow_length 10 (paddedDigits width n) fun _ => lt_of_mem_paddedDigits
  rw [value_paddedDigits] at hlt
  exact (Nat.pow_lt_pow_iff_right (by decide)).1 (Nat.lt_of_le_of_lt h hlt)

/-- Only zero has a zero in front. -/
theorem head_shortestDigits {n : Nat} (h : (shortestDigits n).head? = some 0) : n = 0 := by
  induction n using Nat.strong_induction_on with
  | _ n ih =>
    rw [shortestDigits] at h
    split at h <;> rename_i hn
    · simpa using h
    · rw [List.head?_append, Option.or_of_isSome] at h
      · have := ih (n / 10) (by omega) h
        omega
      · simpa using shortestDigits_ne_nil _

/-! ### Taking a run off the front -/

/-- A digit is no other character. -/
theorem char_ne {d : Nat} (hd : d < 10) {c : Char} (hc : decimal? c = none) : char d ≠ c := by
  rintro rfl
  rw [decimal?_char d hd] at hc
  cases hc

/-- A text that does not go on with a digit. -/
def NoDigitAhead (text : List Char) : Prop := ∀ c, text.head? = some c → decimal? c = none

theorem noDigitAhead_nil : NoDigitAhead [] := nofun

theorem noDigitAhead_cons {c : Char} (h : decimal? c = none) (rest : List Char) :
    NoDigitAhead (c :: rest) := by
  intro d hd
  cases hd
  exact h

theorem takeDecimal_of_noDigitAhead {rest : List Char} (h : NoDigitAhead rest) :
    takeDecimal rest = ([], rest) := by
  cases rest with
  | nil => rfl
  | cons c rest => rw [takeDecimal, h c rfl]

theorem takeDecimal_append {ds : List Nat} {rest : List Char} (hd : ∀ d ∈ ds, d < 10)
    (hr : NoDigitAhead rest) : takeDecimal (ds.map char ++ rest) = (ds, rest) := by
  induction ds with
  | nil => exact takeDecimal_of_noDigitAhead hr
  | cons d ds ih =>
    rw [List.map_cons, List.cons_append, takeDecimal, decimal?_char d (hd d List.mem_cons_self)]
    simp only [ih fun x hx => hd x (List.mem_cons_of_mem _ hx)]

/-- Two numbers with texts after them that go on with something else. -/
theorem shortest_append_inj {m n : Nat} {rest rest' : List Char} (hr : NoDigitAhead rest)
    (hr' : NoDigitAhead rest') (h : shortest m ++ rest = shortest n ++ rest') :
    m = n ∧ rest = rest' := by
  rw [shortest_eq_map, shortest_eq_map] at h
  have ht := congrArg takeDecimal h
  rw [takeDecimal_append (fun _ => lt_of_mem_shortestDigits) hr,
    takeDecimal_append (fun _ => lt_of_mem_shortestDigits) hr'] at ht
  have hv := congrArg (fun p => value 10 p.1) ht
  simp only [value_shortestDigits] at hv
  exact ⟨hv, congrArg Prod.snd ht⟩

end CropLedger.Digits
