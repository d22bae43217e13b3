import CropLedger.Decimal.Reader
import CropLedger.Proofs.Text.Digits

/-!
# Decimals are read back

The written form of a decimal shows all places of its scale, and is read with all of them: the
digits never run into a limit on the way. The one thing that is lost is the sign of a zero.

* `Decimal.readMagnitude?_withPoint`: digits and point are read as coefficient and scale;
* `SignedDecimal.read?_toText`: what is read of a decimal whose zero may have a sign;
* `SignedDecimal.signed_plain_iff`: which decimals are read as they were.
-/

namespace CropLedger

namespace Decimal

open Digits

/-! ### Runs of digits -/

section Runs

variable {seen scale d : Nat} {ds : List Nat} {anyDigit : Bool} {rest : List Char}

theorem readDigits?_before (hd : d < 10) (h : seen * 10 + d < 2 ^ 96) :
    readDigits? ⟨seen, 0, false, anyDigit⟩ (char d :: rest) =
      readDigits? ⟨seen * 10 + d, 0, false, true⟩ rest := by
  rw [readDigits?, decimal?_char d hd]
  simp only [Bool.false_and, Bool.false_eq_true, if_false]
  rw [if_neg (show ¬Nat.pow 2 96 ≤ seen * 10 + d from Nat.not_le.2 h)]

theorem readDigits?_after (hd : d < 10) (hs : scale < 28) (h : seen * 10 + d < 2 ^ 96) :
    readDigits? ⟨seen, scale, true, anyDigit⟩ (char d :: rest) =
      readDigits? ⟨seen * 10 + d, scale + 1, true, true⟩ rest := by
  have hfull : ¬28 ≤ scale := by omega
  rw [readDigits?, decimal?_char d hd]
  simp only [hfull, decide_false, Bool.and_false, Bool.false_eq_true, if_false, if_true]
  rw [if_neg (show ¬Nat.pow 2 96 ≤ seen * 10 + d from Nat.not_le.2 h)]

theorem le_valueFrom : seen ≤ valueFrom 10 seen ds := by
  rw [valueFrom_eq]
  have : 0 < 10 ^ ds.length := Nat.pow_pos (by decide)
  exact Nat.le_trans (Nat.le_mul_of_pos_right seen this) (Nat.le_add_right _ _)

theorem readDigits?_run_before (hd : ∀ d ∈ ds, d < 10) (h : valueFrom 10 seen ds < 2 ^ 96) :
    readDigits? ⟨seen, 0, false, true⟩ (ds.map char ++ rest) =
      readDigits? ⟨valueFrom 10 seen ds, 0, false, true⟩ rest := by
  induction ds generalizing seen with
  | nil => rfl
  | cons d ds ih =>
    have hnext : seen * 10 + d < 2 ^ 96 := Nat.lt_of_le_of_lt le_valueFrom h
    rw [List.map_cons, List.cons_append, readDigits?_before (hd d List.mem_cons_self) hnext,
      ih (fun e he => hd e (List.mem_cons_of_mem _ he)) h]
    rfl

theorem readDigits?_run_after (hd : ∀ d ∈ ds, d < 10) (hs : scale + ds.length ≤ 28)
    (h : valueFrom 10 seen ds < 2 ^ 96) :
    readDigits? ⟨seen, scale, true, true⟩ (ds.map char ++ rest) =
      readDigits? ⟨valueFrom 10 seen ds, scale + ds.length, true, true⟩ rest := by
  induction ds generalizing seen scale with
  | nil => rfl
  | cons d ds ih =>
    rw [List.length_cons] at hs
    have hnext : seen * 10 + d < 2 ^ 96 := Nat.lt_of_le_of_lt le_valueFrom h
    rw [List.map_cons, List.cons_append,
      readDigits?_after (hd d List.mem_cons_self) (by omega) hnext,
      ih (fun e he => hd e (List.mem_cons_of_mem _ he)) (by omega) h, List.length_cons]
    congr 2
    omega

theorem readDigits?_point :
    readDigits? ⟨seen, scale, false, true⟩ ('.' :: rest) =
      readDigits? ⟨seen, scale, true, true⟩ rest := rfl

end Runs

/-! ### Whole decimals -/

/-- The digits before the point are read as the number that they stand for. -/
theorem readMagnitude?_shortest_append {n : Nat} (h : n < 2 ^ 96) (rest : List Char) :
    readMagnitude? (shortest n ++ rest) = readDigits? ⟨n, 0, false, true⟩ rest := by
  obtain ⟨d, ds, hd⟩ := List.exists_cons_of_ne_nil (shortestDigits_ne_nil n)
  have hlt : ∀ e ∈ d :: ds, e < 10 := fun e he => lt_of_mem_shortestDigits (n := n) (hd ▸ he)
  have hv : valueFrom 10 (0 * 10 + d) ds = n := by
    rw [← value_shortestDigits n, hd]
    rfl
  have hfirst : 0 * 10 + d < 2 ^ 96 := by
    have := hlt d List.mem_cons_self
    omega
  rw [shortest_eq_map, hd, List.map_cons, List.cons_append, readMagnitude?,
    readDigits?_before (hlt d List.mem_cons_self) hfirst,
    readDigits?_run_before (fun e he => hlt e (List.mem_cons_of_mem _ he)) (hv ▸ h), hv]

theorem readMagnitude?_withPoint {n scale : Nat} (hn : n < 2 ^ 96) (hs : scale ≤ 28) :
    readMagnitude? (withPoint n scale) = some (n, scale) := by
  unfold withPoint
  split
  · rename_i h
    subst h
    rw [← List.append_nil (shortest n), readMagnitude?_shortest_append hn]
    rfl
  · have hv : valueFrom 10 (n / Nat.pow 10 scale) (fixedDigits 10 scale n) = n := by
      rw [valueFrom_eq, length_fixedDigits, value_fixedDigits]
      exact Nat.div_add_mod' n (10 ^ scale)
    have hwhole : n / Nat.pow 10 scale < 2 ^ 96 := Nat.lt_of_le_of_lt (Nat.div_le_self _ _) hn
    have hl := length_fixedDigits 10 scale n
    rw [readMagnitude?_shortest_append hwhole, readDigits?_point, fixed_eq_map,
      ← List.append_nil (List.map char _),
      readDigits?_run_after (fun _ => lt_of_mem_fixedDigits (by decide))
        (by rw [hl]; omega) (Nat.lt_of_le_of_lt (Nat.le_of_eq hv) hn),
      hl, Nat.zero_add]
    rw [hv]
    rfl

/-- What is written of a magnitude starts with a digit. -/
theorem exists_withPoint_eq (n scale : Nat) :
    ∃ d < 10, ∃ rest, withPoint n scale = char d :: rest := by
  have hfront (k : Nat) (rest : List Char) :
      ∃ d < 10, ∃ rest', shortest k ++ rest = char d :: rest' := by
    obtain ⟨d, ds, hd⟩ := List.exists_cons_of_ne_nil (shortestDigits_ne_nil k)
    refine ⟨d, lt_of_mem_shortestDigits (n := k) (hd ▸ List.mem_cons_self),
      ds.map char ++ rest, ?_⟩
    rw [shortest_eq_map, hd, List.map_cons, List.cons_append]
  unfold withPoint
  split
  · rw [← List.append_nil (shortest n)]
    exact hfront n []
  · exact hfront _ _

theorem readPlain?_digit {d : Nat} (hd : d < 10) (rest : List Char) :
    readPlain? (char d :: rest) =
      (readMagnitude? (char d :: rest)).bind fun p => of? p.1 p.2 := by
  rw [readPlain?]
  · rfl
  · intro rest' h
    exact char_ne hd rfl (List.cons.inj h).1
  · intro rest' h
    exact char_ne hd rfl (List.cons.inj h).1

theorem of?_eq_some (d : Decimal) : of? d.coefficient d.scale = some d := dif_pos d.bounded

end Decimal

/-! ### Zeros with a sign -/

namespace SignedDecimal

open Decimal

/-- **A decimal is read without the sign of its zero**, and otherwise as it was written. -/
theorem read?_toText (d : SignedDecimal) : Decimal.read? d.toText = some d.plain := by
  obtain ⟨negative, n, scale, hn, hs⟩ := d
  have hm := readMagnitude?_withPoint hn hs
  have hplain : readPlain? (chars ⟨negative, n, scale, hn, hs⟩) =
      some (plain ⟨negative, n, scale, hn, hs⟩) := by
    refine Eq.trans ?_ (of?_eq_some _)
    cases negative with
    | true =>
      show readPlain? ('-' :: withPoint n scale) = _
      rw [readPlain?, hm]
      rfl
    | false =>
      obtain ⟨e, he, rest, hrest⟩ := exists_withPoint_eq n scale
      show readPlain? (withPoint n scale) = _
      rw [hrest, readPlain?_digit he, ← hrest, hm]
      rfl
  rw [read?, toText, String.toList_ofList, hplain]
  rfl

@[simp] theorem plain_signed (d : Decimal) : d.signed.plain = d := by
  obtain ⟨coefficient, scale, hbound⟩ := d
  simp only [Decimal.signed, plain, Decimal.mk.injEq, and_true, decide_eq_true_eq]
  split <;> omega

@[simp] theorem toText_signed (d : Decimal) : d.signed.toText = d.toText := by
  simp only [toText, Decimal.toText, chars, Decimal.chars, Decimal.signed, decide_eq_true_eq]

theorem isPlain_signed (d : Decimal) : d.signed.IsPlain := by
  intro hneg
  have hneg : d.coefficient < 0 := of_decide_eq_true hneg
  exact Int.natAbs_ne_zero.2 (Int.ne_of_lt hneg)

/-- **A decimal is the same with its sign taken apart again unless it is a zero with a sign.** -/
theorem signed_plain_iff {d : SignedDecimal} : d.plain.signed = d ↔ d.IsPlain := by
  constructor
  · intro h
    exact h ▸ isPlain_signed d.plain
  · intro h
    obtain ⟨negative, n, scale, hbound⟩ := d
    cases negative with
    | true =>
      have hn : 0 < n := Nat.pos_of_ne_zero (h rfl)
      simp [plain, Decimal.signed, hn]
    | false => simp [plain, Decimal.signed]

end SignedDecimal

end CropLedger
