import Mathlib.Tactic.IntervalCases
import CropLedger.Json.Scan
import CropLedger.Json.Value
import CropLedger.Proofs.Text.Digits

/-!
# Scanning written texts and numbers

The texts and the whole numbers of a written value are scanned back from the front of any text that
goes on in a way in which values end.

* `Scan.scanText_quote`: a text between quotes, whatever characters it has;
* `Scan.scanValue_integer`: a whole number, of any size.
-/

namespace CropLedger.Json

open Utf8 (Symbol)

/-- The numeral of a whole number. -/
def Numeral.ofInt (n : Int) : Numeral :=
  ⟨decide (n < 0), Digits.shortestDigits n.natAbs, [], none⟩

/-- The pieces of a text. -/
def RawText.of (s : String) : RawText := ⟨s.toList.map .char, none⟩

namespace Scan

/-! ### Texts between quotes -/

theorem utf8Size_char : ∀ d, d < 16 → (Digits.char d).utf8Size = 1 := by decide

theorem scanHex_digits {a b c d : Nat} (ha : a < 16) (hb : b < 16) (hc : c < 16) (hd : d < 16)
    (rest : List Symbol) :
    scanHex ([a, b, c, d].map (fun x => some (Digits.char x)) ++ rest) =
      .ok (Digits.value 16 [a, b, c, d], rest) := by
  simp [scanHex, Utf8.size, Utf8.Symbol.size, utf8Size_char, Digits.hex?_char, ha, hb, hc, hd]

theorem scanHex_fixed {n : Nat} (h : n < 16 ^ 4) (rest : List Symbol) :
    scanHex ((Digits.fixed 16 4 n).map some ++ rest) = .ok (n, rest) := by
  have hv := Digits.value_fixedDigits_of_lt h
  have hlt (d : Nat) : d % 16 < 16 := Nat.mod_lt _ (by decide)
  rw [Digits.fixed_eq_map, List.map_map]
  refine (scanHex_digits (hlt _) (hlt _) (hlt _) (hlt _) rest).trans ?_
  exact congrArg (fun v => Except.ok (v, rest)) hv

theorem scanPieces_short {fuel : Nat} {seen : List Piece} {c d : Char} {rest : List Symbol}
    (hd : d ≠ 'u') (h : shortEscape? d = some c) :
    scanPieces (fuel + 1) seen (some '\\' :: some d :: rest) =
      scanPieces fuel (.char c :: seen) rest := by
  rw [scanPieces, Option.bind_some, h]
  exact fun he => hd (Option.some.inj he)

theorem scanPieces_escape (fuel : Nat) (seen : List Piece) (c : Char) (rest : List Symbol) :
    scanPieces (fuel + 1) seen ((escape c).map some ++ rest) =
      scanPieces fuel (.char c :: seen) rest := by
  have hof {n : Nat} (h : c.toNat = n) : Char.ofNat n = c := by rw [← h, Char.ofNat_toNat]
  unfold escape
  split
  · rename_i h
    subst h
    exact scanPieces_short (by decide) rfl
  split
  · rename_i h
    subst h
    exact scanPieces_short (by decide) rfl
  split
  · rename_i h
    exact scanPieces_short (by decide) (congrArg some (hof h))
  split
  · rename_i h
    exact scanPieces_short (by decide) (congrArg some (hof h))
  split
  · rename_i h
    exact scanPieces_short (by decide) (congrArg some (hof h))
  split
  · rename_i h
    exact scanPieces_short (by decide) (congrArg some (hof h))
  split
  · rename_i h
    exact scanPieces_short (by decide) (congrArg some (hof h))
  split
  · rename_i h
    have hx := scanHex_fixed (n := c.toNat) (by omega) rest
    simp only [List.cons_append, List.nil_append, List.map_cons, scanPieces, hx]
    rw [pieceOfCode, if_neg (by omega), Char.ofNat_toNat]
  · rename_i hq hb _ _ _ _ _ hc
    simp only [List.map_cons, List.map_nil, List.cons_append, List.nil_append]
    rw [scanPieces, if_neg hc]
    · exact hq
    · exact fun _ => hb
    · exact fun _ _ => hb
    · exact fun _ _ _ => hb

theorem scanPieces_flatMap {cs : List Char} {fuel : Nat} (h : cs.length < fuel)
    (seen : List Piece) (rest : List Symbol) :
    scanPieces fuel seen ((cs.flatMap escape).map some ++ some '"' :: rest) =
      (⟨seen.reverse ++ cs.map .char, none⟩, rest) := by
  induction cs generalizing fuel seen with
  | nil =>
    obtain ⟨fuel, rfl⟩ := Nat.exists_eq_add_of_lt h
    simp [scanPieces]
  | cons c cs ih =>
    obtain ⟨fuel, rfl⟩ : ∃ k, fuel = k + 1 := ⟨fuel - 1, by simp at h; omega⟩
    rw [List.flatMap_cons, List.map_append, List.append_assoc, scanPieces_escape,
      ih (by simpa using h)]
    simp

theorem length_le_flatMap_escape (cs : List Char) : cs.length ≤ (cs.flatMap escape).length := by
  induction cs with
  | nil => exact Nat.le_refl 0
  | cons c cs ih =>
    have hc : 1 ≤ (escape c).length := by
      unfold escape
      (repeat' split) <;> simp
    rw [List.flatMap_cons, List.length_append, List.length_cons]
    omega

theorem scanText_quote (s : String) (rest : List Symbol) :
    scanText ((s.toList.flatMap escape).map some ++ some '"' :: rest) = (.of s, rest) := by
  have hlen := length_le_flatMap_escape s.toList
  refine scanPieces_flatMap ?_ [] rest
  simp only [List.length_append, List.length_map, List.length_cons]
  omega

theorem map_quote_append (s : String) (rest : List Symbol) :
    (quote s).map some ++ rest =
      some '"' :: ((s.toList.flatMap escape).map some ++ some '"' :: rest) := by
  simp [quote]

/-! ### Whole numbers -/

/-- What can stand after a value: nothing, a comma, or the end of what the value is in. -/
def EndsValue (rest : List Symbol) : Prop :=
  ∀ s, rest.head? = some s → s = some ',' ∨ s = some ']' ∨ s = some '\x7d'

theorem endsValue_nil : EndsValue [] := nofun

theorem endsValue_cons {c : Char} (h : c = ',' ∨ c = ']' ∨ c = '\x7d') (rest : List Symbol) :
    EndsValue (some c :: rest) := by
  intro s hs
  cases hs
  simpa using h

theorem takeDigits_of_endsValue {rest : List Symbol} (h : EndsValue rest) :
    takeDigits rest = ([], rest) := by
  cases rest with
  | nil => rfl
  | cons s rest => rcases h s rfl with rfl | rfl | rfl <;> rfl

theorem takeDigits_append {ds : List Nat} {rest : List Symbol} (hd : ∀ d ∈ ds, d < 10)
    (hr : EndsValue rest) : takeDigits ((ds.map Digits.char).map some ++ rest) = (ds, rest) := by
  induction ds with
  | nil => exact takeDigits_of_endsValue hr
  | cons d ds ih =>
    have ih := ih fun x hx => hd x (List.mem_cons_of_mem _ hx)
    simp only [List.map_cons, List.cons_append, takeDigits, Option.bind_some,
      Digits.decimal?_char d (hd d List.mem_cons_self), ih]

theorem scanFraction_of_endsValue {rest : List Symbol} (h : EndsValue rest) :
    scanFraction rest = .ok ([], rest) := by
  cases rest with
  | nil => rfl
  | cons s rest => rcases h s rfl with rfl | rfl | rfl <;> rfl

theorem scanExponent_of_endsValue {rest : List Symbol} (h : EndsValue rest) :
    scanExponent rest = .ok (none, rest) := by
  cases rest with
  | nil => rfl
  | cons s rest => rcases h s rfl with rfl | rfl | rfl <;> rfl

theorem scanUnsigned_shortest (negative : Bool) (n : Nat) {rest : List Symbol}
    (h : EndsValue rest) :
    scanUnsigned negative ((Digits.shortest n).map some ++ rest) =
      .ok (⟨negative, Digits.shortestDigits n, [], none⟩, rest) := by
  have hds := Digits.shortestDigits_ne_nil n
  have hzero : ¬((Digits.shortestDigits n).head? = some 0 ∧
      1 < (Digits.shortestDigits n).length) := by
    rintro ⟨hhead, hlen⟩
    rw [Digits.head_shortestDigits hhead, Digits.shortestDigits] at hlen
    exact absurd hlen (by decide)
  rw [scanUnsigned, Digits.shortest_eq_map,
    takeDigits_append (fun _ => Digits.lt_of_mem_shortestDigits) h]
  rcases hd : Digits.shortestDigits n with _ | ⟨d, ds⟩
  · exact absurd hd hds
  · rw [hd] at hzero
    simp only [if_neg hzero, scanFraction_of_endsValue h, bind, Except.bind]
    rw [scanExponent_of_endsValue h]
    rfl

theorem scanNumeral_of_ne {c : Char} (hc : c ≠ '-') (input : List Symbol) :
    scanNumeral (some c :: input) =
      match scanUnsigned false (some c :: input) with
      | .ok (numeral, rest) => (.number numeral, some rest)
      | .error stopped => (stopped, none) := by
  unfold scanNumeral
  split
  · rename_i rest h
    exact absurd (Option.some.inj (List.cons.inj h).1) hc
  · rfl

/-- The digits of a number after its sign, the first one apart. -/
theorem exists_front (n : Nat) : ∃ d ds, d < 10 ∧ Digits.shortest n = Digits.char d :: ds := by
  obtain ⟨d, ds, hd⟩ := List.exists_cons_of_ne_nil (Digits.shortestDigits_ne_nil n)
  refine ⟨d, ds.map Digits.char, ?_, by rw [Digits.shortest_eq_map, hd, List.map_cons]⟩
  exact Digits.lt_of_mem_shortestDigits (n := n) (hd ▸ List.mem_cons_self)

theorem scanNumeral_integer (n : Int) {rest : List Symbol} (h : EndsValue rest) :
    scanNumeral ((integer n).map some ++ rest) = (.number (.ofInt n), some rest) := by
  have hu (negative : Bool) := scanUnsigned_shortest negative n.natAbs h
  unfold integer Numeral.ofInt
  by_cases hn : n < 0
  · rw [if_pos hn, decide_eq_true hn]
    simp only [List.cons_append, List.nil_append, List.map_cons, scanNumeral, hu]
  · obtain ⟨d, ds, hlt, hd⟩ := exists_front n.natAbs
    have hu := hu false
    rw [if_neg hn, decide_eq_false hn, List.nil_append]
    simp only [hd, List.map_cons, List.cons_append] at hu ⊢
    rw [scanNumeral_of_ne (Digits.char_ne hlt rfl), hu]

theorem scanValue_digit {d : Nat} (h : d < 10) (fuel : Nat) (input : List Symbol) :
    scanValue (fuel + 1) (some (Digits.char d) :: input) =
      scanNumeral (some (Digits.char d) :: input) := by
  interval_cases d <;> rfl

theorem scanValue_integer (n : Int) (fuel : Nat) {rest : List Symbol} (h : EndsValue rest) :
    scanValue (fuel + 1) ((integer n).map some ++ rest) = (.number (.ofInt n), some rest) := by
  rw [← scanNumeral_integer n h]
  obtain ⟨d, ds, hlt, hd⟩ := exists_front n.natAbs
  unfold integer
  by_cases hn : n < 0
  · rw [if_pos hn]
    rfl
  · rw [if_neg hn, List.nil_append, hd]
    exact scanValue_digit hlt fuel _

end Scan

end CropLedger.Json
