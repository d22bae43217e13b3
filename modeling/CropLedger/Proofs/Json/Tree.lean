import CropLedger.Proofs.Json.Leaves
import CropLedger.Proofs.Text.Utf8

/-!
# Scanning written values

Every value has a tree, and the tree of the bytes of its text is that tree: nothing of a value is
lost when it is written, and no written value breaks off.

* `Json.tree`: the tree of a value;
* `Scan.scanValue_chars`: the scan of a written value, by recursion on the value;
* `Scan.ofBytes_encode_render`: the tree of the bytes of a written value.
-/

namespace CropLedger.Json

open Utf8 (Symbol)

/-! ### The tree of a value -/

mutual

/-- The tree of a written value. -/
def tree : Json → Scan
  | .null => .null
  | .boolean value => .boolean value
  | .number n => .number (.ofInt n)
  | .text s => .text (.of s)
  | .array items => .array (itemTrees items) none
  | .object members => .object (memberTrees members) none

/-- The trees of the items of an array. -/
def itemTrees : List Json → List Scan
  | [] => []
  | item :: items => item.tree :: itemTrees items

/-- The trees of the members of an object. -/
def memberTrees : List (String × Json) → List (RawText × Scan)
  | [] => []
  | (key, value) :: members => (.of key, value.tree) :: memberTrees members

end

theorem itemTrees_eq_map (items : List Json) : itemTrees items = items.map tree := by
  induction items with
  | nil => rfl
  | cons item items ih => rw [itemTrees, ih, List.map_cons]

namespace Scan

/-! ### Containers -/

/-- The first character of a value is neither a blank nor the end of an array. -/
theorem exists_chars_eq (j : Json) :
    ∃ c cs, j.chars = c :: cs ∧ isBlank (some c) = false ∧ c ≠ ']' := by
  cases j with
  | null => exact ⟨_, _, rfl, rfl, by decide⟩
  | boolean value => cases value <;> exact ⟨_, _, rfl, rfl, by decide⟩
  | text s => exact ⟨_, _, rfl, rfl, by decide⟩
  | array items => exact ⟨_, _, rfl, rfl, by decide⟩
  | object members => exact ⟨_, _, rfl, rfl, by decide⟩
  | number n =>
    obtain ⟨d, ds, hlt, hd⟩ := exists_front n.natAbs
    rw [chars, integer, hd]
    split
    · exact ⟨_, _, rfl, rfl, by decide⟩
    · refine ⟨_, _, rfl, ?_, Digits.char_ne hlt rfl⟩
      simp [isBlank, Digits.char_ne hlt (c := ' ') rfl, Digits.char_ne hlt (c := '\n') rfl,
        Digits.char_ne hlt (c := '\t') rfl, Digits.char_ne hlt (c := '\r') rfl]

theorem skipBlanks_cons {s : Symbol} (h : isBlank s = false) (rest : List Symbol) :
    skipBlanks (s :: rest) = s :: rest := by
  rw [skipBlanks, List.dropWhile_cons_of_neg (by simp [h])]

theorem length_chars_pos (j : Json) : 0 < j.chars.length := by
  obtain ⟨c, cs, hc, -⟩ := exists_chars_eq j
  rw [hc]
  exact Nat.succ_pos _

/-! ### Steps of the scan -/

section Steps

variable {c : Char} {fuel : Nat} {input rest : List Symbol} {t : Scan}

theorem scanItems_of_ne (hb : isBlank (some c) = false) (hc : c ≠ ']') :
    scanItems (fuel + 1) (some c :: input) = scanItem fuel (some c :: input) := by
  rw [scanItems, skipBlanks_cons hb]
  split
  · rename_i h
    cases h
  · rename_i h
    cases h
    exact absurd rfl hc
  · rfl

theorem scanMoreItems_comma (hb : isBlank (some c) = false) (hc : c ≠ ']') :
    scanMoreItems (fuel + 1) (some ',' :: some c :: input) = scanItem fuel (some c :: input) := by
  rw [scanMoreItems, skipBlanks_cons rfl]
  simp only [skipBlanks_cons hb]
  split
  · rename_i h
    cases h
    exact absurd rfl hc
  · rfl

theorem scanMembers_quote :
    scanMembers (fuel + 1) (some '"' :: input) = scanMember fuel (some '"' :: input) := rfl

theorem scanMoreMembers_comma :
    scanMoreMembers (fuel + 1) (some ',' :: some '"' :: input) =
      scanMember fuel (some '"' :: input) := rfl

theorem scanItem_of_scanValue (h : scanValue fuel input = (t, some rest)) :
    scanItem (fuel + 1) input =
      (t :: (scanMoreItems fuel rest).1, (scanMoreItems fuel rest).2) := by
  rw [scanItem, h]

theorem scanMember_of_scanValue (key : String) (h : scanValue fuel input = (t, some rest)) :
    scanMember (fuel + 1) ((quote key).map some ++ some ':' :: input) =
      ((.of key, t) :: (scanMoreMembers fuel rest).1, (scanMoreMembers fuel rest).2) := by
  rw [map_quote_append, scanMember, scanText_quote]
  simp only [RawText.of, Option.isSome_none, Bool.false_eq_true, if_false]
  rw [skipBlanks_cons rfl]
  simp only [h]

end Steps

theorem exists_itemChars_eq (item : Json) (items : List Json) :
    ∃ c cs, itemChars (item :: items) = c :: cs ∧ isBlank (some c) = false ∧ c ≠ ']' := by
  obtain ⟨c, cs, hc, hb, hne⟩ := exists_chars_eq item
  cases items with
  | nil => exact ⟨c, cs, hc, hb, hne⟩
  | cons next items =>
    refine ⟨c, cs ++ ',' :: itemChars (next :: items), ?_, hb, hne⟩
    rw [itemChars, hc, List.cons_append]
    simp

theorem exists_memberChars_eq (key : String) (value : Json) (members : List (String × Json)) :
    ∃ cs, memberChars ((key, value) :: members) = '"' :: cs := by
  cases members with
  | nil => exact ⟨_, rfl⟩
  | cons next members => exact ⟨_, rfl⟩

mutual

/-- The tree of a written value, whatever it is written in. -/
theorem scanValue_chars : ∀ (j : Json) {fuel : Nat} {rest : List Symbol},
    3 * j.chars.length ≤ fuel → EndsValue rest →
    scanValue fuel (j.chars.map some ++ rest) = (j.tree, some rest)
  | j, 0, rest, hf, _ => by
    have := length_chars_pos j
    omega
  | .null, fuel + 1, rest, hf, hr => rfl
  | .boolean true, fuel + 1, rest, hf, hr => rfl
  | .boolean false, fuel + 1, rest, hf, hr => rfl
  | .number n, fuel + 1, rest, hf, hr => by
    rw [chars, tree, scanValue_integer n fuel hr]
  | .text s, fuel + 1, rest, hf, hr => by
    rw [chars, tree, map_quote_append, scanValue, skipBlanks_cons rfl]
    simp only [scanText_quote]
    rfl
  | .array [], fuel + 1, rest, hf, hr => by
    obtain ⟨fuel, rfl⟩ : ∃ k, fuel = k + 1 := ⟨fuel - 1, by simp [chars, itemChars] at hf; omega⟩
    rfl
  | .array (item :: items), fuel + 1, rest, hf, hr => by
    simp only [chars, List.length_append, List.length_cons, List.length_nil] at hf
    obtain ⟨fuel, rfl⟩ : ∃ k, fuel = k + 1 := ⟨fuel - 1, by omega⟩
    have hi := @scanItem_chars (item :: items) fuel rest (List.cons_ne_nil _ _) (by omega)
    obtain ⟨c, cs, hc, hb, hne⟩ := exists_itemChars_eq item items
    rw [chars, tree, List.cons_append, List.map_cons, List.map_append, List.cons_append,
      List.append_assoc, scanValue, skipBlanks_cons rfl]
    rw [hc] at hi ⊢
    simp only [List.map_cons, List.map_nil, List.cons_append, List.nil_append] at hi ⊢
    simp only [scanItems_of_ne hb hne, hi]
  | .object [], fuel + 1, rest, hf, hr => by
    obtain ⟨fuel, rfl⟩ : ∃ k, fuel = k + 1 := ⟨fuel - 1, by simp [chars, memberChars] at hf; omega⟩
    rfl
  | .object ((key, value) :: members), fuel + 1, rest, hf, hr => by
    simp only [chars, List.length_append, List.length_cons, List.length_nil] at hf
    obtain ⟨fuel, rfl⟩ : ∃ k, fuel = k + 1 := ⟨fuel - 1, by omega⟩
    have hm := @scanMember_chars ((key, value) :: members) fuel rest (List.cons_ne_nil _ _)
      (by omega)
    obtain ⟨cs, hc⟩ := exists_memberChars_eq key value members
    rw [chars, tree, List.cons_append, List.map_cons, List.map_append, List.cons_append,
      List.append_assoc, scanValue, skipBlanks_cons rfl]
    rw [hc] at hm ⊢
    simp only [List.map_cons, List.map_nil, List.cons_append, List.nil_append] at hm ⊢
    simp only [scanMembers_quote, hm]

/-- The trees of items that are there, up to the end of the array. -/
theorem scanItem_chars : ∀ (items : List Json) {fuel : Nat} {rest : List Symbol}, items ≠ [] →
    3 * (itemChars items).length + 1 ≤ fuel →
    scanItem fuel ((itemChars items).map some ++ some ']' :: rest) =
      (itemTrees items, none, some rest)
  | [], _, _, hne, _ => absurd rfl hne
  | _ :: _, 0, _, _, hf => by omega
  | [item], fuel + 1, rest, _, hf => by
    have hpos := length_chars_pos item
    simp only [itemChars] at hf
    obtain ⟨fuel, rfl⟩ : ∃ k, fuel = k + 1 := ⟨fuel - 1, by omega⟩
    rw [itemChars, scanItem_of_scanValue (scanValue_chars item (by omega)
      (endsValue_cons (by decide) rest))]
    rfl
  | item :: next :: items, fuel + 1, rest, _, hf => by
    simp only [itemChars, List.length_append, List.length_cons] at hf
    obtain ⟨fuel, rfl⟩ : ∃ k, fuel = k + 1 := ⟨fuel - 1, by omega⟩
    have hi := @scanItem_chars (next :: items) fuel rest (List.cons_ne_nil _ _) (by omega)
    obtain ⟨c, cs, hc, hb, hne⟩ := exists_itemChars_eq next items
    rw [itemChars, List.map_append, List.append_assoc, List.map_cons, List.cons_append,
      scanItem_of_scanValue (scanValue_chars item (by omega) (endsValue_cons (by decide) _))]
    · rw [hc] at hi ⊢
      rw [List.map_cons, List.cons_append] at hi ⊢
      rw [scanMoreItems_comma hb hne, hi]
      rfl
    · exact List.cons_ne_nil _ _

/-- The trees of members that are there, up to the end of the object. -/
theorem scanMember_chars : ∀ (members : List (String × Json)) {fuel : Nat} {rest : List Symbol},
    members ≠ [] → 3 * (memberChars members).length + 1 ≤ fuel →
    scanMember fuel ((memberChars members).map some ++ some '\x7d' :: rest) =
      (memberTrees members, none, some rest)
  | [], _, _, hne, _ => absurd rfl hne
  | _ :: _, 0, _, _, hf => by omega
  | [(key, value)], fuel + 1, rest, _, hf => by
    have hpos := length_chars_pos value
    simp only [memberChars, List.length_append, List.length_cons] at hf
    obtain ⟨fuel, rfl⟩ : ∃ k, fuel = k + 1 := ⟨fuel - 1, by omega⟩
    rw [memberChars, List.map_append, List.append_assoc, List.map_cons, List.cons_append,
      scanMember_of_scanValue key (scanValue_chars value (by omega)
        (endsValue_cons (by decide) rest))]
    rfl
  | (key, value) :: (next, other) :: members, fuel + 1, rest, _, hf => by
    simp only [memberChars, List.length_append, List.length_cons] at hf
    obtain ⟨fuel, rfl⟩ : ∃ k, fuel = k + 1 := ⟨fuel - 1, by omega⟩
    have hm := @scanMember_chars ((next, other) :: members) fuel rest (List.cons_ne_nil _ _)
      (by omega)
    obtain ⟨cs, hc⟩ := exists_memberChars_eq next other members
    rw [memberChars]
    · simp only [List.map_append, List.append_assoc, List.map_cons, List.cons_append]
      rw [scanMember_of_scanValue key (scanValue_chars value (by omega)
        (endsValue_cons (by decide) _))]
      rw [hc] at hm ⊢
      simp only [List.map_cons, List.cons_append] at hm ⊢
      rw [scanMoreMembers_comma, hm]
      rfl
    · exact List.cons_ne_nil _ _

end

/-- **The tree of a text that was written is the tree of what was written.** -/
theorem ofBytes_encode_render (j : Json) : ofBytes (Utf8.encode j.render) = (j.tree, false) := by
  have h := @scanValue_chars j (3 * (j.chars.map some).length + 3) []
    (by rw [List.length_map]; omega) endsValue_nil
  rw [List.append_nil] at h
  rw [ofBytes, Utf8.symbols_encode, render, String.toList_ofList, ofSymbols, h]
  rfl

end Scan

end CropLedger.Json
