import CropLedger.Proofs.Text.Digits
import CropLedger.Uuid

/-!
# Identifiers are read back

* `Uuid.read_toText`: an identifier is read from its written form;
* `Uuid.chars_injective`: two identifiers have two written forms.
-/

namespace CropLedger.Uuid

open Digits

/-! ### The characters of the written form -/

theorem mem_hyphenate {c : Char} {sizes : List Nat} {digits : List Char}
    (h : c ∈ hyphenate sizes digits) : c ∈ digits ∨ c = '-' := by
  induction sizes generalizing digits with
  | nil => cases h
  | cons size sizes ih =>
    cases sizes with
    | nil => exact .inl h
    | cons next sizes =>
      rcases List.mem_append.1 h with h | h
      · exact .inl (List.mem_of_mem_take h)
      · rcases List.mem_cons.1 h with rfl | h
        · exact .inr rfl
        · exact (ih h).imp_left List.mem_of_mem_drop

/-- Every character is a digit in lower case, or a hyphen. -/
theorem mem_chars {id : Uuid} {c : Char} (h : c ∈ id.chars) : (∃ d < 16, c = char d) ∨ c = '-' := by
  refine (mem_hyphenate h).imp_left fun h => ?_
  rw [fixed_eq_map] at h
  obtain ⟨d, hd, rfl⟩ := List.mem_map.1 h
  exact ⟨d, lt_of_mem_fixedDigits (by decide) hd, rfl⟩

theorem not_mem_chars {c : Char} (hd : hex? c = none) (hm : c ≠ '-') (id : Uuid) :
    c ∉ id.chars := by
  intro h
  rcases mem_chars h with ⟨d, hlt, rfl⟩ | hc
  · rw [hex?_char d hlt] at hd
    cases hd
  · exact hm hc

theorem utf8Size_char : ∀ d, d < 16 → (char d).utf8Size = 1 := by decide

theorem utf8Size_of_mem_chars {id : Uuid} {c : Char} (h : c ∈ id.chars) : c.utf8Size = 1 := by
  rcases mem_chars h with ⟨d, hd, rfl⟩ | rfl
  · exact utf8Size_char d hd
  · rfl

theorem byteLength_eq_length {text : List Char} (h : ∀ c ∈ text, c.utf8Size = 1) :
    byteLength text = text.length := by
  induction text with
  | nil => rfl
  | cons c text ih =>
    rw [byteLength, h c List.mem_cons_self, ih fun d hd => h d (List.mem_cons_of_mem _ hd),
      List.length_cons, Nat.add_comm]

/-- The first character is a digit. -/
theorem exists_chars_eq_cons (id : Uuid) : ∃ d < 16, ∃ rest, id.chars = char d :: rest := by
  rcases hd : fixedDigits 16 32 id.bits.toNat with _ | ⟨d, ds⟩
  · have := length_fixedDigits 16 32 id.bits.toNat
    rw [hd] at this
    cases this
  · refine ⟨d, lt_of_mem_fixedDigits (n := id.bits.toNat) (by decide) (hd ▸ List.mem_cons_self), ?_⟩
    rw [chars, fixed_eq_map, hd]
    exact ⟨_, rfl⟩

/-! ### Reading the groups -/

theorem hexes?_map {ds : List Nat} (h : ∀ d ∈ ds, d < 16) : hexes? (ds.map char) = some ds := by
  induction ds with
  | nil => rfl
  | cons d ds ih =>
    rw [List.map_cons, hexes?, hex?_char d (h d List.mem_cons_self),
      ih fun e he => h e (List.mem_cons_of_mem _ he)]
    rfl

theorem groups?_hyphenate {sizes : List Nat} {ds : List Nat} (hd : ∀ d ∈ ds, d < 16)
    (hl : ds.length = sizes.sum) : groups? sizes (hyphenate sizes (ds.map char)) = some ds := by
  induction sizes generalizing ds with
  | nil =>
    obtain rfl := List.eq_nil_of_length_eq_zero hl
    rfl
  | cons size sizes ih =>
    cases sizes with
    | nil =>
      have hl : ds.length = size := by simpa using hl
      rw [hyphenate, groups?, List.length_map, if_pos hl, hexes?_map hd]
    | cons next sizes =>
      rw [List.sum_cons] at hl
      have htake : ((ds.take size).map char).length = size := by
        rw [List.length_map, List.length_take]
        omega
      have ih := @ih (ds.drop size) (fun d h => hd d (List.mem_of_mem_drop h))
        (by rw [List.length_drop]; omega)
      have hfirst := hexes?_map fun d (h : d ∈ ds.take size) => hd d (List.mem_of_mem_take h)
      rw [hyphenate, groups?, ← List.map_take, ← List.map_drop, List.drop_left' htake,
        List.take_left' htake]
      · simp only [hfirst, ih]
        exact congrArg some (List.take_append_drop size ds)
      · exact List.cons_ne_nil _ _
      · exact List.cons_ne_nil _ _

theorem char_ne_brace : ∀ d, d < 16 → char d ≠ '\x7b' := by decide

theorem char_ne_u : ∀ d, d < 16 → (char d).toLower ≠ 'u' := by decide

theorem unwrap_chars (id : Uuid) : (unwrap id.chars).1 = id.chars := by
  obtain ⟨d, hd, rest, hc⟩ := id.exists_chars_eq_cons
  rw [unwrap, hc, if_neg, if_neg]
  · intro h
    exact char_ne_u d hd (List.cons.inj h).1
  · rintro ⟨h, -⟩
    exact char_ne_brace d hd (Option.some.inj h)

theorem digits?_chars (id : Uuid) : digits? id.chars = some (fixedDigits 16 32 id.bits.toNat) := by
  have hlen := id.length_chars
  have hsum : (fixedDigits 16 32 id.bits.toNat).length = groupSizes.sum := by
    rw [length_fixedDigits]
    rfl
  rw [digits?, if_neg (by omega), Option.orElse_apply, Option.orElse_none, unwrap_chars, chars,
    fixed_eq_map]
  exact groups?_hyphenate (fun _ => lt_of_mem_fixedDigits (by decide)) hsum

/-- **An identifier is read from its written form.** -/
theorem read_toText (id : Uuid) : read id.toText = .ok id := by
  have hlen := id.length_chars
  have hsize : byteLength id.chars = 36 := by
    rw [byteLength_eq_length fun _ => utf8Size_of_mem_chars, hlen]
  have hlt : id.bits.toNat < 16 ^ 32 := Nat.lt_of_lt_of_eq id.bits.isLt (by decide)
  have hvalue : value 16 (fixedDigits 16 32 id.bits.toNat) = id.bits.toNat :=
    value_fixedDigits_of_lt hlt
  simp only [read, toText, String.toList_ofList, hsize, digits?_chars]
  rw [if_neg (by decide), ofDigits, hvalue, BitVec.ofNat_toNat, BitVec.setWidth_eq]

theorem toText_injective {a b : Uuid} (h : a.toText = b.toText) : a = b := by
  have hr := a.read_toText
  rw [h, read_toText] at hr
  exact (Except.ok.inj hr).symm

theorem chars_injective {a b : Uuid} (h : a.chars = b.chars) : a = b :=
  toText_injective (congrArg String.ofList h)

/-- What stands in front tells identifiers apart, whatever follows. -/
theorem append_inj {a b : Uuid} {rest rest' : List Char} (h : a.chars ++ rest = b.chars ++ rest') :
    a = b ∧ rest = rest' := by
  obtain ⟨hc, hr⟩ := List.append_inj h (by rw [length_chars, length_chars])
  exact ⟨chars_injective hc, hr⟩

end CropLedger.Uuid
