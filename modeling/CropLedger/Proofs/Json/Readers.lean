import CropLedger.Cache.Basic
import CropLedger.Proofs.Json.Tree

/-!
# Reading values that were written

What the plain readers make of the trees of written values, and how a reader of items becomes a
reader of sequences.

* `Reader.Restores`, `Reader.Faithful`: a reader gives back a value from its written form, or
  nothing else at least;
* `Reader.restores_text`, `Reader.unsigned_number`: the plain readers;
* `Reader.sequence_array`: a sequence is read item by item;
* `Reader.decode_encode`: reading the bytes of a written value is reading its tree.
-/

namespace CropLedger.Json

/-! ### Results that are values -/

section Results

variable {ε ε' α β : Type}

theorem bind_eq_ok {x : Except ε α} {f : α → Except ε β} {b : β} :
    (x >>= f) = .ok b ↔ ∃ a, x = .ok a ∧ f a = .ok b := by
  cases x with
  | error e => exact ⟨nofun, nofun⟩
  | ok a => exact ⟨fun h => ⟨a, rfl, h⟩, fun ⟨_, ha, h⟩ => by cases ha; exact h⟩

theorem map_eq_ok {x : Except ε α} {f : α → β} {b : β} :
    x.map f = .ok b ↔ ∃ a, x = .ok a ∧ f a = b := by
  cases x with
  | error e => exact ⟨nofun, nofun⟩
  | ok a => simp [Except.map]

theorem mapError_eq_ok {x : Except ε α} {f : ε → ε'} {a : α} :
    x.mapError f = .ok a ↔ x = .ok a := by
  cases x with
  | error e => exact ⟨nofun, nofun⟩
  | ok b => simp [Except.mapError]

theorem bind_eq_error {x : Except ε α} {f : α → Except ε β} {e : ε} :
    (x >>= f) = .error e ↔ x = .error e ∨ ∃ a, x = .ok a ∧ f a = .error e := by
  cases x with
  | error e' =>
    exact ⟨fun h => by cases h; exact .inl rfl, fun h => h.elim (fun h => by cases h; rfl) nofun⟩
  | ok a =>
    exact ⟨fun h => .inr ⟨a, rfl, h⟩, fun h => h.elim nofun fun ⟨_, ha, h⟩ => by cases ha; exact h⟩

theorem bind_pure_eq_error {x : Except ε α} {f : α → β} {e : ε} :
    (x >>= fun a => pure (f a)) = .error e ↔ x = .error e := by
  rw [bind_eq_error]
  exact or_iff_left fun ⟨_, _, h⟩ => nomatch h

theorem mapError_eq_error {x : Except ε α} {f : ε → ε'} {e : ε'} :
    x.mapError f = .error e ↔ ∃ e', x = .error e' ∧ f e' = e := by
  cases x with
  | error e' => simp [Except.mapError]
  | ok a => exact ⟨nofun, nofun⟩

end Results

/-! ### Texts and numbers -/

theorem RawText.chars_map (cs : List Char) : RawText.chars none (cs.map .char) = .ok cs := by
  induction cs with
  | nil => rfl
  | cons c cs ih => rw [List.map_cons, RawText.chars, ih, Except.map]

theorem RawText.read_of (s : String) : (RawText.of s).read = .ok s := by
  rw [RawText.read, RawText.of, RawText.chars_map, Except.map, String.ofList_toList]

/-- A text that can be read has its closing quote. -/
theorem RawText.chars_eq_ok {stop : Option Stop} {pieces : List Piece} {cs : List Char}
    (h : chars stop pieces = .ok cs) : stop = none := by
  fun_induction chars stop pieces generalizing cs with
  | case1 s => cases h
  | case2 => assumption
  | case3 c rest ih =>
    obtain ⟨rest', hrest, -⟩ := map_eq_ok.1 h
    exact ih hrest
  | case4 rest ih =>
    obtain ⟨rest', -, hstray⟩ := bind_eq_ok.1 h
    cases hstray
  | case7 lead _ trail rest _ ih =>
    obtain ⟨rest', hrest, -⟩ := map_eq_ok.1 h
    exact ih hrest
  | _ => cases h

theorem RawText.stop_eq_none {t : RawText} {s : String} (h : t.read = .ok s) : t.stop = none := by
  obtain ⟨cs, hcs, -⟩ := map_eq_ok.1 h
  exact chars_eq_ok hcs

/-- A whole number without a sign is read as it is if it has at most 64 bits. -/
theorem Numeral.value?_ofNat {n : Nat} (h : n < 2 ^ 64) :
    (Numeral.ofInt n).value? = some (.unsigned n) := by
  have hn : ¬((n : Int) < 0) := by omega
  rw [Numeral.value?]
  simp only [Numeral.ofInt, hn, decide_false, Int.natAbs_natCast, Digits.value_shortestDigits]
  simpa using h

/-- A larger one is read as a double, if at all. -/
theorem Numeral.value?_ofNat_of_le {n : Nat} (h : 2 ^ 64 ≤ n) :
    (Numeral.ofInt n).value? = (Numeral.ofInt n).magnitude?.map (.real false) := by
  have hn : ¬((n : Int) < 0) := by omega
  rw [Numeral.value?, if_neg]
  · simp only [Numeral.ofInt, hn, decide_false]
  · simp only [Numeral.ofInt, Int.natAbs_natCast, Digits.value_shortestDigits]
    exact fun hall => absurd hall.2.2.1 (Nat.not_lt.2 h)

/-! ### Readers -/

namespace Reader

variable {α β : Type}

/-- A reader gives back a value from its written form. -/
def Restores (read : Reader α) (j : Json) (a : α) : Prop := read j.tree = .ok a

/-- A reader makes nothing else of a value's written form. -/
def Faithful (read : Reader α) (json : α → Json) : Prop :=
  ∀ a b, read (json a).tree = .ok b → b = a

theorem readText_text (wanted : Wanted) (read : String → Except Fault α) (s : String) :
    readText wanted read (Json.text s).tree = read s := by
  rw [tree, readText, RawText.read_of]
  rfl

theorem restores_text (s : String) : text.Restores (.text s) s := readText_text .text .ok s

theorem restores_boolean (value : Bool) : boolean.Restores (.boolean value) value := rfl

/-- Only a number of at most 64 bits is read, and as it is. -/
theorem unsigned_number {n k : Nat} :
    unsigned (Json.number n).tree = .ok k ↔ n < 2 ^ 64 ∧ k = n := by
  rw [tree, unsigned]
  rcases Nat.lt_or_ge n (2 ^ 64) with h | h
  · rw [Numeral.value?_ofNat h]
    exact ⟨fun he => ⟨h, (Except.ok.inj he).symm⟩, fun he => congrArg Except.ok he.2.symm⟩
  · rw [Numeral.value?_ofNat_of_le h]
    have hn : ¬n < 2 ^ 64 := by omega
    simp only [hn, false_and, iff_false]
    cases (Numeral.ofInt n).magnitude? with
    | none =>
      simp only [Option.map_none, Scan.wrongType, bind_eq_ok]
      rintro ⟨_, -, h⟩
      cases h
    | some x =>
      simp only [Option.map_some, Scan.wrongType, bind_eq_ok]
      rintro ⟨_, -, h⟩
      cases h

theorem restores_nullable_text {read : Reader α} {s : String} {a : α}
    (h : read.Restores (.text s) a) : (nullable read).Restores (.text s) (some a) := by
  have h : read (Json.text s).tree = .ok a := h
  show ((read (Json.text s).tree).map some) = _
  rw [h]
  rfl

/-- A sequence is read item by item, each as whatever it is read as. -/
theorem sequence_array {read : Reader β} {json : α → Json} {told : α → β} {items : List α}
    (h : ∀ a ∈ items, read.Restores (json a) (told a)) :
    (sequence read).Restores (.array (items.map json)) (items.map told) := by
  have hitems (index : Nat) :
      readItems read none index ((items.map json).map tree) = .ok (items.map told) := by
    induction items generalizing index with
    | nil => rfl
    | cons a items ih =>
      have ha : read (json a).tree = .ok (told a) := h a List.mem_cons_self
      rw [List.map_cons, List.map_cons, readItems, ha,
        ih (fun b hb => h b (List.mem_cons_of_mem _ hb))]
      rfl
  show readItems read none 0 (itemTrees (items.map json)) = _
  rw [itemTrees_eq_map]
  exact hitems 0

/-- Reading bytes that nothing follows is reading their tree. -/
theorem decode_of_ofBytes (read : Reader α) {bytes : Bytes} {tree : Scan}
    (h : Scan.ofBytes bytes = (tree, false)) : decode read bytes = read tree := by
  rw [decode, h]
  cases h : read tree <;> simp [bind, Except.bind, h, pure, Except.pure]

/-- **Reading the bytes of a written value is reading its tree.** -/
theorem decode_encode (read : Reader α) (j : Json) :
    decode read (Cache.encode j) = read j.tree :=
  decode_of_ofBytes read (Scan.ofBytes_encode_render j)

end Reader

end CropLedger.Json
