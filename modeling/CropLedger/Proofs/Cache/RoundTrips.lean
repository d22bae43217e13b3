import CropLedger.Proofs.Cache.Backends
import CropLedger.Proofs.Market.Questions

/-!
# What is kept in a cache comes back

An answer is handed to a cache as bytes, and is read from the bytes that the cache gives back. Texts
are escaped, times carry their distance from UTC, decimals show every place, and notes that are
absent are told from notes that are empty; so nothing of an answer that clients see is lost, as long
as the cache keeps the bytes. Of an answer as it is held in memory two things are: the sign of a
zero, and that a second other than the last of its minute was a leap second.

* `CacheKey.Held`: an answer as it is held, with `CacheKey.told` and `CacheKey.held` from it to what
  clients see and back;
* `CacheKey.held_told_iff`: which answers are the same again;
* `CacheKey.Fits`: the numbers of a page have at most 64 bits;
* `CacheKey.decode_encode_iff`: what is read from the bytes of an answer;
* `CacheKey.encode_injective`: plain answers with the same bytes are the same;
* `Cache.Follows.get_set`: a cache that follows a list of entries gives back what it was handed;
* `CacheKey.kept_answer_comes_back`: the two ways of a cache as a whole;
* `CacheKey.minus_zero_comes_back_bare`: two answers that do not come back as they were.
-/

namespace CropLedger

/-! ### Rows that come back as they were -/

theorem HeldPrice.held_told_iff {p : HeldPrice} : p.told.held = p ↔ p.IsPlain := by
  obtain ⟨id, pair, value, created, updated⟩ := p
  simp only [told, PriceView.held, HeldPrice.mk.injEq, IsPlain, SignedDecimal.signed_plain_iff,
    LongTimestamp.long_told_iff, true_and]

theorem HeldSnapshot.held_told_iff {s : HeldSnapshot} : s.told.held = s ↔ s.IsPlain := by
  obtain ⟨price, pair, value, created, updated, current⟩ := s
  simp only [told, PriceSnapshot.held, HeldSnapshot.mk.injEq, IsPlain,
    SignedDecimal.signed_plain_iff, LongTimestamp.long_told_iff, true_and, and_true]

theorem HeldHarvest.held_told_iff {h : HeldHarvest} : h.told.held = h ↔ h.IsPlain := by
  obtain ⟨id, land, date, quantity, unit, notes, created, updated⟩ := h
  simp only [told, HarvestView.held, HeldHarvest.mk.injEq, IsPlain, SignedDecimal.signed_plain_iff,
    LongTimestamp.long_told_iff, true_and]

section Rows

variable {α β : Type} {held : α → β} {told : β → α} {json : α → Json} {heldJson : β → Json}

/-- Rows come back as they were if each of them does. -/
theorem map_told_held_iff {IsPlain : β → Prop} (h : ∀ {b}, held (told b) = b ↔ IsPlain b)
    {rows : List β} : (rows.map told).map held = rows ↔ ∀ b ∈ rows, IsPlain b := by
  rw [List.map_map]
  nth_rewrite 2 [← List.map_id rows]
  rw [List.map_inj_left]
  exact forall₂_congr fun b _ => h

/-- A page comes back as it was if each of its rows does. -/
theorem Page.map_told_held_iff {IsPlain : β → Prop} (h : ∀ {b}, held (told b) = b ↔ IsPlain b)
    {p : Page β} : (p.map told).map held = p ↔ ∀ b ∈ p.data, IsPlain b := by
  rw [← CropLedger.map_told_held_iff h]
  obtain ⟨data, page, limit, total⟩ := p
  simp only [map, Page.mk.injEq, and_true]

theorem Page.map_held_told (h : ∀ a, told (held a) = a) (p : Page α) :
    (p.map held).map told = p := by
  obtain ⟨data, page, limit, total⟩ := p
  simp [map, Function.comp_def, h]

theorem Page.json_map_held (h : ∀ a, heldJson (held a) = json a) (p : Page α) :
    (p.map held).json heldJson = p.json json := by
  simp [Page.json, map, Function.comp_def, h]

end Rows

/-! ### Answers that are held -/

/-- The numbers of a page have at most 64 bits. -/
structure Page.Fits {α : Type} (p : Page α) : Prop where
  page : p.page < 2 ^ 64
  limit : p.limit < 2 ^ 64
  total : p.total < 2 ^ 64

/-- Values with the same bytes are written with the same parts. -/
theorem Cache.tree_eq_of_encode_eq {j j' : Json} (h : encode j = encode j') : j.tree = j'.tree := by
  have htrees := congrArg Json.Scan.ofBytes h
  rw [encode, encode, Json.Scan.ofBytes_encode_render, Json.Scan.ofBytes_encode_render] at htrees
  exact congrArg Prod.fst htrees

/-- Prices with the same bytes show their values in the same way. -/
theorem HeldPrice.text_value_eq {p q : HeldPrice} (h : Cache.encode p.json = Cache.encode q.json) :
    p.value.toText = q.value.toText := by
  have htree := Cache.tree_eq_of_encode_eq h
  simp only [json, Json.tree, Json.memberTrees, Json.RawText.of, Prod.mk.injEq,
    Json.Scan.object.injEq, List.cons.injEq, Json.Scan.text.injEq, Json.RawText.mk.injEq,
    and_true, true_and] at htree
  obtain ⟨-, -, -, hvalue, -, -⟩ := htree
  exact String.toList_inj.1 (List.map_injective_iff.2 (fun _ _ => Json.Piece.char.inj) hvalue)

namespace CacheKey

/-- An answer as it is held. -/
def Held : CacheKey → Type
  | .price _ => HeldPrice
  | .prices _ => Page HeldPrice
  | .history _ => List HeldSnapshot
  | .harvests _ _ => Page HeldHarvest

/-- How an answer that is held is written. -/
def heldJson : (k : CacheKey) → k.Held → Json
  | .price _ => HeldPrice.json
  | .prices _ => Page.json HeldPrice.json
  | .history _ => fun points => .array (points.map HeldSnapshot.json)
  | .harvests _ _ => Page.json HeldHarvest.json

/-- What clients see of an answer that is held. -/
def told : (k : CacheKey) → k.Held → k.Answer
  | .price _ => HeldPrice.told
  | .prices _ => Page.map HeldPrice.told
  | .history _ => List.map HeldSnapshot.told
  | .harvests _ _ => Page.map HeldHarvest.told

/-- An answer that clients see, as it is held. -/
def held : (k : CacheKey) → k.Answer → k.Held
  | .price _ => PriceView.held
  | .prices _ => Page.map PriceView.held
  | .history _ => List.map PriceSnapshot.held
  | .harvests _ _ => Page.map HarvestView.held

/-- Whether all rows of an answer are plain. -/
def IsPlain : (k : CacheKey) → k.Held → Prop
  | .price _, (p : HeldPrice) => p.IsPlain
  | .prices _, (p : Page HeldPrice) => ∀ x ∈ p.data, x.IsPlain
  | .history _, (points : List HeldSnapshot) => ∀ x ∈ points, x.IsPlain
  | .harvests _ _, (p : Page HeldHarvest) => ∀ x ∈ p.data, x.IsPlain

/-- **An answer is the same again if it has no zero with a sign, and no leap second out of its
place.** -/
theorem held_told_iff (k : CacheKey) {a : k.Held} : k.held (k.told a) = a ↔ k.IsPlain a := by
  cases k with
  | price id => exact HeldPrice.held_told_iff
  | prices s => exact Page.map_told_held_iff HeldPrice.held_told_iff
  | history pair => exact map_told_held_iff HeldSnapshot.held_told_iff
  | harvests land s => exact Page.map_told_held_iff HeldHarvest.held_told_iff

theorem told_held (k : CacheKey) (b : k.Answer) : k.told (k.held b) = b := by
  cases k with
  | price id => exact PriceView.told_held b
  | prices s => exact Page.map_held_told PriceView.told_held b
  | history pair =>
    refine List.map_map.trans ((List.map_congr_left fun x _ => ?_).trans (List.map_id _))
    exact PriceSnapshot.told_held x
  | harvests land s => exact Page.map_held_told HarvestView.told_held b

/-- What clients see is written as it is. -/
theorem json_held (k : CacheKey) (b : k.Answer) : k.heldJson (k.held b) = k.json b := by
  cases k with
  | price id => exact PriceView.json_held b
  | prices s => exact Page.json_map_held PriceView.json_held b
  | history pair =>
    refine congrArg Json.array (List.map_map.trans (List.map_congr_left fun x _ => ?_))
    exact PriceSnapshot.json_held x
  | harvests land s => exact Page.json_map_held HarvestView.json_held b

/-! ### Bytes of an answer -/

/-- The numbers of an answer have at most 64 bits; only pages have numbers. -/
def Fits : (k : CacheKey) → k.Answer → Prop
  | .prices _, p => Page.Fits p
  | .harvests _ _, p => Page.Fits p
  | .price _, _ | .history _, _ => True

/-- **What clients see of an answer is read from its written form** if its numbers have at most 64
bits, and nothing is read at all if one has more. -/
theorem reader_json_iff (k : CacheKey) {a : k.Held} {b : k.Answer} :
    k.reader (k.heldJson a).tree = .ok b ↔ b = k.told a ∧ k.Fits (k.told a) := by
  have hpage {α β : Type} {item : Json.Reader β} {json : α → Json} {told : α → β}
      (hitem : ∀ x, item.Restores (json x) (told x)) (name : String) {p : Page α} {q : Page β} :
      Page.reader name item (p.json json).tree = .ok q ↔ q = p.map told ∧ (p.map told).Fits :=
    (Page.reader_json (fun x _ => hitem x) name).trans
      (and_congr_right fun _ => ⟨fun ⟨h₁, h₂, h₃⟩ => ⟨h₁, h₂, h₃⟩, fun h => ⟨h.1, h.2, h.3⟩⟩)
  have hrow {α : Type} {reader : Json.Reader α} {j : Json} {x y : α} (h : reader.Restores j x) :
      reader j.tree = .ok y ↔ y = x ∧ True := by
    rw [show reader j.tree = .ok x from h, Except.ok.injEq, and_true, eq_comm]
  cases k with
  | price id => exact hrow (HeldPrice.restores a)
  | prices s => exact hpage HeldPrice.restores "PricePage"
  | history pair => exact hrow (Json.Reader.sequence_array fun x _ => HeldSnapshot.restores x)
  | harvests land s => exact hpage HeldHarvest.restores "HarvestPage"

theorem decode_encode_iff (k : CacheKey) {a : k.Held} {b : k.Answer} :
    Json.Reader.decode k.reader (Cache.encode (k.heldJson a)) = .ok b ↔
      b = k.told a ∧ k.Fits (k.told a) := by
  rw [Json.Reader.decode_encode, reader_json_iff]

/-- **Plain answers with the same bytes are the same**: no two spellings of one decimal, no two
offsets of one point in time, and no two forms of absent notes share their bytes. -/
theorem encode_injective (k : CacheKey) {a b : k.Held} (ha : k.IsPlain a) (hb : k.IsPlain b)
    (h : k.Fits (k.told a))
    (hbytes : Cache.encode (k.heldJson b) = Cache.encode (k.heldJson a)) : b = a := by
  have hread := k.decode_encode_iff.2 ⟨rfl, h⟩
  rw [← hbytes] at hread
  have htold : k.told a = k.told b := (k.decode_encode_iff.1 hread).1
  rw [← k.held_told_iff.2 hb, ← k.held_told_iff.2 ha, htold]

end CacheKey

/-! ### Bytes in a cache -/

namespace Cache

variable {σ α : Type} {cache : Cache σ}

/-- An entry whose bytes can be read is given as a value. -/
theorem getValue_eq_ok {reader : Json.Reader α} {key : String} {s : σ} {bytes : Bytes} {a : α}
    (hget : (cache.get key s).1 = .ok (some bytes))
    (hread : Json.Reader.decode reader bytes = .ok a) :
    (cache.getValue reader key s).1 = .ok (some a) := by
  show decode reader (cache.get key s).1 = _
  rw [hget, decode, hread]
  rfl

/-- **A cache that follows a list of entries gives back what it was handed.** -/
theorem Follows.get_set {related : σ → Shelf → Prop} {allowed : CacheRequest → Prop}
    (h : cache.Follows Shelf.cache related allowed) {key : String} {bytes : Bytes} {ttl : Nat}
    (hset : allowed (.set key bytes ttl)) (hget : allowed (.get key)) {s : σ} {l : Shelf}
    (hs : related s l) : (cache.get key (cache.set key bytes ttl s).2).1 = .ok (some bytes) := by
  obtain ⟨-, hkept⟩ := h _ hset s l hs
  obtain ⟨hfound, -⟩ := h _ hget _ _ hkept
  refine (CacheReply.found.inj hfound).trans ?_
  show Except.ok (List.lookup key ((key, bytes) :: l.filter _)) = _
  rw [List.lookup_cons_self]

end Cache

/-! ### There and back -/

namespace CacheKey

/-- **What goes into a cache comes out as clients see it, and a plain answer unchanged.** An answer
that is held, of whatever kind, is handed to every cache as the same bytes; whoever gives these
bytes back gives back what clients see of the answer, and a backend that follows a list of entries
does so right after it was kept. This is the answer again if and only if it has no zero with a sign
and no leap second but the last second of a minute; it then has the same bytes again, and no other
such answer has them. Every answer that clients see is such an answer, and written as it is. -/
theorem kept_answer_comes_back (k : CacheKey) (a : k.Held) (h : k.Fits (k.told a)) :
    ∃ bytes : Bytes,
      (∀ {σ : Type} (cache : Cache σ) (key : String) (ttl : Nat) (s : σ),
        cache.setValue key (k.heldJson a) ttl s = cache.set key bytes ttl s) ∧
      (∀ {σ : Type} (cache : Cache σ) (key : String) (s : σ),
        (cache.get key s).1 = .ok (some bytes) →
        (cache.getValue k.reader key s).1 = .ok (some (k.told a))) ∧
      (∀ {σ : Type} (cache : Cache σ) {related : σ → Shelf → Prop} {allowed : CacheRequest → Prop},
        cache.Follows Shelf.cache related allowed →
        ∀ (key : String) (ttl : Nat) (s : σ) (l : Shelf), related s l →
          allowed (.set key bytes ttl) → allowed (.get key) →
          (cache.getValue k.reader key (cache.setValue key (k.heldJson a) ttl s).2).1 =
            .ok (some (k.told a))) ∧
      (k.held (k.told a) = a ↔ k.IsPlain a) ∧
      (k.IsPlain a → Cache.encode (k.heldJson (k.held (k.told a))) = bytes ∧
        ∀ b, k.IsPlain b → Cache.encode (k.heldJson b) = bytes → b = a) ∧
      ∀ b : k.Answer, k.IsPlain (k.held b) ∧ k.told (k.held b) = b ∧
        k.heldJson (k.held b) = k.json b := by
  have hread := k.decode_encode_iff.2 ⟨rfl, h⟩
  refine ⟨Cache.encode (k.heldJson a), fun _ _ _ _ => rfl, ?_, ?_, k.held_told_iff, ?_, ?_⟩
  · intro σ cache key s hget
    exact Cache.getValue_eq_ok hget hread
  · intro σ cache related allowed hfollows key ttl s l hs hset hget
    exact Cache.getValue_eq_ok (hfollows.get_set hset hget hs) hread
  · intro ha
    rw [k.held_told_iff.2 ha]
    exact ⟨rfl, fun b hb => k.encode_injective ha hb h⟩
  · intro b
    refine ⟨k.held_told_iff.1 ?_, k.told_held b, k.json_held b⟩
    rw [k.told_held b]

namespace Sample

/-- A page whose harvest has trailing zeros, a leap second at a distance from UTC, a fraction, and
notes with a control sign and a sign outside the basic plane. -/
def page : Page HeldHarvest where
  data := [{
    id := ⟨1⟩, landCommodity := ⟨9⟩, date := ⟨-43, 11, 9, by decide⟩
    quantity := ⟨true, 2500, 3, by decide⟩, unit := "\x01\"kg", notes := some "\n𝄞"
    createdAt := ⟨⟨2015, 6, 30, by decide⟩, 18, 29, 59, 1120000000, -330, by decide⟩
    updatedAt := ⟨⟨12002, 2, 2, by decide⟩, 0, 0, 0, 1, 0, by decide⟩ }]
  page := 18446744073709551615
  limit := 1
  total := 18446744073709551615

/-- A point in time. -/
def noon : LongTimestamp := ⟨⟨2024, 1, 2, by decide⟩, 12, 0, 30, 0, 0, by decide⟩

/-- A price of zero, with a sign. -/
def minusZero : HeldPrice := ⟨⟨1⟩, ⟨⟨2⟩, ⟨3⟩⟩, ⟨true, 0, 2, by decide⟩, noon, noon⟩

/-- A price that was changed in a leap second in the middle of its minute. -/
def stretched : HeldPrice :=
  ⟨⟨1⟩, ⟨⟨2⟩, ⟨3⟩⟩, ⟨false, 105, 1, by decide⟩, noon, { noon with
    nanos := 1500000000, isTime := by decide }⟩

end Sample

open Sample in
theorem kept_answer_comes_back_sample :
    Fits (.harvests ⟨9⟩ ⟨1, 1⟩) (told (.harvests ⟨9⟩ ⟨1, 1⟩) page) ∧
      (Memory.cache.getValue HarvestPage.reader "page"
        (Memory.cache.setValue "page" (heldJson (.harvests ⟨9⟩ ⟨1, 1⟩) page) 60000
          (Memory.empty 1)).2).1 = .ok (some (told (.harvests ⟨9⟩ ⟨1, 1⟩) page)) ∧
      held (.harvests ⟨9⟩ ⟨1, 1⟩) (told (.harvests ⟨9⟩ ⟨1, 1⟩) page) = page := by
  have hfits : Fits (.harvests ⟨9⟩ ⟨1, 1⟩) (told (.harvests ⟨9⟩ ⟨1, 1⟩) page) :=
    ⟨by decide, by decide, by decide⟩
  obtain ⟨bytes, -, -, hfollowed, hplain, -, -⟩ :=
    kept_answer_comes_back (.harvests ⟨9⟩ ⟨1, 1⟩) page hfits
  have hempty : (Memory.empty 1).Mirrors ["page"] [] :=
    ⟨List.forall_mem_nil _, .refl _, List.nodup_nil, List.forall_mem_nil _, by decide⟩
  have hpage : IsPlain (.harvests ⟨9⟩ ⟨1, 1⟩) page := by
    intro x hx
    obtain rfl := List.mem_singleton.1 hx
    exact ⟨by decide, by decide, by decide⟩
  exact ⟨hfits, hfollowed Memory.cache (Memory.follows ["page"]) "page" 60000 _ [] hempty
    ⟨List.mem_singleton_self _, by decide⟩ trivial, hplain.2 hpage⟩

open Sample in
/-- **A zero with a sign comes back without it, and a leap second out of its place as the second
after it.** Neither is what was kept, and the zero has other bytes than it had. -/
theorem minus_zero_comes_back_bare :
    (Memory.cache.getValue PriceView.reader "price"
      (Memory.cache.setValue "price" minusZero.json 60000 (Memory.empty 1)).2).1 =
        .ok (some minusZero.told) ∧
      minusZero.told.held ≠ minusZero ∧
      Cache.encode minusZero.told.held.json ≠ Cache.encode minusZero.json ∧
      (Memory.cache.getValue PriceView.reader "price"
        (Memory.cache.setValue "price" stretched.json 60000 (Memory.empty 1)).2).1 =
          .ok (some stretched.told) ∧
      stretched.told.held ≠ stretched := by
  have hget (bytes : Bytes) : (Memory.cache.get "price"
      (Memory.cache.set "price" bytes 60000 (Memory.empty 1)).2).1 = .ok (some bytes) := rfl
  have hback (p : HeldPrice) : (Memory.cache.getValue PriceView.reader "price"
      (Memory.cache.setValue "price" p.json 60000 (Memory.empty 1)).2).1 = .ok (some p.told) :=
    Cache.getValue_eq_ok (hget _) ((decode_encode_iff (.price ⟨1⟩)).2 ⟨rfl, trivial⟩)
  refine ⟨hback minusZero, fun h => ?_, fun h => ?_, hback stretched, fun h => ?_⟩
  · exact (HeldPrice.held_told_iff.1 h).1 rfl rfl
  · exact absurd (HeldPrice.text_value_eq h) (by decide)
  · exact absurd (HeldPrice.held_told_iff.1 h).2.2 (by decide)

end CacheKey

end CropLedger
