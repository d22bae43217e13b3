import CropLedger.Cache.Key
import CropLedger.Proofs.Uuid

/-!
# The names of cached queries

* `CacheKey.text_injective`: two queries have two names;
* `CacheKey.label_prefix_iff`: a name starts with its own kind and with no other.
-/

namespace CropLedger.CacheKey

open Digits

/-! ### The characters of names -/

theorem toList_pageText (s : PageSpec) : (pageText s).toList =
    ['_', 'p', 'a', 'g', 'e', '_'] ++ (shortest s.page ++
      (['_', 'l', 'i', 'm', 'i', 't', '_'] ++ shortest s.limit)) := by
  have hn (n : Nat) : (toString n).toList = shortest n := Nat.toList_repr
  have hs (t : String) : toString t = t := rfl
  simp only [pageText, String.toList_append, hn, hs, List.append_assoc]
  simp

theorem toList_price (id : Uuid) :
    (price id).text.toList = ['p', 'r', 'i', 'c', 'e', '_'] ++ id.chars := by
  simp [text, Uuid.toText]

theorem toList_prices (s : PageSpec) : (prices s).text.toList =
    ['p', 'r', 'i', 'c', 'e', '_'] ++ ('l' :: 'i' :: 's' :: 't' :: (pageText s).toList) := by
  simp [text]

theorem toList_history (pair : Pair) : (history pair).text.toList =
    ['p', 'r', 'i', 'c', 'e', '_'] ++ ('h' :: 'i' :: 's' :: 't' :: 'o' :: 'r' :: 'y' :: '_' ::
      (pair.commodity.chars ++ '_' :: pair.location.chars)) := by
  simp [text, Uuid.toText]

theorem toList_harvests (land : Uuid) (s : PageSpec) : (harvests land s).text.toList =
    ['h', 'a', 'r', 'v', 'e', 's', 't'] ++ ('_' :: 'l' :: 'i' :: 's' :: 't' :: '_' ::
      (land.chars ++ (pageText s).toList)) := by
  simp [text, Uuid.toText]

/-! ### Names tell queries apart -/

theorem pageText_injective {s s' : PageSpec} (h : (pageText s).toList = (pageText s').toList) :
    s = s' := by
  rw [toList_pageText, toList_pageText] at h
  obtain ⟨hp, hr⟩ := shortest_append_inj (noDigitAhead_cons rfl _) (noDigitAhead_cons rfl _)
    (List.append_cancel_left h)
  have hl : shortest s.limit ++ [] = shortest s'.limit ++ [] := by simpa using hr
  obtain ⟨hl, -⟩ := shortest_append_inj noDigitAhead_nil noDigitAhead_nil hl
  obtain ⟨page, limit⟩ := s
  cases hp
  cases hl
  rfl

/-- The shapes of queries, numbered. -/
def shape : CacheKey → Nat
  | .price _ => 0
  | .prices _ => 1
  | .history _ => 2
  | .harvests _ _ => 3

/-- The shape that is told by the seventh character of a name. -/
def shapeOf (name : List Char) : Nat :=
  match (name.drop 6).head? with
  | some 'l' => 1
  | some 'h' => 2
  | some 't' => 3
  | _ => 0

theorem shapeOf_price : ∀ d, d < 16 → shapeOf ['p', 'r', 'i', 'c', 'e', '_', char d] = 0 := by
  decide

theorem shapeOf_text (k : CacheKey) : shapeOf k.text.toList = k.shape := by
  cases k with
  | price id =>
    obtain ⟨d, hd, rest, he⟩ := id.exists_chars_eq_cons
    rw [toList_price, he]
    exact shapeOf_price d hd
  | prices s =>
    rw [toList_prices]
    rfl
  | history pair =>
    rw [toList_history]
    rfl
  | harvests land s =>
    rw [toList_harvests]
    rfl

theorem shape_eq {a b : CacheKey} (h : a.text = b.text) : a.shape = b.shape := by
  rw [← shapeOf_text a, ← shapeOf_text b, h]

/-- **Two queries have two names.** -/
theorem text_injective {a b : CacheKey} (h : a.text = b.text) : a = b := by
  have hl := congrArg String.toList h
  cases a with
  | price id =>
    cases b with
    | price id' =>
      rw [toList_price, toList_price] at hl
      rw [Uuid.chars_injective (List.append_cancel_left hl)]
    | _ => cases shape_eq h
  | prices s =>
    cases b with
    | prices s' =>
      rw [toList_prices, toList_prices] at hl
      have hp := List.append_cancel_left hl
      simp only [List.cons.injEq, true_and] at hp
      rw [pageText_injective hp]
    | _ => cases shape_eq h
  | history pair =>
    cases b with
    | history pair' =>
      rw [toList_history, toList_history] at hl
      have hp := List.append_cancel_left hl
      simp only [List.cons.injEq, true_and] at hp
      obtain ⟨hc, hr⟩ := Uuid.append_inj hp
      have hr := Uuid.chars_injective (List.cons.inj hr).2
      obtain ⟨commodity, location⟩ := pair
      cases hc
      cases hr
      rfl
    | _ => cases shape_eq h
  | harvests land s =>
    cases b with
    | harvests land' s' =>
      rw [toList_harvests, toList_harvests] at hl
      have hp := List.append_cancel_left hl
      simp only [List.cons.injEq, true_and] at hp
      obtain ⟨rfl, hs⟩ := Uuid.append_inj hp
      rw [pageText_injective hs]
    | _ => cases shape_eq h

/-! ### Names tell kinds -/

/-- **A name starts with its own kind and with no other.** -/
theorem label_prefix_iff (e : Entity) (k : CacheKey) :
    e.label.toList <+: k.text.toList ↔ k.entity = e := by
  cases k <;> cases e <;>
    simp [toList_price, toList_prices, toList_history, toList_harvests, entity, Entity.label]

end CropLedger.CacheKey
