import Mathlib.Data.List.Nodup
import Mathlib.Tactic.Ring
import CropLedger.Store.Statement

/-!
# The pages of a list

The pages of one list, put together, are the list. It is another matter if each page is cut from a
list of its own, of which it is only known that it has the same elements under the same keys: then an
element can be on two pages, unless no key stands on both sides of the place where the pages meet.

* `PageSpec.pages_partition`: the pages of a list are full up to the last one, and come to the list;
* `PageSpec.slice_perm`: a page at whose ends no key is cut in two has the same elements in all
  lists;
* `PageSpec.eq_of_map_eq`: lists with the same elements and the same keys, none of them twice, are
  the same list;
* `PageSpec.exists_of_not_cutsNone`: the two elements next to a place where a key is cut in two;
* `PageSpec.offset_lt_of_page_le`: page numbers whose offset is small for every size of page.
-/

namespace CropLedger.PageSpec

variable {α β κ : Type}

/-! ### One list -/

theorem offset_mk (page limit : Nat) : offset ⟨page, limit⟩ = (page - 1) * limit := Nat.mul_comm _ _

theorem offset_succ (page limit : Nat) : offset ⟨page + 1, limit⟩ = page * limit := Nat.mul_comm _ _

/-- Where a page ends the next one begins. -/
theorem offset_add_limit {page : Nat} (h : 1 ≤ page) (limit : Nat) :
    offset ⟨page, limit⟩ + limit = page * limit := by
  rw [offset_mk, ← Nat.succ_mul, Nat.succ_eq_add_one, Nat.sub_add_cancel h]

theorem slice_mk (page limit : Nat) (rows : List α) :
    slice ⟨page, limit⟩ rows = (rows.drop ((page - 1) * limit)).take limit := by
  rw [slice, offset_mk]

theorem length_slice (s : PageSpec) (rows : List α) :
    (s.slice rows).length = min s.limit (rows.length - s.offset) := by
  rw [slice, List.length_take, List.length_drop]

theorem map_slice (f : α → β) (s : PageSpec) (rows : List α) :
    (s.slice rows).map f = s.slice (rows.map f) := by
  rw [slice, slice, List.map_take, List.map_drop]

theorem slice_eq_nil {s : PageSpec} {rows : List α} (h : rows.length ≤ s.offset) :
    s.slice rows = [] := by
  rw [slice, List.drop_eq_nil_of_le h, List.take_nil]

theorem mem_slice {s : PageSpec} {rows : List α} {i : Nat} {a : α} (h : rows[i]? = some a)
    (hlow : s.offset ≤ i) (hhigh : i < s.offset + s.limit) : a ∈ s.slice rows := by
  refine List.mem_iff_getElem?.2 ⟨i - s.offset, ?_⟩
  rw [slice, List.getElem?_take_of_lt (by omega), List.getElem?_drop,
    Nat.add_sub_cancel' hlow, h]

/-- The first pages of a list come to the front of the list. -/
theorem flatMap_slice (limit n : Nat) (rows : List α) :
    ((List.range n).flatMap fun k => slice ⟨k + 1, limit⟩ rows) = rows.take (limit * n) := by
  induction n with
  | zero => simp
  | succ n ih =>
    rw [List.range_succ, List.flatMap_append, ih, List.flatMap_singleton, Nat.mul_succ,
      List.take_add]
    rfl

/-- The number of pages that a list of some length fills, the last one perhaps in part. -/
def count (limit length : Nat) : Nat := (length + limit - 1) / limit

theorem le_mul_count {limit : Nat} (h : 0 < limit) (length : Nat) :
    length ≤ limit * count limit length := by
  have hdiv := Nat.div_add_mod (length + limit - 1) limit
  have hmod := Nat.mod_lt (length + limit - 1) h
  unfold count
  omega

theorem mul_lt_of_lt_count {limit length n : Nat} (h : n < count limit length) :
    limit * n < length := by
  have hn : n + 1 ≤ (length + limit - 1) / limit := h
  rcases Nat.eq_zero_or_pos limit with rfl | hlimit
  · simp at hn
  · have := (Nat.le_div_iff_mul_le hlimit).1 hn
    rw [Nat.add_mul, Nat.one_mul, Nat.mul_comm] at this
    omega

/-- **A list in pages.** All pages come to the list, each is full but the last one, and nothing is
on the pages after it. -/
structure Partition (limit : Nat) (rows : List α) (shown : Nat → List α) : Prop where
  together : ((List.range (count limit rows.length)).flatMap fun k => shown (k + 1)) = rows
  full : ∀ page, 1 ≤ page → page < count limit rows.length → (shown page).length = limit
  beyond : ∀ page, count limit rows.length < page → shown page = []

/-- **The pages of a list are the list in pages.** -/
theorem pages_partition {limit : Nat} (h : 0 < limit) (rows : List α) :
    Partition limit rows fun page => slice ⟨page, limit⟩ rows where
  together := by rw [flatMap_slice, List.take_of_length_le (le_mul_count h _)]
  full page hfirst hlast := by
    have hmul := mul_lt_of_lt_count hlast
    have hend := offset_add_limit hfirst limit
    rw [Nat.mul_comm] at hmul
    rw [length_slice]
    show min limit (rows.length - offset ⟨page, limit⟩) = limit
    omega
  beyond page hlast := by
    refine slice_eq_nil (Nat.le_trans (le_mul_count h _) ?_)
    exact Nat.mul_le_mul_left limit (Nat.le_sub_one_of_lt hlast)

/-! ### Lists with the same elements under the same keys -/

/-- No key stands on both sides of a place. -/
def CutsNone (keys : List κ) (place : Nat) : Prop := ∀ key ∈ keys.take place, key ∉ keys.drop place

section Keys

variable {key : α → κ} {rows rows' : List α}

/-- Where no key is cut in two, the elements in front of a place are the same ones. -/
theorem take_perm (h : rows'.Perm rows) (hk : rows'.map key = rows.map key) {place : Nat}
    (hcut : CutsNone (rows.map key) place) : (rows'.take place).Perm (rows.take place) := by
  classical
  let front (a : α) : Bool := key a ∈ (rows.map key).take place
  -- the keys alone tell which elements are in front
  have hfront {l : List α} (hl : l.map key = rows.map key) : l.filter front = l.take place := by
    have htake : (l.take place).filter front = l.take place := by
      refine List.filter_eq_self.2 fun a ha => decide_eq_true ?_
      rw [← hl, ← List.map_take]
      exact List.mem_map_of_mem ha
    have hdrop : (l.drop place).filter front = [] := by
      refine List.filter_eq_nil_iff.2 fun a ha hin => ?_
      refine hcut _ (of_decide_eq_true hin) ?_
      rw [← hl, ← List.map_drop]
      exact List.mem_map_of_mem ha
    calc l.filter front = (l.take place ++ l.drop place).filter front := by
          rw [List.take_append_drop]
      _ = l.take place := by rw [List.filter_append, htake, hdrop, List.append_nil]
  rw [← hfront hk, ← hfront rfl]
  exact h.filter front

/-- **A page at whose ends no key is cut in two has the same elements in both lists.** -/
theorem slice_perm (h : rows'.Perm rows) (hk : rows'.map key = rows.map key) {s : PageSpec}
    (hstart : CutsNone (rows.map key) s.offset)
    (hend : CutsNone (rows.map key) (s.offset + s.limit)) :
    (s.slice rows').Perm (s.slice rows) := by
  have hfront := take_perm h hk hstart
  have hboth := take_perm h hk hend
  rw [List.take_add, List.take_add] at hboth
  exact (List.perm_append_left_iff _).1 ((hfront.symm.append_right _).trans hboth)

/-- Elements in the order of their keys are told by their keys, where no key stands twice. -/
theorem eq_of_map_eq (h : rows'.Perm rows) (hk : rows'.map key = rows.map key)
    (hn : (rows.map key).Nodup) : rows' = rows := by
  have hinj := List.inj_on_of_nodup_map hn
  refine List.ext_getElem h.length_eq fun i hi hi' => ?_
  refine hinj (h.subset (List.getElem_mem hi)) (List.getElem_mem hi') ?_
  have := List.getElem_of_eq hk (by simpa using hi)
  simpa using this

/-- Where a key is cut in two in a list that is ordered by keys, the two next to the place have it
in common. -/
theorem exists_of_not_cutsNone {keys : List κ} {le : κ → κ → Prop} (hrefl : ∀ k, le k k)
    (htrans : ∀ {j k l}, le j k → le k l → le j l) (hanti : ∀ {j k}, le j k → le k j → j = k)
    (hsorted : keys.Pairwise le) {place : Nat} (hcut : ¬CutsNone keys place) :
    ∃ front k back, keys = front ++ k :: k :: back ∧ front.length + 1 = place := by
  have hboth : ∃ k ∈ keys.take place, k ∈ keys.drop place := by
    by_contra hnone
    exact hcut fun k hk hk' => hnone ⟨k, hk, hk'⟩
  obtain ⟨k, hfront, hback⟩ := hboth
  rcases List.eq_nil_or_concat' (keys.take place) with hnil | ⟨front, x, htake⟩
  · rw [hnil] at hfront
    cases hfront
  cases hdrop : keys.drop place with
  | nil =>
    rw [hdrop] at hback
    cases hback
  | cons y back =>
    have hkeys : keys = front ++ [x] ++ y :: back := by
      rw [← htake, ← hdrop, List.take_append_drop]
    rw [htake] at hfront
    rw [hdrop] at hback
    rw [hkeys, List.pairwise_append, List.pairwise_append] at hsorted
    obtain ⟨⟨-, -, hbefore⟩, hafter, hacross⟩ := hsorted
    have hkx : le k x := by
      rcases List.mem_append.1 hfront with hk | hk
      · exact hbefore k hk x (List.mem_singleton_self x)
      · exact List.mem_singleton.1 hk ▸ hrefl k
    have hyk : le y k := by
      rcases List.mem_cons.1 hback with rfl | hk
      · exact hrefl k
      · exact List.rel_of_pairwise_cons hafter hk
    have hxy : le x y := hacross x (by simp) y List.mem_cons_self
    obtain rfl : x = y := hanti hxy (htrans hyk hkx)
    have hlength := congrArg List.length htake
    have hplace : 0 < (keys.drop place).length := by
      rw [hdrop]
      exact Nat.succ_pos _
    rw [List.length_drop] at hplace
    rw [List.length_take, List.length_append, List.length_singleton] at hlength
    refine ⟨front, x, back, ?_, by omega⟩
    rw [hkeys, List.append_assoc, List.singleton_append]

end Keys

/-! ### Offsets -/

/-- The largest page number whose offset the store can take for every size of page. -/
def safePage : Nat := 92233720368547759

theorem isPage_iff {s : PageSpec} :
    s.isPage = true ↔ 1 ≤ s.page ∧ 1 ≤ s.limit ∧ s.limit ≤ maxLimit := by
  simp only [isPage, Bool.and_eq_true, decide_eq_true_eq]
  omega

theorem offset_lt_of_page_le {s : PageSpec} (h : s.isPage = true) (hp : s.page ≤ safePage) :
    s.offset < 2 ^ 63 :=
  calc s.limit * (s.page - 1) ≤ maxLimit * (safePage - 1) :=
        Nat.mul_le_mul (isPage_iff.1 h).2.2 (Nat.sub_le_sub_right hp 1)
    _ < 2 ^ 63 := by decide

end CropLedger.PageSpec
