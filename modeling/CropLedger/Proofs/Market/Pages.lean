import CropLedger.Proofs.Market.Questions
import CropLedger.Proofs.Market.Writes
import CropLedger.Proofs.Paging

/-!
# Pages that are asked for

A page of prices or of harvests that is not kept in the cache is counted and cut in the store. A
statement takes the offset of a page as a number of 64 bits with a sign, while a page number is only
checked not to be zero. So the rows of a page are those that its number asks for as long as the
offset has no more than 63 bits; with a larger one the call panics, and nobody is told anything.

* `CacheKey.ask_of_unkept`: a question whose answer is not kept is answered from the tables;
* `PageSpec.told`: what becomes of a question for a page, by the size of its offset;
* `Market.prices_of_unkept`, `Market.harvests_of_unkept`: the pages that are given;
* `Market.small_pages_answered`: the pages of all queries that are accepted;
* `Market.large_page_panics`: one that is accepted and not answered.
-/

namespace CropLedger

/-! ### Questions that are not kept -/

namespace CacheKey

variable {σ : Type} {m : Market σ}

/-- No answer to a question can be read from the cache. -/
def Unkept (m : Market σ) (k : CacheKey) (s : MarketState σ) : Prop :=
  ((k.query m).lookup m.cache s).1 = none

theorem ask_of_unkept {k : CacheKey} {s : MarketState σ} (works : s.store.RefusesNothing)
    (unkept : k.Unkept m s) : (k.ask m s).1 = k.value s.store.tables := by
  rw [ask_eq]
  unfold Market.checked value
  cases k.check with
  | error fault => rfl
  | ok u =>
    rw [← query_work m k]
    exact (k.query m).answer_of_lookup_none m.cache unkept works

end CacheKey

/-! ### Pages of the tables -/

/-- What clients are shown of a price in the tables. -/
def Price.shown (p : Price) : PriceView := p.fetched.view

/-- What clients are shown of a harvest in the tables. -/
def Harvest.shown (h : Harvest) : HarvestView := h.fetched.view

namespace PageSpec

variable {α β : Type} (s : PageSpec)

/-- What is told of a page of some rows. -/
def told (rows : List α) : Except ServiceFault (Page α) :=
  if s.offset < 2 ^ 63 then .ok (s.of rows) else .error .panicked

variable {s}

theorem told_of_lt (h : s.offset < 2 ^ 63) (rows : List α) : s.told rows = .ok (s.of rows) :=
  if_pos h

theorem told_of_le (h : 2 ^ 63 ≤ s.offset) (rows : List α) : s.told rows = .error .panicked :=
  if_neg (Nat.not_lt.2 h)

end PageSpec

/-- The page of what is shown of some rows. -/
theorem PageSpec.of_map {α β γ : Type} (s : PageSpec) (fetched : α → β) (view : β → γ)
    (rows : List α) : s.of (rows.map fun a => view (fetched a)) =
      ⟨(s.slice (rows.map fetched)).map view, s.page, s.limit, rows.length⟩ := by
  rw [PageSpec.of, ← map_slice fetched, List.map_map, ← map_slice fun a => view (fetched a),
    List.length_map]
  rfl

/-- What comes after the offset of a page has been bound. -/
theorem Work.eval_bindOffset {α : Type} (s : PageSpec) (next : Work α) (t : Tables) :
    ((Work.bindOffset s >>= fun _ => next).eval t).1 =
      if s.offset < 2 ^ 63 then (next.eval t).1 else .error .panicked := by
  by_cases h : s.offset < 2 ^ 63
  · rw [if_pos h, Work.bindOffset, if_pos (show s.offset < Nat.pow 2 63 from h)]
    rfl
  · rw [if_neg h, Work.bindOffset, if_neg (show ¬s.offset < Nat.pow 2 63 from h)]
    rfl

theorem Prices.eval_page (s : PageSpec) (t : Tables) :
    ((page s).eval t).1 = s.told (t.livePrices.map Price.shown) := by
  refine (Work.eval_bindOffset s _ t).trans ?_
  unfold PageSpec.told
  rw [show t.livePrices.map Price.shown = t.livePrices.map fun p => p.fetched.view from rfl,
    s.of_map Price.fetched Price.view]
  rfl

theorem Harvests.eval_page (land : Uuid) (s : PageSpec) (t : Tables) :
    ((page land s).eval t).1 = s.told ((t.liveHarvests land).map Harvest.shown) := by
  refine (Work.eval_bindOffset s _ t).trans ?_
  unfold PageSpec.told
  rw [show (t.liveHarvests land).map Harvest.shown =
    (t.liveHarvests land).map fun h => h.fetched.view from rfl,
    s.of_map Harvest.fetched Harvest.view]
  rfl

namespace Market

variable {σ : Type} (m : Market σ)

/-! ### Pages that are not kept -/

theorem checkPage_of_isPage {p : PageSpec} (h : p.isPage = true) : checkPage p = .ok () := if_pos h

/-- A page of prices that is not kept is given from the tables. -/
theorem prices_of_unkept {p : PageSpec} (page : p.isPage = true) {s : MarketState σ}
    (works : s.store.RefusesNothing) (unkept : (CacheKey.prices p).Unkept m s) :
    (m.prices p s).1 = p.told (s.store.tables.livePrices.map Price.shown) := by
  have hvalue := CacheKey.value_of_check (k := .prices p) (checkPage_of_isPage page) s.store.tables
  exact (CacheKey.ask_of_unkept works unkept).trans (hvalue.trans (Prices.eval_page p _))

/-- A page of harvests that is not kept is given from the tables. -/
theorem harvests_of_unkept {land : Uuid} {p : PageSpec} (page : p.isPage = true)
    {s : MarketState σ} (works : s.store.RefusesNothing)
    (unkept : (CacheKey.harvests land p).Unkept m s) :
    (m.harvests land p s).1 = p.told ((s.store.tables.liveHarvests land).map Harvest.shown) := by
  have hvalue := CacheKey.value_of_check (k := .harvests land p) (checkPage_of_isPage page)
    s.store.tables
  exact (CacheKey.ask_of_unkept works unkept).trans (hvalue.trans (Harvests.eval_page land p _))

/-! ### All queries that are accepted -/

/-- **What becomes of a question for a page of some rows**: while its offset has 63 bits, it is
answered with the page and the number of rows, and with no rows after the last page; with more, it
panics. -/
structure AnswersPage {α : Type} (p : PageSpec) (rows : List α)
    (answer : Except ServiceFault (Page α)) : Prop where
  inside : p.offset < 2 ^ 63 → answer = .ok ⟨p.slice rows, p.page, p.limit, rows.length⟩
  beyond : p.offset < 2 ^ 63 → PageSpec.count p.limit rows.length < p.page →
    answer = .ok ⟨[], p.page, p.limit, rows.length⟩
  panics : 2 ^ 63 ≤ p.offset → answer = .error .panicked

theorem answersPage_told {α : Type} {p : PageSpec} (page : p.isPage = true) (rows : List α) :
    AnswersPage p rows (p.told rows) where
  inside hsmall := PageSpec.told_of_lt hsmall rows
  beyond hsmall hlast := by
    have hnone : p.slice rows = [] :=
      (PageSpec.pages_partition (PageSpec.isPage_iff.1 page).2.1 rows).beyond p.page hlast
    rw [PageSpec.told_of_lt hsmall, PageSpec.of, hnone]
  panics hlarge := PageSpec.told_of_le hlarge rows

/-- **Pages of small numbers are answered.** Let a query for a page be accepted. Up to a bound that
holds for every size of page, a page number has an offset of 63 bits. While the offset has 63 bits,
a page of prices and one of harvests that are not kept have the rows and the total that are asked
for, and a page after the last one has no rows. With a larger offset the question panics. -/
theorem small_pages_answered {q : PageQuery} {p : PageSpec} (accepted : q.resolve = .ok p)
    {s : MarketState σ} (works : s.store.RefusesNothing) :
    (p.page ≤ PageSpec.safePage → p.offset < 2 ^ 63) ∧
      ((CacheKey.prices p).Unkept m s →
        AnswersPage p (s.store.tables.livePrices.map Price.shown) (m.prices p s).1) ∧
      (∀ land, (CacheKey.harvests land p).Unkept m s →
        AnswersPage p ((s.store.tables.liveHarvests land).map Harvest.shown)
          (m.harvests land p s).1) := by
  have page := PageQuery.isPage_of_resolve accepted
  refine ⟨PageSpec.offset_lt_of_page_le page, fun unkept => ?_, fun land unkept => ?_⟩
  · rw [m.prices_of_unkept page works unkept]
    exact answersPage_told page _
  · rw [m.harvests_of_unkept page works unkept]
    exact answersPage_told page _

namespace Sample

/-- Prices and harvests are stored, and nothing is cached. -/
def storing (prices : List Price) (harvests : List Harvest) : MarketState Memory :=
  ⟨⟨⟨prices, [], harvests, 0⟩, 0, fun _ _ => false⟩, .empty 100⟩

theorem works_storing (prices : List Price) (harvests : List Harvest) :
    (storing prices harvests).store.RefusesNothing := fun _ _ => rfl

theorem livePrices_offered : (storing [offered] []).store.tables.livePrices = [offered] :=
  List.mergeSort_singleton _

end Sample

open Sample in
/-- The last page of a hundred rows that the bound allows is empty where there is one price. -/
theorem small_pages_answered_sample :
    PageQuery.resolve ⟨some PageSpec.safePage, some 100⟩ = .ok ⟨PageSpec.safePage, 100⟩ ∧
      (storing [offered] []).store.RefusesNothing ∧
      (market.prices ⟨PageSpec.safePage, 100⟩ (storing [offered] [])).1 =
        .ok ⟨[], PageSpec.safePage, 100, 1⟩ := by
  have accepted : PageQuery.resolve ⟨some PageSpec.safePage, some 100⟩ =
      .ok ⟨PageSpec.safePage, 100⟩ := rfl
  obtain ⟨hsmall, hprices, -⟩ := market.small_pages_answered accepted (works_storing [offered] [])
  have hpage := hprices rfl
  rw [livePrices_offered] at hpage
  exact ⟨accepted, works_storing _ _, hpage.beyond (hsmall (Nat.le_refl _)) (by decide)⟩

open Sample in
/-- **The page after it is accepted too, and panics.** It lies after the last page as well. -/
theorem large_page_panics :
    PageQuery.resolve ⟨some (PageSpec.safePage + 1), some 100⟩ = .ok ⟨PageSpec.safePage + 1, 100⟩ ∧
      (storing [offered] []).store.tables.livePrices = [offered] ∧
      PageSpec.count 100 [offered].length < PageSpec.safePage + 1 ∧
      (market.prices ⟨PageSpec.safePage + 1, 100⟩ (storing [offered] [])).1 =
        .error .panicked := by
  refine ⟨rfl, livePrices_offered, by decide, ?_⟩
  rw [market.prices_of_unkept rfl (works_storing _ _) rfl]
  exact PageSpec.told_of_le (by decide) _

end Market

end CropLedger
