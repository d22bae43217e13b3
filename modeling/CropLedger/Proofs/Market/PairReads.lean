import Mathlib.Data.List.Sort
import CropLedger.Proofs.Market.PairTables
import CropLedger.Proofs.Market.Questions
import CropLedger.Proofs.Market.RevisionLog
import CropLedger.Proofs.Store.Columns

/-!
# Questions are answered from the pairs' own rows

Tables with the same rows for every pair may have them in another order and under other numbers.
Clients cannot tell: prices are listed by the time of their creation and then by identifier, which
leaves no choice, and histories are shown without numbers.

* `Tables.livePrices_eq_of_perm`: the list of prices does not depend on how they are stored;
* `Tables.SameMarket`: tables with the same rows for every pair;
* `Tables.SameMarket.livePrices_eq`: the list of prices is the same;
* `CacheKey.value_of_sameMarket`: so is the answer to every question about prices.
-/

namespace CropLedger

namespace Tables

/-! ### The order of the list of prices -/

theorem priceLe_eq_byText : priceLe =
    byText (fun p => p.createdAt.columnText) fun a b => a.id.bits.toNat ≤ b.id.bits.toNat := rfl

/-- Prices are listed by the text of their time of creation, then by identifier. -/
theorem priceLe_iff {a b : Price} :
    priceLe a b = true ↔ textLe a.createdAt.columnText b.createdAt.columnText = true ∧
      (a.createdAt.columnText = b.createdAt.columnText → a.id.bits.toNat ≤ b.id.bits.toNat) := by
  rw [priceLe_eq_byText, byText_iff, decide_eq_true_eq]

theorem priceLe_trans (a b c : Price) (hab : priceLe a b = true) (hbc : priceLe b c = true) :
    priceLe a c = true := by
  rw [priceLe_eq_byText] at *
  refine byText_trans (fun h h' => decide_eq_true ?_) hab hbc
  exact Nat.le_trans (of_decide_eq_true h) (of_decide_eq_true h')

theorem priceLe_total (a b : Price) : (priceLe a b || priceLe b a) = true := by
  rw [priceLe_eq_byText]
  refine byText_total ?_
  rw [Bool.or_eq_true, decide_eq_true_eq, decide_eq_true_eq]
  exact Nat.le_total a.id.bits.toNat b.id.bits.toNat

theorem id_of_priceLe {a b : Price} (hab : priceLe a b = true) (hba : priceLe b a = true) :
    a.id = b.id := by
  rw [priceLe_iff] at *
  have he := textLe_antisymm hab.1 hba.1
  have hbits : a.id.bits = b.id.bits :=
    BitVec.eq_of_toNat_eq (Nat.le_antisymm (hab.2 he) (hba.2 he.symm))
  cases ha : a.id
  cases hb : b.id
  rw [ha, hb] at hbits
  exact congrArg Uuid.mk hbits

/-- **The list of prices does not depend on the order in which they are stored.** -/
theorem livePrices_eq_of_perm {t t' : Tables} (h : t'.prices.Perm t.prices)
    (hid : ∀ p ∈ t.prices, ∀ q ∈ t.prices, p.id = q.id → p = q) : t'.livePrices = t.livePrices := by
  have hperm : t'.livePrices.Perm t.livePrices :=
    ((List.mergeSort_perm _ _).trans (h.filter _)).trans (List.mergeSort_perm _ _).symm
  have hmem (t : Tables) {p : Price} (hp : p ∈ t.livePrices) : p ∈ t.prices :=
    List.mem_of_mem_filter (List.mem_mergeSort.1 hp)
  refine List.Perm.eq_of_pairwise (fun p q hp hq hpq hqp => ?_)
    (List.pairwise_mergeSort priceLe_trans priceLe_total _)
    (List.pairwise_mergeSort priceLe_trans priceLe_total _) hperm
  exact hid p (h.mem_iff.1 (hmem t' hp)) q (hmem t hq) (id_of_priceLe hpq hqp)

/-! ### The same rows for every pair -/

/-- **Tables in good order that are the same for every pair.** -/
structure SameMarket (t t' : Tables) : Prop where
  orderly : t.Orderly
  orderly' : t'.Orderly
  rows : ∀ pair, SameRows pair t t'

namespace SameMarket

variable {t t' : Tables} (h : SameMarket t t')
include h

theorem prices_perm : t'.prices.Perm t.prices := by
  rw [List.perm_iff_count]
  intro p
  have hcount (t : Tables) : (t.pricesOf p.pair).count p = t.prices.count p :=
    List.count_filter (by simp)
  rw [← hcount t', ← hcount t, (h.rows p.pair).prices]

theorem mem_prices {p : Price} : p ∈ t'.prices ↔ p ∈ t.prices := h.prices_perm.mem_iff

theorem livePrices_eq : t'.livePrices = t.livePrices :=
  livePrices_eq_of_perm h.prices_perm fun _ hp _ hq hid => h.orderly.eq_of_id hp hq hid

theorem livePrice?_eq (id : Uuid) : t'.livePrice? id = t.livePrice? id := by
  cases hl : t.livePrice? id with
  | some p =>
    obtain ⟨hp, rfl, hlive⟩ := mem_of_livePrice? hl
    exact h.orderly'.livePrice?_eq_some (h.mem_prices.2 hp) hlive
  | none =>
    rw [livePrice?, List.find?_eq_none] at hl ⊢
    exact fun p hp => hl p (h.mem_prices.1 hp)

theorem snapshots_history (pair : Pair) :
    (t'.history pair).snapshots = (t.history pair).snapshots := by
  have hsame := (h.rows pair).sameFor h.orderly h.orderly'
  have hpoints (t : Tables) : ((t.archivedOf pair).map ArchivedPrice.fetched).map
      ArchivedPrice.snapshot = ((t.archivedOf pair).map ArchivedPrice.unnumbered).map
        fun a => a.fetched.snapshot := by
    rw [List.map_map, List.map_map]
    rfl
  simp only [history, PriceHistory.snapshots, hsame.live, hpoints, hsame.history]

end SameMarket

end Tables

/-! ### Questions -/

/-- Work whose statements are answered alike comes to the same. -/
theorem Work.Asks.eval_eq {α : Type} {kind : Statement → Prop} {work : Work α} (h : work.Asks kind)
    {t t' : Tables} (hs : ∀ s, kind s → ∃ answer : Except StoreFault s.Answer,
      s.perform t = answer.map (·, t) ∧ s.perform t' = answer.map (·, t')) :
    (work.eval t).1 = (work.eval t').1 := by
  induction work with
  | done a => rfl
  | fail fault => rfl
  | ask s next ih =>
    obtain ⟨answer, ha, ha'⟩ := hs s h.1
    simp only [Work.eval, ha, ha']
    cases answer with
    | ok a => exact ih a (h.2 a)
    | error fault => rfl

/-- The points of a pair's history, if the pair has a live price. -/
theorem Prices.eval_points (t : Tables) (pair : Pair) :
    ((points pair).eval t).1 =
      if (t.livePriceOf? pair).isNone then .error (.notFound (pairLabel pair))
      else .ok (t.history pair).snapshots := by
  have h := Work.eval_bind (history pair)
    (fun h => if h.current.isNone then .fail (.notFound (pairLabel pair)) else return h.snapshots) t
  rw [Market.eval_history] at h
  refine (congrArg Prod.fst h).trans ?_
  have hcurrent : (t.history pair).current.isNone = (t.livePriceOf? pair).isNone :=
    Option.isNone_map
  simp only [hcurrent]
  cases t.livePriceOf? pair <;> rfl

namespace CacheKey

open Tables

variable {t t' : Tables} (h : SameMarket t t')
include h

theorem eval_work_of_sameMarket {k : CacheKey} (hk : k.entity = .price) :
    (k.work.eval t').1 = (k.work.eval t).1 := by
  cases k with
  | price id =>
    have hask : (Work.statement (.livePrice id)).Asks (· = .livePrice id) := .statement rfl
    have hview : (Prices.view id).Asks (· = .livePrice id) :=
      (hask.bind fun _ => .orFail _ _).bind fun _ => trivial
    refine hview.eval_eq ?_
    rintro _ rfl
    exact ⟨.ok ((t.livePrice? id).map Price.fetched), by rw [← h.livePrice?_eq id]; rfl, rfl⟩
  | prices s =>
    have hpage : (Prices.page s).Asks fun q => q = .countPrices ∨ q = .pricesOn s :=
      Prices.asks_page s (.inl rfl) (.inr rfl)
    refine hpage.eval_eq ?_
    rintro _ (rfl | rfl)
    · exact ⟨.ok t.livePrices.length, by rw [← h.livePrices_eq]; rfl, rfl⟩
    · exact ⟨.ok (s.slice (t.livePrices.map Price.fetched)), by rw [← h.livePrices_eq]; rfl, rfl⟩
  | history pair =>
    show ((Prices.points pair).eval t').1 = ((Prices.points pair).eval t).1
    rw [Prices.eval_points, Prices.eval_points, h.snapshots_history,
      ((h.rows pair).sameFor h.orderly h.orderly').live]
  | harvests land s => cases hk

/-- **Questions about prices are answered alike** where every pair has the same rows. -/
theorem value_of_sameMarket {k : CacheKey} (hk : k.entity = .price) : k.value t' = k.value t := by
  unfold value
  rw [eval_work_of_sameMarket h hk]

end CacheKey

end CropLedger
