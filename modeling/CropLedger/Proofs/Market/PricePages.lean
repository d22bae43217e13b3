import CropLedger.Proofs.Market.Pages
import CropLedger.Proofs.Market.PairReads

/-!
# Pages of prices

The list of prices is ordered by the times of creation, as the store compares them, and then by
identifiers. As no identifier stands twice this leaves no choice, however the rows are stored: each
page is cut from one and the same list, so all pages together show every live price once.

The store compares times by their texts. That is the order of the points in time for times that are
written in UTC in years of four digits; a time that is written at a distance from UTC can stand
behind a later one.

* `Tables.precedes_livePrices`: the order of the list of prices;
* `Price.eq_of_precedes`: such an order leaves no choice;
* `Market.price_pages_partition`: its pages;
* `Market.distance_hides_order`: a later price that is listed first.
-/

namespace CropLedger

/-! ### The order of the list -/

/-- Whether a price is before another one by some order of the times of creation, and where that
order does not tell, by identifier. -/
def Price.Precedes (le : Timestamp → Timestamp → Prop) (p q : Price) : Prop :=
  le p.createdAt q.createdAt ∧ (le q.createdAt p.createdAt → p.id.before q.id = true)

theorem Price.precedes_of_priceLe {p q : Price} (h : Tables.priceLe p q = true) (hid : p.id ≠ q.id) :
    p.Precedes Timestamp.ColumnLe q := by
  rw [Tables.priceLe_iff] at h
  refine ⟨h.1, fun hback => decide_eq_true ?_⟩
  have hle := h.2 (Tables.textLe_antisymm h.1 hback)
  refine Nat.lt_of_le_of_ne hle fun hbits => hid ?_
  cases hp : p.id
  cases hq : q.id
  rw [hp, hq] at hbits
  exact congrArg Uuid.mk (BitVec.eq_of_toNat_eq hbits)

/-- For times in UTC the order of the texts is the order of the points in time. -/
theorem Price.precedes_iff {p q : Price} (hp : p.createdAt.IsPlainUtc)
    (hq : q.createdAt.IsPlainUtc) :
    p.Precedes Timestamp.ColumnLe q ↔ p.Precedes (· ≤ ·) q := by
  rw [Precedes, Precedes, Timestamp.columnLe_iff hp hq, Timestamp.columnLe_iff hq hp]

/-- **Such an order leaves no choice**, as identifiers tell prices apart where the times do not. -/
theorem Price.eq_of_precedes {le : Timestamp → Timestamp → Prop} {listed listed' : List Price}
    (h : listed.Perm listed') (hl : listed.Pairwise (Price.Precedes le))
    (hl' : listed'.Pairwise (Price.Precedes le)) : listed = listed' := by
  refine h.eq_of_pairwise (fun p q _ _ hpq hqp => ?_) hl hl'
  have hids : p.id.bits.toNat < q.id.bits.toNat := of_decide_eq_true (hpq.2 hqp.1)
  exact absurd (of_decide_eq_true (hqp.2 hpq.1)) (Nat.lt_asymm hids)

namespace Tables

variable {t : Tables}

theorem livePrices_perm (t : Tables) : t.livePrices.Perm (t.prices.filter Price.isLive) :=
  List.mergeSort_perm _ _

/-- **The list of prices is in the order of the times of creation and of identifiers.** -/
theorem precedes_livePrices (distinct : (t.prices.map Price.id).Nodup) :
    t.livePrices.Pairwise (Price.Precedes Timestamp.ColumnLe) := by
  have hids : (t.livePrices.map Price.id).Nodup := by
    rw [(t.livePrices_perm.map _).nodup_iff]
    exact distinct.sublist (List.filter_sublist.map _)
  have hsorted := List.pairwise_mergeSort priceLe_trans priceLe_total (t.prices.filter Price.isLive)
  exact hsorted.imp₂ (fun _ _ hle hid => Price.precedes_of_priceLe hle hid) (List.pairwise_map.1 hids)

end Tables

/-! ### Pages -/

namespace Market

variable {σ : Type} (m : Market σ)

/-- **The pages of prices are the list of prices in pages.** Let no two prices have one identifier.
There is a list of all live prices in the order of their times of creation, as the store compares
them, and of their identifiers; for times in UTC that is the order of the points in time. Every page
that is not kept and whose offset the store can take is cut from this list, in whatever order the
rows are stored, with the number of live prices as its total. So the pages come to the list, all but
the last are full, and those after it are empty. -/
theorem price_pages_partition {t : Tables} (distinct : (t.prices.map Price.id).Nodup) (limit : Nat)
    (positive : 1 ≤ limit) (bounded : limit ≤ maxLimit) :
    ∃ listed : List Price,
      listed.Perm (t.prices.filter Price.isLive) ∧
      listed.Pairwise (Price.Precedes Timestamp.ColumnLe) ∧
      ((∀ p ∈ listed, p.createdAt.IsPlainUtc) → listed.Pairwise (Price.Precedes (· ≤ ·))) ∧
      (∀ page, 1 ≤ page → (page - 1) * limit < 2 ^ 63 →
        ∀ s : MarketState σ, s.store.tables.prices.Perm t.prices → s.store.RefusesNothing →
          (CacheKey.prices ⟨page, limit⟩).Unkept m s →
          (m.prices ⟨page, limit⟩ s).1 =
            .ok ⟨((listed.map Price.shown).drop ((page - 1) * limit)).take limit, page, limit,
              (t.prices.filter Price.isLive).length⟩) ∧
      PageSpec.Partition limit (listed.map Price.shown) fun page =>
        ((listed.map Price.shown).drop ((page - 1) * limit)).take limit := by
  have hsorted := Tables.precedes_livePrices distinct
  refine ⟨t.livePrices, t.livePrices_perm, hsorted, fun hplain => ?_, ?_, ?_⟩
  · exact hsorted.imp_of_mem fun hp hq h => (Price.precedes_iff (hplain _ hp) (hplain _ hq)).1 h
  · intro page hfirst hsmall s hstored works unkept
    have hpage : (⟨page, limit⟩ : PageSpec).isPage = true :=
      PageSpec.isPage_iff.2 ⟨hfirst, positive, bounded⟩
    have hlisted : s.store.tables.livePrices = t.livePrices :=
      Tables.livePrices_eq_of_perm hstored fun _ hp _ hq hid =>
        List.inj_on_of_nodup_map distinct hp hq hid
    have hoffset := PageSpec.offset_mk page limit
    rw [m.prices_of_unkept hpage works unkept, hlisted, PageSpec.told_of_lt (hoffset ▸ hsmall),
      PageSpec.of, PageSpec.slice_mk, List.length_map, t.livePrices_perm.length_eq]
  · have hpages := PageSpec.pages_partition positive (t.livePrices.map Price.shown)
    simpa only [PageSpec.slice_mk] using hpages

namespace Sample

/-- A price that was created at some time. -/
def listedAt (id : Nat) (t : Timestamp) : Price :=
  ⟨⟨id⟩, ⟨⟨7⟩, ⟨id⟩⟩, amount 105, t, t, none⟩

/-- Created at five past eleven in UTC. -/
def early : Price := listedAt 2 (time 5).utc

/-- Created at half past eleven in UTC. -/
def late : Price := listedAt 1 (time 30).utc

/-- Created at five past eleven in UTC, which was five past twelve where it was created. -/
def earlyEast : Price := listedAt 2 (time 5)

end Sample

open Sample in
/-- The later one of two prices is on the second page, though it was stored first. -/
theorem price_pages_partition_sample :
    ([early, late].map Price.id).Nodup ∧
      (storing [late, early] []).store.tables.prices.Perm [early, late] ∧
      (market.prices ⟨2, 1⟩ (storing [late, early] [])).1 = .ok ⟨[late.shown], 2, 1, 2⟩ := by
  have distinct : ([early, late].map Price.id).Nodup := by decide
  have hstored : (storing [late, early] []).store.tables.prices.Perm [early, late] :=
    .swap early late []
  obtain ⟨listed, hperm, -, hordered, hpages, -⟩ := market.price_pages_partition
    (t := ⟨[early, late], [], [], 0⟩) distinct 1 (by decide) (by decide)
  have hplain : ∀ p ∈ [early, late], p.createdAt.IsPlainUtc := by decide
  have hlisted : listed = [early, late] := by
    refine Price.eq_of_precedes hperm (hordered fun p hp => hplain p (hperm.subset hp)) ?_
    exact List.pairwise_pair.2 ⟨by decide, fun hback => absurd hback (by decide)⟩
  have hpage := hpages 2 (by decide) (by decide) _ hstored (works_storing _ _) rfl
  rw [hlisted] at hpage
  exact ⟨distinct, hstored, hpage⟩

open Sample in
/-- A price stands behind a later one if it was created at a distance from UTC. -/
theorem distance_hides_order :
    ([late, earlyEast].map Price.id).Nodup ∧ earlyEast.createdAt < late.createdAt ∧
      (storing [late, earlyEast] []).store.RefusesNothing ∧
      (CacheKey.prices ⟨1, 10⟩).Unkept market (storing [late, earlyEast] []) ∧
      (market.prices ⟨1, 10⟩ (storing [late, earlyEast] [])).1 =
        .ok ⟨[late.shown, earlyEast.shown], 1, 10, 2⟩ := by
  have works := works_storing [late, earlyEast] []
  have unkept : (CacheKey.prices ⟨1, 10⟩).Unkept market (storing [late, earlyEast] []) := rfl
  have hlisted : (storing [late, earlyEast] []).store.tables.livePrices = [late, earlyEast] :=
    List.mergeSort_of_pairwise (by decide)
  refine ⟨by decide, by decide, works, unkept, ?_⟩
  rw [market.prices_of_unkept rfl works unkept, hlisted]
  rfl

end Market

end CropLedger
