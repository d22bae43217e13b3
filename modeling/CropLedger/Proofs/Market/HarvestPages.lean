import Mathlib.Data.List.Perm.Basic
import CropLedger.Proofs.Market.Pages
import CropLedger.Proofs.Store.Columns

/-!
# Pages of harvests

Harvests are listed by date, newest first, and nothing tells harvests of one date apart. Which of
them comes first is up to the store, and need not be the same when the next page is asked for. So a
page shows the same harvests in all cases if no date is cut in two where it begins and where it ends;
if every place where pages meet is such, the pages together show every harvest once. If a date is
cut in two there, a harvest can be on both pages, and another one on none.

The store gives harvests of one date in the order opposite to the one in which they were stored, so
what is up to the store is the order of the rows.

* `Tables.exists_storage`: every list by dates is the list of some order of the rows;
* `Market.harvest_pages_by_date`: what the pages show in whatever order the rows are stored;
* `Market.date_cut_in_two`: two orders of the rows that give different pages.
-/

namespace CropLedger

/-! ### The order of the list -/

/-- Whether a harvest is one of a land's commodity and has not been deleted. -/
def Harvest.isLiveOf (land : Uuid) (h : Harvest) : Bool := h.landCommodity = land && h.isLive

/-- Whether a date is not before another one in the order of their texts. -/
def Date.ColumnGe (d e : Date) : Prop := Tables.textLe e.chars d.chars = true

namespace Date

theorem columnGe_refl (d : Date) : d.ColumnGe d := Tables.textLe_refl d.chars

theorem columnGe_trans {d e f : Date} (hde : d.ColumnGe e) (hef : e.ColumnGe f) : d.ColumnGe f :=
  Tables.textLe_trans hef hde

theorem columnGe_antisymm {d e : Date} (hde : d.ColumnGe e) (hed : e.ColumnGe d) : d = e := by
  have hchars := Tables.textLe_antisymm hed hde
  exact (@append_inj d e [] [] (by rw [hchars])).1

end Date

namespace Tables

variable (t : Tables) (land : Uuid)

theorem liveHarvests_perm : (t.liveHarvests land).Perm (t.harvests.filter (Harvest.isLiveOf land)) :=
  (List.mergeSort_perm _ _).trans (List.reverse_perm _)

/-- Rows that are stored oldest first are listed in the opposite order. -/
theorem liveHarvests_of_pairwise {t : Tables} {land : Uuid}
    (h : (t.harvests.filter (Harvest.isLiveOf land)).reverse.Pairwise
      fun a b => a.date.ColumnGe b.date) :
    t.liveHarvests land = (t.harvests.filter (Harvest.isLiveOf land)).reverse :=
  List.mergeSort_of_pairwise h

/-- The list of harvests is ordered by dates, newest first. -/
theorem pairwise_liveHarvests :
    (t.liveHarvests land).Pairwise fun a b => a.date.ColumnGe b.date := by
  refine List.pairwise_mergeSort (fun a b c hab hbc => ?_) (fun a b => ?_) _
  · exact textLe_trans hbc hab
  · rw [Bool.or_eq_true]
    exact textLe_total b.date.chars a.date.chars

variable {t land}

/-- **Every list by dates is the list of some order of the rows.** -/
theorem exists_storage {listed : List Harvest}
    (hperm : listed.Perm (t.harvests.filter (Harvest.isLiveOf land)))
    (hsorted : listed.Pairwise fun a b => a.date.ColumnGe b.date) :
    ∃ t' : Tables, t'.harvests.Perm t.harvests ∧ t'.liveHarvests land = listed := by
  let others := t.harvests.filter fun h => !Harvest.isLiveOf land h
  refine ⟨{ t with harvests := others ++ listed.reverse }, ?_, ?_⟩
  · have hlisted := (List.reverse_perm listed).trans hperm
    exact (List.perm_append_comm.trans (hlisted.append_right others)).trans
      (List.filter_append_perm _ _)
  · have hothers : others.filter (Harvest.isLiveOf land) = [] := by
      refine List.filter_eq_nil_iff.2 fun x hx => ?_
      simpa using (List.mem_filter.1 hx).2
    have hall : listed.reverse.filter (Harvest.isLiveOf land) = listed.reverse :=
      List.filter_eq_self.2 fun x hx => (List.mem_filter.1 (hperm.subset (List.mem_reverse.1 hx))).2
    have hstored : ((others ++ listed.reverse).filter (Harvest.isLiveOf land)).reverse = listed := by
      rw [List.filter_append, hothers, hall, List.nil_append, List.reverse_reverse]
    exact (liveHarvests_of_pairwise (hstored.symm ▸ hsorted)).trans hstored

/-- What clients are shown of the list of harvests. -/
def harvestList (t : Tables) (land : Uuid) : List HarvestView :=
  (t.liveHarvests land).map Harvest.shown

theorem dates_harvestList (t : Tables) (land : Uuid) :
    (t.harvestList land).map HarvestView.date = (t.liveHarvests land).map Harvest.date := by
  rw [harvestList, List.map_map]
  rfl

theorem pairwise_dates (t : Tables) (land : Uuid) :
    ((t.harvestList land).map HarvestView.date).Pairwise Date.ColumnGe := by
  rw [dates_harvestList]
  exact List.pairwise_map.2 (pairwise_liveHarvests t land)

/-- The list has the same harvests in every order of the rows. -/
theorem harvestList_perm {t' : Tables} (h : t'.harvests.Perm t.harvests) (land : Uuid) :
    (t'.harvestList land).Perm (t.harvestList land) := by
  refine List.Perm.map _ ?_
  exact (liveHarvests_perm t' land).trans ((h.filter _).trans (liveHarvests_perm t land).symm)

/-- It has the same dates in the same places, too. -/
theorem dates_of_perm {t' : Tables} (h : t'.harvests.Perm t.harvests) (land : Uuid) :
    (t'.harvestList land).map HarvestView.date = (t.harvestList land).map HarvestView.date :=
  ((harvestList_perm h land).map _).eq_of_pairwise (fun _ _ _ _ => Date.columnGe_antisymm)
    (pairwise_dates t' land) (pairwise_dates t land)

/-- **Where a date is cut in two, an order of the rows puts a harvest from in front of the place
behind it.** -/
theorem exists_moved {place : Nat}
    (hcut : ¬PageSpec.CutsNone ((t.harvestList land).map HarvestView.date) place) :
    ∃ t' : Tables, t'.harvests.Perm t.harvests ∧ ∃ i x, i + 1 = place ∧
      (t.harvestList land)[i]? = some x ∧ (t'.harvestList land)[place]? = some x := by
  obtain ⟨front, d, back, hdates, hplace⟩ := PageSpec.exists_of_not_cutsNone Date.columnGe_refl
    Date.columnGe_trans Date.columnGe_antisymm (pairwise_dates t land) hcut
  rw [dates_harvestList] at hdates
  obtain ⟨before, rest, hrows, rfl, hrest⟩ := List.map_eq_append_iff.1 hdates
  obtain ⟨x, rest, rfl, hx, hrest⟩ := List.map_eq_cons_iff.1 hrest
  obtain ⟨y, after, rfl, hy, rfl⟩ := List.map_eq_cons_iff.1 hrest
  rw [List.length_map] at hplace
  have hmoved : (before ++ y :: x :: after).Perm (t.harvests.filter (Harvest.isLiveOf land)) := by
    refine List.Perm.trans ?_ (liveHarvests_perm t land)
    rw [hrows]
    exact (List.Perm.swap x y after).append_left before
  have hsorted : (before ++ y :: x :: after).Pairwise fun a b => a.date.ColumnGe b.date := by
    -- the dates stand as they stood
    have h := pairwise_liveHarvests t land
    have hsame : (before ++ y :: x :: after).map Harvest.date =
        (t.liveHarvests land).map Harvest.date := by
      simp [hrows, hx, hy]
    rw [← List.pairwise_map (R := Date.ColumnGe)] at h ⊢
    rw [hsame]
    exact h
  obtain ⟨t', hstored, hlist⟩ := exists_storage hmoved hsorted
  refine ⟨t', hstored, before.length, x.shown, hplace, ?_, ?_⟩
  · rw [harvestList, hrows]
    simp
  · rw [harvestList, hlist, ← hplace]
    simp

end Tables

/-! ### Pages -/

namespace Market

variable {σ : Type}

/-- **A state in which a page of harvests is asked for**: it has the rows of some tables in any
order, nothing is refused, and the page is not kept. -/
structure Delivers (m : Market σ) (t : Tables) (land : Uuid) (p : PageSpec) (s : MarketState σ) :
    Prop where
  stored : s.store.tables.harvests.Perm t.harvests
  works : s.store.RefusesNothing
  unkept : (CacheKey.harvests land p).Unkept m s

/-- The rows on the page of an answer. -/
def onPage {α : Type} : Except ServiceFault (Page α) → List α
  | .ok page => page.data
  | .error _ => []

/-- **What the pages of a list of harvests show in whatever order the rows are stored.** -/
structure PagesByDate (m : Market σ) (t : Tables) (land : Uuid) (limit : Nat)
    (listed : List HarvestView) : Prop where
  /-- A page has the dates that belong on it. It has the harvests that belong on it if no date is cut
  in two at its ends, and in their order if no two harvests have the same date. -/
  page : ∀ page, 1 ≤ page → (page - 1) * limit < 2 ^ 63 →
    ∀ s, m.Delivers t land ⟨page, limit⟩ s →
      ∃ data, (m.harvests land ⟨page, limit⟩ s).1 = .ok ⟨data, page, limit, listed.length⟩ ∧
        data.map HarvestView.date = PageSpec.slice ⟨page, limit⟩ (listed.map HarvestView.date) ∧
        (PageSpec.CutsNone (listed.map HarvestView.date) ((page - 1) * limit) →
          PageSpec.CutsNone (listed.map HarvestView.date) (page * limit) →
          data.Perm (PageSpec.slice ⟨page, limit⟩ listed)) ∧
        ((listed.map HarvestView.date).Nodup → data = PageSpec.slice ⟨page, limit⟩ listed)
  /-- If no date is cut in two where pages meet, all pages show every harvest once, by date. -/
  together : (∀ page, PageSpec.CutsNone (listed.map HarvestView.date) (page * limit)) →
    listed.length ≤ 2 ^ 63 →
    ∀ s : Nat → MarketState σ, (∀ k, m.Delivers t land ⟨k + 1, limit⟩ (s k)) →
      let shown := (List.range (PageSpec.count limit listed.length)).flatMap fun k =>
        onPage (m.harvests land ⟨k + 1, limit⟩ (s k)).1
      shown.Perm listed ∧ shown.map HarvestView.date = listed.map HarvestView.date
  /-- If a date is cut in two where two pages meet, a harvest can be on both pages. -/
  cut : ∀ page, 1 ≤ page → page * limit < 2 ^ 63 →
    ¬PageSpec.CutsNone (listed.map HarvestView.date) (page * limit) →
    ∃ t' : Tables, t'.harvests.Perm t.harvests ∧ ∀ s s' : MarketState σ,
      s.store.tables = t → s'.store.tables = t' →
      m.Delivers t land ⟨page, limit⟩ s → m.Delivers t land ⟨page + 1, limit⟩ s' →
      ∃ x, x ∈ onPage (m.harvests land ⟨page, limit⟩ s).1 ∧
        x ∈ onPage (m.harvests land ⟨page + 1, limit⟩ s').1

variable (m : Market σ) {t : Tables} {land : Uuid}

/-- A page is cut from the list that the order of the rows gives. -/
theorem Delivers.answer {m : Market σ} {p : PageSpec} {s : MarketState σ}
    (h : m.Delivers t land p s) (page : p.isPage = true) (small : p.offset < 2 ^ 63) :
    (m.harvests land p s).1 = .ok ⟨p.slice (s.store.tables.harvestList land), p.page, p.limit,
      (t.harvestList land).length⟩ := by
  rw [m.harvests_of_unkept page h.works h.unkept]
  rw [← (Tables.harvestList_perm h.stored land).length_eq]
  exact PageSpec.told_of_lt small _

theorem Delivers.onPage_eq {m : Market σ} {p : PageSpec} {s : MarketState σ}
    (h : m.Delivers t land p s) (page : p.isPage = true) (small : p.offset < 2 ^ 63) :
    onPage (m.harvests land p s).1 = p.slice (s.store.tables.harvestList land) := by
  rw [h.answer page small]
  rfl

theorem pagesByDate_harvestList {limit : Nat} (positive : 1 ≤ limit) (bounded : limit ≤ maxLimit) :
    m.PagesByDate t land limit (t.harvestList land) where
  page page first small s delivers := by
    have hpage : (⟨page, limit⟩ : PageSpec).isPage = true :=
      PageSpec.isPage_iff.2 ⟨first, positive, bounded⟩
    have hoffset := PageSpec.offset_mk page limit
    have hperm := Tables.harvestList_perm delivers.stored land
    have hdates := Tables.dates_of_perm delivers.stored land
    refine ⟨_, delivers.answer hpage (hoffset ▸ small), ?_, fun hstart hstop => ?_, fun hn => ?_⟩
    · rw [PageSpec.map_slice, hdates]
    · refine PageSpec.slice_perm hperm hdates (hoffset ▸ hstart) ?_
      rw [PageSpec.offset_add_limit first]
      exact hstop
    · rw [PageSpec.eq_of_map_eq hperm hdates hn]
  together hcuts hroom s delivers := by
    have hshown : ∀ k ∈ List.range (PageSpec.count limit (t.harvestList land).length),
        onPage (m.harvests land ⟨k + 1, limit⟩ (s k)).1 =
          PageSpec.slice ⟨k + 1, limit⟩ ((s k).store.tables.harvestList land) := by
      intro k hk
      have hlast := PageSpec.mul_lt_of_lt_count (List.mem_range.1 hk)
      exact (delivers k).onPage_eq (PageSpec.isPage_iff.2 ⟨by simp, positive, bounded⟩)
        (Nat.lt_of_lt_of_le hlast hroom)
    have hcut (k : Nat) : PageSpec.CutsNone ((t.harvestList land).map HarvestView.date)
        (limit * k) := Nat.mul_comm k limit ▸ hcuts k
    have hsame (k : Nat) := Tables.harvestList_perm (delivers k).stored land
    have hdates (k : Nat) := Tables.dates_of_perm (delivers k).stored land
    constructor
    · have htogether := (PageSpec.pages_partition positive (t.harvestList land)).together
      refine List.Perm.trans (List.Perm.flatMap_left _ fun k hk => ?_) (.of_eq htogether)
      rw [hshown k hk]
      exact PageSpec.slice_perm (hsame k) (hdates k) (hcut k) (hcut (k + 1))
    · have htogether :=
        (PageSpec.pages_partition positive ((t.harvestList land).map HarvestView.date)).together
      rw [List.length_map] at htogether
      rw [List.map_flatMap, ← htogether]
      refine List.flatMap_congr fun k hk => ?_
      rw [hshown k hk, PageSpec.map_slice, hdates k]
  cut page first small hcut := by
    obtain ⟨t', hstored, i, x, hi, hfront, hback⟩ := Tables.exists_moved hcut
    refine ⟨t', hstored, fun s s' hs hs' delivers delivers' => ⟨x, ?_, ?_⟩⟩
    · have hend := PageSpec.offset_add_limit first limit
      rw [delivers.onPage_eq (PageSpec.isPage_iff.2 ⟨first, positive, bounded⟩) (by omega), hs]
      exact PageSpec.mem_slice hfront (by omega) (by show i < _ + limit; omega)
    · have hoffset := PageSpec.offset_succ page limit
      rw [delivers'.onPage_eq (PageSpec.isPage_iff.2 ⟨by simp, positive, bounded⟩) (by omega), hs']
      refine PageSpec.mem_slice hback (Nat.le_of_eq hoffset) ?_
      rw [hoffset]
      exact Nat.lt_add_of_pos_right positive

/-- **Pages of harvests go by dates.** There is a list of all live harvests of a land's commodity,
ordered by the texts of their dates, newest first; within years of four digits that is the order of
the dates. Every page whose offset the store can take has the number of these harvests as its total,
and the dates that its place in the list gives it. Which harvests of a date are on it depends on the
order in which the rows are stored, unless no date is cut in two at its ends. If this is so wherever
pages meet, all pages together show every harvest once, even if the order of the rows is another
one for each page. Wherever it is not so, an order of the rows that puts a harvest on one page and
an order that puts it on the next one can follow each other. -/
theorem harvest_pages_by_date (t : Tables) (land : Uuid) (limit : Nat) (positive : 1 ≤ limit)
    (bounded : limit ≤ maxLimit) :
    ∃ listed : List HarvestView,
      listed.Perm ((t.harvests.filter (Harvest.isLiveOf land)).map Harvest.shown) ∧
      (listed.map HarvestView.date).Pairwise Date.ColumnGe ∧
      ((∀ x ∈ listed, x.date.HasPlainYear) →
        (listed.map HarvestView.date).Pairwise fun d e => e ≤ d) ∧
      m.PagesByDate t land limit listed := by
  have hsorted := Tables.pairwise_dates t land
  refine ⟨t.harvestList land, (Tables.liveHarvests_perm t land).map _, hsorted, fun hplain => ?_,
    m.pagesByDate_harvestList positive bounded⟩
  refine hsorted.imp_of_mem fun hd he h => ?_
  obtain ⟨x, hx, rfl⟩ := List.mem_map.1 hd
  obtain ⟨y, hy, rfl⟩ := List.mem_map.1 he
  exact (Date.textLe_chars (hplain y hy) (hplain x hx)).1 h

namespace Sample

/-- A harvest with its date. -/
def harvested (id : Nat) (date : Date) : Harvest :=
  ⟨⟨id⟩, ⟨9⟩, date, amount 25, "kg", none, time 5, time 5, none⟩

/-- A harvest of the fifth of March. -/
def oneHarvest : Harvest := harvested 1 (time 5).date

/-- Another one of the same date. -/
def otherHarvest : Harvest := harvested 2 (time 5).date

/-- Both are stored. -/
def sameDay : Tables := ⟨[], [], [oneHarvest, otherHarvest], 0⟩

/-- They are stored in the other order. -/
def otherWay : Tables := ⟨[], [], [otherHarvest, oneHarvest], 0⟩

theorem delivers_sameDay (page : PageSpec) :
    market.Delivers sameDay ⟨9⟩ page (storing [] sameDay.harvests) :=
  ⟨.refl _, works_storing _ _, rfl⟩

theorem delivers_otherWay (page : PageSpec) :
    market.Delivers sameDay ⟨9⟩ page (storing [] otherWay.harvests) :=
  ⟨.swap _ _ _, works_storing _ _, rfl⟩

end Sample

open Sample in
/-- Both harvests of a date are on a page that has room for them, in either order of the rows. -/
theorem harvest_pages_by_date_sample :
    ∃ data, (market.harvests ⟨9⟩ ⟨1, 10⟩ (storing [] otherWay.harvests)).1 = .ok ⟨data, 1, 10, 2⟩ ∧
      data.Perm [oneHarvest.shown, otherHarvest.shown] := by
  obtain ⟨listed, hperm, -, -, hpages⟩ :=
    market.harvest_pages_by_date sameDay ⟨9⟩ 10 (by decide) (by decide)
  obtain ⟨data, hanswer, -, hdata, -⟩ :=
    hpages.page 1 (by decide) (by decide) _ (delivers_otherWay ⟨1, 10⟩)
  have hlength : listed.length = 2 := hperm.length_eq
  have hall : PageSpec.slice ⟨1, 10⟩ listed = listed :=
    List.take_of_length_le (by show listed.length ≤ 10; omega)
  have hend : PageSpec.CutsNone (listed.map HarvestView.date) (1 * 10) := by
    intro d _ hback
    rw [List.drop_eq_nil_of_le (by rw [List.length_map]; omega)] at hback
    cases hback
  rw [hall] at hdata
  refine ⟨data, ?_, (hdata (fun d hfront => nomatch hfront) hend).trans hperm⟩
  rw [hanswer, hlength]

open Sample in
/-- A harvest is on two pages if the order of the rows changes between the two questions, and the
other harvest of its date is on none. -/
theorem date_cut_in_two :
    otherWay.harvests.Perm sameDay.harvests ∧
      (sameDay.harvests.map Harvest.id).Nodup ∧
      (storing [] sameDay.harvests).store.RefusesNothing ∧
      (storing [] otherWay.harvests).store.RefusesNothing ∧
      (CacheKey.harvests ⟨9⟩ ⟨1, 1⟩).Unkept market (storing [] sameDay.harvests) ∧
      (CacheKey.harvests ⟨9⟩ ⟨2, 1⟩).Unkept market (storing [] otherWay.harvests) ∧
      (market.harvests ⟨9⟩ ⟨1, 1⟩ (storing [] sameDay.harvests)).1 =
        .ok ⟨[otherHarvest.shown], 1, 1, 2⟩ ∧
      (market.harvests ⟨9⟩ ⟨2, 1⟩ (storing [] otherWay.harvests)).1 =
        .ok ⟨[otherHarvest.shown], 2, 1, 2⟩ := by
  have hfirst := delivers_sameDay ⟨1, 1⟩
  have hsecond := delivers_otherWay ⟨2, 1⟩
  have hlist : sameDay.liveHarvests ⟨9⟩ = [otherHarvest, oneHarvest] :=
    Tables.liveHarvests_of_pairwise (List.pairwise_pair.2 (Date.columnGe_refl _))
  have hother : otherWay.liveHarvests ⟨9⟩ = [oneHarvest, otherHarvest] :=
    Tables.liveHarvests_of_pairwise (List.pairwise_pair.2 (Date.columnGe_refl _))
  have hshown : (storing [] sameDay.harvests).store.tables.harvestList ⟨9⟩ =
      [otherHarvest.shown, oneHarvest.shown] := congrArg (List.map Harvest.shown) hlist
  have hshown' : (storing [] otherWay.harvests).store.tables.harvestList ⟨9⟩ =
      [oneHarvest.shown, otherHarvest.shown] := congrArg (List.map Harvest.shown) hother
  have htotal : (sameDay.harvestList ⟨9⟩).length = 2 := congrArg List.length hshown
  refine ⟨hsecond.stored, by decide, hfirst.works, hsecond.works, hfirst.unkept, hsecond.unkept,
    ?_, ?_⟩
  · rw [hfirst.answer rfl (by decide), hshown, htotal]
    rfl
  · rw [hsecond.answer rfl (by decide), hshown', htotal]
    rfl

end Market

end CropLedger
