import CropLedger.Proofs.Market.HarvestPages
import CropLedger.Proofs.Report.AdjacentRanges
import CropLedger.Proofs.Report.HarvestSheets

/-!
# The harvests of a report

A report shows the harvests whose dates lie in a range. They are selected in the store, where a date
is a text. As long as the range stays within the years of four digits the texts between the texts of
its ends are those of the dates in the range: a date outside these years is put before all others,
and is in no such range. A range that reaches beyond the year 9999 ends with a text that comes before
all plain ones, so nothing lies between its ends.

* `DateRange.contains_eq_textLe`: dates in a range, and texts between the texts of its ends;
* `Workbook.numbered_map`: the numbers in front of the rows of a sheet;
* `harvest_report_selects`: the sheet of a harvest report;
* `late_range_selects_nothing`: a range beyond the year 9999.
-/

namespace CropLedger

/-! ### Dates in a range -/

theorem Date.year_le_of_le {d e : Date} (h : d ≤ e) : d.year ≤ e.year := by
  have hkey := Date.key_lt_iff e d
  have hle : d.key ≤ e.key := h
  omega

/-- **In a range of four-digit years are the dates whose texts lie between its ends.** -/
theorem DateRange.contains_eq_textLe {r : DateRange} (valid : r.check = .ok ())
    (early : 0 ≤ r.first.year) (late : r.last.year ≤ 9999) (d : Date) :
    (Tables.textLe r.first.chars d.chars && Tables.textLe d.chars r.last.chars) = r.contains d := by
  have hyears := Date.year_le_of_le ((DateRange.check_eq_ok_iff r).1 valid)
  have hfirst : r.first.HasPlainYear := ⟨early, by omega⟩
  have hlast : r.last.HasPlainYear := ⟨by omega, late⟩
  rw [Bool.eq_iff_iff, Bool.and_eq_true, contains_iff]
  by_cases hd : d.HasPlainYear
  · rw [Date.textLe_chars hfirst hd, Date.textLe_chars hd hlast]
  · refine iff_of_false ?_ ?_
    · rintro ⟨hfront, -⟩
      exact Tables.textLe_iff.1 hfront (Date.chars_lt_of_not_plain hd hfirst)
    · rintro ⟨hlow, hhigh⟩
      have := Date.year_le_of_le hlow
      have := Date.year_le_of_le hhigh
      exact hd ⟨by omega, by omega⟩

/-! ### The order of a report -/

/-- Whether a harvest is not after another one, by date and then by some order of the times of
creation. -/
def Harvest.Precedes (le : Timestamp → Timestamp → Prop) (a b : Harvest) : Prop :=
  a.date ≤ b.date ∧ (a.date = b.date → le a.createdAt b.createdAt)

namespace Tables

theorem harvestLe_eq_byText : harvestLe =
    byText (fun h => h.date.chars)
      fun a b => textLe a.createdAt.columnText b.createdAt.columnText := rfl

theorem pairwise_harvestsBetween (t : Tables) (land : Uuid) (range : DateRange) :
    (t.harvestsBetween land range).Pairwise fun a b => harvestLe a b = true := by
  rw [harvestsBetween, harvestLe_eq_byText]
  refine List.pairwise_mergeSort (fun a b c hab hbc => ?_) (fun a b => ?_) _
  · exact byText_trans textLe_trans hab hbc
  · exact byText_total (Bool.or_eq_true_iff.2 (textLe_total _ _))

/-- **A report selects the live harvests in its range.** -/
theorem harvestsBetween_perm (t : Tables) (land : Uuid) {range : DateRange}
    (valid : range.check = .ok ()) (early : 0 ≤ range.first.year)
    (late : range.last.year ≤ 9999) :
    (t.harvestsBetween land range).Perm
      (t.harvests.filter fun x => x.isLiveOf land && range.contains x.date) := by
  refine (List.mergeSort_perm _ _).trans (.of_eq (List.filter_congr fun x _ => ?_))
  rw [← DateRange.contains_eq_textLe valid early late, ← Bool.and_assoc]
  rfl

theorem precedes_of_harvestLe {a b : Harvest} (ha : a.date.HasPlainYear) (hb : b.date.HasPlainYear)
    (h : harvestLe a b = true) : a.Precedes Timestamp.ColumnLe b := by
  rw [harvestLe_eq_byText, byText_iff] at h
  exact ⟨(Date.textLe_chars ha hb).1 h.1, fun he => h.2 (congrArg Date.chars he)⟩

end Tables

/-! ### Sheets -/

/-- The rows of a sheet are numbered by their places. -/
theorem Workbook.numbered_map {α : Type} (cells : α → List Cell) (n : Nat) (rows : List α) :
    numbered n (rows.map cells) = rows.mapIdx fun i x => Cell.ofNat (n + i) :: cells x := by
  induction rows generalizing n with
  | nil => rfl
  | cons x rows ih =>
    rw [List.map_cons, numbered, ih, List.mapIdx_cons]
    simp only [Nat.add_zero, Nat.add_assoc, Nat.add_comm 1]

/-- A sheet of harvests that could be built. -/
theorem Workbook.ofHarvests_ok {harvests : List Harvest} {book : Workbook}
    (h : ofHarvests harvests = .ok book) : book = harvestSheet harvests :=
  build_ok h

/-- The cells of a sheet of harvests. -/
theorem Workbook.harvestSheet_eq (harvests : List Harvest) :
    harvestSheet harvests = ⟨"Harvests", harvestHeaders.map Cell.ofText ::
      harvests.mapIdx fun i x => [.ofNat (i + 1), .ofText x.landCommodity.toText,
        .ofText x.date.toText, .ofDecimal x.quantity, .ofText x.unit, .ofText (x.notes.getD "")]⟩ := by
  rw [harvestSheet, numbered_map]
  simp only [Nat.add_comm 1]
  rfl

/-! ### Reports -/

/-- **A harvest report shows the harvests in its range.** Let a range be valid and stay within the
years of four digits. There is a list of all live harvests of a land's commodity whose dates the
range contains, in the order of the dates and, for one date, of the times of creation as the store
compares them; for times in UTC that is the order of the points in time. Whenever the job of the
report is worked off, its file has a row with the number and the fields of each harvest of the list,
below the headers and in the order of the list. And it is worked off if the store refuses nothing,
the sheet has room and no folder is in the way of the file. -/
theorem harvest_report_selects (w : ReportWorker) (land : Uuid) {range : DateRange}
    (valid : range.check = .ok ()) (early : 0 ≤ range.first.year) (late : range.last.year ≤ 9999) :
    ∃ listed : List Harvest,
      listed.Perm
        (w.store.tables.harvests.filter fun x => x.isLiveOf land && range.contains x.date) ∧
      listed.Pairwise (Harvest.Precedes Timestamp.ColumnLe) ∧
      ((∀ x ∈ listed, x.createdAt.IsPlainUtc) → listed.Pairwise (Harvest.Precedes (· ≤ ·))) ∧
      (∀ now name w',
        ReportWorker.process (ReportRequest.jobBytes ⟨.harvest land, range⟩) now w =
            (.ok name, w') →
          w'.reports.load name = .ok (.workbook ⟨"Harvests",
            ["No", "Land Commodity ID", "Harvest Date", "Quantity", "Unit", "Notes"].map
                Cell.ofText ::
              listed.mapIdx fun i x => [.ofNat (i + 1), .ofText x.landCommodity.toText,
                .ofText x.date.toText, .ofDecimal x.quantity, .ofText x.unit,
                .ofText (x.notes.getD "")]⟩)) ∧
      (w.store.RefusesNothing → w.store.tables.harvests.length < Workbook.maxRows →
        (∀ x ∈ listed, x.HasShortTexts) → ∀ now entries, w.reports.prepare = .ok entries →
        Directory.Clear (Utf8.encode (ReportRequest.fileName ⟨.harvest land, range⟩ now)) entries →
        ∃ w', ReportWorker.process (ReportRequest.jobBytes ⟨.harvest land, range⟩) now w =
          (.ok (ReportRequest.fileName ⟨.harvest land, range⟩ now), w')) := by
  have hperm := Tables.harvestsBetween_perm w.store.tables land valid early late
  have hplain : ∀ x ∈ w.store.tables.harvestsBetween land range, x.date.HasPlainYear := by
    intro x hx
    have hin := (Bool.and_eq_true_iff.1 (List.mem_filter.1 (hperm.subset hx)).2).2
    obtain ⟨hlow, hhigh⟩ := DateRange.contains_iff.1 hin
    exact ⟨Int.le_trans early (Date.year_le_of_le hlow),
      Int.le_trans (Date.year_le_of_le hhigh) late⟩
  have hsorted : (w.store.tables.harvestsBetween land range).Pairwise
      (Harvest.Precedes Timestamp.ColumnLe) :=
    (Tables.pairwise_harvestsBetween _ _ _).imp_of_mem fun ha hb h =>
      Tables.precedes_of_harvestLe (hplain _ ha) (hplain _ hb) h
  refine ⟨_, hperm, hsorted, fun hutc => ?_, fun now name w' hprocess => ?_, ?_⟩
  · exact hsorted.imp_of_mem fun ha hb h =>
      ⟨h.1, fun he => (Timestamp.columnLe_iff (hutc _ ha) (hutc _ hb)).1 (h.2 he)⟩
  · obtain ⟨book, hbook, -, hload⟩ := ReportWorker.process_ok hprocess
    have heval := Work.eval_of_run_ok hbook
    rw [ReportRequest.eval_book_harvest] at heval
    rw [hload, Workbook.ofHarvests_ok (Except.ok.inj (congrArg Prod.fst heval)),
      Workbook.harvestSheet_eq]
    rfl
  · intro works few hshort now entries prepared clear
    obtain ⟨w', hprocess, -⟩ := ReportWorker.process_of_short works few prepared clear hshort
    exact ⟨w', hprocess⟩

namespace Market.Sample

/-- A harvest of the fifth of January 2024. -/
def nearHarvest : Harvest := harvested 2 (january 4)

theorem isDate_far : IsDate 12000 1 1 := by decide

/-- A harvest of the first day of the year 12000. -/
def farHarvest : Harvest := harvested 1 ⟨12000, 1, 1, isDate_far⟩

/-- A range that ends in the year 12000. -/
def farRange : DateRange := ⟨⟨2024, 1, 1, by decide⟩, ⟨12000, 12, 31, by decide⟩⟩

/-- A worker on some harvests, with no report yet. -/
def reporting (harvests : List Harvest) : ReportWorker := ⟨(storing [] harvests).store, .missing⟩

theorem shortTexts_harvested (id : Nat) (date : Date) : (harvested id date).HasShortTexts :=
  ⟨(by decide : "kg".length ≤ Workbook.maxCharacters), Nat.zero_le _⟩

theorem clear_reporting (name : Bytes) : Directory.Clear name [] :=
  Directory.clear_of_noFolder (fun _ => List.not_mem_nil) name

end Market.Sample

open Market.Sample in
/-- Of two harvests the report of January has the one that is in January. -/
theorem harvest_report_selects_sample :
    wholeMonth.check = .ok () ∧ 0 ≤ wholeMonth.first.year ∧ wholeMonth.last.year ≤ 9999 ∧
      ∃ w', ReportWorker.process (ReportRequest.jobBytes ⟨.harvest ⟨9⟩, wholeMonth⟩) (noonOf 19)
          (reporting [farHarvest, nearHarvest]) =
        (.ok (ReportRequest.fileName ⟨.harvest ⟨9⟩, wholeMonth⟩ (noonOf 19)), w') ∧
        w'.reports.load (ReportRequest.fileName ⟨.harvest ⟨9⟩, wholeMonth⟩ (noonOf 19)) =
          .ok (.workbook ⟨"Harvests",
            [["No", "Land Commodity ID", "Harvest Date", "Quantity", "Unit", "Notes"].map
                Cell.ofText,
              [.ofNat 1, .ofText (Uuid.toText ⟨9⟩), .ofText (january 4).toText,
                .ofDecimal (amount 25), .ofText "kg", .ofText ""]]⟩) := by
  have valid : wholeMonth.check = .ok () := by decide
  have early : 0 ≤ wholeMonth.first.year := by decide
  have late : wholeMonth.last.year ≤ 9999 := by decide
  obtain ⟨listed, hperm, -, -, hfile, hdone⟩ :=
    harvest_report_selects (reporting [farHarvest, nearHarvest]) ⟨9⟩ valid early late
  have hselected : ([farHarvest, nearHarvest].filter fun x =>
      x.isLiveOf ⟨9⟩ && wholeMonth.contains x.date) = [nearHarvest] := by decide
  obtain rfl : listed = [nearHarvest] := List.perm_singleton.1 (hselected ▸ hperm)
  have hshort : ∀ x ∈ [nearHarvest], x.HasShortTexts := by
    intro x hx
    obtain rfl := List.mem_singleton.1 hx
    exact shortTexts_harvested 2 (january 4)
  obtain ⟨w', hprocess⟩ := hdone (works_storing _ _) (by decide) hshort (noonOf 19) [] rfl
    (clear_reporting _)
  exact ⟨valid, early, late, w', hprocess, hfile _ _ _ hprocess⟩

open Market.Sample in
/-- A harvest is live and in a valid range, and its report is written without it. -/
theorem late_range_selects_nothing :
    farRange.check = .ok () ∧ farHarvest.isLiveOf ⟨9⟩ = true ∧
      farRange.contains farHarvest.date = true ∧
      ∃ w', ReportWorker.process (ReportRequest.jobBytes ⟨.harvest ⟨9⟩, farRange⟩) (noonOf 19)
          (reporting [farHarvest]) =
        (.ok (ReportRequest.fileName ⟨.harvest ⟨9⟩, farRange⟩ (noonOf 19)), w') ∧
        w'.reports.load (ReportRequest.fileName ⟨.harvest ⟨9⟩, farRange⟩ (noonOf 19)) =
          .ok (.workbook ⟨"Harvests",
            [["No", "Land Commodity ID", "Harvest Date", "Quantity", "Unit", "Notes"].map
                Cell.ofText]⟩) := by
  have hout : Tables.textLe farRange.first.chars farHarvest.date.chars = false := by decide +kernel
  have hnone : (reporting [farHarvest]).store.tables.harvestsBetween ⟨9⟩ farRange = [] := by
    rw [Tables.harvestsBetween, List.filter_eq_nil_iff.2, List.mergeSort_nil]
    intro x hx
    obtain rfl : x = farHarvest := List.mem_singleton.1 hx
    rw [hout]
    simp
  have hshort : ∀ x ∈ (reporting [farHarvest]).store.tables.harvestsBetween ⟨9⟩ farRange,
      x.HasShortTexts := by
    rw [hnone]
    exact fun x hx => absurd hx List.not_mem_nil
  have hreports : (reporting [farHarvest]).ReportsHarvests ⟨9⟩ farRange (noonOf 19) :=
    ReportWorker.process_of_short (works_storing _ _) (by decide) rfl (clear_reporting _) hshort
  obtain ⟨w', hprocess, hload⟩ := hreports
  rw [hnone] at hload
  exact ⟨by decide, by decide, by decide, w', hprocess, hload⟩

end CropLedger
