import CropLedger.Proofs.Report.OpeningPrice

/-!
# Harvests that fit a sheet

A harvest is accepted whatever the length of its unit and its notes, but a cell holds only so many
characters. All other cells of a harvest are short, so these two texts alone decide whether a report
can be rendered, as long as there are not more harvests than a sheet has rows.

* `Workbook.check_of_length`: the check of rows that a sheet has room for;
* `Workbook.fits_harvestCells`: which cells of a harvest can be too long;
* `ReportWorker.process_of_short`, `ReportWorker.process_of_long`: the two ways in which the job of
  a harvest report comes out;
* `Market.short_harvests_render`: the reports of harvests whose texts are short.
-/

namespace CropLedger

/-! ### Short texts -/

/-- The texts of a harvest fit cells. -/
def Harvest.HasShortTexts (h : Harvest) : Prop :=
  h.unit.length ≤ Workbook.maxCharacters ∧ (h.notes.getD "").length ≤ Workbook.maxCharacters

/-- The texts of a harvest that is asked for fit cells, the unit without the blanks around it. -/
def NewHarvest.HasShortTexts (new : NewHarvest) : Prop :=
  new.trimmedUnit.length ≤ Workbook.maxCharacters ∧
    (new.notes.getD "").length ≤ Workbook.maxCharacters

theorem Digits.length_padded_le (least : Nat) {n width : Nat} (hw : 0 < width)
    (h : n < 10 ^ width) : (padded least n).length ≤ max least width := by
  have hshort := length_shortestDigits_le hw h
  rw [padded_eq_map, List.length_map, paddedDigits, List.length_append, List.length_replicate]
  omega

theorem Date.length_chars_le (d : Date) : d.chars.length ≤ 13 := by
  have hsmall : d.year.natAbs < 10 ^ 6 := by
    have hdate := d.isDate
    unfold IsDate at hdate
    omega
  have hpadded := Digits.length_padded_le 4 (by decide) hsmall
  have hyear : (yearText d.year).length ≤ 7 := by
    unfold yearText
    split
    · rw [List.length_cons]
      omega
    · split
      · omega
      · rw [List.length_cons]
        omega
  simp only [chars, List.length_append, List.length_cons, Digits.length_fixed]
  omega

namespace Workbook

/-! ### Rows that fit a sheet -/

theorem fits_ofText (s : String) : fits (Cell.ofText s) = decide (s.length ≤ maxCharacters) := by
  unfold Cell.ofText
  split
  · rename_i h
    simp [fits, h]
  · rfl

/-- Rows that the sheet has room for pass if all of their cells do. -/
theorem check_of_length {index : Nat} {rows : List (List Cell)}
    (h : index + rows.length ≤ maxRows) :
    check index rows = if rows.all (·.all fits) then .ok () else .error .text := by
  induction rows generalizing index with
  | nil => rfl
  | cons row rows ih =>
    rw [List.length_cons] at h
    have hroom : ¬maxRows ≤ index := by omega
    rw [check, if_neg hroom, ih (by omega), List.all_cons]
    cases row.all fits <;> rfl

theorem all_fits_numbered (n : Nat) (rows : List (List Cell)) :
    (numbered n rows).all (·.all fits) = rows.all (·.all fits) := by
  induction rows generalizing n with
  | nil => rfl
  | cons row rows ih =>
    rw [numbered, List.all_cons, List.all_cons, ih, List.all_cons]
    rfl

/-- What comes of records that the sheet has room for. -/
theorem build_of_length {sheet : String} {headers : List String} {records : List (List Cell)}
    (hheaders : (headers.map Cell.ofText).all fits = true) (h : records.length < maxRows) :
    build sheet headers records =
      if records.all (·.all fits) then
        .ok ⟨sheet, headers.map Cell.ofText :: numbered 1 records⟩
      else .error .text := by
  have hroom : 0 + (headers.map Cell.ofText :: numbered 1 records).length ≤ maxRows := by
    rw [List.length_cons, length_numbered]
    omega
  rw [build, check_of_length hroom, List.all_cons, hheaders, all_fits_numbered, Bool.true_and]
  split <;> rfl

/-! ### Harvests -/

/-- Of the cells of a harvest only those of its unit and its notes can be too long. -/
theorem fits_harvestCells (h : Harvest) : (harvestCells h).all fits = true ↔ h.HasShortTexts := by
  have hland : h.landCommodity.toText.length ≤ maxCharacters := by
    rw [Uuid.toText, String.length_ofList, Uuid.length_chars]
    decide
  have hdate : h.date.toText.length ≤ maxCharacters := by
    rw [Date.toText, String.length_ofList]
    exact Nat.le_trans h.date.length_chars_le (by decide)
  have hquantity : fits (Cell.ofDecimal h.quantity) = true := rfl
  simp only [harvestCells, List.all_cons, List.all_nil, fits_ofText, hquantity, hland, hdate,
    decide_true, Bool.true_and, Bool.and_true, Bool.and_eq_true, decide_eq_true_eq,
    Harvest.HasShortTexts]

/-- The headers of a sheet of harvests. -/
def harvestHeaders : List String :=
  ["No", "Land Commodity ID", "Harvest Date", "Quantity", "Unit", "Notes"]

/-- The sheet of harvests. -/
def harvestSheet (harvests : List Harvest) : Workbook :=
  ⟨"Harvests", harvestHeaders.map Cell.ofText :: numbered 1 (harvests.map harvestCells)⟩

/-- What comes of harvests that the sheet has room for. -/
theorem ofHarvests_of_length {harvests : List Harvest} (hroom : harvests.length < maxRows) :
    ofHarvests harvests =
      if (harvests.map harvestCells).all (·.all fits) then .ok (harvestSheet harvests)
      else .error .text := by
  have hheaders : (harvestHeaders.map Cell.ofText).all fits = true := by decide +kernel
  have hrecords : (harvests.map harvestCells).length < maxRows := by
    rw [List.length_map]
    exact hroom
  exact build_of_length hheaders hrecords

theorem all_fits_harvests {harvests : List Harvest} :
    (harvests.map harvestCells).all (·.all fits) = true ↔ ∀ x ∈ harvests, x.HasShortTexts := by
  simp only [List.all_eq_true, List.forall_mem_map, ← fits_harvestCells]

theorem ofHarvests_of_short {harvests : List Harvest} (hroom : harvests.length < maxRows)
    (h : ∀ x ∈ harvests, x.HasShortTexts) : ofHarvests harvests = .ok (harvestSheet harvests) := by
  rw [ofHarvests_of_length hroom, if_pos (all_fits_harvests.2 h)]

theorem ofHarvests_of_long {harvests : List Harvest} (hroom : harvests.length < maxRows)
    {x : Harvest} (hx : x ∈ harvests) (h : ¬x.HasShortTexts) :
    ofHarvests harvests = .error .text := by
  rw [ofHarvests_of_length hroom, if_neg fun hall => h (all_fits_harvests.1 hall x hx)]

end Workbook

/-! ### Jobs -/

theorem Tables.mem_of_mem_harvestsBetween {t : Tables} {land : Uuid} {range : DateRange}
    {x : Harvest} (h : x ∈ t.harvestsBetween land range) : x ∈ t.harvests :=
  List.mem_of_mem_filter (List.mem_mergeSort.1 h)

theorem Tables.length_harvestsBetween_le (t : Tables) (land : Uuid) (range : DateRange) :
    (t.harvestsBetween land range).length ≤ t.harvests.length := by
  rw [harvestsBetween, List.length_mergeSort]
  exact List.length_filter_le _ _

/-- What the workbook of a harvest report is made of. -/
theorem ReportRequest.eval_book_harvest (land : Uuid) (range : DateRange) (t : Tables) :
    (ReportRequest.book ⟨.harvest land, range⟩).eval t =
      (.ok (Workbook.ofHarvests (t.harvestsBetween land range)), t) := by
  refine Work.eval_statement_bind.2 ⟨_, t, rfl, ?_⟩
  -- a sheet does not show the times in which reading and writing differ
  have hcells : ∀ harvests : List Harvest,
      Workbook.ofHarvests (harvests.map Harvest.fetched) = Workbook.ofHarvests harvests := by
    intro harvests
    rw [Workbook.ofHarvests, List.map_map]
    rfl
  rw [hcells]
  rfl

namespace ReportWorker

variable {w : ReportWorker} {land : Uuid} {range : DateRange} {now : Timestamp}

theorem run_book_harvest (works : w.store.RefusesNothing) (land : Uuid) (range : DateRange) :
    ((ReportRequest.book ⟨.harvest land, range⟩).run w.store).1 =
      .ok (Workbook.ofHarvests (w.store.tables.harvestsBetween land range)) := by
  have hrun := Work.run_of_refusesNothing (ReportRequest.book ⟨.harvest land, range⟩) works
  rw [ReportRequest.eval_book_harvest] at hrun
  exact congrArg Prod.fst hrun

/-- The job of a harvest report is worked off, and its file shows the harvests that are selected, a
row for each. -/
def ReportsHarvests (w : ReportWorker) (land : Uuid) (range : DateRange) (now : Timestamp) : Prop :=
  ∃ w', process (ReportRequest.jobBytes ⟨.harvest land, range⟩) now w =
      (.ok (ReportRequest.fileName ⟨.harvest land, range⟩ now), w') ∧
    w'.reports.load (ReportRequest.fileName ⟨.harvest land, range⟩ now) =
      .ok (.workbook (Workbook.harvestSheet (w.store.tables.harvestsBetween land range)))

/-- A report of harvests whose texts are short is rendered, unless the store refuses a statement or
a folder stands in the way of the file. -/
theorem process_of_short (works : w.store.RefusesNothing)
    (few : w.store.tables.harvests.length < Workbook.maxRows) {entries : Listing}
    (prepared : w.reports.prepare = .ok entries)
    (clear : Directory.Clear
      (Utf8.encode (ReportRequest.fileName ⟨.harvest land, range⟩ now)) entries)
    (h : ∀ x ∈ w.store.tables.harvestsBetween land range, x.HasShortTexts) :
    w.ReportsHarvests land range now := by
  have hroom := Nat.lt_of_le_of_lt (w.store.tables.length_harvestsBetween_le land range) few
  have hbook := run_book_harvest works land range
  rw [Workbook.ofHarvests_of_short hroom h] at hbook
  exact ⟨_, process_of_clear (ReportRequest.decode_jobBytes _) hbook prepared clear,
    Directory.load_saved⟩

/-- A report of harvests one of which has a long text is never rendered. -/
theorem process_of_long (works : w.store.RefusesNothing)
    (few : w.store.tables.harvests.length < Workbook.maxRows) (now : Timestamp) {x : Harvest}
    (hx : x ∈ w.store.tables.harvestsBetween land range) (h : ¬x.HasShortTexts) :
    ∃ store, process (ReportRequest.jobBytes ⟨.harvest land, range⟩) now w =
      (.error (.render (.workbook .text)), ⟨store, w.reports⟩) := by
  have hroom := Nat.lt_of_le_of_lt (w.store.tables.length_harvestsBetween_le land range) few
  have hbook := run_book_harvest works land range
  rw [Workbook.ofHarvests_of_long hroom hx h] at hbook
  rcases hrun : (ReportRequest.book ⟨.harvest land, range⟩).run w.store with ⟨built, store⟩
  rw [hrun] at hbook
  obtain rfl : built = .ok (.error .text) := hbook
  refine ⟨store, ?_⟩
  unfold process
  rw [ReportRequest.decode_jobBytes]
  simp only [render, hrun, ReportRequest.render_unbuilt]
  rfl

end ReportWorker

/-! ### Harvests that were asked for -/

namespace Market

variable {σ : Type} (m : Market σ)

/-- Harvests that were asked for with short texts have short texts. -/
theorem shortTexts_run {writes : List Write}
    (hw : ∀ new id now, .createHarvest new id now ∈ writes → new.HasShortTexts)
    {s : MarketState σ} (hs : ∀ x ∈ s.store.tables.harvests, x.HasShortTexts) :
    ∀ x ∈ (m.run writes s).store.tables.harvests, x.HasShortTexts := by
  let Short (w : Write) : Prop := ∀ new id now, w = .createHarvest new id now → new.HasShortTexts
  refine m.run_keeps_of (Q := Short) (P := fun t => ∀ x ∈ t.harvests, x.HasShortTexts) ?_
    (fun w hm new id now he => hw new id now (he ▸ hm)) hs
  intro t t' w hshort ht hturns
  cases hturns with
  | createHarvest fresh =>
    intro x hx
    rcases List.mem_append.1 hx with hx | hx
    · exact ht x hx
    · obtain rfl := List.mem_singleton.1 hx
      exact hshort _ _ _ rfl
  | deleteHarvest found =>
    intro x hx
    obtain ⟨y, hy, rfl⟩ := List.mem_map.1 hx
    split <;> exact ht y hy
  | createPrice | revisePrice | deletePrice | restorePrice => exact ht

/-- **Harvests with short texts can be reported.** Let there be fewer harvests than a sheet has rows
after writes from nothing, in a store that refuses nothing, and no folder in the way of the file. If
the unit and the notes of every harvest that was asked for fit a cell, each report is rendered with
a row for each harvest that is selected. A single report is rendered if the texts of those that it
selects fit; if one of them does not, the job ends with the fault of a text that is too long, and
the directory stays as it is. -/
theorem short_harvests_render (writes : List Write) {s : MarketState σ}
    (hs : s.store.tables = Tables.empty) {w : ReportWorker}
    (hw : w.store.tables = (m.run writes s).store.tables) (works : w.store.RefusesNothing)
    (few : w.store.tables.harvests.length < Workbook.maxRows) (land : Uuid) (range : DateRange)
    (now : Timestamp) {entries : Listing} (prepared : w.reports.prepare = .ok entries)
    (clear : Directory.Clear
      (Utf8.encode (ReportRequest.fileName ⟨.harvest land, range⟩ now)) entries) :
    ((∀ new id at', .createHarvest new id at' ∈ writes → new.HasShortTexts) →
        w.ReportsHarvests land range now) ∧
      ((∀ x ∈ w.store.tables.harvestsBetween land range, x.HasShortTexts) →
        w.ReportsHarvests land range now) ∧
      ((∃ x ∈ w.store.tables.harvestsBetween land range, ¬x.HasShortTexts) →
        ∃ store, ReportWorker.process (ReportRequest.jobBytes ⟨.harvest land, range⟩) now w =
          (.error (.render (.workbook .text)), ⟨store, w.reports⟩)) := by
  refine ⟨fun hasked => ?_, fun hshort => ?_, fun ⟨x, hx, hlong⟩ => ?_⟩
  · refine ReportWorker.process_of_short works few prepared clear fun x hx => ?_
    have hall := m.shortTexts_run hasked (s := s) (by simp [hs, Tables.empty])
    rw [← hw] at hall
    exact hall x (Tables.mem_of_mem_harvestsBetween hx)
  · exact ReportWorker.process_of_short works few prepared clear hshort
  · exact ReportWorker.process_of_long works few now hx hlong

/-! ### Harvests with long notes -/

namespace Sample

/-- A harvest of a day of January, with as many characters of notes. -/
def noted (characters : Nat) : NewHarvest :=
  ⟨⟨9⟩, january 4, amount 25, "kg", some (String.ofList (List.replicate characters 'n'))⟩

/-- A harvest is recorded. -/
def recorded (characters : Nat) : List Write := [.createHarvest (noted characters) ⟨1⟩ (noonOf 5)]

/-- All of January. -/
def wholeMonth : DateRange := ⟨january 0, january 30⟩

theorem check_noted (characters : Nat) : Harvests.check (noted characters) = .ok () := by
  have hquantity : (noted characters).quantity.isPositive = true := by
    show (amount 25).isPositive = true
    decide
  have hunit : (noted characters).trimmedUnit ≠ "" := by
    show String.ofList (Text.trim "kg".toList) ≠ ""
    decide +kernel
  simp only [Harvests.check, NewHarvest.check, hquantity, hunit, not_true_eq_false, if_false]
  rfl

/-- The harvest is recorded, and selected for the report of the month. -/
theorem selected_noted (characters : Nat) :
    (worker (recorded characters)).store.tables.harvestsBetween ⟨9⟩ wholeMonth =
      [((noted characters).row ⟨1⟩ (noonOf 5)).kept] := by
  have hrows : (worker (recorded characters)).store.tables.harvests =
      [((noted characters).row ⟨1⟩ (noonOf 5)).kept] := by
    simp only [worker, recorded, run, List.foldl, Write.perform, unanswered, createHarvest,
      check_noted, checked]
    rfl
  have hfirst : Tables.textLe wholeMonth.first.chars (january 4).chars = true := by decide +kernel
  have hlast : Tables.textLe (january 4).chars wholeMonth.last.chars = true := by decide +kernel
  rw [Tables.harvestsBetween, hrows, List.filter_cons_of_pos, List.filter_nil,
    List.mergeSort_singleton]
  show (_ && _ && _ && _) = true
  rw [Bool.and_eq_true, Bool.and_eq_true]
  exact ⟨⟨rfl, hfirst⟩, hlast⟩

theorem length_notes (characters : Nat) :
    ((noted characters).notes.getD "").length = characters :=
  String.length_ofList.trans List.length_replicate

end Sample

open Sample in
/-- A harvest whose notes are as long as a cell allows is reported. -/
theorem short_harvests_render_sample :
    (∀ new id at', .createHarvest new id at' ∈ recorded 32767 → new.HasShortTexts) ∧
      (worker (recorded 32767)).ReportsHarvests ⟨9⟩ wholeMonth (noonOf 19) := by
  have hshort : ∀ new id at', .createHarvest new id at' ∈ recorded 32767 → new.HasShortTexts := by
    intro new id at' hm
    obtain rfl : new = noted 32767 := by
      cases List.mem_singleton.1 hm
      rfl
    exact ⟨by decide +kernel, Nat.le_of_eq (length_notes 32767)⟩
  have works : (worker (recorded 32767)).store.RefusesNothing :=
    market.refusesNothing_run _ (s := blank) fun _ _ => rfl
  obtain ⟨hrendered, -, -⟩ := market.short_harvests_render (recorded 32767) (s := blank) rfl
    (w := worker (recorded 32767)) rfl works (by decide) ⟨9⟩ wholeMonth (noonOf 19)
    rfl (Directory.clear_of_noFolder (fun _ => List.not_mem_nil) _)
  exact ⟨hshort, hrendered hshort⟩

open Sample in
/-- A harvest is accepted and recorded with notes of one character more than a cell holds, in a
store that refuses nothing and with nothing in the way of the file; its report is not rendered. -/
theorem long_notes_refused :
    Harvests.check (noted 32768) = .ok () ∧
      (∃ view, (market.createHarvest (noted 32768) ⟨1⟩ (noonOf 5) blank).1 = .ok view) ∧
      (worker (recorded 32768)).store.RefusesNothing ∧
      (worker (recorded 32768)).store.tables.harvests.length < Workbook.maxRows ∧
      (worker (recorded 32768)).reports = .missing ∧
      (ReportWorker.process (ReportRequest.jobBytes ⟨.harvest ⟨9⟩, wholeMonth⟩) (noonOf 19)
        (worker (recorded 32768))).1 = .error (.render (.workbook .text)) := by
  have works : (worker (recorded 32768)).store.RefusesNothing :=
    market.refusesNothing_run _ (s := blank) fun _ _ => rfl
  have few : (worker (recorded 32768)).store.tables.harvests.length < Workbook.maxRows := by
    decide
  have hlong : ¬(((noted 32768).row ⟨1⟩ (noonOf 5)).kept).HasShortTexts := by
    rintro ⟨-, hnotes⟩
    exact absurd ((length_notes 32768).symm.trans_le hnotes) (by decide)
  obtain ⟨store, hprocess⟩ := ReportWorker.process_of_long works few (noonOf 19)
    (selected_noted 32768 ▸ List.mem_cons_self) hlong
  exact ⟨check_noted 32768, ⟨_, rfl⟩, works, few, rfl, congrArg Prod.fst hprocess⟩

end Market

end CropLedger
