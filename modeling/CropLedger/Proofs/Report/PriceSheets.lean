import CropLedger.Proofs.Market.OldestFirst
import CropLedger.Report.Worker

/-!
# Price histories and their sheets

A sheet shows the points of a pair's history that are dated inside a range, and before them the last
one dated earlier. Which one that is is told from the order of the points alone, so it matters that
histories come out oldest first.

* `DateRange.select_append`: the point that opens a range, and what comes after it;
* `DateRange.not_precedes_select_tail`: of points in order, only the first one that is shown can be
  dated before the range;
* `Workbook.ofSnapshots_ok`, `ReportRequest.eval_book`: the rows of a sheet;
* `histories_oldest_first`: histories and sheets after writes whose clock is never set back.
-/

namespace CropLedger

/-! ### Dates -/

/-- All points are given in UTC. -/
def InUtc (points : List PriceSnapshot) : Prop := ∀ x ∈ points, x.updatedAt.offset = 0

theorem PriceSnapshot.date_le {x y : PriceSnapshot} (hx : x.updatedAt.offset = 0)
    (hy : y.updatedAt.offset = 0) (h : x.updatedAt ≤ y.updatedAt) : x.date ≤ y.date := by
  rw [date, date, ← Timestamp.utcDate_of_offset hx, ← Timestamp.utcDate_of_offset hy]
  exact Timestamp.utcDate_le h

theorem Tables.inUtc_history (t : Tables) (pair : Pair) : InUtc (t.history pair).snapshots := by
  intro x hx
  rcases List.mem_append.1 hx with hx | hx
  · obtain ⟨a, ha, rfl⟩ := List.mem_map.1 hx
    obtain ⟨a, -, rfl⟩ := List.mem_map.1 ha
    rfl
  · obtain ⟨p, hp, rfl⟩ := List.mem_map.1 hx
    obtain ⟨p, -, rfl⟩ := Option.map_eq_some_iff.1 (Option.mem_toList.1 hp)
    rfl

/-! ### Points that are shown -/

namespace DateRange

variable {r : DateRange} {x : PriceSnapshot} {points earlier later : List PriceSnapshot}

theorem precedes_iff : r.precedes x = true ↔ x.date < r.first := decide_eq_true_iff

theorem precedes_eq_false_iff : r.precedes x = false ↔ ¬x.date < r.first := decide_eq_false_iff_not

theorem not_contains_of_precedes (h : r.precedes x = true) : r.contains x.date = false := by
  have hlt : x.date.key < r.first.key := precedes_iff.1 h
  have hle : ¬r.first ≤ x.date := Int.not_le.2 hlt
  simp [contains, hle]

/-- The last point that is dated before the range is shown first, and what comes after it is shown
as if it were alone. -/
theorem select_append (hx : r.precedes x = true) (he : ∀ y ∈ earlier, r.precedes y = true)
    (hl : ∀ y ∈ later, r.precedes y = false) :
    r.select (earlier ++ x :: later) = x :: r.select later := by
  induction earlier with
  | nil =>
    have hnone : later.any r.precedes = false := by simpa using hl
    rw [List.nil_append, select, hx, hnone]
    simp
  | cons y earlier ih =>
    have hy := he y List.mem_cons_self
    have hsome : (earlier ++ x :: later).any r.precedes = true := by
      simp [hx]
    rw [List.cons_append, select, not_contains_of_precedes hy, hsome]
    simpa using ih fun z hz => he z (List.mem_cons_of_mem _ hz)

theorem not_precedes_select (h : ∀ y ∈ points, r.precedes y = false) :
    ∀ y ∈ r.select points, r.precedes y = false :=
  fun y hy => h y ((r.select_sublist points).subset hy)

/-- Of points in order only the first one that is shown can be dated before the range. -/
theorem not_precedes_select_tail (hutc : InUtc points)
    (hp : points.Pairwise fun x y => x.updatedAt ≤ y.updatedAt) :
    ∀ y ∈ (r.select points).tail, r.precedes y = false := by
  induction points with
  | nil => exact fun y hy => nomatch hy
  | cons x later ih =>
    obtain ⟨hfirst, hrest⟩ := List.pairwise_cons.1 hp
    have hutc' : InUtc later := fun y hy => hutc y (List.mem_cons_of_mem _ hy)
    unfold select
    split
    · -- a point is shown if it is in the range, or if no later one is dated before the range
      rename_i hshown
      refine not_precedes_select fun y hy => ?_
      rcases Bool.or_eq_true_iff.1 hshown with hin | hlast
      · have hxy : x.date.key ≤ y.date.key := PriceSnapshot.date_le (hutc x List.mem_cons_self)
          (hutc' y hy) (hfirst y hy)
        have hfrom : r.first.key ≤ x.date.key := of_decide_eq_true (Bool.and_eq_true_iff.1 hin).1
        exact precedes_eq_false_iff.2 (Int.not_lt.2 (Int.le_trans hfrom hxy))
      · have hnone := (Bool.and_eq_true_iff.1 hlast).2
        simpa using List.any_eq_false.1 (by simpa using hnone) y hy
    · exact ih hutc' hrest

end DateRange

/-! ### Sheets -/

theorem Workbook.build_ok {sheet : String} {headers : List String} {records : List (List Cell)}
    {book : Workbook} (h : build sheet headers records = .ok book) :
    book = ⟨sheet, headers.map Cell.ofText :: numbered 1 records⟩ := by
  unfold build at h
  cases hc : check 0 (headers.map Cell.ofText :: numbered 1 records) with
  | error fault =>
    simp only [hc] at h
    cases h
  | ok u =>
    simp only [hc] at h
    exact (Except.ok.inj h).symm

/-- The rows of a sheet below the headers are the points that it is made of, numbered from one. -/
theorem Workbook.ofSnapshots_ok {points : List PriceSnapshot} {book : Workbook}
    (h : ofSnapshots points = .ok book) :
    book.rows.tail = numbered 1 (points.map snapshotCells) := by
  rw [build_ok h]
  rfl

/-- What the workbook of a price history is made of. -/
theorem ReportRequest.eval_book (pair : Pair) (range : DateRange) (t : Tables) :
    (ReportRequest.book ⟨.priceHistory pair, range⟩).eval t =
      (.ok (Workbook.ofSnapshots (range.select (t.history pair).snapshots)), t) :=
  Work.eval_bind_ok.2 ⟨_, t, Market.eval_history t pair, rfl⟩

/-! ### Oldest first -/

/-- What there is to say about the points of a pair's history. -/
structure OldestFirst (t : Tables) (pair : Pair) (points : List PriceSnapshot) : Prop where
  ordered : points.Pairwise fun x y => x.updatedAt ≤ y.updatedAt
  /-- The live price of the pair is the last point, and it alone is marked as current. -/
  live : ∀ p ∈ t.prices, p.isLive = true → p.pair = pair → ∃ earlier last,
    points = earlier ++ [last] ∧ last.price = p.id ∧ last.current = true ∧
      ∀ x ∈ earlier, x.current = false
  /-- If the pair has no live price, no point is marked. -/
  none : (∀ p ∈ t.prices, p.isLive = true → p.pair ≠ pair) → ∀ x ∈ points, x.current = false

theorem Tables.Ascending.oldestFirst {t : Tables} (h : t.Ascending) (ho : t.Orderly) (pair : Pair) :
    OldestFirst t pair (t.history pair).snapshots := by
  obtain ⟨hlive, hnone⟩ := current_snapshots_history ho pair
  refine ⟨h.history ho pair, fun p hp hl hpair => ?_, hnone⟩
  obtain ⟨earlier, hpoints, hearlier⟩ := hlive p hp hl hpair
  exact ⟨earlier, p.fetched.snapshot, hpoints, rfl, rfl, hearlier⟩

namespace Market

variable {σ : Type} (m : Market σ)

/-- **Histories come out oldest first.** After any writes from nothing whose clock was never set
back, the points of a pair's history that is read stand in the order of their times, with the live
price last; and in the sheet of a range no row but the first one is dated before the range. -/
theorem histories_oldest_first {writes : List Write} (hc : Chronological writes)
    (s : MarketState σ) (hs : s.store.tables = Tables.empty) (pair : Pair) (db : Database)
    (hdb : db.tables = (m.run writes s).store.tables) :
    (db.RefusesNothing → ∃ h, ((Prices.history pair).run db).1 = .ok h) ∧
      (∀ h, ((Prices.history pair).run db).1 = .ok h → OldestFirst db.tables pair h.snapshots) ∧
      ∀ range book, ((ReportRequest.book ⟨.priceHistory pair, range⟩).run db).1 = .ok (.ok book) →
        ∃ shown : List PriceSnapshot,
          book.rows.tail = Workbook.numbered 1 (shown.map Workbook.snapshotCells) ∧
            ∀ x ∈ shown.tail, ¬x.date < range.first := by
  have ho : db.tables.Orderly := hdb ▸ m.orderly_run writes (hs ▸ Tables.orderly_empty)
  have ha : db.tables.Ascending := hdb ▸ m.ascending_run hc hs
  refine ⟨fun hr => ?_, fun h hh => ?_, fun range book hbook => ?_⟩
  · have hrun := Work.run_of_refusesNothing (Prices.history pair) hr
    rw [eval_history] at hrun
    exact ⟨_, congrArg Prod.fst hrun⟩
  · have heval := Work.eval_of_run_ok hh
    rw [eval_history] at heval
    obtain rfl := Except.ok.inj (congrArg Prod.fst heval)
    exact ha.oldestFirst ho pair
  · have heval := Work.eval_of_run_ok hbook
    rw [ReportRequest.eval_book] at heval
    have hbuilt := Except.ok.inj (congrArg Prod.fst heval)
    refine ⟨_, Workbook.ofSnapshots_ok hbuilt, fun x hx => ?_⟩
    exact DateRange.precedes_eq_false_iff.1 (DateRange.not_precedes_select_tail
      (db.tables.inUtc_history pair) (ha.history ho pair) x hx)

/-! ### A history -/

open Sample in
/-- The live price of the pair was restored after another one had stood for the pair. -/
theorem histories_oldest_first_sample :
    Chronological cycle ∧ ∃ h,
      ((Prices.history pair).run (market.run cycle blank).store).1 = .ok h ∧
        h.snapshots.map (fun x => (x.price, x.updatedAt, x.current)) =
          [(⟨1⟩, (time 1).utc, false), (⟨1⟩, (time 7).utc, true)] ∧
        OldestFirst (market.run cycle blank).store.tables pair h.snapshots := by
  have hclock : Chronological cycle := by
    unfold Chronological
    decide +kernel
  obtain ⟨-, holdest, -⟩ := market.histories_oldest_first hclock blank rfl pair _ rfl
  have hread : ((Prices.history pair).run (market.run cycle blank).store).1 =
      .ok ((market.run cycle blank).store.tables.history pair) := by
    have hrefuses := market.refusesNothing_run cycle (s := blank) fun _ _ => rfl
    rw [congrArg Prod.fst (Work.run_of_refusesNothing (Prices.history pair) hrefuses), eval_history]
  exact ⟨hclock, _, hread, by decide +kernel, holdest _ hread⟩

end Market

end CropLedger
