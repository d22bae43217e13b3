import Mathlib.Data.List.TakeWhile
import CropLedger.Proofs.Report.Files
import CropLedger.Proofs.Report.PriceSheets

/-!
# The price that opens a report

The sheet of a range starts with the price in effect when its first day opens, in UTC. Reports are
made from what is there when they are rendered, so this has to be told from the archived values and
the live price of that time. A price that was live at midnight is still live with its value, or a
revision has archived that value: then it is found. But a deletion leaves nothing in the archive. A
price that was deleted before it was revised is not found any more, and where no price was live at
midnight an older archived value is taken for one.

* `Tables.Since`: what was archived since a moment, and the live price, are dated since then;
* `Market.deletedUnrevised`: whether a price is deleted before it is revised;
* `Market.retained_run`: where the value of a price is found later on;
* `Market.opening_price_shown`: what the sheet of a range starts with;
* `Market.opening_price_deleted`: a history after which it does not.
-/

namespace CropLedger

open Market

/-! ### Since a moment -/

namespace Tables

variable {t t' : Tables} {w : Write} {P : Timestamp → Prop} {pair : Pair} {old : List ArchivedPrice}

/-- What was archived for a pair beyond some values, and the live price of the pair, have times with
a property. -/
structure Since (P : Timestamp → Prop) (pair : Pair) (old : List ArchivedPrice) (t : Tables) :
    Prop where
  archived : ∃ added, t.archived = old ++ added ∧ ∀ a ∈ added, a.pair = pair → P a.updatedAt
  live : ∀ p ∈ t.prices, p.isLive = true → p.pair = pair → P p.updatedAt

theorem since_now (h : ∀ p ∈ t.prices, p.isLive = true → p.pair = pair → P p.updatedAt) :
    t.Since P pair t.archived :=
  ⟨⟨[], (List.append_nil _).symm, fun _ ha => absurd ha List.not_mem_nil⟩, h⟩

theorem Since.turns (hutc : ∀ {time}, P time → P time.utc) (h : t.Since P pair old)
    (hw : P w.now) (ht : w.Turns t t') : t'.Since P pair old where
  archived := by
    obtain ⟨added, hadded, hold⟩ := h.archived
    cases ht with
    | @revisePrice id value now p accepted found unused =>
      obtain ⟨hp, -, hlive⟩ := mem_of_livePrice? found
      refine ⟨added ++ [(p.fetched.archivedAs (t.lastNumber + 1) now).kept], ?_, ?_⟩
      · rw [← List.append_assoc, ← hadded]
        rfl
      · intro a ha hpair
        rcases List.mem_append.1 ha with ha | ha
        · exact hold a ha hpair
        · obtain rfl := List.mem_singleton.1 ha
          exact hutc (h.live p hp hlive hpair)
    | createPrice | deletePrice | restorePrice | createHarvest | deleteHarvest =>
      exact ⟨added, hadded, hold⟩
  live q hq hl hpair := by
    rcases ht.price_cases hq with hq | ⟨new, id, rfl, -⟩ | ⟨p, hp, value, rfl, -⟩ |
      ⟨p, hp, mark, rfl, -⟩
    · exact h.live q hq hl hpair
    · exact hw
    · exact hw
    · exact hw

end Tables

/-! ### What becomes of a live price -/

namespace Market

/-- Whether a write is a revision of a price. -/
def Write.revises (id : Uuid) : Write → Bool
  | .revisePrice id' _ _ => id' = id
  | _ => false

/-- Whether a write is the deletion of a price. -/
def Write.deletes (id : Uuid) : Write → Bool
  | .deletePrice id' _ => id' = id
  | _ => false

namespace Write.Turns

open Tables

variable {t t' : Tables} {w : Write} {p : Price}

/-- A live price that is neither revised nor deleted stays as it is. -/
theorem mem_prices (ht : w.Turns t t') (ho : t.Orderly) (hp : p ∈ t.prices)
    (hl : p.isLive = true) (hr : w.revises p.id = false) (hd : w.deletes p.id = false) :
    p ∈ t'.prices := by
  have hother {id : Uuid} {change : Price → Price} (hne : id ≠ p.id) :
      p ∈ (t.setPrice id change).prices :=
    mem_setPrice.2 ⟨p, hp, (if_neg (Ne.symm hne)).symm⟩
  cases ht with
  | createPrice => exact List.mem_append_left _ hp
  | revisePrice => exact hother (of_decide_eq_false hr)
  | deletePrice => exact hother (of_decide_eq_false hd)
  | restorePrice found =>
    obtain ⟨hold, hid, hdeleted⟩ := mem_of_deletedPrice? found
    refine hother fun he => ?_
    rw [ho.eq_of_id hp hold (he.symm.trans hid.symm), hdeleted] at hl
    cases hl
  | createHarvest | deleteHarvest => exact hp

/-- A revision archives the value that a live price has had. -/
theorem since_revised {P : Timestamp → Prop} (ht : w.Turns t t') (ho : t.Orderly)
    (hp : p ∈ t.prices) (hl : p.isLive = true) (hr : w.revises p.id = true) (hw : P w.now) :
    ∃ number, t'.Since P p.pair (t.archived ++ [(p.fetched.archivedAs number w.now).kept]) := by
  cases ht with
  | @revisePrice id value now q accepted found unused =>
    obtain rfl : id = p.id := of_decide_eq_true hr
    obtain ⟨hq, hid, -⟩ := mem_of_livePrice? found
    obtain rfl := ho.eq_of_id hq hp hid
    refine ⟨t.lastNumber + 1, ?_⟩
    show Since P q.pair
      ((t.archiving q.fetched now).setPrice q.id (Price.revised value now)).archived _
    refine since_now fun x hx hxl hpair => ?_
    rcases mem_setPrice_cases hx with ⟨y, -, -, rfl⟩ | ⟨hx, hne⟩
    · exact hw
    · exact absurd (ho.live x hx q hp hxl hl hpair) hne
  | createPrice | deletePrice | restorePrice | createHarvest | deleteHarvest => cases hr

end Write.Turns

variable {σ : Type} (m : Market σ)

/-- Whether a price is deleted before it is revised for the first time. -/
def deletedUnrevised (id : Uuid) : List Write → MarketState σ → Bool
  | [], _ => false
  | w :: writes, s =>
    let later := deletedUnrevised id writes (w.perform m s).2
    if committed (w.perform m s).1 then w.deletes id || (!w.revises id && later) else later

/-- Where the value of a live price is found later on: with the price, if it stays as it is, or in
the archive, with nothing older after it. -/
inductive Retained (P : Timestamp → Prop) (p : Price) (t : Tables) : Prop
  | live (stays : p ∈ t.prices)
  | archived {before : List ArchivedPrice} {number : Int} {now : Timestamp}
    (since : t.Since P p.pair (before ++ [(p.fetched.archivedAs number now).kept]))

/-- **A price that is not deleted before it is revised is found later on.** -/
theorem retained_run {P : Timestamp → Prop} (hutc : ∀ {time}, P time → P time.utc)
    {writes : List Write} (hw : ∀ w ∈ writes, P w.now) {s : MarketState σ}
    (ho : s.store.tables.Orderly) {p : Price} (hp : p ∈ s.store.tables.prices)
    (hl : p.isLive = true) (hd : m.deletedUnrevised p.id writes s = false) :
    Retained P p (m.run writes s).store.tables := by
  induction writes generalizing s with
  | nil => exact .live hp
  | cons w writes ih =>
    have hlater : ∀ x ∈ writes, P x.now := fun x hx => hw x (List.mem_cons_of_mem _ hx)
    have ho' := m.perform_keeps (w := w) (fun h ht => ht.orderly h) ho
    unfold deletedUnrevised at hd
    cases hc : committed (w.perform m s).1 with
    | false =>
      simp only [hc] at hd
      have hsame := w.tables_of_not_committed m hc
      exact ih hlater ho' (hsame ▸ hp) hd
    | true =>
      simp only [hc, if_true, Bool.or_eq_false_iff, Bool.and_eq_false_iff, Bool.not_eq_false'] at hd
      have ht := ((w.committed_iff_happened m s).1 hc).turns
      cases hr : w.revises p.id with
      | false =>
        have hrest := hd.2.resolve_left (by simp [hr])
        exact ih hlater ho' (ht.mem_prices ho hp hl hr hd.1) hrest
      | true =>
        obtain ⟨number, hsince⟩ := ht.since_revised (P := P) ho hp hl hr (hw w List.mem_cons_self)
        exact .archived (m.run_keeps_of (fun hw h ht => h.turns hutc hw ht) hlater hsince)

end Market

/-! ### What a sheet starts with -/

/-- The first row of a sheet below the headers is a price as it stood: the live one, or, if its
value was revised since, what was archived of it. -/
def OpensWith (book : Workbook) (p : Price) : Prop :=
  book.rows.tail.head? = some (.ofNat 1 :: Workbook.snapshotCells p.fetched.snapshot) ∨
    book.rows.tail.head? = some (.ofNat 1 :: Workbook.snapshotCells p.superseded)

namespace DateRange

variable {r : DateRange} {points earlier later : List PriceSnapshot} {x : PriceSnapshot}

/-- Of points in order, the last one that is dated before the range is the first one shown. -/
theorem head?_select (hutc : InUtc points)
    (hp : points.Pairwise fun x y => x.updatedAt ≤ y.updatedAt)
    (hpoints : points = earlier ++ x :: later)
    (hx : r.precedes x = true) (hl : ∀ y ∈ later, r.precedes y = false) :
    (r.select points).head? = some x := by
  subst hpoints
  have hbefore := (List.pairwise_append.1 hp).2.2
  rw [select_append hx ?_ hl]
  · rfl
  intro y hy
  have hyx : y.date.key ≤ x.date.key := PriceSnapshot.date_le (hutc y (List.mem_append_left _ hy))
    (hutc x (List.mem_append_right _ List.mem_cons_self)) (hbefore y hy x List.mem_cons_self)
  exact precedes_iff.2 (Int.lt_of_le_of_lt hyx (precedes_iff.1 hx))

end DateRange

theorem Workbook.head?_numbered (n : Nat) (rows : List (List Cell)) :
    (numbered n rows).head? = rows.head?.map (.ofNat n :: ·) := by
  cases rows <;> rfl

namespace Tables

variable {t : Tables} {pair : Pair} {old : List ArchivedPrice} {range : DateRange} {p : Price}

/-- A time is not before a day opens in UTC. -/
def NotBefore (day : Date) (time : Timestamp) : Prop := ¬time.utcDate < day

theorem notBefore_utc {day : Date} {time : Timestamp} (h : NotBefore day time) :
    NotBefore day time.utc := by
  unfold NotBefore
  rw [Timestamp.utcDate_utc]
  exact h

/-- The points of a history after some archived values are not dated before a day. -/
theorem Since.history (h : t.Since (NotBefore range.first) pair old) (ho : t.Orderly) :
    ∃ later, (t.history pair).snapshots =
        ((old.filter fun a => a.pair = pair).map fun a => a.fetched.snapshot) ++ later ∧
      ∀ x ∈ later, range.precedes x = false := by
  obtain ⟨added, hadded, hdated⟩ := h.archived
  refine ⟨((added.filter fun a => a.pair = pair).map fun a => a.fetched.snapshot) ++
    (t.livePriceOf? pair).toList.map fun p => p.fetched.snapshot, ?_, ?_⟩
  · rw [snapshots_history ho, hadded, List.filter_append, List.map_append, List.append_assoc]
  · intro x hx
    rw [DateRange.precedes_eq_false_iff]
    rcases List.mem_append.1 hx with hx | hx
    · obtain ⟨a, ha, rfl⟩ := List.mem_map.1 hx
      obtain ⟨ha, hpair⟩ := List.mem_filter.1 ha
      exact hdated a ha (of_decide_eq_true hpair)
    · obtain ⟨p, hp, rfl⟩ := List.mem_map.1 hx
      obtain ⟨hp, hpair, hlive⟩ := mem_of_livePriceOf? (Option.mem_toList.1 hp)
      exact h.live p hp hlive hpair

/-- A price that was live before a range, and is retained, is the first one that is shown. -/
theorem head?_select_history (ho : t.Orderly) (ha : t.Ascending)
    (h : Retained (NotBefore range.first) p t) (hl : p.isLive = true)
    (hbefore : p.updatedAt.utcDate < range.first) :
    (range.select (t.history p.pair).snapshots).head? = some p.fetched.snapshot ∨
      (range.select (t.history p.pair).snapshots).head? = some p.superseded := by
  have hutc := t.inUtc_history p.pair
  have hordered := ha.history ho p.pair
  cases h with
  | live stays =>
    obtain ⟨earlier, hpoints, -⟩ := (current_snapshots_history ho p.pair).1 p stays hl rfl
    have hprecedes : range.precedes p.fetched.snapshot = true := DateRange.precedes_iff.2 hbefore
    have hnone : ∀ y ∈ ([] : List PriceSnapshot), range.precedes y = false :=
      fun y hy => nomatch hy
    exact .inl (DateRange.head?_select hutc hordered hpoints hprecedes hnone)
  | @archived before number now since =>
    obtain ⟨later, hpoints, hlater⟩ := since.history ho
    have hself : ([(p.fetched.archivedAs number now).kept].filter fun a => a.pair = p.pair).map
        (fun a => a.fetched.snapshot) = [p.superseded] := by
      have hpair : (p.fetched.archivedAs number now).kept.pair = p.pair := rfl
      simp only [List.filter_cons, hpair, decide_true, if_true, List.filter_nil, List.map_singleton,
        Price.snapshot_archivedAs]
    rw [List.filter_append, List.map_append, hself, List.append_assoc] at hpoints
    have hprecedes : range.precedes p.superseded = true := DateRange.precedes_iff.2 hbefore
    exact .inr (DateRange.head?_select hutc hordered hpoints hprecedes hlater)

end Tables

namespace Market

variable {σ : Type} (m : Market σ)

/-- Whether a write is made before a day opens in UTC. -/
def Write.before (day : Date) (w : Write) : Bool := w.now.utcDate < day

theorem Write.before_iff {day : Date} {w : Write} : w.before day = true ↔ w.now.utcDate < day :=
  decide_eq_true_iff

/-- What is written when a day has opened is not dated before it, if the clock is never set back. -/
theorem notBefore_of_mem_dropWhile {day : Date} {writes : List Write} (hc : Chronological writes) :
    ∀ w ∈ writes.dropWhile (·.before day), Tables.NotBefore day w.now := by
  induction writes with
  | nil => exact fun w hw => nomatch hw
  | cons first writes ih =>
    obtain ⟨hfirst, hrest⟩ := List.pairwise_cons.1 hc
    by_cases hb : first.before day = true
    · rw [List.dropWhile_cons_of_pos hb]
      exact ih hrest
    · rw [List.dropWhile_cons_of_neg hb]
      have hnot : Tables.NotBefore day first.now := fun hlt => hb (Write.before_iff.2 hlt)
      intro w hw
      rcases List.mem_cons.1 hw with rfl | hw
      · exact hnot
      · have hle := Timestamp.utcDate_le (hfirst w.now (List.mem_map_of_mem hw))
        exact fun hlt => hnot (Int.lt_of_le_of_lt hle hlt)

/-- The tables just before a day opens in UTC. -/
def opening (day : Date) (writes : List Write) (s : MarketState σ) : MarketState σ :=
  m.run (writes.takeWhile (·.before day)) s

theorem run_dropWhile (day : Date) (writes : List Write) (s : MarketState σ) :
    m.run (writes.dropWhile (·.before day)) (m.opening day writes s) = m.run writes s := by
  rw [opening, ← run_append, List.takeWhile_append_dropWhile]

/-- All rows are dated before the day that is going to open. -/
theorem stamped_opening {day : Date} {writes : List Write} {s : MarketState σ}
    (hs : s.store.tables = Tables.empty) :
    (m.opening day writes s).store.tables.Stamped fun time => time.utcDate < day := by
  have hutc {time : Timestamp} (h : time.utcDate < day) : time.utc.utcDate < day := by
    rwa [Timestamp.utcDate_utc]
  have hbefore : ∀ w ∈ writes.takeWhile (·.before day), w.now.utcDate < day :=
    fun w hw => Write.before_iff.1 (List.mem_takeWhile_imp hw)
  exact m.run_keeps_of (fun hw h ht => h.turns hutc hw ht) hbefore (hs ▸ Tables.stamped_empty _)

/-- An archived value was left by a revision of the log. -/
theorem exists_archives {revisions : List CommittedRevision} {rows : List ArchivedPrice}
    (h : List.Forall₂ CommittedRevision.Archives revisions rows) {a : ArchivedPrice}
    (ha : a ∈ rows) : ∃ r ∈ revisions, r.Archives a := by
  induction h with
  | nil => cases ha
  | cons hra _ ih =>
    rcases List.mem_cons.1 ha with rfl | ha
    · exact ⟨_, List.mem_cons_self, hra⟩
    · obtain ⟨r, hr, hra⟩ := ih ha
      exact ⟨r, List.mem_cons_of_mem _ hr, hra⟩

/-- Nothing was archived for a pair if no revision of its prices has been committed. -/
theorem filter_archived_eq_nil {writes : List Write} {s : MarketState σ}
    (hs : s.store.tables = Tables.empty) {pair : Pair}
    (hr : ∀ r ∈ m.revisions writes s, r.concerns (m.run writes s).store.tables pair = false) :
    ((m.run writes s).store.tables.archived.filter fun a => a.pair = pair) = [] := by
  have ho := m.orderly_run writes (hs ▸ Tables.orderly_empty)
  obtain ⟨rows, hrows, harchives⟩ := m.archives_run writes s
  have hempty : s.store.tables.archived = [] := congrArg Tables.archived hs
  rw [hrows, hempty, List.nil_append, List.filter_eq_nil_iff]
  intro a ha
  obtain ⟨r, hrev, hra⟩ := exists_archives harchives ha
  rw [← hra.concerns_iff (m.extends_of_mem_revisions hrev) ho, hr r hrev]
  exact Bool.false_ne_true

/-- What a sheet of a range looks like that opens with what was in effect. -/
structure ShowsOpening (m : Market σ) (writes : List Write) (s : MarketState σ) (pair : Pair)
    (range : DateRange) (book : Workbook) : Prop where
  /-- The price that was live when the range opened comes first, unless it was deleted later on
  before it was revised. -/
  live : ∀ p ∈ (m.opening range.first writes s).store.tables.prices, p.isLive = true →
    p.pair = pair →
    m.deletedUnrevised p.id (writes.dropWhile (·.before range.first))
      (m.opening range.first writes s) = false → OpensWith book p
  /-- If no price was live, and none had been revised, no row is dated before the range. -/
  none : (∀ p ∈ (m.opening range.first writes s).store.tables.prices, p.isLive = true →
      p.pair ≠ pair) →
    (∀ r ∈ m.revisions (writes.takeWhile (·.before range.first)) s,
      r.concerns (m.opening range.first writes s).store.tables pair = false) →
    ∃ shown : List PriceSnapshot,
      book.rows.tail = Workbook.numbered 1 (shown.map Workbook.snapshotCells) ∧
        ∀ x ∈ shown, ¬x.date < range.first

/-- **What the sheet of a range starts with**, after any writes from nothing whose clock was never
set back. -/
theorem opening_price_shown {writes : List Write} (hc : Chronological writes)
    (s : MarketState σ) (hs : s.store.tables = Tables.empty) (pair : Pair) (range : DateRange)
    {w w' : ReportWorker} {now : Timestamp} {name : String}
    (hw : w.store.tables = (m.run writes s).store.tables)
    (rendered : ReportWorker.process (ReportRequest.jobBytes ⟨.priceHistory pair, range⟩) now w =
      (.ok name, w')) :
    ∃ book, w'.reports.load name = .ok (.workbook book) ∧
      m.ShowsOpening writes s pair range book := by
  obtain ⟨book, hbook, -, hload⟩ := ReportWorker.process_ok rendered
  refine ⟨book, hload, ?_⟩
  have heval := Work.eval_of_run_ok hbook
  rw [ReportRequest.eval_book, hw] at heval
  have hrows := Workbook.ofSnapshots_ok (Except.ok.inj (congrArg Prod.fst heval))
  have hempty : s.store.tables.Orderly := hs ▸ Tables.orderly_empty
  have hopening : (m.opening range.first writes s).store.tables.Orderly := m.orderly_run _ hempty
  have ho := m.orderly_run writes hempty
  have hlater : ∀ w ∈ writes.dropWhile (·.before range.first), Tables.NotBefore range.first w.now :=
    notBefore_of_mem_dropWhile hc
  constructor
  · rintro p hp hl rfl hd
    have hretained := m.retained_run (P := Tables.NotBefore range.first) Tables.notBefore_utc
      hlater hopening hp hl hd
    rw [run_dropWhile] at hretained
    have hbefore := (m.stamped_opening hs).prices p hp
    unfold OpensWith
    rw [hrows, Workbook.head?_numbered, List.head?_map]
    rcases Tables.head?_select_history ho (m.ascending_run hc hs) hretained hl hbefore with hx | hx
    · exact .inl (by rw [hx]; rfl)
    · exact .inr (by rw [hx]; rfl)
  · intro hnone hrevisions
    have hsince : (m.opening range.first writes s).store.tables.Since
        (Tables.NotBefore range.first) pair
        (m.opening range.first writes s).store.tables.archived :=
      Tables.since_now fun p hp hl hpair => absurd hpair (hnone p hp hl)
    have hend := m.run_keeps_of
      (fun hw h ht => h.turns Tables.notBefore_utc hw ht) hlater hsince
    rw [run_dropWhile] at hend
    obtain ⟨later, hpoints, hdated⟩ := hend.history ho
    have hnothing := m.filter_archived_eq_nil hs hrevisions
    rw [opening, hnothing, List.map_nil, List.nil_append] at hpoints
    refine ⟨_, hrows, fun x hx => ?_⟩
    rw [hpoints] at hx
    exact DateRange.precedes_eq_false_iff.1 (DateRange.not_precedes_select hdated x hx)

/-! ### Histories -/

namespace Sample

/-- January has days. -/
instance : NeZero 31 := ⟨by decide⟩

/-- A day of January 2024, counted from zero. -/
def january (day : Fin 31) : Date :=
  ⟨2024, 1, day + 1, by
    have hday := day.2
    exact ⟨by decide, by decide, by decide, by decide, by omega, (by omega : day.1 + 1 ≤ 31)⟩⟩

/-- Noon of a day of January. -/
def noonOf (day : Fin 31) : Timestamp :=
  .ofUtc (january day) 720 0 0 Timestamp.noon_lt_day Timestamp.first_second_le
    Timestamp.no_nanos_lt

/-- A price is revised on a day of the range. -/
def raised : List Write :=
  [.createPrice ⟨pair, amount 105⟩ ⟨1⟩ (noonOf 1), .revisePrice ⟨1⟩ (amount 123) (noonOf 9)]

/-- The price before the range opens. -/
def offeredEarly : Price := ⟨⟨1⟩, pair, amount 105, noonOf 1, noonOf 1, none⟩

/-- A price is revised before the range opens, and deleted in the range. -/
def withdrawn : List Write :=
  [.createPrice ⟨pair, amount 105⟩ ⟨1⟩ (noonOf 1),
   .revisePrice ⟨1⟩ (amount 123) (noonOf 2),
   .deletePrice ⟨1⟩ (noonOf 3)]

/-- The price that is deleted. -/
def revisedEarly : Price := ⟨⟨1⟩, pair, amount 123, noonOf 1, noonOf 2, none⟩

/-- The job of a range of January. -/
def job (first last : Fin 31) : Bytes :=
  ReportRequest.jobBytes ⟨.priceHistory pair, january first, january last⟩

/-- A worker after some writes. -/
def worker (writes : List Write) : ReportWorker := ⟨(market.run writes blank).store, .missing⟩

/-- What a worker makes of the points that are shown. -/
theorem processed {writes : List Write} {first last : Fin 31} {shown : List PriceSnapshot}
    {book : Workbook}
    (hshown : DateRange.select ⟨january first, january last⟩
      ((market.run writes blank).store.tables.history pair).snapshots = shown)
    (hbook : Workbook.ofSnapshots shown = .ok book) :
    ∃ name w', ReportWorker.process (job first last) (noonOf 19) (worker writes) = (.ok name, w') ∧
      w'.reports.load name = .ok (.workbook book) := by
  have hrefuses : (worker writes).store.RefusesNothing :=
    market.refusesNothing_run writes (s := blank) fun _ _ => rfl
  have hrun := congrArg Prod.fst (Work.run_of_refusesNothing
    (ReportRequest.book ⟨.priceHistory pair, january first, january last⟩) hrefuses)
  rw [ReportRequest.eval_book] at hrun
  have hbuilt := hrun.trans (congrArg Except.ok ((congrArg _ hshown).trans hbook))
  obtain ⟨w', hprocess, hload⟩ :=
    ReportWorker.process_of_noFolder hbuilt rfl (fun _ => List.not_mem_nil)
  exact ⟨_, w', hprocess, hload⟩

/-- The sheet that a worker makes of a range shows one point only. -/
def ShowsOnly (writes : List Write) (first last : Fin 31) (x : PriceSnapshot) : Prop :=
  ∃ name w' book,
    ReportWorker.process (job first last) (noonOf 19) (worker writes) = (.ok name, w') ∧
      w'.reports.load name = .ok (.workbook book) ∧
        book.rows.tail = Workbook.numbered 1 [Workbook.snapshotCells x]

end Sample

open Sample in
/-- The value that was in effect when the range opened was archived in the range, and comes
first. -/
theorem opening_price_shown_sample :
    Chronological raised ∧ ∃ name w' book,
      ReportWorker.process (job 3 11) (noonOf 19) (worker raised) = (.ok name, w') ∧
        w'.reports.load name = .ok (.workbook book) ∧ OpensWith book offeredEarly := by
  have hclock : Chronological raised := by
    unfold Chronological
    decide +kernel
  have hlive : offeredEarly ∈ (market.opening (january 3) raised blank).store.tables.prices := by
    decide +kernel
  have hkept : market.deletedUnrevised offeredEarly.id (raised.dropWhile (·.before (january 3)))
      (market.opening (january 3) raised blank) = false := by decide +kernel
  have hshown : DateRange.select ⟨january 3, january 11⟩
      ((market.run raised blank).store.tables.history pair).snapshots = [offeredEarly.superseded,
        ⟨⟨1⟩, pair, amount 123, noonOf 1, noonOf 9, true⟩] := by decide +kernel
  obtain ⟨name, w', hprocess, -⟩ := processed hshown rfl
  obtain ⟨book, hload, hopens⟩ := market.opening_price_shown hclock blank rfl pair
    ⟨january 3, january 11⟩ rfl hprocess
  exact ⟨hclock, name, w', book, hprocess, hload, hopens.live offeredEarly hlive rfl rfl hkept⟩

open Sample in
/-- A price that was live when a range opened, and was deleted in the range, is missing from the
sheet, which starts with the value before. So does the sheet of a range that opened when the price
was gone. -/
theorem opening_price_deleted :
    Chronological withdrawn ∧
      (revisedEarly ∈ (market.opening (january 3) withdrawn blank).store.tables.prices ∧
        revisedEarly.isLive = true ∧ ShowsOnly withdrawn 3 11 offeredEarly.superseded ∧
        offeredEarly.superseded.value ≠ revisedEarly.value) ∧
      (∀ p ∈ (market.opening (january 9) withdrawn blank).store.tables.prices, p.isLive = false) ∧
        ShowsOnly withdrawn 9 11 offeredEarly.superseded ∧
        offeredEarly.superseded.date < january 9 := by
  have hclock : Chronological withdrawn := by
    unfold Chronological
    decide +kernel
  have hfirst : DateRange.select ⟨january 3, january 11⟩
      ((market.run withdrawn blank).store.tables.history pair).snapshots =
        [offeredEarly.superseded] := by decide +kernel
  have hsecond : DateRange.select ⟨january 9, january 11⟩
      ((market.run withdrawn blank).store.tables.history pair).snapshots =
        [offeredEarly.superseded] := by decide +kernel
  obtain ⟨name, w', hprocess, hload⟩ := processed hfirst rfl
  obtain ⟨name', w'', hprocess', hload'⟩ := processed hsecond rfl
  exact ⟨hclock, ⟨by decide +kernel, rfl, ⟨name, w', _, hprocess, hload, rfl⟩, by decide +kernel⟩,
    by decide +kernel, ⟨name', w'', _, hprocess', hload', rfl⟩, by decide +kernel⟩

end Market

end CropLedger
