import Mathlib.Data.List.Forall2
import CropLedger.Proofs.Calendar.Utc
import CropLedger.Proofs.Market.Answers
import CropLedger.Proofs.Market.Orderly

/-!
# The archive is the log of committed revisions

A history of writes has a log: its committed revisions, in order, each with the tables that it
found. The archived values that the history leaves behind, in the order of their numbers, answer to
the log one by one, so the points of a pair's history are the revisions of the prices that ever
stood for the pair, and then its live price.

* `Market.revisions`: the log of a history;
* `CommittedRevision.Archives`, `CommittedRevision.Records`: what a revision leaves in the archive;
* `Market.archives_run`, `Market.records_run`: the archive of a history records its log;
* `Market.archive_is_revision_log`: the same of a history that starts from nothing, with what
  clients see of it.
-/

namespace CropLedger

/-! ### Values that the store keeps -/

namespace Market.Write

/-- The value that a write hands to the store. -/
def value? : Write → Option Decimal
  | createPrice new _ _ => some new.value
  | revisePrice _ value _ => some value
  | _ => none

/-- Whether the store gives back the value that a write hands to it. -/
def KeepsValue (w : Write) : Prop := ∀ value, w.value? = some value → value.stored = value

instance (w : Write) : Decidable w.KeepsValue :=
  decidable_of_iff (w.value?.all fun value => value.stored = value)
    (by simp [KeepsValue, Option.all_eq_true])

end Market.Write

namespace Tables

/-- All values of prices are ones that the store gives back. -/
def Settled (t : Tables) : Prop := ∀ p ∈ t.prices, p.value.stored = p.value

theorem settled_empty : Tables.empty.Settled := by simp [Settled, Tables.empty]

theorem Settled.setPrice {t : Tables} (h : t.Settled) (id : Uuid) {change : Price → Price}
    (hc : ∀ p ∈ t.prices, (change p).value.stored = (change p).value) :
    (t.setPrice id change).Settled := by
  intro q hq
  obtain ⟨p, hp, rfl⟩ := mem_setPrice.1 hq
  split
  · exact hc p hp
  · exact h p hp

theorem Settled.turns {t t' : Tables} {w : Market.Write} (h : t.Settled) (hw : w.KeepsValue)
    (ht : w.Turns t t') : t'.Settled := by
  cases ht with
  | @createPrice new id now accepted free fresh =>
    intro p hp
    rcases List.mem_append.1 hp with hp | hp
    · exact h p hp
    · obtain rfl := List.mem_singleton.1 hp
      show new.value.stored.stored = new.value.stored
      rw [hw _ rfl, hw _ rfl]
  | @revisePrice id value now old accepted found unused =>
    refine Settled.setPrice (t := t.archiving old.fetched now) h id fun p _ => ?_
    show value.stored.stored = value.stored
    rw [hw _ rfl, hw _ rfl]
  | deletePrice found => exact h.setPrice _ h
  | restorePrice found free => exact h.setPrice _ h
  | createHarvest fresh => exact h
  | deleteHarvest found => exact h

end Tables

/-- The history of a pair at one instant, as it is read. -/
def Tables.history (t : Tables) (pair : Pair) : PriceHistory :=
  ⟨(t.archivedOf pair).map ArchivedPrice.fetched, (t.livePriceOf? pair).map Price.fetched⟩

/-- The point that a price leaves behind when its value is revised: the value is what the store
makes of it when it is archived. -/
def Price.superseded (p : Price) : PriceSnapshot :=
  { p.fetched.snapshot with value := p.value.stored, current := false }

theorem Price.snapshot_archivedAs (p : Price) (number : Int) (now : Timestamp) :
    (p.fetched.archivedAs number now).kept.fetched.snapshot = p.superseded := by
  simp only [ArchivedPrice.snapshot, ArchivedPrice.fetched, ArchivedPrice.kept, archivedAs, fetched,
    superseded, snapshot, Timestamp.utc_utc]

/-! ### The log -/

/-- A committed revision: the tables that it found, the price, and its reading of the clock. -/
structure CommittedRevision where
  before : Tables
  id : Uuid
  now : Timestamp

namespace CommittedRevision

/-- The price as it stood just before. -/
def price? (r : CommittedRevision) : Option Price := r.before.livePrice? r.id

/-- An archived value that a revision has left: the price as it stood just before, as the store
keeps it, with the revision's own reading of the clock. -/
def Archives (r : CommittedRevision) (a : ArchivedPrice) : Prop :=
  ∃ p, r.price? = some p ∧ a = (p.fetched.archivedAs a.number r.now).kept

/-- **An archived value that answers to a revision**: it carries the price as it stood just before,
and the revision's own reading of the clock. -/
def Records (r : CommittedRevision) (a : ArchivedPrice) : Prop :=
  ∃ p, r.price? = some p ∧ a.fetched = (p.archivedAs a.number r.now).fetched

/-- The point of a history that a revision leaves behind. -/
def IsPoint (r : CommittedRevision) (x : PriceSnapshot) : Prop :=
  ∃ p, r.price? = some p ∧ x = { p.fetched.snapshot with current := false }

/-- Whether the revised price stands for a pair in some tables, live or deleted. -/
def concerns (t : Tables) (pair : Pair) (r : CommittedRevision) : Bool :=
  (t.price? r.id).any fun p => p.pair = pair

theorem Archives.records {r : CommittedRevision} {a : ArchivedPrice} (h : r.Archives a)
    (hs : r.before.Settled) : r.Records a := by
  obtain ⟨p, hp, ha⟩ := h
  refine ⟨p, hp, ?_⟩
  have hv : p.value.stored = p.value := hs p (Tables.mem_of_livePrice? hp).1
  rw [ha]
  simp [ArchivedPrice.kept, ArchivedPrice.fetched, Price.archivedAs, Price.fetched, hv]

theorem Records.isPoint {r : CommittedRevision} {a : ArchivedPrice} (h : r.Records a) :
    r.IsPoint a.fetched.snapshot := by
  obtain ⟨p, hp, ha⟩ := h
  refine ⟨p, hp, ?_⟩
  rw [ha]
  rfl

theorem concerns_of_price? {r : CommittedRevision} {p : Price} {t : Tables}
    (hp : r.price? = some p) (he : r.before.Extends t) (ho : t.Orderly) (pair : Pair) :
    r.concerns t pair = decide (p.pair = pair) := by
  obtain ⟨hm, hid, -⟩ := Tables.mem_of_livePrice? hp
  obtain ⟨q, hq, hpair⟩ := he.price? ho hm
  simp only [concerns, ← hid, hq, Option.any_some, hpair]

theorem Archives.concerns_iff {r : CommittedRevision} {a : ArchivedPrice} {t : Tables}
    (h : r.Archives a) (he : r.before.Extends t) (ho : t.Orderly) (pair : Pair) :
    r.concerns t pair = decide (a.pair = pair) := by
  obtain ⟨p, hp, ha⟩ := h
  have hap : a.pair = p.pair := congrArg ArchivedPrice.pair ha
  rw [concerns_of_price? hp he ho, hap]

theorem Records.concerns_iff {r : CommittedRevision} {a : ArchivedPrice} {t : Tables}
    (h : r.Records a) (he : r.before.Extends t) (ho : t.Orderly) (pair : Pair) :
    r.concerns t pair = decide (a.pair = pair) := by
  obtain ⟨p, hp, ha⟩ := h
  have hap : a.pair = p.pair := congrArg ArchivedPrice.pair ha
  rw [concerns_of_price? hp he ho, hap]

end CommittedRevision

namespace Market

variable {σ : Type} (m : Market σ)

/-- The revision behind a write, if it is one and has been committed. -/
def Write.revision? (w : Write) (s : MarketState σ) : Option CommittedRevision :=
  match w with
  | .revisePrice id _ now =>
    if committed (w.perform m s).1 then some ⟨s.store.tables, id, now⟩ else none
  | _ => none

/-- **The log of a history**: its committed revisions in order. -/
def revisions : List Write → MarketState σ → List CommittedRevision
  | [], _ => []
  | w :: writes, s => (w.revision? m s).toList ++ revisions writes (w.perform m s).2

/-! ### The archive records the log -/

/-- What one write adds to the archive is left by what it adds to the log. -/
theorem archives_perform (w : Write) (s : MarketState σ) :
    ∃ rows, (w.perform m s).2.store.tables.archived = s.store.tables.archived ++ rows ∧
      List.Forall₂ CommittedRevision.Archives (w.revision? m s).toList rows := by
  rcases hc : committed (w.perform m s).1 with _ | _
  · refine ⟨[], ?_, ?_⟩
    · rw [w.tables_of_not_committed m hc, List.append_nil]
    · have hn : w.revision? m s = none := by
        unfold Write.revision?
        split
        · rw [hc]
          rfl
        · rfl
      rw [hn]
      exact .nil
  · have hh := (w.committed_iff_happened m s).1 hc
    -- of the six ways to turn the tables only one adds to the archive
    have ht := hh.turns
    generalize (w.perform m s).2.store.tables = t' at ht
    cases ht with
    | @revisePrice id value now old accepted found unused =>
      refine ⟨[(old.fetched.archivedAs (s.store.tables.lastNumber + 1) now).kept], rfl, ?_⟩
      simp only [Write.revision?, hc, if_true, Option.toList]
      exact .cons ⟨old, found, rfl⟩ .nil
    | createPrice => exact ⟨[], (List.append_nil _).symm, .nil⟩
    | deletePrice => exact ⟨[], (List.append_nil _).symm, .nil⟩
    | restorePrice => exact ⟨[], (List.append_nil _).symm, .nil⟩
    | createHarvest => exact ⟨[], (List.append_nil _).symm, .nil⟩
    | deleteHarvest => exact ⟨[], (List.append_nil _).symm, .nil⟩

/-- **What a history adds to the archive is left by its log.** -/
theorem archives_run (writes : List Write) (s : MarketState σ) :
    ∃ rows, (m.run writes s).store.tables.archived = s.store.tables.archived ++ rows ∧
      List.Forall₂ CommittedRevision.Archives (m.revisions writes s) rows := by
  induction writes generalizing s with
  | nil => exact ⟨[], (List.append_nil _).symm, .nil⟩
  | cons w writes ih =>
    obtain ⟨first, hf, hrf⟩ := m.archives_perform w s
    obtain ⟨rest, hr, hrr⟩ := ih (w.perform m s).2
    refine ⟨first ++ rest, ?_, ?_⟩
    · rw [run_cons, hr, hf, List.append_assoc]
    · exact List.rel_append hrf hrr

/-- A revision found the tables of some moment of the history. -/
theorem exists_before_of_mem_revisions {writes : List Write} {s : MarketState σ}
    {r : CommittedRevision} (h : r ∈ m.revisions writes s) :
    ∃ earlier later, writes = earlier ++ later ∧ r.before = (m.run earlier s).store.tables := by
  induction writes generalizing s with
  | nil => cases h
  | cons w writes ih =>
    rcases List.mem_append.1 h with hr | hr
    · refine ⟨[], w :: writes, rfl, ?_⟩
      unfold Write.revision? at hr
      split at hr
      · split at hr
        · rw [List.mem_singleton.1 hr]
          rfl
        · cases hr
      · cases hr
    · obtain ⟨earlier, later, rfl, hb⟩ := ih hr
      exact ⟨w :: earlier, later, rfl, hb⟩

/-- The tables that a revision of the log found are earlier ones of the history. -/
theorem extends_of_mem_revisions {writes : List Write} {s : MarketState σ} {r : CommittedRevision}
    (h : r ∈ m.revisions writes s) : r.before.Extends (m.run writes s).store.tables := by
  obtain ⟨earlier, later, rfl, hb⟩ := m.exists_before_of_mem_revisions h
  rw [hb, run_append]
  exact m.extends_run later _

theorem settled_run {writes : List Write} (hw : ∀ w ∈ writes, w.KeepsValue) {s : MarketState σ}
    (h : s.store.tables.Settled) : (m.run writes s).store.tables.Settled :=
  m.run_keeps_of (fun hw h ht => h.turns hw ht) hw h

/-- **What a history adds to the archive records its log**, if the store gives back all values that
it is handed. -/
theorem records_run {writes : List Write} (hw : ∀ w ∈ writes, w.KeepsValue) {s : MarketState σ}
    (h : s.store.tables.Settled) :
    ∃ rows, (m.run writes s).store.tables.archived = s.store.tables.archived ++ rows ∧
      List.Forall₂ CommittedRevision.Records (m.revisions writes s) rows := by
  obtain ⟨rows, hrows, ha⟩ := m.archives_run writes s
  have hsettled : ∀ r ∈ m.revisions writes s, r.before.Settled := by
    intro r hr
    obtain ⟨earlier, later, rfl, hb⟩ := m.exists_before_of_mem_revisions hr
    rw [hb]
    exact m.settled_run (fun w hm => hw w (List.mem_append_left _ hm)) h
  refine ⟨rows, hrows, ?_⟩
  exact ((List.forall₂_and_left _ _).2 ⟨hsettled, ha⟩).imp fun r a hra => hra.2.records hra.1

/-! ### What clients see of the log -/

/-- The archived values of a pair answer to the revisions of its prices. -/
theorem points_of_records {t : Tables} (ho : t.Orderly) (pair : Pair)
    {revisions : List CommittedRevision} {rows : List ArchivedPrice}
    (h : List.Forall₂ CommittedRevision.Records revisions rows)
    (he : ∀ r ∈ revisions, r.before.Extends t) :
    List.Forall₂ CommittedRevision.IsPoint (revisions.filter (·.concerns t pair))
      ((rows.filter fun a => a.pair = pair).map fun a => a.fetched.snapshot) := by
  induction h with
  | nil => exact .nil
  | @cons r a revisions rows hra _ ih =>
    have ih := ih fun x hx => he x (List.mem_cons_of_mem _ hx)
    have hc := hra.concerns_iff (he r List.mem_cons_self) ho pair
    by_cases hp : a.pair = pair
    · simp only [List.filter_cons, hc, hp, decide_true, if_true, List.map_cons]
      exact .cons hra.isPoint ih
    · simp only [List.filter_cons, hc, hp, decide_false, Bool.false_eq_true, if_false]
      exact ih

/-- Work that reads a history and is not interrupted finds it as it is. -/
theorem eval_history (t : Tables) (pair : Pair) :
    (Prices.history pair).eval t = (.ok (t.history pair), t) :=
  Work.eval_statement_bind.2 ⟨_, t, rfl, Work.eval_statement_bind.2 ⟨_, t, rfl, rfl⟩⟩

/-- What the points of a pair that has a live price are evaluated to. -/
theorem eval_points {t : Tables} {pair : Pair} {p : Price} (h : t.livePriceOf? pair = some p) :
    (Prices.points pair).eval t =
      (.ok ((t.archivedOf pair).map (fun a => a.fetched.snapshot) ++ [p.fetched.snapshot]), t) := by
  refine Work.eval_bind_ok.2 ⟨_, t, eval_history t pair, ?_⟩
  simp only [Tables.history, h, Option.map_some]
  show (pure (PriceHistory.snapshots ⟨_, some p.fetched⟩) : Work _).eval t = _
  rw [Work.eval_pure]
  simp [PriceHistory.snapshots, List.map_map, Function.comp_def]

/-- **The archive is the log of committed revisions.** After any writes from nothing, whatever came
of each, the archived values in the order of their numbers record the committed revisions one by
one; what was archived earlier on stays as it was; and the history of a pair with a live price is
the points that the revisions of the pair's prices left behind, then the live price. -/
theorem archive_is_revision_log (writes : List Write) (s : MarketState σ)
    (hs : s.store.tables = Tables.empty) (hw : ∀ w ∈ writes, w.KeepsValue) :
    List.Forall₂ CommittedRevision.Records (m.revisions writes s)
        (m.run writes s).store.tables.archivedInOrder ∧
      (∀ earlier later, writes = earlier ++ later →
        (m.run earlier s).store.tables.archivedInOrder <+:
          (m.run writes s).store.tables.archivedInOrder) ∧
      ∀ (s' : MarketState σ) (p : Price), s'.store.tables = (m.run writes s).store.tables →
        s'.store.RefusesNothing → ((m.historyQuery p.pair).lookup m.cache s').1 = none →
        p ∈ s'.store.tables.prices → p.isLive = true →
        ∃ points, (m.history p.pair s').1 = .ok (points ++ [p.fetched.snapshot]) ∧
          List.Forall₂ CommittedRevision.IsPoint
            ((m.revisions writes s).filter (·.concerns s'.store.tables p.pair)) points := by
  have hempty : s.store.tables.Orderly := hs ▸ Tables.orderly_empty
  have horder (ws : List Write) := m.orderly_run ws hempty
  have hsettled : s.store.tables.Settled := hs ▸ Tables.settled_empty
  obtain ⟨rows, hrows, hrec⟩ := m.records_run hw hsettled
  have hlog : List.Forall₂ CommittedRevision.Records (m.revisions writes s)
      (m.run writes s).store.tables.archivedInOrder := by
    rw [(horder writes).archivedInOrder_eq, hrows, hs]
    exact hrec
  refine ⟨hlog, ?_, ?_⟩
  · rintro earlier later rfl
    rw [(horder earlier).archivedInOrder_eq, (horder _).archivedInOrder_eq, run_append]
    exact (m.extends_run later _).archived
  · intro s' p ht hr hl hp hlive
    have ho : s'.store.tables.Orderly := ht ▸ horder writes
    refine ⟨_, ?_, points_of_records ho p.pair hlog fun r hr => ht ▸ m.extends_of_mem_revisions hr⟩
    refine ((m.historyQuery p.pair).answer_of_lookup_none m.cache hl hr).trans ?_
    show ((Prices.points p.pair).eval s'.store.tables).1 = _
    rw [eval_points (ho.livePriceOf?_eq_some hp hlive), ← ht]
    rfl

/-! ### A history -/

namespace Sample

/-- A price is revised, once in vain, and deleted; another one takes its place. -/
def writes : List Write :=
  [.createPrice ⟨pair, amount 105⟩ ⟨1⟩ (time 1),
   .revisePrice ⟨1⟩ (amount 123) (time 2),
   .revisePrice ⟨1⟩ (amount 999) (time 3),
   .deletePrice ⟨1⟩ (time 4),
   .createPrice ⟨pair, amount 111⟩ ⟨2⟩ (time 5),
   .revisePrice ⟨2⟩ (amount 115) (time 6)]

/-- An empty store that refuses the second revision its new value, once the price has been
archived. -/
def opening : MarketState Memory := ⟨⟨.empty, 0, fun n _ => n = 13⟩, .empty 100⟩

/-- The same tables behind a cache that is empty. -/
def reopened : MarketState Memory :=
  ⟨⟨(market.run writes opening).store.tables, 0, fun _ _ => false⟩, .empty 100⟩

/-- The price that stands for the pair in the end. -/
def current : Price := ⟨⟨2⟩, pair, amount 115, time 5, time 6, none⟩

end Sample

open Sample in
/-- The points of the pair's two prices, one after the other, and then the live price. -/
theorem archive_is_revision_log_sample :
    (∀ w ∈ writes, w.KeepsValue) ∧
      (market.revisions writes opening).map (fun r => (r.id, r.now)) =
        [(⟨1⟩, time 2), (⟨2⟩, time 6)] ∧
      List.Forall₂ CommittedRevision.Records (market.revisions writes opening)
        (market.run writes opening).store.tables.archivedInOrder ∧
      ∃ points, (market.history pair reopened).1 = .ok (points ++ [current.fetched.snapshot]) ∧
        List.Forall₂ CommittedRevision.IsPoint
          ((market.revisions writes opening).filter (·.concerns reopened.store.tables pair))
            points := by
  have hkeeps : ∀ w ∈ writes, w.KeepsValue := by decide +kernel
  have hlive : current ∈ reopened.store.tables.prices := by decide +kernel
  obtain ⟨hlog, -, hpoints⟩ := market.archive_is_revision_log writes opening rfl hkeeps
  exact ⟨hkeeps, by decide +kernel, hlog,
    hpoints reopened current rfl (fun _ _ => rfl) rfl hlive rfl⟩

end Market

end CropLedger
