import CropLedger.Proofs.Market.RevisionLog
import CropLedger.Report.Worker

/-!
# Histories that are read while prices change

The history of a pair is read by two questions outside of any unit, first its archived values, then
its live price. Writes may be made before, between and after the two questions, each as a whole. So
what is read need not be the history of any one instant: the archived values are those of the first
question, the live price is that of the second, and what the revisions between the two have archived
is in neither.

* `Reading.run`: work under way among writes;
* `Market.history_spans_two_instants`: what is read of a history, and what is missed;
* `Market.torn_history`: a history that was read and never was.
-/

namespace CropLedger

/-- What work has come to, if it has succeeded. -/
def Work.result? {α : Type} : Work α → Option α
  | .done a => some a
  | _ => none

namespace Market

variable {σ α β : Type} (m : Market σ)

/-! ### Work among writes -/

/-- What happens next while work is under way. -/
inductive Moment
  | statement
  | write (w : Write)

/-- Work under way outside of a unit, and the market around it. -/
structure Reading (σ α : Type) where
  work : Work α
  state : MarketState σ

/-- The market after a statement has been asked outside of a unit. -/
def asking (q : Statement) (s : MarketState σ) : MarketState σ :=
  { s with store := (s.store.ask q).2 }

namespace Reading

/-- One moment: the work asks its next statement, if it has one, or a write is made as a whole. -/
def step (r : Reading σ α) : Moment → Reading σ α
  | .write w => ⟨r.work, (w.perform m r.state).2⟩
  | .statement =>
    match r.work with
    | .done a => ⟨.done a, r.state⟩
    | .fail fault => ⟨.fail fault, r.state⟩
    | .ask q next =>
      match (r.state.store.ask q).1 with
      | .ok answer => ⟨next answer, asking q r.state⟩
      | .error fault => ⟨.fail (Work.failed fault), asking q r.state⟩

/-- One moment after another. -/
def run (moments : List Moment) (r : Reading σ α) : Reading σ α := moments.foldl (step m) r

/-- The two questions of a history, with writes before, between and after them. -/
def schedule (before between after : List Write) : List Moment :=
  before.map .write ++ .statement :: (between.map .write ++ .statement :: after.map .write)

theorem run_append (earlier later : List Moment) (r : Reading σ α) :
    run m (earlier ++ later) r = run m later (run m earlier r) :=
  List.foldl_append ..

theorem run_writes (writes : List Write) (work : Work α) (s : MarketState σ) :
    run m (writes.map .write) ⟨work, s⟩ = ⟨work, m.run writes s⟩ := by
  induction writes generalizing s with
  | nil => rfl
  | cons w writes ih => exact ih (w.perform m s).2

/-- Work that has come to its end stays there. -/
theorem work_run_done (moments : List Moment) (a : α) (s : MarketState σ) :
    (run m moments ⟨.done a, s⟩).work = .done a := by
  induction moments generalizing s with
  | nil => rfl
  | cons moment moments ih => cases moment <;> exact ih _

theorem work_run_fail (moments : List Moment) (fault : ServiceFault) (s : MarketState σ) :
    (run m moments (⟨.fail fault, s⟩ : Reading σ α)).work = .fail fault := by
  induction moments generalizing s with
  | nil => rfl
  | cons moment moments ih => cases moment <;> exact ih _

/-- **Work that is left alone comes to what a run comes to.** -/
theorem exists_run_alone (work : Work α) (s : MarketState σ) :
    ∃ n, run m (List.replicate n .statement) ⟨work, s⟩ =
      ⟨match (work.run s.store).1 with
        | .ok a => .done a
        | .error fault => .fail fault,
      { s with store := (work.run s.store).2 }⟩ := by
  induction work generalizing s with
  | done a => exact ⟨0, rfl⟩
  | fail fault => exact ⟨0, rfl⟩
  | ask q next ih =>
    rcases hq : s.store.ask q with ⟨fault | answer, store⟩
    · refine ⟨1, ?_⟩
      show step m ⟨.ask q next, s⟩ .statement = _
      simp only [step, asking, Work.run, hq]
    · obtain ⟨n, hn⟩ := ih answer { s with store }
      refine ⟨n + 1, ?_⟩
      show run m (List.replicate n .statement) (step m ⟨.ask q next, s⟩ .statement) = _
      simp only [step, asking, Work.run, hq]
      exact hn

/-- What is made of the result of work does not change how the work goes, if it asks nothing
itself. -/
theorem run_bind (next : α → Work β) (hn : ∀ a, (∃ b, next a = .done b) ∨ ∃ f, next a = .fail f)
    (moments : List Moment) (work : Work α) (s : MarketState σ) :
    run m moments ⟨work.bind next, s⟩ =
      ⟨(run m moments ⟨work, s⟩).work.bind next, (run m moments ⟨work, s⟩).state⟩ := by
  induction moments generalizing work s with
  | nil => rfl
  | cons moment moments ih =>
    have hstep : step m ⟨work.bind next, s⟩ moment =
        ⟨(step m ⟨work, s⟩ moment).work.bind next, (step m ⟨work, s⟩ moment).state⟩ := by
      cases moment with
      | write w => rfl
      | statement =>
        cases work with
        | done a => rcases hn a with ⟨b, hb⟩ | ⟨f, hf⟩ <;> simp only [step, Work.bind, *]
        | fail fault => rfl
        | ask q rest =>
          simp only [Work.bind, step]
          cases (s.store.ask q).1 <;> rfl
    show run m moments (step m ⟨work.bind next, s⟩ moment) = _
    rw [hstep]
    exact ih _ _

/-- A question is answered from the tables as they are, or refused. -/
theorem step_question (q : Statement) (next : q.Answer → Work α) {s : MarketState σ}
    {answer : q.Answer} (h : q.perform s.store.tables = .ok (answer, s.store.tables)) :
    (step m ⟨.ask q next, s⟩ .statement = ⟨.fail Work.refusal, asking q s⟩ ∧
      ¬s.store.RefusesNothing) ∨
    step m ⟨.ask q next, s⟩ .statement = ⟨next answer, asking q s⟩ := by
  obtain ⟨hr, ha⟩ | ⟨answer', tables, hp, ha⟩ | ⟨fault, hp, ha⟩ := s.store.ask_cases q
  · refine .inl ⟨?_, fun hn => ?_⟩
    · simp only [step, ha]
      rfl
    · rw [hn] at hr
      cases hr
  · rw [h] at hp
    cases hp
    refine .inr ?_
    simp only [step, ha]
  · rw [h] at hp
    cases hp

end Reading

theorem tables_asking {q : Statement} (hq : q.isQuestion = true) (s : MarketState σ) :
    (asking q s).store.tables = s.store.tables := by
  obtain ⟨-, ha⟩ | ⟨answer, tables, hp, ha⟩ | ⟨fault, -, ha⟩ := s.store.ask_cases q
  · simp only [asking, ha]
  · simp only [asking, ha]
    exact Statement.perform_question hq hp
  · simp only [asking, ha]

theorem refuses_asking (q : Statement) (s : MarketState σ) :
    (asking q s).store.refuses = s.store.refuses :=
  Database.refuses_ask q s.store

/-! ### The two questions -/

/-- The archived values are answered as they are at the first question, the live price as it is at
the second one. -/
theorem work_run_history (pair : Pair) (before between after : List Write) (s : MarketState σ) :
    let first := asking (.archivedOf pair) (m.run before s)
    let second := m.run between first
    let reading := Reading.run m (Reading.schedule before between after) ⟨Prices.history pair, s⟩
    (reading.work = .fail Work.refusal ∧ ¬s.store.RefusesNothing) ∨
      reading.work = .done ⟨(first.store.tables.history pair).archived,
        (second.store.tables.history pair).current⟩ := by
  intro first second reading
  have hbefore : (m.run before s).store.RefusesNothing ↔ s.store.RefusesNothing := by
    rw [Database.RefusesNothing, m.refuses_run, Database.RefusesNothing]
  have hsecond : second.store.RefusesNothing ↔ s.store.RefusesNothing := by
    rw [Database.RefusesNothing, m.refuses_run, refuses_asking, m.refuses_run,
      Database.RefusesNothing]
  have htables : first.store.tables = (m.run before s).store.tables := tables_asking rfl _
  let rest (archived : List ArchivedPrice) : Work PriceHistory :=
    .ask (.livePriceOf pair) fun current => .done ⟨archived, current⟩
  have hreading : reading = Reading.run m (between.map .write ++ .statement :: after.map .write)
      (Reading.step m ⟨.ask (.archivedOf pair) rest, m.run before s⟩ .statement) := by
    show Reading.run m (Reading.schedule before between after) _ = _
    rw [Reading.schedule, Reading.run_append, Reading.run_writes]
    rfl
  rw [hreading]
  rcases Reading.step_question m (.archivedOf pair) rest (s := m.run before s) rfl with
    ⟨hstep, hr⟩ | hstep
  · rw [hstep]
    exact .inl ⟨Reading.work_run_fail .., fun hn => hr (hbefore.2 hn)⟩
  let last (current : Option Price) : Work PriceHistory :=
    .done ⟨((m.run before s).store.tables.history pair).archived, current⟩
  have hlast : Reading.run m (between.map .write ++ .statement :: after.map .write)
      ⟨.ask (.livePriceOf pair) last, first⟩ = Reading.run m (after.map .write)
        (Reading.step m ⟨.ask (.livePriceOf pair) last, second⟩ .statement) := by
    rw [Reading.run_append, Reading.run_writes]
    rfl
  rw [hstep, htables]
  show (Reading.run m _ ⟨.ask (.livePriceOf pair) last, first⟩).work = _ ∧ _ ∨
    (Reading.run m _ ⟨.ask (.livePriceOf pair) last, first⟩).work = _
  rw [hlast]
  rcases Reading.step_question m (.livePriceOf pair) last (s := second) rfl with
    ⟨hstep, hr⟩ | hstep
  · rw [hstep]
    exact .inl ⟨Reading.work_run_fail .., fun hn => hr (hsecond.2 hn)⟩
  · rw [hstep]
    exact .inr (Reading.work_run_done ..)

/-! ### What is missed -/

/-- **What the revisions among some writes leave in the history of a pair**: one value each, at its
end, in order. -/
theorem history_run (pair : Pair) (writes : List Write) {s : MarketState σ}
    (hs : s.store.tables.Orderly) :
    ∃ left, ((m.run writes s).store.tables.history pair).archived =
        (s.store.tables.history pair).archived ++ left ∧
      left.map ArchivedPrice.price =
        ((m.revisions writes s).filter (·.concerns (m.run writes s).store.tables pair)).map
          CommittedRevision.id := by
  have ho := m.orderly_run writes hs
  obtain ⟨rows, hrows, hleft⟩ := m.archives_run writes s
  have hextends (r : CommittedRevision) (hr : r ∈ m.revisions writes s) :
      r.before.Extends (m.run writes s).store.tables := m.extends_of_mem_revisions hr
  generalize (m.run writes s).store.tables = t at ho hrows hextends
  generalize m.revisions writes s = revisions at hleft hextends
  refine ⟨(rows.filter fun a => a.pair = pair).map ArchivedPrice.fetched, ?_, ?_⟩
  · simp only [Tables.history, Tables.archivedOf, ho.archivedInOrder_eq, hs.archivedInOrder_eq,
      hrows, List.filter_append, List.map_append]
  · -- a revision and the row that it has archived concern the pair both, or neither
    clear hrows
    induction hleft with
    | nil => rfl
    | @cons r a revisions rows hra _ ih =>
      have ih := ih fun x hx => hextends x (List.mem_cons_of_mem _ hx)
      have hc := hra.concerns_iff (hextends r List.mem_cons_self) ho pair
      have hid : a.price = r.id := by
        obtain ⟨p, hp, ha⟩ := hra
        rw [ha]
        exact (Tables.mem_of_livePrice? hp).2.1
      by_cases hp : a.pair = pair
      · simp only [List.filter_cons, hc, hp, decide_true, if_true, List.map_cons]
        rw [ih]
        exact congrArg (· :: _) hid
      · simp only [List.filter_cons, hc, hp, decide_false, Bool.false_eq_true, if_false]
        exact ih

/-! ### What is read -/

/-- **A history that is read spans two instants.** Unless a statement is refused, the archived
values are those of the first question and the live price is that of the second one; what is missed
of the history at the second instant are the values that the revisions in between have archived, one
each and in order. So the history is that of the second instant if there is no such revision. The
same history stands behind the points that clients are given and behind the workbook of a report. -/
theorem history_spans_two_instants (pair : Pair) (before between after : List Write)
    {s : MarketState σ} (hs : s.store.tables.Orderly) :
    let first := asking (.archivedOf pair) (m.run before s)
    let second := m.run between first
    let log := (m.revisions between first).filter (·.concerns second.store.tables pair)
    let reading := Reading.run m (Reading.schedule before between after) ⟨Prices.history pair, s⟩
    (reading.work = .fail Work.refusal ∧ ¬s.store.RefusesNothing) ∨
      ∃ h missed, reading.work = .done h ∧
        h.archived = (first.store.tables.history pair).archived ∧
        h.current = (second.store.tables.history pair).current ∧
        (second.store.tables.history pair).archived = h.archived ++ missed ∧
        missed.map ArchivedPrice.price = log.map CommittedRevision.id ∧
        (log = [] → h = second.store.tables.history pair) ∧
        (Reading.run m (Reading.schedule before between after) ⟨Prices.points pair, s⟩).work =
          (if h.current.isNone then .fail (.notFound (Prices.pairLabel pair))
            else .done h.snapshots) ∧
        ∀ range, (Reading.run m (Reading.schedule before between after)
            ⟨ReportRequest.book ⟨.priceHistory pair, range⟩, s⟩).work =
          .done (Workbook.ofSnapshots (range.select h.snapshots)) := by
  intro first second log reading
  have hfirst : first.store.tables = (m.run before s).store.tables := tables_asking rfl _
  have hbegun : first.store.tables.Orderly := hfirst ▸ m.orderly_run before hs
  rcases m.work_run_history pair before between after s with hrefused | hread
  · exact .inl hrefused
  obtain ⟨missed, hmissed, hlog⟩ := m.history_run pair between hbegun
  refine .inr ⟨_, missed, hread, rfl, rfl, hmissed, hlog, ?_, ?_, ?_⟩
  · intro hnone
    have hnothing : missed = [] := List.map_eq_nil_iff.1 (hlog.trans (congrArg (List.map _) hnone))
    rw [hnothing, List.append_nil] at hmissed
    rw [← hmissed]
  · have hpoints := Reading.run_bind m (fun h : PriceHistory =>
        (if h.current.isNone then .fail (.notFound (Prices.pairLabel pair)) else .done h.snapshots :
          Work (List PriceSnapshot)))
      (by intro h; split; exacts [.inr ⟨_, rfl⟩, .inl ⟨_, rfl⟩])
      (Reading.schedule before between after) (Prices.history pair) s
    show (Reading.run m _ ⟨(Prices.history pair).bind _, s⟩).work = _
    exact (congrArg Reading.work hpoints).trans (by rw [hread]; rfl)
  · intro range
    have hbook := Reading.run_bind m
      (fun h : PriceHistory => .done (Workbook.ofSnapshots (range.select h.snapshots)))
      (fun h => .inl ⟨_, rfl⟩) (Reading.schedule before between after) (Prices.history pair) s
    exact (congrArg Reading.work hbook).trans (by rw [hread]; rfl)

/-! ### A history that never was -/

namespace Sample

/-- A price is offered; once the archived values of its pair have been read, it is revised. -/
def overtaken : List Moment :=
  Reading.schedule [offer] [.revisePrice offered.id (amount 123) (time 2)] []

end Sample

open Sample in
/-- The revised price is read, and the value before it is missed. -/
theorem history_spans_two_instants_sample :
    blank.store.tables.Orderly ∧
      ∃ (h : PriceHistory) (missed : List ArchivedPrice),
        (Reading.run market overtaken ⟨Prices.history pair, blank⟩).work = .done h ∧
        h.archived = [] ∧ h.current.map Price.value = some (amount 123) ∧
        missed.map ArchivedPrice.price = [offered.id] := by
  refine ⟨Tables.orderly_empty, ?_⟩
  obtain ⟨-, hr⟩ | ⟨h, missed, hread, harchived, hcurrent, -, hmissed, -⟩ :=
    market.history_spans_two_instants pair [offer]
      [.revisePrice offered.id (amount 123) (time 2)] [] Tables.orderly_empty (s := blank)
  · exact absurd (fun _ _ => rfl) hr
  · refine ⟨h, missed, hread, ?_, ?_, ?_⟩
    · rw [harchived]
      decide +kernel
    · rw [hcurrent]
      decide +kernel
    · rw [hmissed]
      decide +kernel

open Sample in
/-- **A torn history**: what was read is the pair's history at no instant of the reading. -/
theorem torn_history :
    (Reading.run market overtaken ⟨Prices.history pair, blank⟩).work.result?.isSome = true ∧
      ∀ earlier, earlier <+: overtaken →
        (Reading.run market overtaken ⟨Prices.history pair, blank⟩).work.result? ≠
          some ((Reading.run market earlier ⟨Prices.history pair, blank⟩).state.store.tables.history
            pair) := by
  refine ⟨by decide +kernel, fun earlier he => ?_⟩
  have hall : ∀ n < 5, (Reading.run market overtaken ⟨Prices.history pair, blank⟩).work.result? ≠
      some ((Reading.run market (overtaken.take n)
        ⟨Prices.history pair, blank⟩).state.store.tables.history pair) := by
    decide +kernel
  rw [List.prefix_iff_eq_take.1 he]
  exact hall _ (Nat.lt_succ_of_le he.length_le)

end Market

end CropLedger
