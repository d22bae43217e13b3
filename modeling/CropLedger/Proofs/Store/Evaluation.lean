import CropLedger.Store.Work

/-!
# What work comes to

Work is evaluated on tables alone, as if no statement were refused. A run on a database comes to
the same, unless a statement is refused on the way.

* `Work.eval`: what work comes to on tables;
* `Work.run_eq_eval`: a run comes to the same, or ends in a refusal;
* `Work.atomically_cases`: a unit that succeeds leaves the evaluated tables behind, one that fails
  leaves the tables as they were;
* `Work.Asks`, `Work.ChangesLast`: work whose statements are of a kind, and work that changes
  nothing before its last statement.
-/

namespace CropLedger

/-! ### Asking -/

namespace Database

/-- The three ways in which a statement can come out. -/
theorem ask_cases (s : Statement) (db : Database) :
    (db.refuses db.asked s = true ∧
      db.ask s = (.error .refused, { db with asked := db.asked + 1 })) ∨
    (∃ answer tables, s.perform db.tables = .ok (answer, tables) ∧
      db.ask s = (.ok answer, { db with tables, asked := db.asked + 1 })) ∨
    (∃ fault, s.perform db.tables = .error fault ∧
      db.ask s = (.error fault, { db with asked := db.asked + 1 })) := by
  unfold ask
  by_cases hr : db.refuses db.asked s = true
  · exact .inl ⟨hr, if_pos hr⟩
  · rw [if_neg hr]
    cases hp : s.perform db.tables with
    | ok outcome => exact .inr (.inl ⟨outcome.1, outcome.2, rfl, rfl⟩)
    | error fault => exact .inr (.inr ⟨fault, rfl, rfl⟩)

/-- A database that refuses no statement. -/
def RefusesNothing (db : Database) : Prop := ∀ n s, db.refuses n s = false

/-- What is refused is not changed by asking. -/
theorem refuses_ask (s : Statement) (db : Database) : (db.ask s).2.refuses = db.refuses := by
  obtain ⟨-, h⟩ | ⟨_, _, -, h⟩ | ⟨_, -, h⟩ := db.ask_cases s <;> rw [h]

end Database

namespace Work

variable {α β : Type}

/-! ### Evaluation -/

/-- What work comes to on tables when no statement is refused. -/
def eval : Work α → Tables → Except ServiceFault α × Tables
  | .done a, t => (.ok a, t)
  | .fail fault, t => (.error fault, t)
  | .ask s next, t =>
    match s.perform t with
    | .ok (answer, t) => (next answer).eval t
    | .error fault => (.error (failed fault), t)

/-- The fault of an operation one of whose statements was refused. -/
def refusal : ServiceFault := failed .refused

theorem eval_statement (s : Statement) (t : Tables) {a : s.Answer} {t' : Tables} :
    (statement s).eval t = (.ok a, t') ↔ s.perform t = .ok (a, t') := by
  unfold statement
  simp only [eval]
  cases s.perform t with
  | ok outcome => obtain ⟨a, t⟩ := outcome; simp
  | error fault => simp

theorem eval_orFail {fault : ServiceFault} {o : Option α} {t t' : Tables} {a : α} :
    (orFail fault o).eval t = (.ok a, t') ↔ o = some a ∧ t' = t := by
  cases o with
  | none => simp [orFail, eval]
  | some b => simp [orFail, eval, eq_comm]

theorem eval_pure {a b : α} {t t' : Tables} :
    (pure a : Work α).eval t = (.ok b, t') ↔ b = a ∧ t' = t := by
  show ((Except.ok a : Except ServiceFault α), t) = _ ↔ _
  simp [eq_comm]

/-- Work that goes on with the result of other work. -/
theorem eval_bind (work : Work α) (next : α → Work β) (t : Tables) :
    (work >>= next).eval t =
      match work.eval t with
      | (.ok a, t) => (next a).eval t
      | (.error fault, t) => (.error fault, t) := by
  show (work.bind next).eval t = _
  induction work generalizing t with
  | done a => rfl
  | fail fault => rfl
  | ask s rest ih =>
    simp only [bind, eval]
    cases s.perform t with
    | ok outcome => exact ih outcome.1 outcome.2
    | error fault => rfl

theorem eval_bind_ok {work : Work α} {next : α → Work β} {t t'' : Tables} {b : β} :
    (work >>= next).eval t = (.ok b, t'') ↔
      ∃ a t', work.eval t = (.ok a, t') ∧ (next a).eval t' = (.ok b, t'') := by
  rw [eval_bind]
  constructor
  · intro h
    split at h
    · rename_i a t' hw
      exact ⟨a, t', hw, h⟩
    · cases h
  · rintro ⟨a, t', hw, h⟩
    rw [hw]
    exact h

theorem eval_statement_bind {s : Statement} {next : s.Answer → Work β} {t t'' : Tables} {b : β} :
    (statement s >>= next).eval t = (.ok b, t'') ↔
      ∃ a t', s.perform t = .ok (a, t') ∧ (next a).eval t' = (.ok b, t'') := by
  rw [eval_bind_ok]
  simp only [eval_statement]

/-! ### Runs -/

/-- **A run comes to what the work is evaluated to, or ends in a refusal**, and then some statement
is refused. -/
theorem run_eq_eval (work : Work α) (db : Database) :
    ((work.run db).1, (work.run db).2.tables) = work.eval db.tables ∨
      ((work.run db).1 = .error refusal ∧ ∃ n s, db.refuses n s = true) := by
  induction work generalizing db with
  | done a => exact .inl rfl
  | fail fault => exact .inl rfl
  | ask s next ih =>
    obtain ⟨hr, h⟩ | ⟨answer, tables, hp, h⟩ | ⟨fault, hp, h⟩ := db.ask_cases s
    · refine .inr ⟨?_, _, _, hr⟩
      simp only [run, h]
      rfl
    · simp only [run, eval, hp, h]
      exact ih answer { db with tables, asked := db.asked + 1 }
    · refine .inl ?_
      simp only [run, eval, hp, h]

theorem refuses_run (work : Work α) (db : Database) : (work.run db).2.refuses = db.refuses := by
  induction work generalizing db with
  | done a => rfl
  | fail fault => rfl
  | ask s next ih =>
    have ha := db.refuses_ask s
    simp only [run]
    split <;> rename_i h
    · rw [ih, ← ha, h]
    · rw [← ha, h]

theorem run_of_refusesNothing (work : Work α) {db : Database} (h : db.RefusesNothing) :
    ((work.run db).1, (work.run db).2.tables) = work.eval db.tables := by
  rcases run_eq_eval work db with heq | ⟨-, n, s, hr⟩
  · exact heq
  · rw [h n s] at hr
    cases hr

theorem eval_of_run_ok {work : Work α} {db : Database} {a : α} (h : (work.run db).1 = .ok a) :
    work.eval db.tables = (.ok a, (work.run db).2.tables) := by
  rcases run_eq_eval work db with heq | ⟨hf, -⟩
  · rw [← heq, h]
  · rw [h] at hf
    cases hf

/-! ### Units -/

theorem tables_ask_commit (db : Database) : (db.ask .commit).2.tables = db.tables := by
  obtain ⟨-, h⟩ | ⟨_, tables, hp, h⟩ | ⟨_, -, h⟩ := db.ask_cases .commit
  · rw [h]
  · rw [h]
    cases hp
    rfl
  · rw [h]

theorem tables_ask_begin (db : Database) : (db.ask .begin).2.tables = db.tables := by
  obtain ⟨-, h⟩ | ⟨_, tables, hp, h⟩ | ⟨_, -, h⟩ := db.ask_cases .begin
  · rw [h]
  · rw [h]
    cases hp
    rfl
  · rw [h]

/-- **A unit happens as a whole or not at all**: where it succeeds it leaves the tables behind that
its work is evaluated to, and where it fails the tables are as they were. -/
theorem atomically_cases (work : Work α) (db : Database) :
    (∃ a, (work.atomically db).1 = .ok a ∧
      work.eval db.tables = (.ok a, (work.atomically db).2.tables)) ∨
    (∃ fault, (work.atomically db).1 = .error fault ∧
      (work.atomically db).2.tables = db.tables) := by
  cases hr : (work.atomically db).1 with
  | error fault => exact .inr ⟨fault, rfl, atomically_error hr⟩
  | ok a =>
    refine .inl ⟨a, rfl, ?_⟩
    have hopen := tables_ask_begin db
    unfold atomically at hr ⊢
    split <;> rename_i hb
    · rw [hb] at hr
      cases hr
    · rw [hb] at hr hopen
      rename_i answer opened
      simp only at hr hopen ⊢
      split <;> rename_i hw
      · rw [hw] at hr
        cases hr
      · rename_i b worked
        rw [hw] at hr
        have heval : work.eval opened.tables = (.ok b, (work.run opened).2.tables) :=
          eval_of_run_ok (by rw [hw])
        have hclose := tables_ask_commit worked
        rw [hopen, hw] at heval
        simp only at hr ⊢
        split <;> rename_i hc
        · rw [hc] at hr
          cases hr
        · rw [hc] at hr hclose
          cases hr
          rw [heval, hclose]

theorem ask_of_refusesNothing {db : Database} (h : db.RefusesNothing) {s : Statement} {a : s.Answer}
    {t : Tables} (hp : s.perform db.tables = .ok (a, t)) :
    db.ask s = (.ok a, { db with tables := t, asked := db.asked + 1 }) := by
  unfold Database.ask
  rw [if_neg (by rw [h]; exact Bool.false_ne_true), hp]

/-- A unit comes to what its work is evaluated to, if no statement is refused; where that is a
fault, the tables are as they were. -/
theorem atomically_of_refusesNothing (work : Work α) {db : Database} (h : db.RefusesNothing) :
    (∀ {a t}, work.eval db.tables = (.ok a, t) →
      (work.atomically db).1 = .ok a ∧ (work.atomically db).2.tables = t) ∧
    ∀ {fault t}, work.eval db.tables = (.error fault, t) →
      (work.atomically db).1 = .error fault ∧ (work.atomically db).2.tables = db.tables := by
  have hbegin : db.ask .begin = (.ok (), { db with asked := db.asked + 1 }) :=
    ask_of_refusesNothing h rfl
  have hopened : Database.RefusesNothing { db with asked := db.asked + 1 } := h
  have hrun := work.run_of_refusesNothing hopened
  have hrefuses := work.refuses_run { db with asked := db.asked + 1 }
  unfold atomically
  simp only [hbegin]
  generalize work.run { db with asked := db.asked + 1 } = outcome at hrun hrefuses
  obtain ⟨result, worked⟩ := outcome
  have hworked : worked.RefusesNothing := fun n s => by
    rw [show worked.refuses = db.refuses from hrefuses]
    exact h n s
  constructor
  · intro a t he
    rw [he, Prod.mk.injEq] at hrun
    obtain ⟨rfl, rfl⟩ := hrun
    have hcommit : worked.ask .commit = (.ok (), { worked with asked := worked.asked + 1 }) :=
      ask_of_refusesNothing hworked rfl
    simp only [hcommit, and_self]
  · intro fault t he
    rw [he, Prod.mk.injEq] at hrun
    obtain ⟨rfl, -⟩ := hrun
    simp only [and_self]

theorem refuses_atomically (work : Work α) (db : Database) :
    (work.atomically db).2.refuses = db.refuses := by
  unfold atomically
  split
  · rename_i fault after hb
    rw [← db.refuses_ask .begin, hb]
  · rename_i u opened hb
    have hopened : opened.refuses = db.refuses := by rw [← db.refuses_ask .begin, hb]
    split
    · rename_i fault after hw
      show after.refuses = db.refuses
      rw [← hopened, ← work.refuses_run opened, hw]
    · rename_i a worked hw
      have hworked : worked.refuses = db.refuses := by
        rw [← hopened, ← work.refuses_run opened, hw]
      split <;> rename_i after hc <;>
        exact (by rw [← hworked, ← worked.refuses_ask .commit, hc] : after.refuses = db.refuses)

/-! ### Work that changes nothing, or nothing before its end -/

end Work

namespace Statement

/-- Whether a statement is a question, which changes nothing. -/
def isQuestion : Statement → Bool
  | insertPrice _ | revisePrice _ _ _ | markPrice _ _ _ | archive _ _ | insertArchived _
  | insertHarvest _ | deleteHarvest _ _ => false
  | _ => true

theorem perform_question {s : Statement} (hs : s.isQuestion = true) {t t' : Tables} {a : s.Answer}
    (h : s.perform t = .ok (a, t')) : t' = t := by
  cases s <;> first | (cases hs; done) | (cases h; rfl)

end Statement

namespace Work

variable {α β : Type}

/-- Work all of whose statements are of a kind. -/
def Asks (kind : Statement → Prop) : Work α → Prop
  | .done _ | .fail _ => True
  | .ask s next => kind s ∧ ∀ answer, (next answer).Asks kind

section Asks

variable {kind : Statement → Prop}

theorem Asks.bind {work : Work α} {next : α → Work β} (hw : work.Asks kind)
    (hn : ∀ a, (next a).Asks kind) : (work >>= next).Asks kind := by
  show (work.bind next).Asks kind
  induction work with
  | done a => exact hn a
  | fail fault => trivial
  | ask s rest ih => exact ⟨hw.1, fun answer => ih answer (hw.2 answer)⟩

theorem Asks.statement {s : Statement} (h : kind s) : (Work.statement s).Asks kind :=
  ⟨h, fun _ => trivial⟩

theorem Asks.orFail (fault : ServiceFault) (o : Option α) : (Work.orFail fault o).Asks kind := by
  cases o <;> trivial

theorem Asks.bindOffset (s : PageSpec) : (Work.bindOffset s).Asks kind := by
  unfold Work.bindOffset
  split <;> trivial

/-- Work that only asks questions changes nothing. -/
theorem Asks.tables_run {work : Work α} (h : work.Asks kind)
    (hq : ∀ s, kind s → s.isQuestion = true) (db : Database) :
    (work.run db).2.tables = db.tables := by
  induction work generalizing db with
  | done a => rfl
  | fail fault => rfl
  | ask s next ih =>
    obtain ⟨-, ha⟩ | ⟨answer, tables, hp, ha⟩ | ⟨fault, -, ha⟩ := db.ask_cases s
    · simp only [run, ha]
    · simp only [run, ha, ih answer (h.2 answer)]
      exact Statement.perform_question (hq s h.1) hp
    · simp only [run, ha]

end Asks

/-- Work whose statements are questions but for the last one. -/
def ChangesLast : Work α → Prop
  | .done _ | .fail _ => True
  | .ask s next =>
    (s.isQuestion = true ∧ ∀ answer, (next answer).ChangesLast) ∨
      ∀ answer, ∃ a, next answer = .done a

/-- Work that fails leaves the tables as they were if nothing can fail after its only change. -/
theorem ChangesLast.tables_run {work : Work α} (h : work.ChangesLast) {db : Database}
    {fault : ServiceFault} (hf : (work.run db).1 = .error fault) :
    (work.run db).2.tables = db.tables := by
  induction work generalizing db with
  | done a => cases hf
  | fail fault => rfl
  | ask s next ih =>
    obtain ⟨-, ha⟩ | ⟨answer, tables, hp, ha⟩ | ⟨fault, -, ha⟩ := db.ask_cases s
    · simp only [run, ha]
    · simp only [run, ha] at hf ⊢
      rcases h with ⟨hq, hn⟩ | hd
      · rw [ih answer (hn answer) hf]
        exact Statement.perform_question hq hp
      · obtain ⟨a, hd⟩ := hd answer
        rw [hd] at hf
        cases hf
    · simp only [run, ha]

end Work

end CropLedger
