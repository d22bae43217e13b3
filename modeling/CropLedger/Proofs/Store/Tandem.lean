import CropLedger.Store.Work

/-!
# Work in tandem

The same work is run on two stores whose tables are related, and the same statements are refused on
both. If each statement is answered alike on related tables, and leaves related tables behind, then
so is the work. The relation is carried from statement to statement; what is known of an answer is
handed to the work that goes on with it.

* `Database.Tandem`: two stores side by side;
* `Work.InTandem`: work that comes out alike on stores side by side, with `InTandem.bind` and
  `InTandem.statement` to build it up;
* `Work.InTandem.atomically`: units of such work.
-/

namespace CropLedger

variable {α β : Type} {R : Tables → Tables → Prop} {Q : α → Prop}

/-- Two stores that were asked as many statements and refuse the same ones, with related tables. -/
structure Database.Tandem (R : Tables → Tables → Prop) (db db' : Database) : Prop where
  asked : db'.asked = db.asked
  refuses : db'.refuses = db.refuses
  tables : R db.tables db'.tables

/-! ### Statements -/

/-- **Two outcomes of a statement that are alike**: the answer is the same and the tables stay
related, or the fault is the same, or the first store has no number left. -/
inductive Statement.Alike (R : Tables → Tables → Prop) (Q : α → Prop) :
    Outcome α → Outcome α → Prop
  | ok {a : α} {t t' : Tables} (answer : Q a) (tables : R t t') :
    Alike R Q (.ok (a, t)) (.ok (a, t'))
  | error {fault : StoreFault} : Alike R Q (.error fault) (.error fault)
  | full {outcome : Outcome α} : Alike R Q (.error .full) outcome

/-- A statement that is answered alike on related tables. -/
def Statement.InTandem (R : Tables → Tables → Prop) (s : Statement) (Q : s.Answer → Prop) : Prop :=
  ∀ t t', R t t' → Alike R Q (s.perform t) (s.perform t')

theorem Statement.InTandem.told {s : Statement} {Q : s.Answer → Prop} {answer : Tables → s.Answer}
    (hs : ∀ t, s.perform t = .ok (answer t, t)) (ha : ∀ t t', R t t' → answer t' = answer t)
    (hq : ∀ t t', R t t' → Q (answer t)) : s.InTandem R Q := by
  intro t t' h
  rw [hs, hs, ha t t' h]
  exact .ok (hq t t' h) h

/-- A statement asked of two stores side by side. -/
theorem Database.Tandem.ask {db db' : Database} (h : db.Tandem R db') {s : Statement}
    {Q : s.Answer → Prop} (hs : s.InTandem R Q) :
    (∃ a after after', db.ask s = (.ok a, after) ∧ db'.ask s = (.ok a, after') ∧ Q a ∧
      after.Tandem R after') ∨
    (∃ fault after after', db.ask s = (.error fault, after) ∧ db'.ask s = (.error fault, after')) ∨
    ∃ after, db.ask s = (.error .full, after) := by
  unfold Database.ask
  rw [h.asked, h.refuses]
  by_cases hr : db.refuses db.asked s = true
  · simp only [if_pos hr]
    exact .inr (.inl ⟨_, _, _, rfl, rfl⟩)
  · simp only [if_neg hr]
    generalize hp : s.perform db.tables = outcome
    generalize hp' : s.perform db'.tables = outcome'
    have halike : Statement.Alike R Q outcome outcome' := hp ▸ hp' ▸ hs _ _ h.tables
    cases halike with
    | ok ha ht => exact .inl ⟨_, _, _, rfl, rfl, ha, rfl, rfl, ht⟩
    | error => exact .inr (.inl ⟨_, _, _, rfl, rfl⟩)
    | full => exact .inr (.inr ⟨_, rfl⟩)

namespace Work

/-! ### Work -/

/-- **Two outcomes of work that are alike**: the result is the same and the stores stay side by
side, or the fault is the same, or the first store has no number left. -/
inductive Alike (R : Tables → Tables → Prop) (Q : α → Prop) :
    Except ServiceFault α × Database → Except ServiceFault α × Database → Prop
  | ok {a : α} {db db' : Database} (result : Q a) (stores : db.Tandem R db') :
    Alike R Q (.ok a, db) (.ok a, db')
  | error {fault : ServiceFault} {db db' : Database} :
    Alike R Q (.error fault, db) (.error fault, db')
  | full {db : Database} {outcome : Except ServiceFault α × Database} :
    Alike R Q (.error (failed .full), db) outcome

/-- Work that comes out alike on stores side by side. -/
def InTandem (R : Tables → Tables → Prop) (Q : α → Prop) (work : Work α) : Prop :=
  ∀ db db', db.Tandem R db' → Alike R Q (work.run db) (work.run db')

theorem InTandem.done {a : α} (h : Q a) : (Work.done a).InTandem R Q := fun _ _ ht => .ok h ht

theorem InTandem.fail (fault : ServiceFault) : (Work.fail fault : Work α).InTandem R Q :=
  fun _ _ _ => .error

theorem InTandem.orFail {fault : ServiceFault} {o : Option α} (h : ∀ a, o = some a → Q a) :
    (Work.orFail fault o).InTandem R Q := by
  cases o with
  | none => exact .fail fault
  | some a => exact .done (h a rfl)

theorem InTandem.ask {s : Statement} {Qs : s.Answer → Prop} {next : s.Answer → Work α}
    (hs : s.InTandem R Qs) (hn : ∀ a, Qs a → (next a).InTandem R Q) :
    (Work.ask s next).InTandem R Q := by
  intro db db' h
  rcases h.ask hs with ⟨a, after, after', ha, ha', hq, ht⟩ | ⟨fault, after, after', hf, hf'⟩ |
    ⟨after, hfull⟩
  · simp only [run, ha, ha']
    exact hn a hq after after' ht
  · simp only [run, hf, hf']
    exact .error
  · simp only [run, hfull]
    exact .full

theorem InTandem.statement {s : Statement} {Qs : s.Answer → Prop} (hs : s.InTandem R Qs) :
    (Work.statement s).InTandem R Qs :=
  .ask hs fun _ hq => .done hq

theorem run_bind (work : Work α) (next : α → Work β) (db : Database) :
    (work >>= next).run db =
      match work.run db with
      | (.ok a, db) => (next a).run db
      | (.error fault, db) => (.error fault, db) := by
  show (work.bind next).run db = _
  induction work generalizing db with
  | done a => rfl
  | fail fault => rfl
  | ask s rest ih =>
    simp only [bind, run]
    rcases db.ask s with ⟨fault | answer, after⟩
    · rfl
    · exact ih answer after

/-- **Work is in tandem if its parts are**; the second part may use what is known of the result of
the first. -/
theorem InTandem.bind {Qw : β → Prop} {work : Work β} {next : β → Work α}
    (hw : work.InTandem R Qw) (hn : ∀ b, Qw b → (next b).InTandem R Q) :
    (work >>= next).InTandem R Q := by
  intro db db' h
  have halike := hw db db' h
  rw [run_bind, run_bind]
  generalize work.run db = outcome at halike ⊢
  generalize work.run db' = outcome' at halike ⊢
  cases halike with
  | ok hq ht => exact hn _ hq _ _ ht
  | error => exact .error
  | full => exact .full

theorem InTandem.imp {Q' : α → Prop} {work : Work α} (h : work.InTandem R Q)
    (hq : ∀ a, Q a → Q' a) : work.InTandem R Q' := by
  intro db db' ht
  have halike := h db db' ht
  generalize work.run db = outcome at halike ⊢
  generalize work.run db' = outcome' at halike ⊢
  cases halike with
  | ok ha hs => exact .ok (hq _ ha) hs
  | error => exact .error
  | full => exact .full

/-! ### Units -/

/-- **A unit in tandem** has the same answer on both stores and leaves related tables behind,
unless the first store has no number left. -/
theorem InTandem.atomically {work : Work α} (h : work.InTandem R Q) {db db' : Database}
    (ht : db.Tandem R db') :
    (work.atomically db).1 = .error (failed .full) ∨
      ((work.atomically db').1 = (work.atomically db).1 ∧
        R (work.atomically db).2.tables (work.atomically db').2.tables) := by
  have hbegin : Statement.begin.InTandem R fun _ => True := fun _ _ h => .ok trivial h
  have hcommit : Statement.commit.InTandem R fun _ => True := fun _ _ h => .ok trivial h
  unfold Work.atomically
  rcases ht.ask hbegin with ⟨_, opened, opened', ho, ho', -, hopen⟩ |
    ⟨fault, after, after', hf, hf'⟩ | ⟨after, hfull⟩
  · simp only [ho, ho']
    have halike := h opened opened' hopen
    generalize work.run opened = outcome at halike ⊢
    generalize work.run opened' = outcome' at halike ⊢
    cases halike with
    | ok hq hworked =>
      rcases hworked.ask hcommit with ⟨_, closed, closed', hc, hc', -, hclosed⟩ |
        ⟨fault, after, after', hf, hf'⟩ | ⟨after, hfull⟩
      · simp only [hc, hc']
        exact .inr ⟨trivial, hclosed.tables⟩
      · simp only [hf, hf']
        exact .inr ⟨trivial, ht.tables⟩
      · exact .inl (by simp only [hfull])
    | error => exact .inr ⟨rfl, ht.tables⟩
    | full => exact .inl rfl
  · simp only [hf, hf']
    have hsame := tables_ask_error (congrArg Prod.fst hf)
    have hsame' := tables_ask_error (congrArg Prod.fst hf')
    rw [hf] at hsame
    rw [hf'] at hsame'
    exact .inr ⟨trivial, hsame.symm ▸ hsame'.symm ▸ ht.tables⟩
  · exact .inl (by simp only [hfull])

end Work

end CropLedger
