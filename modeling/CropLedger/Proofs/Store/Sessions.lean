import Mathlib.Logic.Function.Basic
import CropLedger.Proofs.Store.Evaluation

/-!
# Units of work that are under way at once

Each statement of a unit sees what has been committed until then, with the unit's own changes on top
of it. A change of a row waits as long as another unit has changed the row and has not come to its
end. When a unit is committed, its changes are made on what has been committed by then, all at once;
a unit that is given up leaves nothing behind.

* `Statement.replay`: changes that are made again;
* `Sessions.step`: the next statement of a unit, with `Proceeds` for all that it can do;
* `Sessions.exists_run_alone`: a unit that is alone comes to what its work is evaluated to.
-/

namespace CropLedger

namespace Statement

/-- The row that a statement changes where it stands. -/
def row? : Statement → Option Uuid
  | revisePrice id _ _ | markPrice id _ _ | deleteHarvest id _ => some id
  | _ => none

/-- A statement as one of the changes of its unit, if it is one. -/
def changes (q : Statement) : List Statement := if q.isQuestion then [] else [q]

/-- Changes made again, one after another. -/
def replay : List Statement → Tables → Except StoreFault Tables
  | [], t => .ok t
  | q :: changes, t =>
    match q.perform t with
    | .ok (_, t) => replay changes t
    | .error fault => .error fault

theorem replay_append {earlier later : List Statement} {t t' : Tables}
    (h : replay earlier t = .ok t') : replay (earlier ++ later) t = replay later t' := by
  induction earlier generalizing t with
  | nil =>
    cases h
    rfl
  | cons q earlier ih =>
    simp only [List.cons_append, replay] at h ⊢
    cases hp : q.perform t with
    | ok outcome =>
      rw [hp] at h
      exact ih h
    | error fault =>
      rw [hp] at h
      cases h

/-- A statement that has been made is among the changes, or has changed nothing. -/
theorem replay_changes {changes : List Statement} {t view view' : Tables} {q : Statement}
    {answer : q.Answer} (h : replay changes t = .ok view)
    (hp : q.perform view = .ok (answer, view')) :
    replay (changes ++ q.changes) t = .ok view' := by
  rw [replay_append h, Statement.changes]
  by_cases hq : q.isQuestion = true
  · rw [if_pos hq, perform_question hq hp]
    rfl
  · rw [if_neg hq]
    simp only [replay, hp]

end Statement

/-- Where a unit of work stands: what it still has to do, and what it has changed. -/
inductive Transaction (α : Type)
  | waiting (work : Work α)
  | opened (work : Work α) (changes : List Statement)
  | committed (result : α)
  | rolledBack (fault : ServiceFault)

/-- What happens next: a unit goes on, or its next statement is refused. -/
inductive Tick
  | advance (n : Nat)
  | refuse (n : Nat)

/-- What has been committed, where each unit stands, which unit has changed a row and is not done,
the committed units in order, and how many there were when each unit began. -/
structure Sessions (α : Type) where
  tables : Tables
  units : Nat → Transaction α
  holder : Uuid → Option Nat
  order : List Nat
  begun : Nat → Nat

namespace Sessions

variable {α : Type}

/-- Units that have not begun, on some tables. -/
def start (t : Tables) (work : Nat → Work α) : Sessions α :=
  ⟨t, fun n => .waiting (work n), fun _ => none, [], fun _ => 0⟩

/-- The rows that are held once a unit has come to its end. -/
def release (s : Sessions α) (n : Nat) (id : Uuid) : Option Nat :=
  if s.holder id = some n then none else s.holder id

/-- A unit is given up. -/
def giveUp (s : Sessions α) (n : Nat) (fault : ServiceFault) : Sessions α :=
  { s with units := Function.update s.units n (.rolledBack fault), holder := s.release n }

/-- A unit is committed, and leaves tables behind. -/
def commit (s : Sessions α) (n : Nat) (result : α) (tables : Tables) : Sessions α where
  tables
  units := Function.update s.units n (.committed result)
  holder := s.release n
  order := s.order ++ [n]
  begun := s.begun

/-- A unit has made a statement and has other work to do. -/
def goOn (s : Sessions α) (n : Nat) (q : Statement) (work : Work α) (changes : List Statement) :
    Sessions α :=
  { s with
    units := Function.update s.units n (.opened work changes)
    holder := fun id => if q.row? = some id then some n else s.holder id }

/-- Whether the row that a statement changes is held by another unit. -/
def blocked (s : Sessions α) (n : Nat) (q : Statement) : Bool :=
  (q.row?.bind s.holder).any fun other => other ≠ n

/-- A unit goes on with its work. -/
def proceed (s : Sessions α) (n : Nat) (changes : List Statement) : Work α → Sessions α
  | .done a =>
    match Statement.replay changes s.tables with
    | .ok tables => s.commit n a tables
    | .error fault => s.giveUp n (Work.failed fault)
  | .fail fault => s.giveUp n fault
  | .ask q next =>
    if s.blocked n q then s
    else
      match Statement.replay changes s.tables with
      | .error fault => s.giveUp n (Work.failed fault)
      | .ok view =>
        match q.perform view with
        | .ok (answer, _) => s.goOn n q (next answer) (changes ++ q.changes)
        | .error fault => s.giveUp n (Work.failed fault)

/-- A unit that has not begun begins now. -/
def beginning (s : Sessions α) (n : Nat) : Sessions α :=
  { s with begun := Function.update s.begun n s.order.length }

/-- One tick. A unit that has come to its end does nothing more. -/
def step (s : Sessions α) : Tick → Sessions α
  | .advance n =>
    match s.units n with
    | .waiting work => (s.beginning n).proceed n [] work
    | .opened work changes => s.proceed n changes work
    | _ => s
  | .refuse n =>
    match s.units n with
    | .waiting _ | .opened _ _ => s.giveUp n Work.refusal
    | _ => s

/-- One tick after another. -/
def run (ticks : List Tick) (s : Sessions α) : Sessions α := ticks.foldl step s

theorem run_append (earlier later : List Tick) (s : Sessions α) :
    run (earlier ++ later) s = run later (run earlier s) :=
  List.foldl_append ..

/-! ### All that a unit can do -/

/-- **What going on makes of the sessions.** -/
inductive Proceeds (s : Sessions α) (n : Nat) (changes : List Statement) :
    Work α → Sessions α → Prop
  | committed {a : α} {tables : Tables} (made : Statement.replay changes s.tables = .ok tables) :
    Proceeds s n changes (.done a) (s.commit n a tables)
  | asked {q : Statement} {next : q.Answer → Work α} {view view' : Tables} {answer : q.Answer}
    (free : s.blocked n q = false) (seen : Statement.replay changes s.tables = .ok view)
    (made : q.perform view = .ok (answer, view')) :
    Proceeds s n changes (.ask q next) (s.goOn n q (next answer) (changes ++ q.changes))
  | waits {q : Statement} {next : q.Answer → Work α} (blocked : s.blocked n q = true) :
    Proceeds s n changes (.ask q next) s
  | givenUp {work : Work α} (fault : ServiceFault) :
    Proceeds s n changes work (s.giveUp n fault)

theorem proceeds (s : Sessions α) (n : Nat) (changes : List Statement) (work : Work α) :
    Proceeds s n changes work (s.proceed n changes work) := by
  cases work with
  | done a =>
    simp only [proceed]
    cases hr : Statement.replay changes s.tables with
    | ok tables => exact .committed hr
    | error fault => exact .givenUp _
  | fail fault => exact .givenUp fault
  | ask q next =>
    simp only [proceed]
    cases hb : s.blocked n q with
    | true => exact .waits hb
    | false =>
      cases hr : Statement.replay changes s.tables with
      | error fault => exact .givenUp _
      | ok view =>
        rcases hp : q.perform view with fault | ⟨answer, view'⟩
        · simp only [Bool.false_eq_true, if_false, hp]
          exact .givenUp _
        · simp only [Bool.false_eq_true, if_false, hp]
          exact .asked hb hr hp

/-! ### A unit that is alone -/

/-- No row is held by another unit. -/
def Unhindered (s : Sessions α) (n : Nat) : Prop := ∀ id, s.holder id = none ∨ s.holder id = some n

theorem Unhindered.not_blocked {s : Sessions α} {n : Nat} (h : s.Unhindered n) (q : Statement) :
    s.blocked n q = false := by
  unfold blocked
  cases q.row? with
  | none => rfl
  | some id =>
    simp only [Option.bind_some]
    rcases h id with hid | hid <;> simp [hid]

theorem Unhindered.goOn {s : Sessions α} {n : Nat} (h : s.Unhindered n) (q : Statement)
    (work : Work α) (changes : List Statement) : (s.goOn n q work changes).Unhindered n := by
  intro id
  simp only [Sessions.goOn]
  split
  · exact .inr rfl
  · exact h id

/-- What comes of a unit that is alone. -/
def Comes (n : Nat) (before : Tables) (s : Sessions α) : Except ServiceFault α × Tables → Prop
  | (.ok a, t) => s.tables = t ∧ s.units n = .committed a
  | (.error fault, _) => s.tables = before ∧ s.units n = .rolledBack fault

theorem exists_run_proceed (work : Work α) {s : Sessions α} {n : Nat} {changes : List Statement}
    {view : Tables} (hs : s.Unhindered n) (hview : Statement.replay changes s.tables = .ok view) :
    ∃ k, Comes n s.tables (run (List.replicate k (.advance n)) (s.proceed n changes work))
      (work.eval view) := by
  -- what the unit sees is kept as its changes made again on tables that nobody else changes
  induction work generalizing s changes view with
  | done a =>
    refine ⟨0, ?_⟩
    simp only [proceed, hview]
    exact ⟨rfl, Function.update_self ..⟩
  | fail fault => exact ⟨0, rfl, Function.update_self ..⟩
  | ask q next ih =>
    have hfree := hs.not_blocked q
    cases hp : q.perform view with
    | error fault =>
      refine ⟨0, ?_⟩
      simp only [proceed, hfree, hview, hp, Work.eval, Bool.false_eq_true, if_false]
      exact ⟨rfl, Function.update_self ..⟩
    | ok outcome =>
      obtain ⟨answer, view'⟩ := outcome
      let s' := s.goOn n q (next answer) (changes ++ q.changes)
      have hgoes : s.proceed n changes (.ask q next) = s' := by
        simp only [proceed, hfree, hview, hp, Bool.false_eq_true, if_false, s']
      have hnext : s'.step (.advance n) = s'.proceed n (changes ++ q.changes) (next answer) := by
        have hopened : s'.units n = .opened (next answer) (changes ++ q.changes) :=
          Function.update_self ..
        simp only [step, hopened]
      have hs' : s'.Unhindered n := Unhindered.goOn hs q _ _
      obtain ⟨k, hk⟩ := ih answer hs' (Statement.replay_changes hview hp)
      refine ⟨k + 1, ?_⟩
      show Comes n s.tables (run (List.replicate k (.advance n)) (step _ (.advance n))) _
      rw [hgoes, hnext]
      simp only [Work.eval, hp]
      exact hk

/-- **A unit that is alone comes to what its work is evaluated to**, and leaves those tables behind,
or the tables as they were if it fails. -/
theorem exists_run_alone {work : Work α} {s : Sessions α} {n : Nat} (hs : s.Unhindered n)
    (hn : s.units n = .waiting work) :
    ∃ k, Comes n s.tables (run (List.replicate k (.advance n)) s) (work.eval s.tables) := by
  have hbegins : s.step (.advance n) = (s.beginning n).proceed n [] work := by
    simp only [step, hn]
  have hbeginning : (s.beginning n).Unhindered n := hs
  have hnothing : Statement.replay [] (s.beginning n).tables = .ok s.tables := rfl
  obtain ⟨k, hk⟩ := exists_run_proceed work hbeginning hnothing
  refine ⟨k + 1, ?_⟩
  show Comes n s.tables (run (List.replicate k (.advance n)) (s.step (.advance n))) _
  rw [hbegins]
  exact hk

end Sessions

end CropLedger
