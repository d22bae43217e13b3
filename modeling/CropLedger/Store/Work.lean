import CropLedger.ServiceFault
import CropLedger.Store.Statement

/-!
# Work on the store

Work is a tree of statements: what is done next depends on what was answered. It can be run on
its own, statement by statement, or as one unit that happens as a whole or not at all.

* `Work.run`: runs work on its own;
* `Work.atomically`: runs work as a unit;
* `Work.atomically_error`: a unit that fails leaves the tables as they were.
-/

namespace CropLedger

/-- The tables, how many statements there were, and which are refused by number and kind. -/
structure Database where
  tables : Tables
  asked : Nat
  refuses : Nat → Statement → Bool

namespace Database

/-- An empty store that refuses nothing. -/
def empty : Database := ⟨.empty, 0, fun _ _ => false⟩

/-- Asks a statement. -/
def ask (s : Statement) (db : Database) : Except StoreFault s.Answer × Database :=
  if db.refuses db.asked s then (.error .refused, { db with asked := db.asked + 1 })
  else
    match s.perform db.tables with
    | .ok (answer, tables) => (.ok answer, { db with tables, asked := db.asked + 1 })
    | .error fault => (.error fault, { db with asked := db.asked + 1 })

end Database

/-- Statements, each chosen by the answers before it, and what comes of them. -/
inductive Work (α : Type)
  | done (result : α)
  | fail (fault : ServiceFault)
  | ask (s : Statement) (next : s.Answer → Work α)

namespace Work

/-- Work that goes on with the result of other work. -/
def bind {α β : Type} (work : Work α) (next : α → Work β) : Work β :=
  match work with
  | .done a => next a
  | .fail fault => .fail fault
  | .ask s rest => .ask s fun answer => (rest answer).bind next

instance : Monad Work where
  pure := .done
  bind := bind

/-- Work of one statement. -/
def statement (s : Statement) : Work s.Answer := .ask s .done

/-- What was found, or a fault. -/
def orFail {α : Type} (fault : ServiceFault) : Option α → Work α
  | some a => .done a
  | none => .fail fault

/-- Goes on if the offset of a page is one that a statement can hold, which is a number of 64 bits
with a sign, and panics if it is not. -/
def bindOffset (s : PageSpec) : Work Unit :=
  if s.offset < Nat.pow 2 63 then .done () else .fail .panicked

/-- The fault of an operation whose statement failed. -/
def failed (fault : StoreFault) : ServiceFault := .database fault.message

/-- Runs work statement by statement. -/
def run {α : Type} : Work α → Database → Except ServiceFault α × Database
  | .done a, db => (.ok a, db)
  | .fail fault, db => (.error fault, db)
  | .ask s next, db =>
    match db.ask s with
    | (.ok answer, db) => (next answer).run db
    | (.error fault, db) => (.error (failed fault), db)

/-- Runs work between a beginning and a commit. Where any of it fails the tables are what they
were before. -/
def atomically {α : Type} (work : Work α) (db : Database) : Except ServiceFault α × Database :=
  match db.ask .begin with
  | (.error fault, after) => (.error (failed fault), after)
  | (.ok _, opened) =>
    match work.run opened with
    | (.error fault, after) => (.error fault, { after with tables := db.tables })
    | (.ok a, worked) =>
      match worked.ask .commit with
      | (.error fault, after) => (.error (failed fault), { after with tables := db.tables })
      | (.ok _, after) => (.ok a, after)

theorem tables_ask_error {s : Statement} {db : Database} {fault : StoreFault}
    (h : (db.ask s).1 = .error fault) : (db.ask s).2.tables = db.tables := by
  unfold Database.ask at h ⊢
  split
  · rfl
  · rename_i hr
    rw [if_neg hr] at h
    split <;> rename_i hp
    · rw [hp] at h; cases h
    · rfl

theorem atomically_error {α : Type} {work : Work α} {db : Database} {fault : ServiceFault}
    (h : (work.atomically db).1 = .error fault) : (work.atomically db).2.tables = db.tables := by
  unfold atomically at h ⊢
  split <;> rename_i hb
  · have := @tables_ask_error .begin db _ (by rw [hb])
    rw [hb] at this
    exact this
  · rw [hb] at h
    simp only at h ⊢
    split <;> rename_i hw
    · rfl
    · rw [hw] at h
      simp only at h ⊢
      split <;> rename_i hc
      · rfl
      · rw [hc] at h; cases h

end Work

end CropLedger
