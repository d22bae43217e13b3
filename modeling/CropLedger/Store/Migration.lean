import CropLedger.Store.Schema

/-!
# Migrations

Each table is added by a migration of its own. Which migrations have been applied is written down
in a ledger, so they are applied in order and undone in the opposite order.

* `Schema.up`, `Schema.down`: apply and undo migrations;
* `Schema.applied`, `Schema.pending`: which have been applied, and which have not.
-/

namespace CropLedger

/-- The name of the migration that adds a table. -/
def Table.migration : Table → String
  | .prices => "m20231020_000001_create_prices"
  | .archived => "m20231020_000002_create_price_histories"
  | .harvests => "m20231021_000001_create_harvests"

/-- The tables there are, and the ledger of the migrations applied, once it is there. -/
structure Schema where
  tables : List Table
  ledger : Option (List Table)
  deriving DecidableEq

namespace Schema

/-- Nothing is there yet. -/
def empty : Schema := ⟨[], none⟩

/-- The name of the ledger. -/
def ledgerName : String := "seaql_migrations"

/-- The migrations written down. -/
def recorded (s : Schema) : List Table := s.ledger.getD []

/-- The migrations applied, in order. -/
def applied (s : Schema) : List Table := Table.all.filter fun t => s.recorded.contains t

/-- The migrations pending, in order. -/
def pending (s : Schema) : List Table := Table.all.filter fun t => !s.recorded.contains t

/-- Sees to it that there is a ledger. -/
def install (s : Schema) : Schema := { s with ledger := some s.recorded }

/-- Some of the first migrations of a list, or all of them. -/
def firstOf (steps : Option Nat) (migrations : List Table) : List Table :=
  match steps with
  | some n => migrations.take n
  | none => migrations

/-- Applies migrations until one fails. A table that is already there is kept, but its index
cannot be added again. -/
def applyAll : List Table → Schema → Bool × Schema
  | [], s => (true, s)
  | t :: rest, s =>
    if s.tables.contains t then (false, s)
    else applyAll rest ⟨s.tables ++ [t], some (s.recorded ++ [t])⟩

/-- Undoes migrations until one fails: a table that is not there cannot be dropped. -/
def undoAll : List Table → Schema → Bool × Schema
  | [], s => (true, s)
  | t :: rest, s =>
    if s.tables.contains t then
      undoAll rest ⟨s.tables.filter (· ≠ t), some (s.recorded.filter (· ≠ t))⟩
    else (false, s)

/-- Applies pending migrations. -/
def up (steps : Option Nat) (s : Schema) : Bool × Schema :=
  applyAll (firstOf steps s.install.pending) s.install

/-- Undoes applied migrations, the newest first. -/
def down (steps : Option Nat) (s : Schema) : Bool × Schema :=
  undoAll (firstOf steps s.install.applied.reverse) s.install

/-- Undoes all migrations. -/
def reset (s : Schema) : Bool × Schema := s.down none

/-- Undoes all migrations and applies them again. -/
def refresh (s : Schema) : Bool × Schema :=
  match s.down none with
  | (true, s) => s.up none
  | (false, s) => (false, s)

/-- Drops all tables and applies all migrations. -/
def fresh (_ : Schema) : Bool × Schema := empty.up none

/-- Drops a table, or the ledger, if it is there. -/
def drop (name : String) (s : Schema) : Bool × Schema :=
  if name = ledgerName then (s.ledger.isSome, { s with ledger := none })
  else
    match Table.ofName? name with
    | some t => (s.tables.contains t, { s with tables := s.tables.filter (· ≠ t) })
    | none => (false, s)

end Schema

end CropLedger
