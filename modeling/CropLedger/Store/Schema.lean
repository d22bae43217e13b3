/-!
# The tables of the store

The store has a table of prices, one of archived values and one of harvests, each with one index
for the look-ups that are made most.

* `Table.columns`, `Table.index`: the layout of a table.
-/

namespace CropLedger

/-- A table of the store. -/
inductive Table
  | prices
  | archived
  | harvests
  deriving DecidableEq

/-- What a column holds. -/
inductive ColumnType
  | number
  | identifier
  | decimal
  | date
  | time
  | text (limit : Option Nat)
  deriving DecidableEq

/-- The declaration of a type. -/
def ColumnType.declared : ColumnType → String
  | .number => "INTEGER"
  | .identifier => "uuid_text"
  | .decimal => "real(16, 4)"
  | .date => "date_text"
  | .time => "timestamp_with_timezone_text"
  | .text none => "TEXT"
  | .text (some limit) => s!"varchar({limit})"

/-- A column: its name and type, whether it must hold a value, and whether it is the key. -/
structure Column where
  name : String
  type : ColumnType
  isRequired : Bool
  isKey : Bool
  deriving DecidableEq

namespace Column

/-- A column that must hold a value. -/
def required (name : String) (type : ColumnType) : Column := ⟨name, type, true, false⟩

/-- A column that may hold none. -/
def optional (name : String) (type : ColumnType) : Column := ⟨name, type, false, false⟩

/-- The key of a table. -/
def key (name : String) (type : ColumnType) : Column := ⟨name, type, true, true⟩

end Column

/-- An index over some columns; none of them is unique. -/
structure Index where
  name : String
  columns : List String
  deriving DecidableEq

namespace Table

/-- The tables in the order in which they were added. -/
def all : List Table := [.prices, .archived, .harvests]

/-- The name of a table. -/
def name : Table → String
  | .prices => "prices"
  | .archived => "price_histories"
  | .harvests => "harvests"

/-- The table of a name. -/
def ofName? (name : String) : Option Table := all.find? fun t => t.name = name

/-- The columns of a table. -/
def columns : Table → List Column
  | .prices =>
    [.key "id" .identifier, .required "commodity_id" .identifier,
      .required "location_id" .identifier, .required "value" .decimal,
      .required "created_at" .time, .required "updated_at" .time, .optional "deleted_at" .time]
  | .archived =>
    [.key "id" .number, .required "price_id" .identifier, .required "commodity_id" .identifier,
      .required "location_id" .identifier, .required "value" .decimal,
      .required "created_at" .time, .required "updated_at" .time, .required "archived_at" .time]
  | .harvests =>
    [.key "id" .identifier, .required "land_commodity_id" .identifier,
      .required "harvest_date" .date, .required "quantity" .decimal,
      .required "unit" (.text (some 32)), .optional "notes" (.text none),
      .required "created_at" .time, .required "updated_at" .time, .optional "deleted_at" .time]

/-- The index of a table. -/
def index : Table → Index
  | .prices => ⟨"idx_prices_commodity_location", ["commodity_id", "location_id"]⟩
  | .archived => ⟨"idx_price_histories_commodity_location", ["commodity_id", "location_id"]⟩
  | .harvests => ⟨"idx_harvests_land_commodity_date", ["land_commodity_id", "harvest_date"]⟩

end Table

end CropLedger
