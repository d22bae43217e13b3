import CropLedger.Json.Reader

/-!
# Reading records from Json

A record is read from an object, whose members may come in any order and beside any others, or
from an array of its fields in order. Members are looked at from left to right; a field that is
there twice is a fault where it is met again, one that is missing only once the object has ended.

* `Record.read`: the reader of a record;
* `Record.fromMembers`: how a record is put together from the members found.
-/

namespace CropLedger.Json

/-- What is left of an array whose items are read one after another. -/
structure Remaining where
  index : Nat
  items : List Scan
  stop : Option Stop

/-- How the fields of a record are checked, and the record put together. -/
structure Record (α : Type) where
  checks : List (String × (Scan → Except Fault Unit))
  fromMembers : (String → Option Scan) → Except Fault α
  fromItems : Remaining → Except Fault (Option α × Remaining)

namespace Record

/-- A record without fields. -/
def done {α : Type} (a : α) : Record α := ⟨[], fun _ => .ok a, fun rest => .ok (some a, rest)⟩

/-- A field that is read; `missing` stands in where the object has none, `absent` where the array
is shorter. -/
def field {α : Type} (name : String) (read : Reader α) (missing absent : Option α := none) :
    Record α where
  checks := [(name, fun tree => (read tree).map fun _ => ())]
  fromMembers find :=
    match find name, missing with
    | some tree, _ => (read tree).mapError (.inside (.field name))
    | none, some a => .ok a
    | none, none => .error (.here (.missing name))
  fromItems rest :=
    match rest.items, rest.stop with
    | item :: items, stop => do
      let a ← (read item).mapError (.inside (.item rest.index))
      return (some a, ⟨rest.index + 1, items, stop⟩)
    | [], some stop => .error (.stopped stop)
    | [], none => .ok (absent, rest)

/-- A field that may be null, and may be missing from an object. -/
def optional {α : Type} (name : String) (read : Reader α) : Record (Option α) :=
  field name (.nullable read) (some none)

/-- The fields of two records, one after the other. -/
def seq {α β : Type} (f : Record (α → β)) (a : Unit → Record α) : Record β where
  checks := f.checks ++ (a ()).checks
  fromMembers find := do
    let g ← f.fromMembers find
    return g (← (a ()).fromMembers find)
  fromItems rest := do
    match ← f.fromItems rest with
    | (some g, rest) =>
      let (x, rest) ← (a ()).fromItems rest
      return (x.map g, rest)
    | (none, rest) => return (none, rest)

instance : Applicative Record where
  pure := done
  seq := seq

/-- Looks at members from left to right and keeps the ones that have a check; `other` looks at
the rest. -/
def collect (checks : List (String × (Scan → Except Fault Unit)))
    (other : Scan → Except Stop Unit) (stop : Option Stop) :
    List (String × Scan) → List (RawText × Scan) → Except Fault (List (String × Scan))
  | known, [] =>
    match stop with
    | some stop => .error (.stopped stop)
    | none => .ok known
  | known, (key, value) :: members => do
    let name ← ofStop key.read
    match checks.lookup name with
    | some check =>
      if (known.lookup name).isSome then throw (.here (.duplicate name))
      (check value).mapError (.inside (.field name))
      collect checks other stop ((name, value) :: known) members
    | none =>
      ofStop (other value)
      collect checks other stop known members

/-- Reads the fields in order from an array; `tooLong` is the fault of an array that goes on. -/
def readArray {α : Type} (r : Record α) (title : String) (tooLong : Nat → Fault)
    (items : List Scan) (stop : Option Stop) : Except Fault α := do
  match ← r.fromItems ⟨0, items, stop⟩ with
  | (some a, ⟨_, [], none⟩) => return a
  | (some _, ⟨_, [], some stop⟩) => throw (.stopped stop)
  | (some _, _) => throw (tooLong items.length)
  | (none, rest) => throw (.here (.tooShort rest.index title r.checks.length))

/-- Reads a record from an object or an array. -/
def read {α : Type} (name : String) (r : Record α) : Reader α
  | .object members stop => do
    let known ← collect r.checks Scan.skip stop [] members
    r.fromMembers fun name => known.lookup name
  | .array items stop =>
    r.readArray ("struct " ++ name) (fun _ => .stopped .malformed) items stop
  | tree => tree.wrongType (.record name)

end Record

end CropLedger.Json
