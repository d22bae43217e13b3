import CropLedger.Text.Digits
import CropLedger.Text.Utf8

/-!
# A key server

A key server keeps bytes under names and answers four commands. It reports its names page by page,
tells by a rule of its own which names match a pattern, and may refuse any command.

* `KeyServer.send`: what the server makes of a command;
* `KeyServer.chunks`: pages of a fixed number of names;
* `KeyServer.startsAs`: patterns in which only the last sign is special.
-/

namespace CropLedger

/-- A kind of command. -/
inductive CommandKind
  | get
  | setex
  | scan
  | del
  deriving DecidableEq

/-- What a client asks of the server. -/
inductive Command
  | get (key : String)
  | setex (key : String) (seconds : Nat) (value : Bytes)
  | scan (cursor : Nat) (pattern : String)
  | del (keys : List String)
  deriving DecidableEq

namespace CommandKind

/-- The word of a kind of command. -/
def word : CommandKind → String
  | .get => "GET"
  | .setex => "SETEX"
  | .scan => "SCAN"
  | .del => "DEL"

/-- The kind of a word. -/
def ofWord? (word : String) : Option CommandKind :=
  [get, setex, scan, del].find? fun k => k.word = word

end CommandKind

namespace Command

/-- The kind of a command. -/
def kind : Command → CommandKind
  | .get _ => .get
  | .setex _ _ _ => .setex
  | .scan _ _ => .scan
  | .del _ => .del

/-- A number as a word. -/
def number (n : Nat) : Bytes := Utf8.encode (String.ofList (Digits.shortest n))

/-- The words of a command after the first. -/
def arguments : Command → List Bytes
  | .get key => [Utf8.encode key]
  | .setex key seconds value => [Utf8.encode key, number seconds, value]
  | .scan cursor pattern => [number cursor, Utf8.encode "MATCH", Utf8.encode pattern]
  | .del keys => keys.map Utf8.encode

/-- The words of a command. -/
def words (c : Command) : List Bytes := Utf8.encode c.kind.word :: c.arguments

end Command

/-- What a server keeps, how it reports its names in pages to the scan that starts with a numbered
command, which names match a pattern, which commands it refuses by their kind and number, how many
of each kind it got, and what it got, latest first. -/
structure KeyServer where
  entries : List (String × Bytes)
  paging : Nat → List String → List (List String)
  matching : String → String → Bool
  refuses : CommandKind → Nat → Bool
  counts : CommandKind → Nat
  received : List Command

namespace KeyServer

/-- The first names of a list of names, and the pages of the rest. -/
def chunksFrom (size : Nat) : Nat → List String → List (List String)
  | 0, keys => [keys]
  | fuel + 1, keys =>
    if keys.length ≤ size then [keys]
    else keys.take size :: chunksFrom size fuel (keys.drop size)

/-- Pages of a fixed number of names, at least one page. -/
def chunks (size : Nat) (keys : List String) : List (List String) :=
  chunksFrom size keys.length keys

/-- Whether a name starts with a pattern without its last sign, which stands for anything. -/
def startsAs (pattern key : String) : Bool :=
  pattern.toList.dropLast.isPrefixOf key.toList

/-- A server without entries that refuses nothing. -/
def empty (pageSize : Nat) : KeyServer :=
  ⟨[], fun _ => chunks pageSize, startsAs, fun _ _ => false, fun _ => 0, []⟩

/-- The names in order. -/
def keys (s : KeyServer) : List String := s.entries.map (·.1)

/-- Refuses commands of a kind after letting some of them through. -/
def failing (s : KeyServer) (kind : CommandKind) (letThrough : Nat) : KeyServer :=
  let allowed := s.counts kind + letThrough
  { s with refuses := fun k n => k = kind && allowed ≤ n }

/-- Refuses nothing any more. -/
def healed (s : KeyServer) : KeyServer := { s with refuses := fun _ _ => false }

/-- Takes in a command, and whether it is not refused. -/
def send (s : KeyServer) (c : Command) : Bool × KeyServer :=
  (!s.refuses c.kind (s.counts c.kind),
    { s with
      counts := fun k => if k = c.kind then s.counts k + 1 else s.counts k
      received := c :: s.received })

/-- Keeps an entry at its place in the order of names. -/
def insertInto (key : String) (bytes : Bytes) : List (String × Bytes) → List (String × Bytes)
  | [] => [(key, bytes)]
  | (k, b) :: rest =>
    if key < k then (key, bytes) :: (k, b) :: rest
    else if key = k then (key, bytes) :: rest
    else (k, b) :: insertInto key bytes rest

/-- Keeps an entry. -/
def insert (s : KeyServer) (key : String) (bytes : Bytes) : KeyServer :=
  { s with entries := insertInto key bytes s.entries }

/-- Drops the entries of some names. -/
def erase (s : KeyServer) (keys : List String) : KeyServer :=
  { s with entries := s.entries.filter fun e => !keys.contains e.1 }

/-- The number of entries of some names. -/
def count (s : KeyServer) (keys : List String) : Nat :=
  (s.entries.filter fun e => keys.contains e.1).length

end KeyServer

end CropLedger
