import CropLedger.Cache.Basic

/-!
# The cache in memory

Entries are kept in the order in which they were set. An entry is gone once its own time has
passed since it was last set; what would not fit the capacity is not kept. Time passes by moving
the clock only.
-/

namespace CropLedger

/-- An entry and the time from which it is gone. -/
structure MemoryEntry where
  key : String
  bytes : Bytes
  gone : Nat
  deriving DecidableEq

/-- The entries of a cache, its clock, and how many entries it may keep. -/
structure Memory where
  entries : List MemoryEntry
  now : Nat
  capacity : Nat
  deriving DecidableEq

namespace Memory

/-- A cache without entries. -/
def empty (capacity : Nat) : Memory := ⟨[], 0, capacity⟩

/-- Whether an entry is not gone. -/
def holds (m : Memory) (e : MemoryEntry) : Bool := m.now < e.gone

/-- The entries that are not gone. -/
def live (m : Memory) : List MemoryEntry := m.entries.filter m.holds

/-- The entry under a name. -/
def find? (m : Memory) (key : String) : Option Bytes :=
  (m.live.find? fun e => e.key = key).map MemoryEntry.bytes

/-- Keeps an entry for a time, in place of one of the same name. -/
def insert (m : Memory) (key : String) (bytes : Bytes) (ttl : Nat) : Memory :=
  let others := m.live.filter fun e => e.key ≠ key
  { m with entries :=
      if others.length < m.capacity then others ++ [⟨key, bytes, m.now + ttl⟩] else others }

/-- Whether an entry's name starts with a text. -/
def startsWith (label : String) (e : MemoryEntry) : Bool := label.toList.isPrefixOf e.key.toList

/-- Drops the entries whose names start with a text, and counts them. -/
def deletePrefix (m : Memory) (label : String) : Nat × Memory :=
  ((m.live.filter (startsWith label)).length,
    { m with entries := m.live.filter fun e => !startsWith label e })

/-- Lets time pass. -/
def advance (m : Memory) (millis : Nat) : Memory := { m with now := m.now + millis }

/-- How the cache in memory is called: it never fails. -/
def cache : Cache Memory where
  get key m := (.ok (m.find? key), m)
  set key bytes ttl m := (.ok (), m.insert key bytes ttl)
  deletePrefix label m := let (n, m) := m.deletePrefix label; (.ok n, m)

end Memory

end CropLedger
