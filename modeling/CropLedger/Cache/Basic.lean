import CropLedger.Cache.Fault
import CropLedger.Json.Reader

/-!
# Caches

A cache keeps bytes under names for a time. What stands behind it is a state of its own; each
call answers, or fails, and leaves a new state.

* `Cache.read`: an entry read as a value; anything but a sound entry counts as none;
* `Cache.write`: a value kept; a failure to keep it is of no consequence.
-/

namespace CropLedger

/-- How a cache with states of a type is called. Times are in milliseconds. -/
structure Cache (σ : Type) where
  get : String → σ → Except CacheFault (Option Bytes) × σ
  set : String → Bytes → Nat → σ → Except CacheFault Unit × σ
  deletePrefix : String → σ → Except CacheFault Nat × σ

namespace Cache

variable {σ α : Type}

/-- An entry as bytes, read as a value. -/
def decode (reader : Json.Reader α) : Except CacheFault (Option Bytes) →
    Except CacheFault (Option α)
  | .ok (some bytes) => ((Json.Reader.decode reader bytes).map some).mapError .serialization
  | .ok none => .ok none
  | .error fault => .error fault

/-- An entry read as a value. -/
def getValue (cache : Cache σ) (reader : Json.Reader α) (key : String) (s : σ) :
    Except CacheFault (Option α) × σ :=
  let (entry, s) := cache.get key s
  (decode reader entry, s)

/-- The bytes under which a value is kept. -/
def encode (json : Json) : Bytes := Utf8.encode json.render

/-- A value kept for a time. -/
def setValue (cache : Cache σ) (key : String) (json : Json) (ttl : Nat) (s : σ) :
    Except CacheFault Unit × σ :=
  cache.set key (encode json) ttl s

/-- An entry read as a value; a failure counts as no entry. -/
def read (cache : Cache σ) (reader : Json.Reader α) (key : String) (s : σ) : Option α × σ :=
  match cache.getValue reader key s with
  | (.ok entry, s) => (entry, s)
  | (.error _, s) => (none, s)

/-- A value kept for a time; a failure is passed over. -/
def write (cache : Cache σ) (key : String) (json : Json) (ttl : Nat) (s : σ) : σ :=
  (cache.setValue key json ttl s).2

end Cache

end CropLedger
