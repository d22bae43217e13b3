import CropLedger.Cache.Basic

/-!
# An observed cache

A cache whose calls are written down, and of which each kind of call can be made to fail before it
reaches the cache behind it.

* `Observed.cache`: how the observed cache is called;
* `Observed.calls`: what was called, latest first.
-/

namespace CropLedger

/-- A call and what came of it. -/
inductive CacheCall
  | get (key : String) (hit : Option Bool)
  | set (key : String) (ttl : Nat) (done : Bool)
  | delete (label : String) (count : Option Nat)
  deriving DecidableEq

/-- Which kinds of call fail, and how. -/
structure CacheOutage where
  get : Option CacheFault
  set : Option CacheFault
  delete : Option CacheFault

/-- A cache that never fails. -/
def CacheOutage.none : CacheOutage := ⟨.none, .none, .none⟩

/-- A cache's state with what is to fail and what was called. -/
structure Observed (σ : Type) where
  inner : σ
  outage : CacheOutage
  calls : List CacheCall

namespace Observed

variable {σ : Type}

/-- Whether an answer is a hit, if it is an answer. -/
def hit? : Except CacheFault (Option Bytes) → Option Bool
  | .ok entry => some entry.isSome
  | .error _ => none

/-- How an observed cache is called. -/
def cache (behind : Cache σ) : Cache (Observed σ) where
  get key s :=
    let (answer, inner) := match s.outage.get with
      | some fault => (.error fault, s.inner)
      | none => behind.get key s.inner
    (answer, { s with inner, calls := .get key (hit? answer) :: s.calls })
  set key bytes ttl s :=
    let (answer, inner) := match s.outage.set with
      | some fault => (.error fault, s.inner)
      | none => behind.set key bytes ttl s.inner
    (answer, { s with inner, calls := .set key ttl answer.toBool :: s.calls })
  deletePrefix label s :=
    let (answer, inner) := match s.outage.delete with
      | some fault => (.error fault, s.inner)
      | none => behind.deletePrefix label s.inner
    (answer, { s with inner, calls := .delete label answer.toOption :: s.calls })

end Observed

end CropLedger
