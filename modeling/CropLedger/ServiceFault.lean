import CropLedger.Cache.Fault
import CropLedger.Cache.Key

/-!
# Why an operation fails

An operation on prices or harvests fails because what it names is not there or already there,
because it asks for what is not allowed, because the store fails, or because the cache could not
be cleared of what the operation made stale. In the last case the write has happened. An operation
can also panic: then it is broken off where it stands, and whoever called it is told nothing.

* `ServiceFault.isCommitted`: exactly a failed clearing leaves a write behind.
-/

namespace CropLedger

/-- Why an operation failed. -/
inductive ServiceFault
  | notFound (what : String)
  | alreadyExists (what : String)
  | validation (reason : String)
  | database (report : String)
  | invalidation (entity : Entity) (cause : CacheFault)
  | panicked

namespace ServiceFault

/-- What a fault is called in a message. -/
def message : ServiceFault → String
  | .notFound what => what ++ " not found"
  | .alreadyExists what => what ++ " already exists"
  | .validation reason => "validation error: " ++ reason
  | .database report => "database error: " ++ report
  | .invalidation entity cause =>
    s!"{entity.label} was saved but cache invalidation failed: {cause.message}"
  | .panicked => "the operation has panicked"

/-- Whether something named was not there. -/
def isNotFound : ServiceFault → Bool
  | .notFound _ => true
  | _ => false

/-- Whether the write has happened in spite of the fault. -/
def isCommitted : ServiceFault → Bool
  | .invalidation _ _ => true
  | _ => false

end ServiceFault

end CropLedger
