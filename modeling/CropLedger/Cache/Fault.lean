import CropLedger.Json.Fault

/-!
# Cache faults

A cache fails because what stands behind it does, or because an entry is not what was wanted.
-/

namespace CropLedger

/-- Why a cache did not answer. -/
inductive CacheFault
  | backend (reason : String)
  | serialization (fault : Json.Fault)

/-- What a fault of a Json text is called where its place is not told. -/
def Json.Fault.summary : Json.Fault → String
  | .stopped .malformed => "expected value"
  | .stopped .truncated => "EOF while parsing a value"
  | .mismatch _ cause => cause.message

/-- What a cache fault is called in a message. -/
def CacheFault.message : CacheFault → String
  | .backend reason => s!"cache backend error: {reason}- IoError"
  | .serialization fault => s!"cache serialization error: {fault.summary}"

end CropLedger
