import CropLedger.Json.Record
import CropLedger.ServiceFault

/-!
# Answers to refused requests

A refused request is answered with a status and an envelope that holds a message and a code.

* `Refusal.ofService?`: status and code of each fault of an operation, if it is told to a client.
-/

namespace CropLedger.Web

open Json

/-- A message with a code for programs. -/
structure Envelope where
  error : String
  code : Option String
  deriving DecidableEq

/-- The written form of an envelope; no code leaves no member behind. -/
def Envelope.json (e : Envelope) : Json :=
  .object (("error", .text e.error) :: (e.code.map fun code => ("code", Json.text code)).toList)

/-- Reads an envelope. -/
def Envelope.reader : Reader Envelope :=
  Record.read "ErrorResponse" (Envelope.mk <$> .field "error" .text <*> .optional "code" .text)

/-- A status with an envelope. -/
structure Refusal where
  status : Nat
  envelope : Envelope
  deriving DecidableEq

namespace Refusal

/-- A status with a message and a code. -/
def of (status : Nat) (code error : String) : Refusal := ⟨status, ⟨error, some code⟩⟩

/-- A request that asks for what is not allowed. -/
def badRequest (reason : String) : Refusal := of 400 "VALIDATION_ERROR" reason

/-- A request that failed for reasons of our own. -/
def internal (context report : String) : Refusal :=
  of 500 "INTERNAL_ERROR" (context ++ ": " ++ report)

/-- The answer to a failed operation; one that has panicked is not answered. -/
def ofService? (fault : ServiceFault) : Option Refusal :=
  match fault with
  | .notFound _ => some (of 404 "NOT_FOUND" fault.message)
  | .alreadyExists _ => some (of 409 "ALREADY_EXISTS" fault.message)
  | .validation reason => some (badRequest reason)
  | .database report => some (internal "Database error" report)
  | .invalidation _ _ => some (of 500 "CACHE_INVALIDATION_FAILED" fault.message)
  | .panicked => none

/-- The answer to a query that cannot be read. -/
def ofQuery (message : String) : Refusal :=
  badRequest ("Failed to deserialize query string: " ++ message)

end Refusal

end CropLedger.Web
