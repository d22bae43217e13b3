import CropLedger.Text.Trim
import CropLedger.Web.Form

/-!
# Addresses of key servers

The address of a key server names its scheme and host, and may name a database by number and a
version of the protocol. Only plain connections are made.

* `ServerAddress.read?`: the address of a text, if it is one.
-/

namespace CropLedger

/-- Where a key server is, and which of its databases is used. -/
structure ServerAddress where
  authority : String
  database : Int
  deriving DecidableEq

namespace ServerAddress

/-- A text after a scheme, if it starts with it. -/
def afterScheme? (scheme : String) (url : String) : Option (List Char) :=
  let start := scheme.toList ++ [':', '/', '/']
  if (url.toList.take start.length).map Char.toLower = start then
    some (url.toList.drop start.length)
  else none

/-- A text without the slashes at both ends. -/
def trimSlashes (text : List Char) : List Char :=
  Text.dropEndWhile (· = '/') (text.dropWhile (· = '/'))

/-- A whole number of 64 bits with an optional sign. -/
def readNumber? (text : List Char) : Option Int :=
  match text with
  | '-' :: digits => do
    let n ← Digits.readDecimal? digits
    if n ≤ Nat.pow 2 63 then some (-(n : Int)) else none
  | _ => do
    let n ← Digits.readDecimal? (match text with | '+' :: digits => digits | digits => digits)
    if n < Nat.pow 2 63 then some n else none

/-- The number of a database; none named is the first. -/
def readDatabase? (path : List Char) : Option Int :=
  match trimSlashes path with
  | [] => some 0
  | number => readNumber? number

/-- Whether a query names no version of the protocol, or one that is known. -/
def knowsProtocol (query : String) : Bool :=
  match (Web.Form.parse query).lookup "protocol" with
  | none => true
  | some version => ["2", "resp2", "3", "resp3"].contains version

/-- Reads an address. -/
def read? (url : String) : Option ServerAddress := do
  let rest ← afterScheme? "redis" url
  let address := rest.takeWhile (· ≠ '#')
  let query := (address.dropWhile (· ≠ '?')).drop 1
  let place := address.takeWhile (· ≠ '?')
  let authority := place.takeWhile (· ≠ '/')
  let database ← readDatabase? (place.dropWhile (· ≠ '/'))
  if authority = [] ∨ ¬knowsProtocol (String.ofList query) then none
  else some ⟨String.ofList authority, database⟩

end ServerAddress

end CropLedger
