/-!
# Media types

A media type has a kind and a subtype, the subtype may end in a suffix after a plus, and
parameters may follow after a semicolon. Kinds, subtypes and suffixes are compared in any case.

* `MediaType.read?`: the media type of a text;
* `MediaType.isJson`: whether a type says that a body is Json.
-/

namespace CropLedger.Web

/-- The kind and subtype of a body. -/
structure MediaType where
  kind : List Char
  subtype : List Char
  deriving DecidableEq

namespace MediaType

/-- The characters of names. -/
def isToken (c : Char) : Bool :=
  c.isAlphanum || ['!', '#', '$', '%', '&', '\'', '*', '+', '-', '.', '^', '_', '\x60', '|',
    '~'].contains c

/-- The characters between quotes: plain text without control characters. -/
def isQuotable (c : Char) : Bool := 32 ≤ c.toNat && c.toNat ≤ 126

/-- Where a reader of parameters stands. -/
inductive Place
  | start
  | name
  | valueStart
  | value
  | quoteStart
  | quoted
  | quoteEnd
  deriving DecidableEq

/-- Goes past a character of the parameters. -/
def Place.step (c : Char) : Place → Option Place
  | .start => if c = ' ' then some .start else if isToken c then some .name else none
  | .name => if c = '=' then some .valueStart else if isToken c then some .name else none
  | .valueStart => if c = '"' then some .quoteStart else if isToken c then some .value else none
  | .value => if c = ';' then some .start else if isToken c then some .value else none
  | .quoteStart => if isQuotable c then some .quoted else none
  | .quoted => if c = '"' then some .quoteEnd else if isQuotable c then some .quoted else none
  | .quoteEnd => if c = ';' then some .start else if c = ' ' then some .quoteEnd else none

/-- Whether parameters may end here. -/
def Place.isEnd : Place → Bool
  | .start | .valueStart | .value | .quoteEnd => true
  | _ => false

/-- Whether a text is a list of parameters. -/
def areParameters (text : List Char) : Bool :=
  match text.foldlM (fun place c => Place.step c place) .start with
  | some place => place.isEnd
  | none => false

/-- Reads a media type. -/
def read? (text : String) : Option MediaType :=
  let kind := text.toList.takeWhile isToken
  match text.toList.dropWhile isToken with
  | '/' :: rest =>
    let subtype := rest.takeWhile isToken
    match rest.dropWhile isToken with
    | [] => if kind = [] then none else some ⟨kind, subtype⟩
    | ';' :: parameters =>
      if kind = [] ∨ subtype = [] ∨ ¬areParameters parameters then none else some ⟨kind, subtype⟩
    | _ => none
  | _ => none

/-- A subtype in two parts at its last plus, if there is one after its first character. -/
def splitSuffix (subtype : List Char) : List Char × Option (List Char) :=
  let suffix := (subtype.reverse.takeWhile (· ≠ '+')).reverse
  let front := subtype.take (subtype.length - suffix.length - 1)
  if front = [] then (subtype, none) else (front, some suffix)

/-- Whether a name is another in any case. -/
def isNamed (name : List Char) (expected : String) : Bool :=
  name.map Char.toLower = expected.toList

/-- Whether a type says that a body is Json. -/
def isJson (m : MediaType) : Bool :=
  let (name, suffix) := splitSuffix m.subtype
  isNamed m.kind "application" &&
    (isNamed name "json" || suffix.any fun suffix => isNamed suffix "json")

end MediaType

end CropLedger.Web
