import CropLedger.Json.Record

/-!
# Pages

Lists are read in pages of at most a hundred rows, numbered from one.

* `PageQuery.resolve`: the page that a query asks for, if it is one;
* `PageSpec.slice`: the rows of a page;
* `Page.json`, `Page.reader`: the written form of a page and its reading.
-/

namespace CropLedger

/-- The largest number of rows on a page. -/
def maxLimit : Nat := 100

/-- A page number and a number of rows to a page. -/
structure PageSpec where
  page : Nat
  limit : Nat
  deriving DecidableEq

namespace PageSpec

/-- Whether there can be such a page. -/
def isPage (s : PageSpec) : Bool := s.page ≠ 0 && s.limit ≠ 0 && s.limit ≤ maxLimit

/-- The number of rows before the page. -/
def offset (s : PageSpec) : Nat := s.limit * (s.page - 1)

/-- The rows of the page. -/
def slice {α : Type} (s : PageSpec) (rows : List α) : List α :=
  (rows.drop s.offset).take s.limit

/-- What is said of a page that there cannot be. -/
def refusal : String := s!"page must be at least 1 and limit between 1 and {maxLimit}"

end PageSpec

/-- A query for a page; what it leaves out is filled in. -/
structure PageQuery where
  page : Option Nat
  limit : Option Nat
  deriving DecidableEq

/-- Why a query asks for no page. -/
inductive PageFault
  | page
  | limit
  deriving DecidableEq

/-- What a fault is called in a message. -/
def PageFault.message : PageFault → String
  | .page => "page must be at least 1"
  | .limit => s!"limit must be between 1 and {maxLimit}"

/-- The page that a query asks for: the first, and ten rows, unless it says otherwise. -/
def PageQuery.resolve (q : PageQuery) : Except PageFault PageSpec :=
  let page := q.page.getD 1
  let limit := q.limit.getD 10
  if page = 0 then .error .page
  else if limit = 0 ∨ maxLimit < limit then .error .limit
  else .ok ⟨page, limit⟩

theorem PageQuery.isPage_of_resolve {q : PageQuery} {s : PageSpec} (h : q.resolve = .ok s) :
    s.isPage = true := by
  unfold resolve at h
  simp only [] at h
  split at h
  · cases h
  · split at h
    · cases h
    · cases h
      simp only [PageSpec.isPage, Bool.and_eq_true, decide_eq_true_eq, ne_eq]
      omega

open Json in
/-- Reads a query for a page. -/
def PageQuery.reader : Reader PageQuery :=
  Record.read "PaginationQuery"
    (PageQuery.mk <$> .optional "page" .unsigned <*> .optional "limit" .unsigned)

/-- A page of rows, with the number of rows on all pages. -/
structure Page (α : Type) where
  data : List α
  page : Nat
  limit : Nat
  total : Nat
  deriving DecidableEq

/-- The page of a list. -/
def PageSpec.of {α : Type} (s : PageSpec) (rows : List α) : Page α :=
  ⟨s.slice rows, s.page, s.limit, rows.length⟩

/-- The written form of a page. -/
def Page.json {α : Type} (item : α → Json) (p : Page α) : Json :=
  .object [("data", .array (p.data.map item)), ("page", p.page), ("limit", p.limit),
    ("total", p.total)]

open Json in
/-- Reads a page. -/
def Page.reader {α : Type} (name : String) (item : Reader α) : Reader (Page α) :=
  Record.read name
    (Page.mk <$> .field "data" (.sequence item) <*> .field "page" .unsigned
      <*> .field "limit" .unsigned <*> .field "total" .unsigned)

end CropLedger
