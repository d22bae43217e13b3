import CropLedger.Cache.Basic
import CropLedger.Store.Work

/-!
# Operations on the market

An operation works on the store and on the cache. A question whose answer is cached is looked up
first, computed if it is not found, and kept then; a change is made in the store first, and what
the cache holds of the same kind of thing is dropped once the change is committed.

* `CachedQuery.answer`: a question in its three steps;
* `Market.commit`: a change and the clearing after it.
-/

namespace CropLedger

/-- The store and the state of the cache. -/
structure MarketState (σ : Type) where
  store : Database
  cache : σ

/-- How the cache is called, and for how many milliseconds answers are kept. -/
structure Market (σ : Type) where
  cache : Cache σ
  defaultTtl : Nat
  historyTtl : Nat

/-- What an operation answers, and the state it leaves behind. -/
abbrev Operation (σ α : Type) := MarketState σ → Except ServiceFault α × MarketState σ

/-- A question whose answer is cached: its name in the cache, for how long the answer is kept, how
it is read and written, and the work that finds it. -/
structure CachedQuery (α : Type) where
  key : CacheKey
  ttl : Nat
  reader : Json.Reader α
  json : α → Json
  work : Work α

namespace CachedQuery

variable {σ α : Type}

/-- Looks an answer up in the cache. -/
def lookup (q : CachedQuery α) (cache : Cache σ) (s : MarketState σ) :
    Option α × MarketState σ :=
  let (entry, state) := cache.read q.reader q.key.text s.cache
  (entry, { s with cache := state })

/-- Finds an answer in the store. -/
def compute (q : CachedQuery α) : Operation σ α := fun s =>
  let (result, store) := q.work.run s.store
  (result, { s with store })

/-- Keeps an answer in the cache. -/
def keep (q : CachedQuery α) (cache : Cache σ) (answer : α) (s : MarketState σ) :
    MarketState σ :=
  { s with cache := cache.write q.key.text (q.json answer) q.ttl s.cache }

/-- Answers a question; a fault is never kept. -/
def answer (q : CachedQuery α) (cache : Cache σ) : Operation σ α := fun s =>
  match q.lookup cache s with
  | (some a, s) => (.ok a, s)
  | (none, s) =>
    match q.compute s with
    | (.ok a, s) => (.ok a, q.keep cache a s)
    | (.error fault, s) => (.error fault, s)

end CachedQuery

namespace Market

variable {σ α : Type}

/-- Drops what the cache holds of a kind of thing. -/
def invalidate (m : Market σ) (entity : Entity) : Operation σ Unit := fun s =>
  match m.cache.deletePrefix entity.label s.cache with
  | (.ok _, cache) => (.ok (), { s with cache })
  | (.error fault, cache) => (.error (.invalidation entity fault), { s with cache })

/-- Makes a change, then clears the cache. -/
def commit (m : Market σ) (entity : Entity)
    (change : Database → Except ServiceFault α × Database) : Operation σ α := fun s =>
  match change s.store with
  | (.error fault, store) => (.error fault, { s with store })
  | (.ok a, store) =>
    match m.invalidate entity { s with store } with
    | (.ok (), s) => (.ok a, s)
    | (.error fault, s) => (.error fault, s)

/-- An operation that is only begun if its request is accepted. -/
def checked (check : Except ServiceFault Unit) (operation : Operation σ α) : Operation σ α :=
  fun s =>
    match check with
    | .ok () => operation s
    | .error fault => (.error fault, s)

end Market

end CropLedger
