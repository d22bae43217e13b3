import CropLedger.Proofs.Market.Answers
import CropLedger.Proofs.Market.Written
import CropLedger.Proofs.Store.Kinds

/-!
# The questions of the market

Each question that is cached asks about the kind of thing that its name tells, changes nothing, and
its answer is read back from its written form.

* `CacheKey.ask`, `CacheKey.uncached`: a question as it is asked, and asked without a cache;
* `CacheKey.asked`: the ways in which a question is answered;
* `CacheKey.value`: what a question comes to on tables;
* `CacheKey.value_congr`: it depends on what the tables say about the question's kind.
-/

namespace CropLedger

/-! ### The statements of a page -/

variable {kind : Statement → Prop}

theorem Prices.asks_page (s : PageSpec) (hcount : kind .countPrices) (hrows : kind (.pricesOn s)) :
    (Prices.page s).Asks kind :=
  (Work.Asks.statement hcount).bind fun _ => (Work.Asks.bindOffset s).bind fun _ =>
    (Work.Asks.statement hrows).bind fun _ => trivial

theorem Harvests.asks_page (land : Uuid) (s : PageSpec) (hcount : kind (.countHarvests land))
    (hrows : kind (.harvestsOn land s)) : (Harvests.page land s).Asks kind :=
  (Work.Asks.statement hcount).bind fun _ => (Work.Asks.bindOffset s).bind fun _ =>
    (Work.Asks.statement hrows).bind fun _ => trivial

namespace CacheKey

variable {σ : Type}

/-! ### Questions by their names -/

/-- What a question is answered with. -/
def Answer : CacheKey → Type
  | .price _ => PriceView
  | .prices _ => PricePage
  | .history _ => List PriceSnapshot
  | .harvests _ _ => HarvestPage

/-- How a question is answered. -/
def query (m : Market σ) : (k : CacheKey) → CachedQuery k.Answer
  | .price id => m.priceQuery id
  | .prices s => m.pricesQuery s
  | .history pair => m.historyQuery pair
  | .harvests land s => m.harvestsQuery land s

/-- Whether a question is accepted. -/
def check : CacheKey → Except ServiceFault Unit
  | .prices s | .harvests _ s => Market.checkPage s
  | _ => .ok ()

/-- A question as it is asked. -/
def ask (m : Market σ) : (k : CacheKey) → Operation σ k.Answer
  | .price id => m.price id
  | .prices s => m.prices s
  | .history pair => m.history pair
  | .harvests land s => m.harvests land s

/-- A question asked without a cache. -/
def uncached (m : Market σ) (k : CacheKey) : Operation σ k.Answer :=
  Market.checked k.check (k.query m).compute

/-- How an answer is read. -/
def reader : (k : CacheKey) → Json.Reader k.Answer
  | .price _ => PriceView.reader
  | .prices _ => PricePage.reader
  | .history _ => PriceSnapshot.listReader
  | .harvests _ _ => HarvestPage.reader

/-- How an answer is written. -/
def json : (k : CacheKey) → k.Answer → Json
  | .price _ => PriceView.json
  | .prices _ => PricePage.json
  | .history _ => PriceSnapshot.listJson
  | .harvests _ _ => HarvestPage.json

/-- The work behind a question. -/
def work : (k : CacheKey) → Work k.Answer
  | .price id => Prices.view id
  | .prices s => Prices.page s
  | .history pair => Prices.points pair
  | .harvests land s => Harvests.page land s

/-- What a question comes to on tables. -/
def value (k : CacheKey) (t : Tables) : Except ServiceFault k.Answer :=
  match k.check with
  | .ok () => (k.work.eval t).1
  | .error fault => .error fault

/-- For how long an answer is kept. -/
def ttl (m : Market σ) : CacheKey → Nat
  | .history _ => m.historyTtl
  | _ => m.defaultTtl

theorem ask_eq (m : Market σ) (k : CacheKey) :
    k.ask m = Market.checked k.check ((k.query m).answer m.cache) := by
  cases k <;> rfl

@[simp] theorem query_key (m : Market σ) (k : CacheKey) : (k.query m).key = k := by cases k <;> rfl

@[simp] theorem query_reader (m : Market σ) (k : CacheKey) : (k.query m).reader = k.reader := by
  cases k <;> rfl

@[simp] theorem query_json (m : Market σ) (k : CacheKey) : (k.query m).json = k.json := by
  cases k <;> rfl

@[simp] theorem query_work (m : Market σ) (k : CacheKey) : (k.query m).work = k.work := by
  cases k <;> rfl

@[simp] theorem query_ttl (m : Market σ) (k : CacheKey) : (k.query m).ttl = k.ttl m := by
  cases k <;> rfl

theorem faithful (k : CacheKey) : k.reader.Faithful k.json := by
  cases k with
  | price id => exact PriceView.faithful
  | prices s => exact PricePage.faithful
  | history pair => exact PriceSnapshot.faithful_list
  | harvests land s => exact HarvestPage.faithful

/-! ### The ways in which a question is answered -/

/-- **How a question can be answered**: it is not accepted, found in the cache, computed and kept,
or it fails. -/
inductive Asked (m : Market σ) (k : CacheKey) (s : MarketState σ) :
    Except ServiceFault k.Answer × MarketState σ → Prop
  | rejected {fault : ServiceFault} (rejected : k.check = .error fault) :
    Asked m k s (.error fault, s)
  | found {a : k.Answer} {bytes : Bytes} (accepted : k.check = .ok ())
    (entry : (m.cache.get k.text s.cache).1 = .ok (some bytes))
    (reads : Json.Reader.decode k.reader bytes = .ok a) :
    Asked m k s (.ok a, ⟨s.store, (m.cache.get k.text s.cache).2⟩)
  | computed {a : k.Answer} {store : Database} (accepted : k.check = .ok ())
    (run : k.work.run s.store = (.ok a, store)) :
    Asked m k s (.ok a, ⟨store, (m.cache.set k.text (Cache.encode (k.json a)) (k.ttl m)
      (m.cache.get k.text s.cache).2).2⟩)
  | failed {fault : ServiceFault} {store : Database} (accepted : k.check = .ok ())
    (run : k.work.run s.store = (.error fault, store)) :
    Asked m k s (.error fault, ⟨store, (m.cache.get k.text s.cache).2⟩)

theorem asked (m : Market σ) (k : CacheKey) (s : MarketState σ) : Asked m k s (k.ask m s) := by
  rw [ask_eq]
  unfold Market.checked
  cases hc : k.check with
  | error fault => exact .rejected hc
  | ok u =>
    rcases hr : m.cache.read (k.query m).reader (k.query m).key.text s.cache with ⟨entry, c⟩
    have hcache : c = (m.cache.get k.text s.cache).2 := by
      have h := m.cache.read_snd (k.query m).reader (k.query m).key.text s.cache
      rw [hr, query_key] at h
      exact h
    subst hcache
    cases entry with
    | some a =>
      obtain ⟨bytes, hget, hread⟩ := m.cache.read_eq_some _ _ _ (congrArg Prod.fst hr)
      rw [query_key] at hget
      rw [query_reader] at hread
      simp only [(k.query m).answer_of_found m.cache hr]
      exact .found hc hget hread
    | none =>
      rcases hw : (k.query m).work.run s.store with ⟨result, store⟩
      have hwork : k.work.run s.store = (result, store) := by rw [← hw, query_work]
      cases result with
      | ok a =>
        simp only [(k.query m).answer_of_computed m.cache hr hw]
        simp only [query_key, query_json, query_ttl]
        exact .computed hc hwork
      | error fault =>
        simp only [(k.query m).answer_of_failed m.cache hr hw]
        exact .failed hc hwork

/-! ### What a question depends on -/

theorem asks_work (k : CacheKey) : k.work.Asks (Statement.AsksAbout k.entity) := by
  cases k with
  | price id =>
    exact ((Work.Asks.statement (s := .livePrice id) ⟨rfl, rfl⟩).bind fun _ =>
      Work.Asks.orFail _ _).bind fun _ => trivial
  | prices s => exact Prices.asks_page s ⟨rfl, rfl⟩ ⟨rfl, rfl⟩
  | history pair =>
    have hh : (Prices.history pair).Asks (Statement.AsksAbout .price) :=
      (Work.Asks.statement (s := .archivedOf pair) ⟨rfl, rfl⟩).bind fun _ =>
        (Work.Asks.statement (s := .livePriceOf pair) ⟨rfl, rfl⟩).bind fun _ => trivial
    refine hh.bind fun h => ?_
    split <;> trivial
  | harvests land s => exact Harvests.asks_page land s ⟨rfl, rfl⟩ ⟨rfl, rfl⟩

theorem tables_run_work (k : CacheKey) (db : Database) : (k.work.run db).2.tables = db.tables :=
  k.asks_work.tables_run (fun _ h => h.1) db

/-- **A question depends on what the tables say about its kind alone.** -/
theorem value_congr (k : CacheKey) {t t' : Tables} (h : t.Agree k.entity t') :
    k.value t = k.value t' := by
  unfold value
  rw [k.asks_work.eval_congr h]

theorem value_of_check {k : CacheKey} (h : k.check = .ok ()) (t : Tables) :
    k.value t = (k.work.eval t).1 := by
  rw [value, h]

/-- An answer that was found in the store is what the question comes to on its tables. -/
theorem value_of_run {k : CacheKey} (h : k.check = .ok ()) {db store : Database} {a : k.Answer}
    (hrun : k.work.run db = (.ok a, store)) : k.value db.tables = .ok a := by
  rw [value_of_check h, Work.eval_of_run_ok (congrArg Prod.fst hrun)]

end CacheKey

end CropLedger
