import CropLedger.Market.Operations
import CropLedger.Proofs.Store.Evaluation

/-!
# What a change can come to

A change of the market either commits, and then the cache is cleared of its kind exactly once, or
fails, and then neither the tables nor the cache have noticed it.

* `Market.Committed`, `Market.Refused`: the two ways in which a change comes out;
* `Market.IsChange`: an operation that comes out in one of these ways;
* `Market.isChange_createPrice` and the like: the six changes of the market.
-/

namespace CropLedger

/-! ### Faults that leave nothing behind -/

namespace Work

variable {α β : Type}

/-- Work that never fails with a fault that leaves a write behind. -/
def FailsPlainly : Work α → Prop
  | .done _ => True
  | .fail fault => fault.isCommitted = false
  | .ask _ next => ∀ answer, (next answer).FailsPlainly

theorem FailsPlainly.bind {work : Work α} {next : α → Work β} (hw : work.FailsPlainly)
    (hn : ∀ a, (next a).FailsPlainly) : (work >>= next).FailsPlainly := by
  show (work.bind next).FailsPlainly
  induction work with
  | done a => exact hn a
  | fail fault => exact hw
  | ask s rest ih => exact fun answer => ih answer (hw answer)

theorem FailsPlainly.statement (s : Statement) : (Work.statement s).FailsPlainly := fun _ => trivial

theorem FailsPlainly.orFail {fault : ServiceFault} (h : fault.isCommitted = false)
    (o : Option α) : (Work.orFail fault o).FailsPlainly := by
  cases o with
  | none => exact h
  | some a => trivial

theorem FailsPlainly.run {work : Work α} (h : work.FailsPlainly) {db : Database}
    {fault : ServiceFault} (hf : (work.run db).1 = .error fault) : fault.isCommitted = false := by
  induction work generalizing db with
  | done a => cases hf
  | fail fault' =>
    cases hf
    exact h
  | ask s next ih =>
    simp only [Work.run] at hf
    split at hf
    · exact ih _ (h _) hf
    · cases hf
      rfl

theorem FailsPlainly.atomically {work : Work α} (h : work.FailsPlainly) {db : Database}
    {fault : ServiceFault} (hf : (work.atomically db).1 = .error fault) :
    fault.isCommitted = false := by
  unfold Work.atomically at hf
  split at hf
  · cases hf
    rfl
  · split at hf <;> rename_i hw
    · cases hf
      exact h.run (by rw [hw])
    · split at hf
      · cases hf
        rfl
      · cases hf

/-- Work that is only begun if its request is accepted. -/
def guarded (check : Except ServiceFault Unit) (work : Work α) : Work α :=
  match check with
  | .ok () => work
  | .error fault => .fail fault

theorem eval_guarded_ok {check : Except ServiceFault Unit} {work : Work α} {t t' : Tables} {a : α}
    (h : (guarded check work).eval t = (.ok a, t')) :
    check = .ok () ∧ work.eval t = (.ok a, t') := by
  unfold guarded at h
  split at h
  · exact ⟨rfl, h⟩
  · cases h

/-- A way to carry out work on a database that does all of it or nothing. -/
def CarriedOutBy (work : Work α) (change : Database → Except ServiceFault α × Database) : Prop :=
  ∀ db,
    (∃ a, (change db).1 = .ok a ∧ work.eval db.tables = (.ok a, (change db).2.tables)) ∨
    (∃ fault, (change db).1 = .error fault ∧ fault.isCommitted = false ∧
      (change db).2.tables = db.tables)

theorem carriedOut_atomically {work : Work α} (h : work.FailsPlainly) :
    work.CarriedOutBy work.atomically := by
  intro db
  rcases atomically_cases work db with hok | ⟨fault, hf, ht⟩
  · exact .inl hok
  · exact .inr ⟨fault, hf, h.atomically hf, ht⟩

theorem carriedOut_run {work : Work α} (h : work.FailsPlainly) (hc : work.ChangesLast) :
    work.CarriedOutBy work.run := by
  intro db
  cases hr : (work.run db).1 with
  | ok a => exact .inl ⟨a, rfl, eval_of_run_ok hr⟩
  | error fault => exact .inr ⟨fault, rfl, h.run hr, hc.tables_run hr⟩

end Work

namespace Market

variable {σ α : Type}

/-! ### Outcomes -/

/-- Whether the write behind an answer has happened. -/
def committed : Except ServiceFault α → Bool
  | .ok _ => true
  | .error fault => fault.isCommitted

/-- The answer to a committed write, given the answer of the clearing after it. -/
def settled (entity : Entity) (a : α) : Except CacheFault Nat → Except ServiceFault α
  | .ok _ => .ok a
  | .error fault => .error (.invalidation entity fault)

theorem committed_settled (entity : Entity) (a : α) (cleared : Except CacheFault Nat) :
    committed (settled entity a cleared) = true := by
  cases cleared <;> rfl

/-- The work was done on the tables, and the cache was cleared of its kind. -/
structure Committed (m : Market σ) (entity : Entity) (work : Work α) (s : MarketState σ)
    (outcome : Except ServiceFault α × MarketState σ) (a : α) : Prop where
  eval : work.eval s.store.tables = (.ok a, outcome.2.store.tables)
  answer : outcome.1 = settled entity a (m.cache.deletePrefix entity.label s.cache).1
  cache : outcome.2.cache = (m.cache.deletePrefix entity.label s.cache).2

/-- Nothing was done but statements asked. -/
structure Refused (s : MarketState σ) (outcome : Except ServiceFault α × MarketState σ)
    (fault : ServiceFault) : Prop where
  answer : outcome.1 = .error fault
  plain : fault.isCommitted = false
  tables : outcome.2.store.tables = s.store.tables
  cache : outcome.2.cache = s.cache

/-- **An operation that does its work and clears the cache, or fails unnoticed.** -/
def IsChange (m : Market σ) (entity : Entity) (work : Work α) (operation : Operation σ α) : Prop :=
  ∀ s, (∃ a, Committed m entity work s (operation s) a) ∨ ∃ fault, Refused s (operation s) fault

theorem commit_of_ok (m : Market σ) (entity : Entity)
    {change : Database → Except ServiceFault α × Database} {s : MarketState σ} {a : α}
    {store : Database} (h : change s.store = (.ok a, store)) :
    m.commit entity change s =
      (settled entity a (m.cache.deletePrefix entity.label s.cache).1,
        ⟨store, (m.cache.deletePrefix entity.label s.cache).2⟩) := by
  simp only [commit, invalidate, h]
  rcases m.cache.deletePrefix entity.label s.cache with ⟨cleared, cache⟩
  cases cleared <;> rfl

theorem commit_of_error (m : Market σ) (entity : Entity)
    {change : Database → Except ServiceFault α × Database} {s : MarketState σ}
    {fault : ServiceFault} {store : Database} (h : change s.store = (.error fault, store)) :
    m.commit entity change s = (.error fault, { s with store }) := by
  simp only [commit, h]

theorem isChange_commit (m : Market σ) (entity : Entity) {work : Work α}
    {change : Database → Except ServiceFault α × Database} (h : work.CarriedOutBy change) :
    IsChange m entity work (m.commit entity change) := by
  intro s
  rcases hc : change s.store with ⟨result, store⟩
  rcases h s.store with ⟨a, ha, he⟩ | ⟨fault, hf, hp, ht⟩
  · rw [hc] at ha he
    cases ha
    refine .inl ⟨a, ?_⟩
    rw [commit_of_ok m entity hc]
    exact ⟨he, rfl, rfl⟩
  · rw [hc] at hf ht
    cases hf
    refine .inr ⟨fault, ?_⟩
    rw [commit_of_error m entity hc]
    exact ⟨rfl, hp, ht, rfl⟩

theorem IsChange.checked {m : Market σ} {entity : Entity} {work : Work α}
    {operation : Operation σ α} (h : IsChange m entity work operation)
    {check : Except ServiceFault Unit}
    (hc : ∀ fault, check = .error fault → fault.isCommitted = false) :
    IsChange m entity (.guarded check work) (checked check operation) := by
  intro s
  cases check with
  | ok u => exact h s
  | error fault => exact .inr ⟨fault, rfl, hc fault rfl, rfl, rfl⟩

end Market

/-! ### The six changes -/

namespace Prices

open Work

theorem isCommitted_of_checkValue {value : Decimal} {fault : ServiceFault}
    (h : checkValue value = .error fault) : fault.isCommitted = false := by
  unfold checkValue at h
  split at h
  · cases h
    rfl
  · cases h

theorem failsPlainly_live (id : Uuid) : (live id).FailsPlainly :=
  (FailsPlainly.statement _).bind fun _ => FailsPlainly.orFail rfl _

theorem failsPlainly_free (pair : Pair) : (free pair).FailsPlainly :=
  (FailsPlainly.statement _).bind fun
    | some _ => rfl
    | none => trivial

theorem failsPlainly_create (new : NewPrice) (id : Uuid) (now : Timestamp) :
    (create new id now).FailsPlainly :=
  (failsPlainly_free _).bind fun _ => FailsPlainly.statement _

theorem failsPlainly_revise (id : Uuid) (value : Decimal) (now : Timestamp) :
    (revise id value now).FailsPlainly :=
  (failsPlainly_live id).bind fun _ => (FailsPlainly.statement _).bind fun _ =>
    (FailsPlainly.statement _).bind fun _ => failsPlainly_live id

theorem failsPlainly_delete (id : Uuid) (now : Timestamp) : (delete id now).FailsPlainly :=
  (failsPlainly_live id).bind fun _ => (FailsPlainly.statement _).bind fun _ => trivial

theorem failsPlainly_restore (id : Uuid) (now : Timestamp) : (restore id now).FailsPlainly :=
  (FailsPlainly.statement _).bind fun _ => (FailsPlainly.orFail rfl _).bind fun _ =>
    (failsPlainly_free _).bind fun _ => FailsPlainly.statement _

end Prices

namespace Harvests

open Work

theorem isCommitted_of_check {new : NewHarvest} {fault : ServiceFault}
    (h : check new = .error fault) : fault.isCommitted = false := by
  unfold check at h
  cases hc : new.check with
  | ok u => rw [hc] at h; cases h
  | error f => rw [hc] at h; cases h; rfl

theorem failsPlainly_create (new : NewHarvest) (id : Uuid) (now : Timestamp) :
    (create new id now).FailsPlainly :=
  (FailsPlainly.statement _).bind fun _ => trivial

theorem failsPlainly_delete (id : Uuid) (now : Timestamp) : (delete id now).FailsPlainly :=
  (FailsPlainly.statement _).bind fun _ => (FailsPlainly.orFail rfl _).bind fun _ =>
    FailsPlainly.statement _

theorem changesLast_create (new : NewHarvest) (id : Uuid) (now : Timestamp) :
    (create new id now).ChangesLast :=
  .inr fun _ => ⟨_, rfl⟩

theorem changesLast_delete (id : Uuid) (now : Timestamp) : (delete id now).ChangesLast :=
  .inl ⟨rfl, fun
    | some _ => .inr fun _ => ⟨_, rfl⟩
    | none => trivial⟩

end Harvests

namespace Market

variable {σ : Type} (m : Market σ)

theorem isChange_createPrice (new : NewPrice) (id : Uuid) (now : Timestamp) :
    IsChange m .price (.guarded (Prices.checkValue new.value) (Prices.create new id now))
      (m.createPrice new id now) :=
  (isChange_commit m .price
    (Work.carriedOut_atomically (Prices.failsPlainly_create new id now))).checked
      fun _ => Prices.isCommitted_of_checkValue

theorem isChange_revisePrice (id : Uuid) (value : Decimal) (now : Timestamp) :
    IsChange m .price (.guarded (Prices.checkValue value) (Prices.revise id value now))
      (m.revisePrice id value now) :=
  (isChange_commit m .price
    (Work.carriedOut_atomically (Prices.failsPlainly_revise id value now))).checked
      fun _ => Prices.isCommitted_of_checkValue

theorem isChange_deletePrice (id : Uuid) (now : Timestamp) :
    IsChange m .price (Prices.delete id now) (m.deletePrice id now) :=
  isChange_commit m .price (Work.carriedOut_atomically (Prices.failsPlainly_delete id now))

theorem isChange_restorePrice (id : Uuid) (now : Timestamp) :
    IsChange m .price (Prices.restore id now) (m.restorePrice id now) :=
  isChange_commit m .price (Work.carriedOut_atomically (Prices.failsPlainly_restore id now))

theorem isChange_createHarvest (new : NewHarvest) (id : Uuid) (now : Timestamp) :
    IsChange m .harvest (.guarded (Harvests.check new) (Harvests.create new id now))
      (m.createHarvest new id now) :=
  (isChange_commit m .harvest
    (Work.carriedOut_run (Harvests.failsPlainly_create new id now)
      (Harvests.changesLast_create new id now))).checked fun _ => Harvests.isCommitted_of_check

theorem isChange_deleteHarvest (id : Uuid) (now : Timestamp) :
    IsChange m .harvest (Harvests.delete id now) (m.deleteHarvest id now) :=
  isChange_commit m .harvest
    (Work.carriedOut_run (Harvests.failsPlainly_delete id now) (Harvests.changesLast_delete id now))

end Market

end CropLedger
