import Mathlib.Logic.Function.Basic
import CropLedger.Proofs.Market.Orderly
import CropLedger.Proofs.Market.Transparency

/-!
# Calls that are under way at once

The market answers many calls at once. A question is answered in up to three steps: it is looked up
in the cache, computed from the store, and kept in the cache. A write is made in two: its
transaction, and the clearing of the cache. The steps of different calls follow one another in any
order.

* `Write.transact`: the transaction of a write, with `Write.perform_eq_commit`;
* `Traffic.step`: one step of one call, with `Traffic.stepped` for all that it can do;
* `Traffic.commits`: the writes that a run commits;
* `Traffic.run_question`, `Traffic.run_write`: the steps of a call that is alone come to the
  operation of the market;
* `Traffic.Ready`: what all steps keep.
-/

namespace CropLedger

namespace Market

variable {σ τ α : Type}

/-! ### The transaction of a write -/

/-- A change that is only begun if its request is accepted, and of which only is told whether it
succeeded. -/
def carryOut (check : Except ServiceFault Unit)
    (change : Database → Except ServiceFault α × Database) (db : Database) :
    Except ServiceFault Unit × Database :=
  match check with
  | .ok () => ((change db).1.map fun _ => (), (change db).2)
  | .error fault => (.error fault, db)

theorem carryOut_cases {check : Except ServiceFault Unit} {work : Work α}
    {change : Database → Except ServiceFault α × Database} (h : work.CarriedOutBy change)
    (db : Database) :
    (∃ a, (carryOut check change db).1 = .ok () ∧ (Work.guarded check work).eval db.tables =
      (.ok a, (carryOut check change db).2.tables)) ∨
    ∃ fault, (carryOut check change db).1 = .error fault ∧
      (carryOut check change db).2.tables = db.tables := by
  cases check with
  | error fault => exact .inr ⟨fault, rfl, rfl⟩
  | ok u =>
    rcases h db with ⟨a, ha, he⟩ | ⟨fault, hf, -, ht⟩
    · exact .inl ⟨a, by simp only [carryOut, ha]; rfl, he⟩
    · exact .inr ⟨fault, by simp only [carryOut, hf]; rfl, ht⟩

theorem refuses_carryOut {check : Except ServiceFault Unit}
    {change : Database → Except ServiceFault α × Database}
    (h : ∀ db, (change db).2.refuses = db.refuses) (db : Database) :
    (carryOut check change db).2.refuses = db.refuses := by
  cases check with
  | ok u => exact h db
  | error fault => rfl

theorem unanswered_checked_commit (m : Market τ) (check : Except ServiceFault Unit)
    (entity : Entity) (change : Database → Except ServiceFault α × Database) :
    unanswered (checked check (m.commit entity change)) =
      m.commit entity (carryOut check change) := by
  funext s
  cases check with
  | error fault => rfl
  | ok u =>
    rcases hc : change s.store with ⟨fault | a, store⟩
    · simp only [unanswered, checked, commit, carryOut, hc]
      rfl
    · simp only [unanswered, checked, commit, carryOut, hc, Except.map]
      rcases m.invalidate entity { s with store } with ⟨_ | _, s'⟩ <;> rfl

namespace Write

/-- The transaction of a write, which says whether it has been committed. -/
def transact : Write → Database → Except ServiceFault Unit × Database
  | createPrice new id now =>
    carryOut (Prices.checkValue new.value) (Prices.create new id now).atomically
  | revisePrice id value now =>
    carryOut (Prices.checkValue value) (Prices.revise id value now).atomically
  | deletePrice id now => carryOut (.ok ()) (Prices.delete id now).atomically
  | restorePrice id now => carryOut (.ok ()) (Prices.restore id now).atomically
  | createHarvest new id now => carryOut (Harvests.check new) (Harvests.create new id now).run
  | deleteHarvest id now => carryOut (.ok ()) (Harvests.delete id now).run

/-- **A write is its transaction, and then the clearing of the cache.** -/
theorem perform_eq_commit (m : Market τ) (w : Write) :
    w.perform m = m.commit w.entity w.transact := by
  cases w with
  | createPrice new id now => exact m.unanswered_checked_commit ..
  | revisePrice id value now => exact m.unanswered_checked_commit ..
  | deletePrice id now => exact m.unanswered_checked_commit (.ok ()) ..
  | restorePrice id now => exact m.unanswered_checked_commit (.ok ()) ..
  | createHarvest new id now => exact m.unanswered_checked_commit ..
  | deleteHarvest id now => exact m.unanswered_checked_commit (.ok ()) ..

/-- A transaction turns the tables, or leaves them as they were. -/
theorem transact_cases (w : Write) (db : Database) :
    ((w.transact db).1 = .ok () ∧ w.Turns db.tables (w.transact db).2.tables) ∨
    ∃ fault, (w.transact db).1 = .error fault ∧ (w.transact db).2.tables = db.tables := by
  have hturns {α : Type} (check : Except ServiceFault Unit) {work : Work α}
      {change : Database → Except ServiceFault α × Database} (h : work.CarriedOutBy change)
      (ht : ∀ {t t' a}, (Work.guarded check work).eval t = (.ok a, t') → w.Turns t t') :
      ((carryOut check change db).1 = .ok () ∧
        w.Turns db.tables (carryOut check change db).2.tables) ∨
      ∃ fault, (carryOut check change db).1 = .error fault ∧
        (carryOut check change db).2.tables = db.tables :=
    (carryOut_cases h db).imp_left fun ⟨_, ha, he⟩ => ⟨ha, ht he⟩
  cases w with
  | createPrice new id now =>
    exact hturns _ (Work.carriedOut_atomically (Prices.failsPlainly_create new id now))
      Prices.turns_create
  | revisePrice id value now =>
    exact hturns _ (Work.carriedOut_atomically (Prices.failsPlainly_revise id value now))
      Prices.turns_revise
  | deletePrice id now =>
    exact hturns (.ok ()) (Work.carriedOut_atomically (Prices.failsPlainly_delete id now))
      Prices.turns_delete
  | restorePrice id now =>
    exact hturns (.ok ()) (Work.carriedOut_atomically (Prices.failsPlainly_restore id now))
      Prices.turns_restore
  | createHarvest new id now =>
    exact hturns _ (Work.carriedOut_run (Harvests.failsPlainly_create new id now)
      (Harvests.changesLast_create new id now)) Harvests.turns_create
  | deleteHarvest id now =>
    exact hturns (.ok ()) (Work.carriedOut_run (Harvests.failsPlainly_delete id now)
      (Harvests.changesLast_delete id now)) Harvests.turns_delete

theorem turns_of_transact {w : Write} {db store : Database}
    (h : w.transact db = (.ok (), store)) : w.Turns db.tables store.tables := by
  rcases w.transact_cases db with ⟨-, ht⟩ | ⟨fault, hf, -⟩
  · rw [h] at ht
    exact ht
  · rw [h] at hf
    cases hf

theorem tables_of_transact {w : Write} {db store : Database} {fault : ServiceFault}
    (h : w.transact db = (.error fault, store)) : store.tables = db.tables := by
  rcases w.transact_cases db with ⟨hok, -⟩ | ⟨fault', -, ht⟩
  · rw [h] at hok
    cases hok
  · rw [h] at ht
    exact ht

theorem refuses_transact (w : Write) (db : Database) :
    (w.transact db).2.refuses = db.refuses := by
  cases w with
  | createPrice new id now => exact refuses_carryOut (Work.refuses_atomically _) db
  | revisePrice id value now => exact refuses_carryOut (Work.refuses_atomically _) db
  | deletePrice id now => exact refuses_carryOut (Work.refuses_atomically _) db
  | restorePrice id now => exact refuses_carryOut (Work.refuses_atomically _) db
  | createHarvest new id now => exact refuses_carryOut (Work.refuses_run _) db
  | deleteHarvest id now => exact refuses_carryOut (Work.refuses_run _) db

end Write

/-! ### Steps of calls -/

/-- Where a call stands. -/
inductive Call
  | idle
  | missed (k : CacheKey)
  | found (k : CacheKey) (a : k.Answer)
  | answered (k : CacheKey) (result : Except ServiceFault k.Answer)
  | committed (w : Write)
  | settled (w : Write) (result : Except ServiceFault Unit)

/-- A step: a numbered call takes its next one, or the cache changes on its own, as when time
passes. -/
inductive Move (τ : Type)
  | look (n : Nat) (k : CacheKey)
  | compute (n : Nat)
  | keep (n : Nat)
  | commit (n : Nat) (w : Write)
  | clear (n : Nat)
  | pass (change : τ → τ)

/-- The call that takes a step. -/
def Move.caller? : Move τ → Option Nat
  | look n _ | compute n | keep n | commit n _ | clear n => some n
  | pass _ => none

/-- The market and where each call stands. -/
structure Traffic (τ : Type) where
  state : MarketState τ
  calls : Nat → Call

namespace Traffic

/-- No call has begun. -/
def start (s : MarketState τ) : Traffic τ := ⟨s, fun _ => .idle⟩

/-- A call has come to stand somewhere, and the market has changed. -/
def now (t : Traffic τ) (n : Nat) (call : Call) (s : MarketState τ) : Traffic τ :=
  ⟨s, Function.update t.calls n call⟩

@[simp] theorem state_now (t : Traffic τ) (n : Nat) (call : Call) (s : MarketState τ) :
    (t.now n call s).state = s := rfl

@[simp] theorem calls_now_self (t : Traffic τ) (n : Nat) (call : Call) (s : MarketState τ) :
    (t.now n call s).calls n = call := Function.update_self ..

@[simp] theorem now_now (t : Traffic τ) (n : Nat) (call call' : Call) (s s' : MarketState τ) :
    (t.now n call s).now n call' s' = t.now n call' s' := by
  simp only [now, Function.update_idem]

theorem calls_now_of_ne (t : Traffic τ) {n i : Nat} (h : i ≠ n) (call : Call)
    (s : MarketState τ) : (t.now n call s).calls i = t.calls i := Function.update_of_ne h ..

/-- One step. A call does not take a step that is not its next one. -/
def step (m : Market τ) (t : Traffic τ) : Move τ → Traffic τ
  | .look n k =>
    match t.calls n with
    | .idle =>
      match k.check with
      | .error fault => t.now n (.answered k (.error fault)) t.state
      | .ok () =>
        match (k.query m).lookup m.cache t.state with
        | (some a, s) => t.now n (.answered k (.ok a)) s
        | (none, s) => t.now n (.missed k) s
    | _ => t
  | .compute n =>
    match t.calls n with
    | .missed k =>
      match (k.query m).compute t.state with
      | (.ok a, s) => t.now n (.found k a) s
      | (.error fault, s) => t.now n (.answered k (.error fault)) s
    | _ => t
  | .keep n =>
    match t.calls n with
    | .found k a => t.now n (.answered k (.ok a)) ((k.query m).keep m.cache a t.state)
    | _ => t
  | .commit n w =>
    match t.calls n with
    | .idle =>
      match w.transact t.state.store with
      | (.ok (), store) => t.now n (.committed w) { t.state with store }
      | (.error fault, store) => t.now n (.settled w (.error fault)) { t.state with store }
    | _ => t
  | .clear n =>
    match t.calls n with
    | .committed w =>
      t.now n (.settled w (m.invalidate w.entity t.state).1) (m.invalidate w.entity t.state).2
    | _ => t
  | .pass change => ⟨{ t.state with cache := change t.state.cache }, t.calls⟩

/-- One step after another. -/
def run (m : Market τ) (moves : List (Move τ)) (t : Traffic τ) : Traffic τ := moves.foldl (step m) t

theorem run_cons (m : Market τ) (move : Move τ) (moves : List (Move τ)) (t : Traffic τ) :
    run m (move :: moves) t = run m moves (step m t move) := rfl

theorem run_append (m : Market τ) (earlier later : List (Move τ)) (t : Traffic τ) :
    run m (earlier ++ later) t = run m later (run m earlier t) :=
  List.foldl_append ..

/-- What every step of a run keeps, the run keeps. -/
theorem run_keeps {m : Market τ} {motive : Traffic τ → Prop} {moves : List (Move τ)}
    (hstep : ∀ move ∈ moves, ∀ t, motive t → motive (step m t move)) {t : Traffic τ}
    (h : motive t) : motive (run m moves t) := by
  induction moves generalizing t with
  | nil => exact h
  | cons move moves ih =>
    exact ih (fun x hx => hstep x (List.mem_cons_of_mem _ hx))
      (hstep move List.mem_cons_self t h)

/-- The write that a step commits: a call begins with its transaction, and it succeeds. -/
def commit? (t : Traffic τ) : Move τ → Option Write
  | .commit n w =>
    match t.calls n, (w.transact t.state.store).1 with
    | .idle, .ok () => some w
    | _, _ => none
  | _ => none

/-- The writes that a run commits, in their order. A transaction that fails commits nothing. -/
def commits (m : Market τ) : List (Move τ) → Traffic τ → List Write
  | [], _ => []
  | move :: moves, t => (t.commit? move).toList ++ commits m moves (step m t move)

theorem commits_append (m : Market τ) (earlier later : List (Move τ)) (t : Traffic τ) :
    commits m (earlier ++ later) t = commits m earlier t ++ commits m later (run m earlier t) := by
  induction earlier generalizing t with
  | nil => rfl
  | cons move moves ih =>
    rw [List.cons_append, commits, commits, ih, List.append_assoc, run_cons]

/-- What is kept by every step that commits no other writes than some, a run keeps that commits no
others. -/
theorem run_keeps_of_commits {m : Market τ} {motive : Traffic τ → Prop} {may : Write → Prop}
    {moves : List (Move τ)}
    (hstep : ∀ move ∈ moves, ∀ t : Traffic τ, (∀ w ∈ t.commit? move, may w) → motive t →
      motive (step m t move))
    {t : Traffic τ} (hmay : ∀ w ∈ commits m moves t, may w) (h : motive t) :
    motive (run m moves t) := by
  induction moves generalizing t with
  | nil => exact h
  | cons move moves ih =>
    obtain ⟨hfirst, hrest⟩ := List.forall_mem_append.1 hmay
    have hmove := hstep move List.mem_cons_self t fun w hw => hfirst w (Option.mem_toList.2 hw)
    exact ih (fun x hx => hstep x (List.mem_cons_of_mem _ hx)) hrest (hmove h)

variable (m : Market τ) (t : Traffic τ) (n : Nat)

/-- **A question that is alone takes its three steps to what it is answered with.** -/
theorem run_question (k : CacheKey) (h : t.calls n = .idle) :
    run m [.look n k, .compute n, .keep n] t =
      t.now n (.answered k (k.ask m t.state).1) (k.ask m t.state).2 := by
  show step m (step m (step m t (.look n k)) (.compute n)) (.keep n) = _
  rw [CacheKey.ask_eq]
  simp only [step, h, checked, CachedQuery.answer]
  cases k.check with
  | error fault => simp only [calls_now_self]
  | ok u =>
    rcases (k.query m).lookup m.cache t.state with ⟨_ | a, s⟩
    · simp only [calls_now_self, state_now]
      rcases (k.query m).compute s with ⟨fault | a, s'⟩
      · simp only [calls_now_self, now_now]
      · simp only [calls_now_self, state_now, now_now]
    · simp only [calls_now_self]

/-- **A write that is alone takes its two steps to what is performed.** -/
theorem run_write (w : Write) (h : t.calls n = .idle) :
    run m [.commit n w, .clear n] t =
      t.now n (.settled w (w.perform m t.state).1) (w.perform m t.state).2 := by
  show step m (step m t (.commit n w)) (.clear n) = _
  rw [w.perform_eq_commit]
  simp only [step, h, commit]
  rcases w.transact t.state.store with ⟨fault | a, store⟩
  · simp only [calls_now_self]
  · simp only [calls_now_self, state_now, now_now]
    rcases m.invalidate w.entity { t.state with store } with ⟨_ | _, s⟩ <;> rfl

/-! ### All that a step can do -/

/-- **What a step makes of the market and of its call.** -/
inductive Stepped (m : Market τ) (t : Traffic τ) : Move τ → Traffic τ → Prop
  | still {move : Move τ} : Stepped m t move t
  | rejected {n : Nat} {k : CacheKey} {fault : ServiceFault} (idle : t.calls n = .idle)
    (rejected : k.check = .error fault) :
    Stepped m t (.look n k) (t.now n (.answered k (.error fault)) t.state)
  | hit {n : Nat} {k : CacheKey} {a : k.Answer} {bytes : Bytes} (idle : t.calls n = .idle)
    (entry : (m.cache.get k.text t.state.cache).1 = .ok (some bytes))
    (reads : Json.Reader.decode k.reader bytes = .ok a) :
    Stepped m t (.look n k) (t.now n (.answered k (.ok a))
      { t.state with cache := (m.cache.get k.text t.state.cache).2 })
  | missed {n : Nat} {k : CacheKey} (idle : t.calls n = .idle) :
    Stepped m t (.look n k) (t.now n (.missed k)
      { t.state with cache := (m.cache.get k.text t.state.cache).2 })
  | computed {n : Nat} {k : CacheKey} {a : k.Answer} {store : Database}
    (missed : t.calls n = .missed k) (run : k.work.run t.state.store = (.ok a, store)) :
    Stepped m t (.compute n) (t.now n (.found k a) { t.state with store })
  | failed {n : Nat} {k : CacheKey} {fault : ServiceFault} {store : Database}
    (missed : t.calls n = .missed k) (run : k.work.run t.state.store = (.error fault, store)) :
    Stepped m t (.compute n) (t.now n (.answered k (.error fault)) { t.state with store })
  | kept {n : Nat} {k : CacheKey} {a : k.Answer} (ttl : Nat) (found : t.calls n = .found k a) :
    Stepped m t (.keep n) (t.now n (.answered k (.ok a)) { t.state with
      cache := (m.cache.set k.text (Cache.encode (k.json a)) ttl t.state.cache).2 })
  | committed {n : Nat} {w : Write} {store : Database} (idle : t.calls n = .idle)
    (run : w.transact t.state.store = (.ok (), store)) :
    Stepped m t (.commit n w) (t.now n (.committed w) { t.state with store })
  | refused {n : Nat} {w : Write} {fault : ServiceFault} {store : Database}
    (idle : t.calls n = .idle) (run : w.transact t.state.store = (.error fault, store)) :
    Stepped m t (.commit n w) (t.now n (.settled w (.error fault)) { t.state with store })
  | cleared {n count : Nat} {w : Write} (committed : t.calls n = .committed w)
    (cleared : (m.cache.deletePrefix w.entity.label t.state.cache).1 = .ok count) :
    Stepped m t (.clear n) (t.now n (.settled w (.ok ()))
      { t.state with cache := (m.cache.deletePrefix w.entity.label t.state.cache).2 })
  | unclear {n : Nat} {w : Write} {fault : CacheFault} (committed : t.calls n = .committed w)
    (cleared : (m.cache.deletePrefix w.entity.label t.state.cache).1 = .error fault) :
    Stepped m t (.clear n) (t.now n (.settled w (.error (.invalidation w.entity fault)))
      { t.state with cache := (m.cache.deletePrefix w.entity.label t.state.cache).2 })
  | passed {change : τ → τ} :
    Stepped m t (.pass change) ⟨{ t.state with cache := change t.state.cache }, t.calls⟩

theorem stepped_look (n : Nat) (k : CacheKey) : Stepped m t (.look n k) (step m t (.look n k)) := by
  cases hc : t.calls n with
  | idle =>
    cases hk : k.check with
    | error fault =>
      simp only [step, hc, hk]
      exact .rejected hc hk
    | ok u =>
      simp only [step, hc, hk, CachedQuery.lookup, CacheKey.query_key, CacheKey.query_reader]
      have hsnd := m.cache.read_snd k.reader k.text t.state.cache
      rcases hr : m.cache.read k.reader k.text t.state.cache with ⟨_ | a, c⟩
      · rw [hr] at hsnd
        subst hsnd
        exact .missed hc
      · obtain ⟨bytes, hget, hread⟩ := m.cache.read_eq_some _ _ _ (congrArg Prod.fst hr)
        rw [hr] at hsnd
        subst hsnd
        exact .hit hc hget hread
  | _ =>
    simp only [step, hc]
    exact .still

theorem stepped_compute (n : Nat) : Stepped m t (.compute n) (step m t (.compute n)) := by
  cases hc : t.calls n with
  | missed k =>
    simp only [step, hc, CachedQuery.compute, CacheKey.query_work]
    rcases hr : k.work.run t.state.store with ⟨fault | a, store⟩
    · exact .failed hc hr
    · exact .computed hc hr
  | _ =>
    simp only [step, hc]
    exact .still

theorem stepped_keep (n : Nat) : Stepped m t (.keep n) (step m t (.keep n)) := by
  cases hc : t.calls n with
  | found k a =>
    simp only [step, hc, CachedQuery.keep, CacheKey.query_key, CacheKey.query_json]
    exact .kept _ hc
  | _ =>
    simp only [step, hc]
    exact .still

theorem stepped_commit (n : Nat) (w : Write) :
    Stepped m t (.commit n w) (step m t (.commit n w)) := by
  cases hc : t.calls n with
  | idle =>
    simp only [step, hc]
    rcases hr : w.transact t.state.store with ⟨fault | u, store⟩
    · exact .refused hc hr
    · exact .committed hc hr
  | _ =>
    simp only [step, hc]
    exact .still

theorem stepped_clear (n : Nat) : Stepped m t (.clear n) (step m t (.clear n)) := by
  cases hc : t.calls n with
  | committed w =>
    simp only [step, hc, invalidate]
    rcases hd : m.cache.deletePrefix w.entity.label t.state.cache with ⟨fault | count, c⟩
    · obtain rfl : (m.cache.deletePrefix w.entity.label t.state.cache).2 = c := congrArg Prod.snd hd
      exact .unclear hc (congrArg Prod.fst hd)
    · obtain rfl : (m.cache.deletePrefix w.entity.label t.state.cache).2 = c := congrArg Prod.snd hd
      exact .cleared hc (congrArg Prod.fst hd)
  | _ =>
    simp only [step, hc]
    exact .still

theorem stepped (move : Move τ) : Stepped m t move (step m t move) := by
  cases move with
  | look n k => exact stepped_look m t n k
  | compute n => exact stepped_compute m t n
  | keep n => exact stepped_keep m t n
  | commit n w => exact stepped_commit m t n w
  | clear n => exact stepped_clear m t n
  | pass change => exact .passed

/-! ### What all steps keep -/

theorem calls_step {move : Move τ} {i : Nat} (h : move.caller? ≠ some i) :
    (step m t move).calls i = t.calls i := by
  have ht := stepped m t move
  generalize step m t move = t' at ht
  cases ht with
  | still => rfl
  | passed => rfl
  | _ => exact calls_now_of_ne _ (fun he => h (congrArg some he.symm)) _ _

theorem refuses_step (move : Move τ) :
    (step m t move).state.store.refuses = t.state.store.refuses := by
  have ht := stepped m t move
  generalize step m t move = t' at ht
  cases ht with
  | @computed n k a store missed run | @failed n k fault store missed run =>
    rw [← k.work.refuses_run t.state.store, run]
    rfl
  | @committed n w store idle run | @refused n w fault store idle run =>
    rw [← w.refuses_transact t.state.store, run]
    rfl
  | _ => rfl

theorem refuses_run (moves : List (Move τ)) :
    (run m moves t).state.store.refuses = t.state.store.refuses :=
  run_keeps (motive := fun t' => t'.state.store.refuses = t.state.store.refuses)
    (fun move _ t' h => (refuses_step m t' move).trans h) rfl

/-- A write that is settled stays settled. -/
theorem settled_step {w : Write} {result : Except ServiceFault Unit} {i : Nat}
    (h : t.calls i = .settled w result) (move : Move τ) :
    (step m t move).calls i = .settled w result := by
  by_cases hi : move.caller? = some i
  · cases move with
    | pass change => exact h
    | _ => cases hi; simp only [step, h]
  · rw [calls_step m t hi, h]

theorem settled_run {w : Write} {result : Except ServiceFault Unit} {i : Nat}
    (h : t.calls i = .settled w result) (moves : List (Move τ)) :
    (run m moves t).calls i = .settled w result :=
  run_keeps (motive := fun t => t.calls i = .settled w result)
    (fun move _ t h => settled_step m t h move) h

/-- A write that is committed stays so until it clears the cache. -/
theorem committed_step {w : Write} {i : Nat} (h : t.calls i = .committed w) {move : Move τ}
    (hm : move ≠ .clear i) : (step m t move).calls i = .committed w := by
  by_cases hi : move.caller? = some i
  · cases move with
    | pass change => exact h
    | clear n => cases hi; exact absurd rfl hm
    | _ => cases hi; simp only [step, h]
  · rw [calls_step m t hi, h]

theorem committed_run {w : Write} {i : Nat} (h : t.calls i = .committed w) {moves : List (Move τ)}
    (hm : .clear i ∉ moves) : (run m moves t).calls i = .committed w :=
  run_keeps (motive := fun t => t.calls i = .committed w)
    (fun _ hin t h => committed_step m t h fun he => hm (he ▸ hin)) h

/-! ### Calls come to an end -/

/-- What a question still has to do, given where it stands. -/
inductive Due (n : Nat) (k : CacheKey) : Call → List (Move τ) → Prop
  | looks : Due n k .idle [.look n k, .compute n, .keep n]
  | computes : Due n k (.missed k) [.compute n, .keep n]
  | keeps (a : k.Answer) : Due n k (.found k a) [.keep n]
  | answered (result : Except ServiceFault k.Answer) (moves : List (Move τ)) :
    Due n k (.answered k result) moves

/-- The steps that a call takes itself. -/
def own (n : Nat) (moves : List (Move τ)) : List (Move τ) :=
  moves.filter fun move => move.caller? = some n

theorem due_step {k : CacheKey} (hk : k.check = .ok ()) {move : Move τ} {moves : List (Move τ)}
    (h : Due n k (t.calls n) (own n (move :: moves))) :
    Due n k ((step m t move).calls n) (own n moves) := by
  by_cases hn : move.caller? = some n
  · have hown : own n (move :: moves) = move :: own n moves := by
      rw [own, List.filter_cons_of_pos (by simpa using hn)]
      rfl
    rw [hown] at h
    -- what is due goes with where the call stands, so that is named before the cases are told apart
    generalize hcall : t.calls n = call at h
    generalize own n moves = rest at h
    cases h with
    | looks =>
      simp only [step, hcall, hk]
      rcases (k.query m).lookup m.cache t.state with ⟨_ | a, s⟩
      · simp only [calls_now_self]
        exact .computes
      · simp only [calls_now_self]
        exact .answered _ _
    | computes =>
      simp only [step, hcall]
      rcases (k.query m).compute t.state with ⟨fault | a, s⟩
      · simp only [calls_now_self]
        exact .answered _ _
      · simp only [calls_now_self]
        exact .keeps a
    | keeps a =>
      simp only [step, hcall, calls_now_self]
      exact .answered _ _
    | answered result =>
      have hstays : (step m t move).calls n = .answered k result := by
        cases move with
        | pass change => exact hcall
        | _ => cases hn; simp only [step, hcall]
      rw [hstays]
      exact .answered _ _
  · rw [calls_step m t hn]
    have hown : own n (move :: moves) = own n moves := by
      rw [own, List.filter_cons_of_neg (by simpa using hn)]
      rfl
    rwa [hown] at h

/-- **A question that takes its three steps is answered**, whatever other calls do meanwhile. -/
theorem exists_answered {k : CacheKey} (hk : k.check = .ok ()) (moves : List (Move τ))
    (h : Due n k (t.calls n) (own n moves)) :
    ∃ result, (run m moves t).calls n = .answered k result := by
  induction moves generalizing t with
  | nil =>
    generalize hcall : t.calls n = call at h
    cases h with
    | answered result => exact ⟨result, hcall⟩
  | cons move moves ih => exact ih _ (due_step m t n hk h)

end Traffic

/-! ### A market in service -/

section Ready

open Traffic

variable (may : σ → List CacheNote → Prop)

/-- The cache is in a state that it may be in, and the tables are in good order. -/
structure Traffic.Ready (t : Traffic σ) : Prop where
  honest : ∃ notes, may t.state.cache notes
  orderly : t.state.store.tables.Orderly

/-- A step that is not a change of the cache on its own, or is one that the cache may come to. -/
def Move.Allowed : Move σ → Prop
  | .pass change => ∀ c notes, may c notes → may (change c) notes
  | _ => True

variable {m : Market σ} {may}

theorem Traffic.Ready.step (hm : m.cache.Honest may) {t : Traffic σ} (h : t.Ready may)
    {move : Move σ} (hmove : move.Allowed may) : (Traffic.step m t move).Ready may := by
  have ht := stepped m t move
  generalize Traffic.step m t move = t' at ht
  have hrun {k : CacheKey} {result : Except ServiceFault k.Answer} {store : Database}
      (run : k.work.run t.state.store = (result, store)) : store.tables.Orderly := by
    have htables := k.tables_run_work t.state.store
    rw [run] at htables
    exact htables ▸ h.orderly
  obtain ⟨notes, hnotes⟩ := h.honest
  cases ht with
  | still => exact h
  | rejected _ _ => exact ⟨h.honest, h.orderly⟩
  | hit _ _ _ => exact ⟨⟨notes, hm.get hnotes _⟩, h.orderly⟩
  | missed _ => exact ⟨⟨notes, hm.get hnotes _⟩, h.orderly⟩
  | computed _ run => exact ⟨h.honest, hrun run⟩
  | failed _ run => exact ⟨h.honest, hrun run⟩
  | kept ttl _ => exact ⟨⟨_, hm.set hnotes _ _ ttl⟩, h.orderly⟩
  | committed _ run => exact ⟨h.honest, (Write.turns_of_transact run).orderly h.orderly⟩
  | refused _ run => exact ⟨h.honest, (Write.tables_of_transact run) ▸ h.orderly⟩
  | cleared _ cleared => exact ⟨⟨_, hm.dropped hnotes _ cleared⟩, h.orderly⟩
  | unclear _ cleared => exact ⟨⟨notes, hm.kept hnotes _ cleared⟩, h.orderly⟩
  | passed => exact ⟨⟨notes, hmove _ _ hnotes⟩, h.orderly⟩

theorem Traffic.Ready.run (hm : m.cache.Honest may) {moves : List (Move σ)}
    (hmoves : ∀ move ∈ moves, move.Allowed may) {t : Traffic σ} (h : t.Ready may) :
    (Traffic.run m moves t).Ready may :=
  run_keeps (fun move hin _ h => h.step hm (hmoves move hin)) h

end Ready

end Market

end CropLedger
