import CropLedger.Proofs.Cache.Honest
import CropLedger.Proofs.Cache.Keys
import CropLedger.Proofs.Market.Writes

/-!
# Cached answers are the present answers

Whatever an honest cache may still give back is the written form of what the question of its name
comes to on the present tables. Questions add only such bytes, and a write that is committed drops
all that it makes stale. So a cache cannot be noticed, as long as it is cleared after each write.

* `Market.Serves`: the states of a market whose cache is honest and has been cleared in time;
* `CacheNote.Coherent`: the invariant on what was kept, with `Coherent.handed` and
  `Coherent.dropped` for its steps;
* `Market.Sound`: the invariant on states, with `Sound.ask` and `Sound.perform` for its steps;
* `Market.cache_transparent`: questions are answered as if there was no cache.
-/

namespace CropLedger

variable {σ : Type}

/-- A market whose cache keeps notes. -/
def Market.noting (m : Market σ) : Market (σ × List CacheNote) :=
  ⟨m.cache.noting, m.defaultTtl, m.historyTtl⟩

/-! ### The ways in which a question is answered -/

namespace CacheKey

/-- **How a question can be answered**: it is not accepted, found in the cache, computed and kept,
or it fails. -/
inductive Answered (m : Market σ) (k : CacheKey) (s : MarketState (σ × List CacheNote)) :
    Except ServiceFault k.Answer × MarketState (σ × List CacheNote) → Prop
  | rejected {fault : ServiceFault} (rejected : k.check = .error fault) :
    Answered m k s (.error fault, s)
  | found {a : k.Answer} {bytes : Bytes} (accepted : k.check = .ok ())
    (entry : (m.cache.get k.text s.cache.1).1 = .ok (some bytes))
    (reads : Json.Reader.decode k.reader bytes = .ok a) :
    Answered m k s (.ok a, ⟨s.store, (m.cache.get k.text s.cache.1).2, s.cache.2⟩)
  | computed {a : k.Answer} {store : Database} (ttl : Nat) (accepted : k.check = .ok ())
    (run : k.work.run s.store = (.ok a, store)) :
    Answered m k s (.ok a, ⟨store,
      (m.cache.set k.text (Cache.encode (k.json a)) ttl (m.cache.get k.text s.cache.1).2).2,
      .handed k.text (Cache.encode (k.json a)) :: s.cache.2⟩)
  | failed {fault : ServiceFault} {store : Database} (accepted : k.check = .ok ())
    (run : k.work.run s.store = (.error fault, store)) :
    Answered m k s (.error fault, ⟨store, (m.cache.get k.text s.cache.1).2, s.cache.2⟩)

theorem answered (m : Market σ) (k : CacheKey) (s : MarketState (σ × List CacheNote)) :
    Answered m k s (k.ask m.noting s) := by
  have ha := k.asked m.noting s
  generalize k.ask m.noting s = outcome at ha
  cases ha with
  | rejected rejected => exact .rejected rejected
  | found accepted entry reads => exact .found accepted entry reads
  | computed accepted run => exact .computed _ accepted run
  | failed accepted run => exact .failed accepted run

end CacheKey

/-! ### The invariant -/

namespace CacheNote

/-- **All that is standing is the written form of a present answer.** -/
def Coherent (notes : List CacheNote) (t : Tables) : Prop :=
  ∀ key bytes, Standing notes key bytes →
    ∃ (k : CacheKey) (a : k.Answer), key = k.text ∧ bytes = Cache.encode (k.json a) ∧
      k.value t = .ok a

theorem coherent_nil (t : Tables) : Coherent [] t := nofun

theorem Coherent.handed {notes : List CacheNote} {t : Tables} (h : Coherent notes t) {k : CacheKey}
    {a : k.Answer} (ha : k.value t = .ok a) :
    Coherent (.handed k.text (Cache.encode (k.json a)) :: notes) t := by
  intro key bytes hs
  rcases hs with ⟨rfl, rfl⟩ | hs
  · exact ⟨k, a, rfl, rfl, ha⟩
  · exact h key bytes hs

/-- Once the names of a kind are dropped, the tables may differ about that kind. -/
theorem Coherent.dropped {notes : List CacheNote} {t t' : Tables} (h : Coherent notes t)
    {e : Entity} (ht : ∀ e', e' ≠ e → t.Agree e' t') :
    Coherent (.dropped e.label :: notes) t' := by
  rintro key bytes ⟨hlabel, hs⟩
  obtain ⟨k, a, rfl, hb, ha⟩ := h key bytes hs
  have hk : k.entity ≠ e := fun he => hlabel ((k.label_prefix_iff e).2 he)
  exact ⟨k, a, rfl, hb, (k.value_congr (ht _ hk)).symm.trans ha⟩

end CacheNote

open CacheNote (Coherent)

/-- A write leaves what the tables say about the other kind alone. -/
theorem Market.Write.Turns.agree {t t' : Tables} {w : Market.Write} (h : w.Turns t t') {e : Entity}
    (he : e ≠ w.entity) : t.Agree e t' := by
  cases h with
  | createPrice | revisePrice | deletePrice | restorePrice =>
    cases e with
    | price => exact absurd rfl he
    | harvest => rfl
  | createHarvest | deleteHarvest =>
    cases e with
    | price => exact ⟨rfl, rfl⟩
    | harvest => exact absurd rfl he

namespace Market

variable {m : Market σ} {may : σ → List CacheNote → Prop}

/-- The cache is in a state that it may be in, and all that is standing is present. -/
structure Sound (may : σ → List CacheNote → Prop) (s : MarketState (σ × List CacheNote)) :
    Prop where
  honest : may s.cache.1 s.cache.2
  coherent : Coherent s.cache.2 s.store.tables

theorem Sound.ask (hm : m.cache.Honest may) {s : MarketState (σ × List CacheNote)}
    (h : Sound may s) (k : CacheKey) : Sound may (k.ask m.noting s).2 := by
  have hget := hm.get h.honest k.text
  have ha := k.answered m s
  generalize k.ask m.noting s = outcome at ha
  have htables {result : Except ServiceFault k.Answer} {store : Database}
      (run : k.work.run s.store = (result, store)) : store.tables = s.store.tables := by
    rw [← k.tables_run_work s.store, run]
  cases ha with
  | rejected _ => exact h
  | found _ _ _ => exact ⟨hget, h.coherent⟩
  | @computed a store ttl accepted run =>
    refine ⟨hm.set hget _ _ _, ?_⟩
    show Coherent _ store.tables
    rw [htables run]
    exact Coherent.handed h.coherent (CacheKey.value_of_run accepted run)
  | @failed fault store _ run =>
    refine ⟨hget, ?_⟩
    show Coherent _ store.tables
    rw [htables run]
    exact h.coherent

/-- The clearing after a write, if it came to that, has succeeded. -/
def Cleared (answer : Except ServiceFault Unit) : Prop :=
  ∀ fault, answer = .error fault → fault.isCommitted = false

theorem Sound.perform (hm : m.cache.Honest may) {s : MarketState (σ × List CacheNote)}
    (h : Sound may s) {w : Write} (hw : Cleared (w.perform m.noting s).1) :
    Sound may (w.perform m.noting s).2 := by
  rcases w.perform_cases m.noting s with hh | ⟨fault, hr⟩
  · have hanswer := hh.answer
    have hcache := hh.cache
    -- the write has happened: either the clearing fails, which is excluded, or all that the write
    -- made stale is dropped
    cases hd : (m.cache.deletePrefix w.entity.label s.cache.1).1 with
    | error fault =>
      have herror : (w.perform m.noting s).1 = .error (.invalidation w.entity fault) := by
        rw [hanswer]
        simp only [noting, Cache.noting, hd, settled]
      cases hw _ herror
    | ok n =>
      have hnotes : (w.perform m.noting s).2.cache =
          ((m.cache.deletePrefix w.entity.label s.cache.1).2,
            .dropped w.entity.label :: s.cache.2) := by
        rw [hcache]
        simp only [noting, Cache.noting, hd]
      refine ⟨?_, ?_⟩
      · rw [hnotes]
        exact hm.dropped h.honest _ hd
      · rw [hnotes]
        exact Coherent.dropped h.coherent fun e he => hh.turns.agree he
  · refine ⟨?_, ?_⟩
    · rw [hr.cache]
      exact h.honest
    · rw [hr.cache, hr.tables]
      exact h.coherent

/-- **The states of a market in service**: it opens with a cache that was handed nothing; operations
are performed one after another, each committed write being followed by a clearing that succeeds;
and in between the cache may come into any state that it may be in. -/
inductive Serves (m : Market σ) (may : σ → List CacheNote → Prop) :
    MarketState (σ × List CacheNote) → Prop
  | opened {store : Database} {c : σ} (fresh : may c []) : Serves m may ⟨store, c, []⟩
  | asked {s : MarketState (σ × List CacheNote)} (h : Serves m may s) (k : CacheKey) :
    Serves m may (k.ask m.noting s).2
  | written {s : MarketState (σ × List CacheNote)} (h : Serves m may s) (w : Write)
    (cleared : Cleared (w.perform m.noting s).1) : Serves m may (w.perform m.noting s).2
  | passed {s : MarketState (σ × List CacheNote)} (h : Serves m may s) {c : σ}
    (honest : may c s.cache.2) : Serves m may ⟨s.store, c, s.cache.2⟩

theorem sound_of_serves (hm : m.cache.Honest may) {s : MarketState (σ × List CacheNote)}
    (h : Serves m may s) : Sound may s := by
  induction h with
  | opened fresh => exact ⟨fresh, CacheNote.coherent_nil _⟩
  | asked _ k ih => exact ih.ask hm k
  | written _ w cleared ih => exact ih.perform hm cleared
  | passed _ honest ih => exact ⟨honest, ih.coherent⟩

/-! ### Answers -/

theorem uncached_fst (m : Market σ) {k : CacheKey} (hk : k.check = .ok ()) (s : MarketState σ) :
    (k.uncached m s).1 = (k.work.run s.store).1 := by
  simp only [CacheKey.uncached, checked, hk, CachedQuery.compute, CacheKey.query_work]

/-- Bytes that are standing are read as the present answer. -/
theorem value_of_standing {notes : List CacheNote} {t : Tables} (h : Coherent notes t)
    {k : CacheKey} {bytes : Bytes} (hs : CacheNote.Standing notes k.text bytes) {a : k.Answer}
    (hread : Json.Reader.decode k.reader bytes = .ok a) : k.value t = .ok a := by
  obtain ⟨k', a', htext, rfl, hvalue⟩ := h k.text bytes hs
  obtain rfl := CacheKey.text_injective htext
  rw [Json.Reader.decode_encode] at hread
  rw [k.faithful a' a hread]
  exact hvalue

/-- **A cache cannot be noticed**, if it is honest and has been cleared after each committed write.
A question is answered with what it comes to on the present tables, or with what it comes to without
a cache if a statement is refused; these are the same if none is. What fails is not kept. -/
theorem cache_transparent (hm : m.cache.Honest may) {s : MarketState (σ × List CacheNote)}
    (hs : Serves m may s) (k : CacheKey) :
    ((k.ask m.noting s).1 = k.value s.store.tables ∨
      (k.ask m.noting s).1 = (k.uncached m.noting s).1) ∧
    (s.store.RefusesNothing → (k.ask m.noting s).1 = (k.uncached m.noting s).1) ∧
    ∀ fault, (k.ask m.noting s).1 = .error fault → (k.ask m.noting s).2.cache.2 = s.cache.2 := by
  have hsound := sound_of_serves hm hs
  have ha := k.answered m s
  generalize k.ask m.noting s = outcome at ha
  cases ha with
  | @rejected fault rejected =>
    have hu : (k.uncached m.noting s).1 = .error fault := by
      simp only [CacheKey.uncached, checked, rejected]
    exact ⟨.inr hu.symm, fun _ => hu.symm, fun _ _ => rfl⟩
  | @found a bytes accepted entry reads =>
    -- the store was not asked at all, so the answer is that of the tables even if it refuses
    have hvalue : k.value s.store.tables = .ok a := by
      rcases hm.found hsound.honest k entry with hgarbled | hstanding
      · exact absurd reads (hgarbled a)
      · exact value_of_standing hsound.coherent hstanding reads
    refine ⟨.inl hvalue.symm, fun hr => ?_, fun _ hf => nomatch hf⟩
    rw [uncached_fst m.noting accepted s, ← hvalue, CacheKey.value_of_check accepted,
      ← k.work.run_of_refusesNothing hr]
  | @computed a store ttl accepted run =>
    have hu : (k.uncached m.noting s).1 = .ok a := by rw [uncached_fst m.noting accepted s, run]
    exact ⟨.inr hu.symm, fun _ => hu.symm, fun _ hf => nomatch hf⟩
  | @failed fault store accepted run =>
    have hu : (k.uncached m.noting s).1 = .error fault := by
      rw [uncached_fst m.noting accepted s, run]
    exact ⟨.inr hu.symm, fun _ => hu.symm, fun _ _ => rfl⟩

/-! ### A run -/

namespace Sample

/-- Nothing is stored and nothing is cached. -/
def unused : MarketState (Memory × List CacheNote) :=
  ⟨⟨.empty, 0, fun _ _ => false⟩, .empty 100, []⟩

/-- The price of the sample pair is offered, asked for, and revised. -/
def revised : MarketState (Memory × List CacheNote) :=
  let offer : Write := .createPrice ⟨pair, amount 105⟩ ⟨1⟩ (time 1)
  let offered := (offer.perform market.noting unused).2
  let asked := ((CacheKey.price ⟨1⟩).ask market.noting offered).2
  ((Write.revisePrice ⟨1⟩ (amount 123) (time 2)).perform market.noting asked).2

/-- A second later it is asked for once more, so that the new answer is kept. -/
def reread : MarketState (Memory × List CacheNote) :=
  ((CacheKey.price ⟨1⟩).ask market.noting
    ⟨revised.store, revised.cache.1.advance 1000, revised.cache.2⟩).2

theorem cleared_of_ok {answer : Except ServiceFault Unit} (h : answer = .ok ()) : Cleared answer :=
  fun _ hf => nomatch h.symm.trans hf

theorem serves_revised : Serves market Memory.Noted revised :=
  .written (.asked (.written (.opened (Memory.noted_empty 100)) _ (cleared_of_ok rfl)) _) _
    (cleared_of_ok rfl)

theorem serves_reread : Serves market Memory.Noted reread := by
  have hnoted := (sound_of_serves Memory.honest serves_revised).honest
  exact .asked (.passed serves_revised (Memory.noted_advance hnoted 1000)) _

end Sample

open Sample in
/-- The price before the revision was kept and is dropped; the revised one is found. -/
theorem cache_transparent_sample :
    (market.cache.get (CacheKey.price ⟨1⟩).text revised.cache.1).1 = .ok none ∧
      (∃ bytes, (market.cache.get (CacheKey.price ⟨1⟩).text reread.cache.1).1 = .ok (some bytes)) ∧
      ((CacheKey.price ⟨1⟩).ask market.noting reread).1 =
        ((CacheKey.price ⟨1⟩).uncached market.noting reread).1 ∧
      (((CacheKey.price ⟨1⟩).uncached market.noting reread).1.toOption.map
        fun p : PriceView => p.value) = some (amount 123) :=
  ⟨rfl, ⟨_, rfl⟩,
    (cache_transparent Memory.honest serves_reread (.price ⟨1⟩)).2.1 fun _ _ => rfl,
    by decide +kernel⟩

end Market

end CropLedger
