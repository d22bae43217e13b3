import CropLedger.Market.Operations
import CropLedger.Proofs.Store.Evaluation

/-!
# The three steps of a cached question

A question is answered from the cache, or from the store and then kept, or it fails and nothing is
kept.

* `Cache.read_eq_some`: what counts as an entry of the cache;
* `CachedQuery.answer_of_found`, `CachedQuery.answer_of_computed`, `CachedQuery.answer_of_failed`:
  the three ways in which an answer comes about;
* `CachedQuery.answer_of_lookup_none`: an answer that the cache does not have.
-/

namespace CropLedger

/-! ### Entries that are read -/

namespace Cache

variable {σ α : Type} (cache : Cache σ) (reader : Json.Reader α) (key : String) (c : σ)

theorem read_snd : (cache.read reader key c).2 = (cache.get key c).2 := by
  unfold read getValue
  split <;> rename_i h <;> exact (congrArg Prod.snd h).symm

/-- Only bytes that are read as a value count as an entry. -/
theorem read_eq_some {a : α} (h : (cache.read reader key c).1 = some a) :
    ∃ bytes, (cache.get key c).1 = .ok (some bytes) ∧
      Json.Reader.decode reader bytes = .ok a := by
  unfold read getValue at h
  split at h
  · rename_i entry c' he
    cases h
    have hd : decode reader (cache.get key c).1 = .ok (some a) := congrArg Prod.fst he
    cases hg : (cache.get key c).1 with
    | error fault =>
      rw [hg] at hd
      cases hd
    | ok found =>
      rw [hg] at hd
      cases found with
      | none => cases hd
      | some bytes =>
        refine ⟨bytes, rfl, ?_⟩
        simp only [decode] at hd
        cases hb : Json.Reader.decode reader bytes with
        | error fault =>
          rw [hb] at hd
          cases hd
        | ok b =>
          rw [hb] at hd
          cases hd
          rfl
  · cases h

end Cache

/-! ### Answers -/

namespace CachedQuery

variable {σ α : Type} (q : CachedQuery α) (cache : Cache σ) {s : MarketState σ} {c : σ}

theorem answer_of_found {a : α} (h : cache.read q.reader q.key.text s.cache = (some a, c)) :
    q.answer cache s = (.ok a, { s with cache := c }) := by
  simp only [answer, lookup, h]

theorem answer_of_computed {a : α} {store : Database}
    (h : cache.read q.reader q.key.text s.cache = (none, c))
    (hw : q.work.run s.store = (.ok a, store)) :
    q.answer cache s = (.ok a, ⟨store, cache.write q.key.text (q.json a) q.ttl c⟩) := by
  simp only [answer, lookup, compute, h, hw]
  rfl

theorem answer_of_failed {fault : ServiceFault} {store : Database}
    (h : cache.read q.reader q.key.text s.cache = (none, c))
    (hw : q.work.run s.store = (.error fault, store)) :
    q.answer cache s = (.error fault, ⟨store, c⟩) := by
  simp only [answer, lookup, compute, h, hw]

/-- An answer that the cache does not have is what the work comes to, if no statement is
refused. -/
theorem answer_of_lookup_none (hl : (q.lookup cache s).1 = none) (hr : s.store.RefusesNothing) :
    (q.answer cache s).1 = (q.work.eval s.store.tables).1 := by
  rw [← q.work.run_of_refusesNothing hr]
  rcases hc : cache.read q.reader q.key.text s.cache with ⟨entry, c⟩
  have he : entry = none := by simpa only [lookup, hc] using hl
  subst he
  rcases hw : q.work.run s.store with ⟨result, store⟩
  cases result with
  | ok a => rw [q.answer_of_computed cache hc hw]
  | error fault => rw [q.answer_of_failed cache hc hw]

end CachedQuery

end CropLedger
