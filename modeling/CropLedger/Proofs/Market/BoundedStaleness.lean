import CropLedger.Cache.Observed
import CropLedger.Proofs.Market.Transparency

/-!
# How old a cached answer can be

The cache is cleared after a write, but the clearing can fail, and then an answer that the write
made stale stays. It stays no longer than it would have otherwise: every entry of a cache in memory
is the answer of the tables at some moment of the run, and is gone once its time has passed since
then. Questions that find an entry do not touch it, and what is kept in its place is an answer of a
later moment.

* `InService.Event`: what may happen to a market whose cache fails at times;
* `InService.entries_act`: where the entries of the cache come from, event by event;
* `InService.dated_after`: every entry is dated by a moment of the run;
* `staleness_bounded`: an answer is that of a moment less than its time ago.
-/

namespace CropLedger.Market

/-- A market whose answers are kept in memory, by a cache that can be made to fail. -/
def inMemory (defaultTtl historyTtl : Nat) : Market (Observed Memory) :=
  ⟨Observed.cache Memory.cache, defaultTtl, historyTtl⟩

namespace InService

/-- The state of a market whose answers are kept in memory. -/
abbrev State := MarketState (Observed Memory)

/-- **What may happen to a market**: it is asked, or written to, time passes, calls of the cache
begin or cease to fail, and the cache forgets some entries. -/
inductive Event
  | ask (k : CacheKey)
  | write (w : Write)
  | pass (millis : Nat)
  | fail (outage : CacheOutage)
  | forget (keeps : MemoryEntry → Bool)

variable {m : Market (Observed Memory)} {defaultTtl historyTtl : Nat}

/-- The state after an event. -/
def act (m : Market (Observed Memory)) (s : State) : Event → State
  | .ask k => (k.ask m s).2
  | .write w => (w.perform m s).2
  | .pass millis => { s with cache.inner := s.cache.inner.advance millis }
  | .fail outage => { s with cache.outage := outage }
  | .forget keeps => { s with cache.inner.entries := s.cache.inner.entries.filter keeps }

/-- The state after some events. -/
def after (m : Market (Observed Memory)) (events : List Event) (s : State) : State :=
  events.foldl (act m) s

theorem after_append (events events' : List Event) (s : State) :
    after m (events ++ events') s = after m events' (after m events s) := List.foldl_append

/-- The time. -/
def clock (s : State) : Nat := s.cache.inner.now

/-- The entries of the cache. -/
def entries (s : State) : List MemoryEntry := s.cache.inner.entries

/-! ### One event -/

/-- **An entry that was made at a moment**: it is the answer to a question at that moment, and is
gone once the time for which such answers are kept has passed since. -/
structure MadeAt (m : Market (Observed Memory)) (s : State) (k : CacheKey) (e : MemoryEntry) :
    Prop where
  key : e.key = k.text
  answer : ∃ a, k.value s.store.tables = .ok a ∧ e.bytes = Cache.encode (k.json a)
  gone : e.gone = clock s + k.ttl m

section Calls

variable (c : Observed Memory)

theorem inner_get (key : String) : ((Observed.cache Memory.cache).get key c).2.inner = c.inner := by
  unfold Observed.cache
  simp only
  cases c.outage.get <;> rfl

theorem inner_set (key : String) (bytes : Bytes) (ttl : Nat) :
    ((Observed.cache Memory.cache).set key bytes ttl c).2.inner = c.inner ∨
      ((Observed.cache Memory.cache).set key bytes ttl c).2.inner =
        c.inner.insert key bytes ttl := by
  unfold Observed.cache
  simp only
  cases c.outage.set with
  | none => exact .inr rfl
  | some fault => exact .inl rfl

theorem inner_deletePrefix (label : String) :
    ((Observed.cache Memory.cache).deletePrefix label c).2.inner = c.inner ∨
      ((Observed.cache Memory.cache).deletePrefix label c).2.inner =
        (c.inner.deletePrefix label).2 := by
  unfold Observed.cache
  simp only
  cases c.outage.delete with
  | none => exact .inr rfl
  | some fault => exact .inl rfl

/-- What is found has been found in memory. -/
theorem find?_of_get {key : String} {bytes : Bytes}
    (h : ((Observed.cache Memory.cache).get key c).1 = .ok (some bytes)) :
    c.inner.find? key = some bytes := by
  unfold Observed.cache at h
  simp only at h
  cases hg : c.outage.get with
  | none =>
    rw [hg] at h
    exact Except.ok.inj h
  | some fault =>
    rw [hg] at h
    cases h

end Calls

/-- A question leaves the memory alone, or keeps its present answer in it. -/
theorem inner_ask (k : CacheKey) (s : State) :
    (k.ask (inMemory defaultTtl historyTtl) s).2.cache.inner = s.cache.inner ∨
      ∃ a, k.value s.store.tables = .ok a ∧
        (k.ask (inMemory defaultTtl historyTtl) s).2.cache.inner =
          s.cache.inner.insert k.text (Cache.encode (k.json a))
            (k.ttl (inMemory defaultTtl historyTtl)) := by
  have hasked := k.asked (inMemory defaultTtl historyTtl) s
  generalize k.ask (inMemory defaultTtl historyTtl) s = outcome at hasked
  have hget := inner_get s.cache k.text
  cases hasked with
  | rejected _ => exact .inl rfl
  | found _ _ _ => exact .inl hget
  | failed _ _ => exact .inl hget
  | @computed a store accepted hrun =>
    have hvalue : k.value s.store.tables = .ok a := CacheKey.value_of_run accepted hrun
    have hset := inner_set ((Observed.cache Memory.cache).get k.text s.cache).2 k.text
      (Cache.encode (k.json a)) (k.ttl (inMemory defaultTtl historyTtl))
    rw [hget] at hset
    rcases hset with hset | hset
    · exact .inl hset
    · exact .inr ⟨a, hvalue, hset⟩

/-- A write leaves the memory alone, or clears it of its kind. -/
theorem inner_perform (w : Write) (s : State) :
    (w.perform (inMemory defaultTtl historyTtl) s).2.cache.inner = s.cache.inner ∨
      (w.perform (inMemory defaultTtl historyTtl) s).2.cache.inner =
        (s.cache.inner.deletePrefix w.entity.label).2 := by
  rcases w.perform_cases (inMemory defaultTtl historyTtl) s with hh | ⟨fault, hr⟩
  · rw [hh.cache]
    exact inner_deletePrefix s.cache w.entity.label
  · exact .inl (congrArg Observed.inner hr.cache)

/-- **Where the entries of the cache come from**: an event leaves only what there was, and what a
question has just been answered with. -/
theorem entries_act {s : State} {event : Event} {e : MemoryEntry}
    (he : e ∈ entries (act (inMemory defaultTtl historyTtl) s event)) :
    e ∈ entries s ∨ ∃ k, MadeAt (inMemory defaultTtl historyTtl) s k e := by
  unfold entries at he ⊢
  cases event with
  | ask k =>
    simp only [act] at he
    rcases inner_ask k s with hsame | ⟨a, hvalue, hkept⟩
    · rw [hsame] at he
      exact .inl he
    · rw [hkept] at he
      rcases Memory.mem_insert he with he | rfl
      · exact .inl he
      · exact .inr ⟨k, rfl, ⟨a, hvalue, rfl⟩, rfl⟩
  | write w =>
    left
    simp only [act] at he
    rcases inner_perform w s with hsame | hcleared
    · rw [hsame] at he
      exact he
    · rw [hcleared] at he
      exact Memory.mem_entries_of_live (List.mem_filter.1 he).1
  | pass millis => exact .inl he
  | fail outage => exact .inl he
  | forget keeps => exact .inl (List.mem_filter.1 he).1

/-- Time does not run backwards. -/
theorem clock_act (s : State) (event : Event) :
    clock s ≤ clock (act (inMemory defaultTtl historyTtl) s event) := by
  unfold clock
  cases event with
  | ask k =>
    simp only [act]
    rcases inner_ask k s with hsame | ⟨a, -, hkept⟩
    · rw [hsame]
    · rw [hkept]
      exact Nat.le_refl _
  | write w =>
    simp only [act]
    rcases inner_perform w s with hsame | hcleared
    · rw [hsame]
    · rw [hcleared]
      exact Nat.le_refl _
  | pass millis => exact Nat.le_add_right _ _
  | fail outage => exact Nat.le_refl _
  | forget keeps => exact Nat.le_refl _

/-! ### A run -/

variable {start : State}

theorem clock_after (events : List Event) (s : State) :
    clock s ≤ clock (after (inMemory defaultTtl historyTtl) events s) := by
  induction events generalizing s with
  | nil => exact Nat.le_refl _
  | cons event events ih => exact Nat.le_trans (clock_act s event) (ih _)

theorem clock_mono {earlier events : List Event} (h : earlier <+: events) :
    clock (after (inMemory defaultTtl historyTtl) earlier start) ≤
      clock (after (inMemory defaultTtl historyTtl) events start) := by
  obtain ⟨later, rfl⟩ := h
  rw [after_append]
  exact clock_after later _

/-- **Every entry is dated**: it was made at some moment of the run. -/
theorem dated_after (hstart : entries start = []) (events : List Event) :
    ∀ e ∈ entries (after (inMemory defaultTtl historyTtl) events start),
      ∃ earlier, earlier <+: events ∧ ∃ k, MadeAt (inMemory defaultTtl historyTtl)
        (after (inMemory defaultTtl historyTtl) earlier start) k e := by
  -- only the last event can have kept an entry, so the induction takes the run from its end
  induction events using List.reverseRecOn with
  | nil =>
    intro e he
    change e ∈ entries start at he
    rw [hstart] at he
    cases he
  | append_singleton events event ih =>
    intro e he
    rw [after_append] at he
    rcases entries_act he with he | ⟨k, hmade⟩
    · obtain ⟨earlier, hprefix, hmade⟩ := ih e he
      exact ⟨earlier, hprefix.trans (List.prefix_append ..), hmade⟩
    · exact ⟨events, List.prefix_append .., k, hmade⟩

/-- What is found in memory under the name of a question is its answer at some moment, and less time
has passed since than such answers are kept for. -/
theorem dated_answer (hstart : entries start = []) (events : List Event) {k : CacheKey}
    {bytes : Bytes}
    (hfound : (after (inMemory defaultTtl historyTtl) events start).cache.inner.find? k.text =
      some bytes)
    {a : k.Answer} (hreads : Json.Reader.decode k.reader bytes = .ok a) :
    ∃ earlier, earlier <+: events ∧
      k.value (after (inMemory defaultTtl historyTtl) earlier start).store.tables = .ok a ∧
      clock (after (inMemory defaultTtl historyTtl) events start) <
        clock (after (inMemory defaultTtl historyTtl) earlier start) +
          k.ttl (inMemory defaultTtl historyTtl) := by
  obtain ⟨e, he, hkey, rfl, hlive⟩ := Memory.exists_of_find? hfound
  obtain ⟨earlier, hprefix, k', hmade⟩ := dated_after hstart events e he
  -- the name of the entry tells the question, and its bytes tell the answer
  obtain rfl := CacheKey.text_injective (hmade.key.symm.trans hkey)
  obtain ⟨a', hvalue, hbytes⟩ := hmade.answer
  rw [hbytes, Json.Reader.decode_encode] at hreads
  obtain rfl := k'.faithful a' a hreads
  refine ⟨earlier, hprefix, hvalue, ?_⟩
  rw [← hmade.gone]
  exact hlive

end InService

/-- A fault is never an old one, whatever the cache gives back: it is what the question fails with
when no cache is asked. -/
theorem fault_of_ask {σ : Type} (m : Market σ) {k : CacheKey} {s : MarketState σ}
    {fault : ServiceFault} (h : (k.ask m s).1 = .error fault) :
    (k.uncached m s).1 = .error fault ∧
      (s.store.RefusesNothing → k.value s.store.tables = .error fault) := by
  have hasked := k.asked m s
  generalize k.ask m s = outcome at hasked h
  cases hasked with
  | rejected rejected =>
    cases h
    constructor
    · simp only [CacheKey.uncached, checked, rejected]
    · intro _
      simp only [CacheKey.value, rejected]
  | found _ _ _ => cases h
  | computed _ _ => cases h
  | failed accepted hrun =>
    cases h
    constructor
    · rw [uncached_fst m accepted s, hrun]
    · intro hr
      rw [CacheKey.value_of_check accepted, ← k.work.run_of_refusesNothing hr, hrun]

open InService

/-- **An answer is less than its time old**: whatever has been asked and written before, however
long it took, whichever calls of the cache have failed meanwhile, a question is answered with what
it came to on the tables of a moment of the run since which less time has passed than its answers
are kept for, or with what it comes to on the present ones. A fault is never an old one: it is that
of the present tables, or of a statement that the store refuses just now. -/
theorem staleness_bounded (defaultTtl historyTtl : Nat) (start : State)
    (hstart : entries start = []) (events : List Event) (k : CacheKey) :
    let m := inMemory defaultTtl historyTtl
    let s := after m events start
    (∀ a, (k.ask m s).1 = .ok a → ∃ earlier, earlier <+: events ∧
      k.value (after m earlier start).store.tables = .ok a ∧
      clock (after m earlier start) ≤ clock s ∧
      (k.ttl m = 0 → earlier = events) ∧
      (k.ttl m ≠ 0 → clock s < clock (after m earlier start) + k.ttl m)) ∧
    ∀ fault, (k.ask m s).1 = .error fault → (k.uncached m s).1 = .error fault ∧
      (s.store.RefusesNothing → k.value s.store.tables = .error fault) := by
  intro m s
  refine ⟨fun a ha => ?_, fun fault hf => fault_of_ask m hf⟩
  have hasked := k.asked m s
  generalize k.ask m s = outcome at hasked ha
  cases hasked with
  | rejected _ => cases ha
  | failed _ _ => cases ha
  | found accepted entry reads =>
    cases ha
    obtain ⟨earlier, hprefix, hvalue, hlt⟩ :=
      dated_answer hstart events (find?_of_get s.cache entry) reads
    have hle : clock (after m earlier start) ≤ clock s := clock_mono hprefix
    refine ⟨earlier, hprefix, hvalue, hle, fun hzero => absurd hlt ?_, fun _ => hlt⟩
    rw [hzero]
    exact Nat.not_lt.2 hle
  | computed accepted hrun =>
    cases ha
    have hvalue : k.value s.store.tables = .ok a := CacheKey.value_of_run accepted hrun
    refine ⟨events, List.prefix_refl _, hvalue, Nat.le_refl _, fun _ => rfl, fun hpos => ?_⟩
    exact Nat.lt_add_of_pos_right (Nat.pos_of_ne_zero hpos)

namespace Sample

/-- Nothing is stored, and nothing is kept. -/
def quiet : State := ⟨.empty, .empty 100, .none, []⟩

/-- A price is asked for, the clearing after its revision fails, and almost five minutes pass. -/
def uncleared : List Event :=
  [.write offer, .ask (.price ⟨1⟩), .fail ⟨none, none, some (.backend "down")⟩,
    .write (.revisePrice ⟨1⟩ (amount 123) (time 2)), .pass 299999]

/-- The value that a price is told to have. -/
def told (answer : Except ServiceFault PriceView) : Option Decimal :=
  answer.toOption.map PriceView.value

end Sample

open Sample in
/-- The old value is told until its five minutes are over, and is that of a moment before. -/
theorem staleness_bounded_sample :
    let m := inMemory 300000 600000
    told ((CacheKey.price ⟨1⟩).ask m (after m uncleared quiet)).1 = some (amount 105) ∧
      (∃ earlier, earlier <+: uncleared ∧
        told ((CacheKey.price ⟨1⟩).value (after m earlier quiet).store.tables) = some (amount 105) ∧
        clock (after m uncleared quiet) < clock (after m earlier quiet) + 300000) ∧
      told ((CacheKey.price ⟨1⟩).ask m (after m (uncleared ++ [.pass 1]) quiet)).1 =
        some (amount 123) := by
  intro m
  have hold :
      told ((CacheKey.price ⟨1⟩).ask m (after m uncleared quiet)).1 = some (amount 105) := by
    decide +kernel
  refine ⟨hold, ?_, by decide +kernel⟩
  cases hanswer : ((CacheKey.price ⟨1⟩).ask m (after m uncleared quiet)).1 with
  | error fault =>
    rw [hanswer] at hold
    cases hold
  | ok a =>
    obtain ⟨earlier, hprefix, hmoment, -, -, hlt⟩ :=
      (staleness_bounded 300000 600000 quiet rfl uncleared (.price ⟨1⟩)).1 a hanswer
    refine ⟨earlier, hprefix, ?_, hlt (by decide)⟩
    rw [hmoment]
    rw [hanswer] at hold
    exact hold

end CropLedger.Market
