import CropLedger.Proofs.Market.RevisionLog
import CropLedger.Proofs.Market.Traffic

/-!
# Answers that are kept late

When a revision is answered, its transaction is committed and the cache has been cleared. A question
that begins then is answered with the new value, whatever other calls are under way, but for one
case: a call that had computed an older answer before the transaction may keep it only after the
clearing, and the cache then gives that answer back.

* `Tables.Shows.turns`, `CacheKey.Tells`: a value in the tables and in an answer;
* `CacheNote.Tell`: a value in all that a cache may give back;
* `Traffic.Fresh`, `Traffic.Current`: what holds after the transaction and after the clearing, each
  with its steps;
* `Traffic.revision_shows`: what is answered once a revision has been answered;
* `Traffic.late_answer_hides_revision`: a revision that cannot be seen.
-/

namespace CropLedger

/-! ### A value in the tables -/

/-- The price that a write changes, if there is one. -/
def Market.Write.price? : Market.Write → Option Uuid
  | revisePrice id _ _ | deletePrice id _ | restorePrice id _ => some id
  | _ => none

namespace Tables

open Market

variable {t t' : Tables} {id : Uuid} {pair : Pair} {value : Decimal}

/-- Only a write to the price itself changes what the tables show of it. -/
theorem Shows.turns (h : t.Shows id pair value) {w : Write} (hw : w.price? ≠ some id)
    (ht : w.Turns t t') : t'.Shows id pair value := by
  cases ht with
  | createPrice =>
    obtain ⟨p, hp, hrest⟩ := h
    exact ⟨p, List.mem_append_left _ hp, hrest⟩
  | @revisePrice id' _ now old =>
    have harchived : (t.archiving old.fetched now).Shows id pair value := h
    exact harchived.setPrice (fun he => hw (congrArg some he)) _
  | deletePrice | restorePrice => exact h.setPrice (fun he => hw (congrArg some he)) _
  | createHarvest | deleteHarvest => exact h

/-- A revision shows its value. -/
theorem shows_of_turns (ho : t.Orderly) {p : Price} (hp : p ∈ t.prices) {now : Timestamp}
    (ht : (Write.revisePrice p.id value now).Turns t t') :
    t'.Shows p.id p.pair value.stored := by
  cases ht with
  | @revisePrice _ _ _ old accepted found unused =>
    obtain ⟨hold, hid, hlive⟩ := mem_of_livePrice? found
    obtain rfl := ho.eq_of_id hold hp hid
    have hshows : (t.archiving old.fetched now).Shows old.id old.pair old.value :=
      ⟨old, hold, rfl, rfl, rfl, hlive⟩
    exact hshows.revised

end Tables

/-! ### A value in an answer -/

namespace CacheKey

/-- The questions for a price and for the history of its pair. -/
def IsAbout (id : Uuid) (pair : Pair) (k : CacheKey) : Prop := k = .price id ∨ k = .history pair

/-- **An answer tells the value of a price**: it is the price, or a history that ends with it. -/
def Tells (id : Uuid) (value : Decimal) : (k : CacheKey) → k.Answer → Prop
  | .price _, p => p.id = id ∧ p.value = value
  | .history _, points => ∃ x, points.getLast? = some x ∧ x.price = id ∧ x.value = value ∧
      x.current = true
  | _, _ => False

/-- A question is answered with the value of a price, or a statement was refused. -/
def Answers (id : Uuid) (value : Decimal) (db : Database) (k : CacheKey)
    (result : Except ServiceFault k.Answer) : Prop :=
  (∃ a, result = .ok a ∧ k.Tells id value a) ∨ (result = .error Work.refusal ∧ ¬db.RefusesNothing)

variable {id : Uuid} {pair : Pair} {value : Decimal} {k : CacheKey}

theorem IsAbout.check (h : k.IsAbout id pair) : k.check = .ok () := by
  rcases h with rfl | rfl <;> rfl

theorem IsAbout.entity (h : k.IsAbout id pair) : k.entity = .price := by
  rcases h with rfl | rfl <;> rfl

/-- What the tables show is what the questions about it come to. -/
theorem tells_of_eval {t : Tables} (ho : t.Orderly) (hs : t.Shows id pair value)
    (hk : k.IsAbout id pair) : ∃ a, k.work.eval t = (.ok a, t) ∧ k.Tells id value a := by
  obtain ⟨p, hp, rfl, rfl, rfl, hlive⟩ := hs
  rcases hk with rfl | rfl
  · refine ⟨p.fetched.view, ?_, rfl, rfl⟩
    refine Work.eval_bind_ok.2 ⟨p.fetched, t, ?_, rfl⟩
    refine Work.eval_statement_bind.2 ⟨some p.fetched, t, ?_, rfl⟩
    show Except.ok ((t.livePrice? p.id).map Price.fetched, t) = _
    rw [ho.livePrice?_eq_some hp hlive]
    rfl
  · refine ⟨_, Market.eval_points (ho.livePriceOf?_eq_some hp hlive), ?_⟩
    exact ⟨p.fetched.snapshot, List.getLast?_concat, rfl, rfl, rfl⟩

theorem Answers.congr {db db' : Database} (h : db.refuses = db'.refuses)
    {result : Except ServiceFault k.Answer} (ha : k.Answers id value db result) :
    k.Answers id value db' result := by
  simpa only [Answers, Database.RefusesNothing, h] using ha

theorem answers_of_run {db : Database} (ho : db.tables.Orderly) (hs : db.tables.Shows id pair value)
    (hk : k.IsAbout id pair) : k.Answers id value db (k.work.run db).1 := by
  obtain ⟨a, ha, htells⟩ := tells_of_eval ho hs hk
  rcases k.work.run_eq_eval db with he | ⟨hf, n, q, hr⟩
  · rw [ha] at he
    exact .inl ⟨a, congrArg Prod.fst he, htells⟩
  · refine .inr ⟨hf, fun hn => ?_⟩
    rw [hn n q] at hr
    cases hr

/-- A computed answer tells what the tables show. -/
theorem tells_of_run {db store : Database} (ho : db.tables.Orderly)
    (hs : db.tables.Shows id pair value) (hk : k.IsAbout id pair) {a : k.Answer}
    (h : k.work.run db = (.ok a, store)) : k.Tells id value a := by
  rcases answers_of_run ho hs hk with ⟨b, hb, htells⟩ | ⟨hf, -⟩
  · rw [h] at hb
    cases hb
    exact htells
  · rw [h] at hf
    cases hf

end CacheKey

/-! ### A value in a cache -/

namespace CacheNote

open CacheKey (IsAbout)

/-- **All that the cache may still give back tells the value of a price.** -/
def Tell (notes : List CacheNote) (id : Uuid) (pair : Pair) (value : Decimal) : Prop :=
  ∀ k bytes, IsAbout id pair k → Standing notes k.text bytes →
    ∃ a, bytes = Cache.encode (k.json a) ∧ k.Tells id value a

variable {notes : List CacheNote} {id : Uuid} {pair : Pair} {value : Decimal}

theorem Tell.handed (h : Tell notes id pair value) {k : CacheKey} {a : k.Answer}
    (ha : k.IsAbout id pair → k.Tells id value a) :
    Tell (.handed k.text (Cache.encode (k.json a)) :: notes) id pair value := by
  rintro k' bytes hk' (⟨htext, rfl⟩ | hstanding)
  · obtain rfl := CacheKey.text_injective htext
    exact ⟨a, rfl, ha hk'⟩
  · exact h k' bytes hk' hstanding

theorem Tell.dropped (h : Tell notes id pair value) (label : String) :
    Tell (.dropped label :: notes) id pair value :=
  fun k bytes hk hs => h k bytes hk hs.2

/-- What is about a price is a name of the prices, so nothing of it outlasts their clearing. -/
theorem tell_of_dropped : Tell (.dropped Entity.price.label :: notes) id pair value :=
  fun k _ hk hs => absurd ((k.label_prefix_iff .price).2 hk.entity) hs.1

end CacheNote

namespace Market

open CacheKey (IsAbout Tells)

variable {σ τ : Type}

namespace Traffic

/-- Where a call stands after a step is where it stood, or where the step has put it. -/
theorem calls_now_cases {t : Traffic τ} {n i : Nat} {call c : Call} {s : MarketState τ}
    (h : (t.now n call s).calls i = c) : (i = n ∧ call = c) ∨ t.calls i = c := by
  by_cases hi : i = n
  · subst hi
    exact .inl ⟨rfl, by rwa [calls_now_self] at h⟩
  · rw [calls_now_of_ne t hi] at h
    exact .inr h

/-! ### After the transaction -/

section Invariants

variable (id : Uuid) (pair : Pair) (value : Decimal) (old : Nat → Prop)

/-- **The tables show a value, and what has been computed tells it**, but for what some calls had
computed before. -/
structure Fresh (t : Traffic τ) : Prop where
  shows : t.state.store.tables.Shows id pair value
  computed : ∀ i k a, IsAbout id pair k → t.calls i = .found k a → old i ∨ k.Tells id value a

variable {id pair value old}

theorem Fresh.now {t : Traffic τ} (h : t.Fresh id pair value old) {n : Nat} {call : Call}
    {s : MarketState τ} (hs : s.store.tables.Shows id pair value)
    (hcall : ∀ k a, IsAbout id pair k → call = .found k a → k.Tells id value a) :
    (t.now n call s).Fresh id pair value old := by
  refine ⟨hs, fun i k a hk hi => ?_⟩
  rcases calls_now_cases hi with ⟨-, hc⟩ | hi
  · exact .inr (hcall k a hk hc)
  · exact h.computed i k a hk hi

/-- A step that commits no write to the price keeps what is shown and computed. -/
theorem Fresh.step {m : Market τ} {t : Traffic τ} (h : t.Fresh id pair value old)
    (ho : t.state.store.tables.Orderly) {move : Move τ}
    (hmove : ∀ w ∈ t.commit? move, w.price? ≠ some id) :
    (Traffic.step m t move).Fresh id pair value old := by
  have ht := stepped m t move
  generalize Traffic.step m t move = t' at ht
  have hrun {k : CacheKey} {result : Except ServiceFault k.Answer} {store : Database}
      (run : k.work.run t.state.store = (result, store)) :
      store.tables.Shows id pair value := by
    have htables := k.tables_run_work t.state.store
    rw [run] at htables
    exact htables ▸ h.shows
  cases ht with
  | still => exact h
  | rejected _ _ => exact h.now h.shows fun _ _ _ hc => nomatch hc
  | hit _ _ _ => exact h.now h.shows fun _ _ _ hc => nomatch hc
  | missed _ => exact h.now h.shows fun _ _ _ hc => nomatch hc
  | computed _ run =>
    refine h.now (hrun run) fun k a hk hc => ?_
    cases hc
    exact CacheKey.tells_of_run ho h.shows hk run
  | failed _ run => exact h.now (hrun run) fun _ _ _ hc => nomatch hc
  | kept ttl _ => exact h.now h.shows fun _ _ _ hc => nomatch hc
  | @committed n w store idle run =>
    have hw : t.commit? (.commit n w) = some w := by simp only [commit?, idle, run]
    exact h.now (h.shows.turns (hmove w hw) (Write.turns_of_transact run))
      fun _ _ _ hc => nomatch hc
  | refused _ run => exact h.now (Write.tables_of_transact run ▸ h.shows) fun _ _ _ hc => nomatch hc
  | cleared _ _ => exact h.now h.shows fun _ _ _ hc => nomatch hc
  | unclear _ _ => exact h.now h.shows fun _ _ _ hc => nomatch hc
  | passed => exact ⟨h.shows, h.computed⟩

/-! ### After the clearing -/

variable (may : σ → List CacheNote → Prop) (id pair value) (new : Nat → Prop) (db : Database)

/-- **All that the cache may still give back tells a value, and so do the answers to some
calls.** -/
structure Current (t : Traffic σ) : Prop where
  refuses : t.state.store.refuses = db.refuses
  noted : ∃ notes, may t.state.cache notes ∧ CacheNote.Tell notes id pair value
  answers : ∀ i k result, new i → IsAbout id pair k → t.calls i = .answered k result →
    k.Answers id value db result

variable {may id pair value new db} {m : Market σ}

theorem Current.now {t : Traffic σ} (h : t.Current id pair value may new db) {n : Nat} {call : Call}
    {s : MarketState σ} {notes : List CacheNote}
    (hstore : s.store.refuses = t.state.store.refuses) (hmay : may s.cache notes)
    (htell : CacheNote.Tell notes id pair value)
    (hcall : ∀ k result, IsAbout id pair k → call = .answered k result →
      k.Answers id value db result) : (t.now n call s).Current id pair value may new db := by
  refine ⟨hstore.trans h.refuses, ⟨notes, hmay, htell⟩, fun i k result hi hk hc => ?_⟩
  rcases calls_now_cases hc with ⟨-, hc⟩ | hc
  · exact hcall k result hk hc
  · exact h.answers i k result hi hk hc

/-- A step keeps what the cache may give back and what is answered, unless an old answer is kept. -/
theorem Current.step (hm : m.cache.Honest may) {t : Traffic σ}
    (h : t.Current id pair value may new db) (ho : t.state.store.tables.Orderly)
    (hf : t.Fresh id pair value old) {move : Move σ} (hmove : move.Allowed may)
    (hold : ∀ i, old i → move ≠ .keep i) :
    (Traffic.step m t move).Current id pair value may new db := by
  have hrefuses := refuses_step m t move
  have ht := stepped m t move
  generalize Traffic.step m t move = t' at ht hrefuses
  obtain ⟨notes, hmay, htell⟩ := h.noted
  cases ht with
  | still => exact h
  | rejected _ rejected =>
    refine h.now rfl hmay htell fun k result hk hc => ?_
    cases hc
    rw [hk.check] at rejected
    cases rejected
  | @hit n k a bytes idle entry reads =>
    refine h.now rfl (hm.get hmay _) htell fun k result hk hc => ?_
    cases hc
    -- what an honest cache gives back is no answer, or is standing
    rcases hm.found hmay k entry with hgarbled | hstanding
    · exact absurd reads (hgarbled a)
    · obtain ⟨b, rfl, hb⟩ := htell k bytes hk hstanding
      rw [Json.Reader.decode_encode] at reads
      obtain rfl := k.faithful b a reads
      exact .inl ⟨_, rfl, hb⟩
  | missed _ => exact h.now rfl (hm.get hmay _) htell fun _ _ _ hc => nomatch hc
  | computed _ run => exact h.now hrefuses hmay htell fun _ _ _ hc => nomatch hc
  | @failed n k fault store missed run =>
    refine h.now hrefuses hmay htell fun k result hk hc => ?_
    cases hc
    have ha := CacheKey.answers_of_run ho hf.shows hk
    rw [run] at ha
    exact ha.congr h.refuses
  | @kept n k a ttl found =>
    have ha (hk : k.IsAbout id pair) : k.Tells id value a :=
      (hf.computed n k a hk found).resolve_left fun ho => hold n ho rfl
    refine h.now rfl (hm.set hmay _ _ ttl) (htell.handed ha) fun k result hk hc => ?_
    cases hc
    exact .inl ⟨a, rfl, ha hk⟩
  | committed _ run => exact h.now hrefuses hmay htell fun _ _ _ hc => nomatch hc
  | refused _ run => exact h.now hrefuses hmay htell fun _ _ _ hc => nomatch hc
  | cleared _ cleared =>
    exact h.now rfl (hm.dropped hmay _ cleared) (htell.dropped _) fun _ _ _ hc => nomatch hc
  | unclear _ cleared =>
    exact h.now rfl (hm.kept hmay _ cleared) htell fun _ _ _ hc => nomatch hc
  | passed => exact ⟨h.refuses, ⟨notes, hmove _ _ hmay, htell⟩, h.answers⟩

theorem Fresh.run (hm : m.cache.Honest may) {moves : List (Move σ)}
    (hallowed : ∀ move ∈ moves, move.Allowed may) {t : Traffic σ}
    (hmoves : ∀ w ∈ commits m moves t, w.price? ≠ some id)
    (h : t.Fresh id pair value old) (hr : t.Ready may) :
    (Traffic.run m moves t).Fresh id pair value old := by
  have hrun : (Traffic.run m moves t).Fresh id pair value old ∧
      (Traffic.run m moves t).Ready may := by
    refine run_keeps_of_commits (motive := fun t => t.Fresh id pair value old ∧ t.Ready may) ?_
      hmoves ⟨h, hr⟩
    rintro move hin t hmove ⟨hf, hr⟩
    exact ⟨hf.step hr.orderly hmove, hr.step hm (hallowed move hin)⟩
  exact hrun.1

theorem Current.run (hm : m.cache.Honest may) {moves : List (Move σ)}
    (hallowed : ∀ move ∈ moves, move.Allowed may) {t : Traffic σ}
    (hmoves : ∀ w ∈ commits m moves t, w.price? ≠ some id)
    (hold : ∀ i, old i → .keep i ∉ moves)
    (h : t.Current id pair value may new db) (hr : t.Ready may) (hf : t.Fresh id pair value old) :
    (Traffic.run m moves t).Current id pair value may new db := by
  have hrun : (Traffic.run m moves t).Current id pair value may new db ∧
      (Traffic.run m moves t).Fresh id pair value old ∧ (Traffic.run m moves t).Ready may := by
    refine run_keeps_of_commits (motive := fun t => t.Current id pair value may new db ∧
      t.Fresh id pair value old ∧ t.Ready may) ?_ hmoves ⟨h, hf, hr⟩
    rintro move hin t hmove ⟨hc, hf, hr⟩
    exact ⟨hc.step hm hr.orderly hf (hallowed move hin) fun i hi he => hold i hi (he ▸ hin),
      hf.step hr.orderly hmove, hr.step hm (hallowed move hin)⟩
  exact hrun.1

end Invariants

/-! ### A write from its transaction to its answer -/

/-- The steps up to the answer of a write: those before its transaction, those between the
transaction and the clearing of the cache, and its own. -/
def writing (before between : List (Move τ)) (n : Nat) (w : Write) : List (Move τ) :=
  before ++ .commit n w :: (between ++ [.clear n])

/-- **A call has made a write, and was answered that it is done.** -/
structure Finished (m : Market τ) (s : MarketState τ) (before between : List (Move τ)) (n : Nat)
    (w : Write) : Prop where
  idle : (run m before (start s)).calls n = .idle
  pending : .clear n ∉ between
  returned : (run m (writing before between n w) (start s)).calls n = .settled w (.ok ())

theorem run_writing (m : Market τ) (before between : List (Move τ)) (n : Nat) (w : Write)
    (t : Traffic τ) : run m (writing before between n w) t =
      step m (run m between (step m (run m before t) (.commit n w))) (.clear n) := by
  rw [writing, run_append, run_cons, run_append]
  rfl

section Finished

variable {m : Market τ} {s : MarketState τ} {before between : List (Move τ)} {n : Nat} {w : Write}

/-- A write that was answered has been committed by its transaction. -/
theorem Finished.committed (h : Finished m s before between n w) :
    let t := run m before (start s)
    (step m t (.commit n w)).calls n = .committed w ∧
      w.Turns t.state.store.tables (step m t (.commit n w)).state.store.tables := by
  intro t
  have hreturned := h.returned
  rw [run_writing] at hreturned
  have hidle : t.calls n = .idle := h.idle
  rcases hr : w.transact t.state.store with ⟨fault | u, store⟩
  · -- a transaction that failed would have been answered with its fault
    have hstep : (step m t (.commit n w)).calls n = .settled w (.error fault) := by
      simp only [step, hidle, hr, calls_now_self]
    have hend := settled_step m _ (settled_run m _ hstep between) (.clear n)
    rw [hreturned] at hend
    cases hend
  · have hstep : step m t (.commit n w) = t.now n (.committed w) { t.state with store } := by
      simp only [step, hidle, hr]
    rw [hstep]
    exact ⟨calls_now_self .., Write.turns_of_transact hr⟩

/-- A write that was answered has cleared the cache. -/
theorem Finished.cleared (h : Finished m s before between n w) :
    let t := run m between (step m (run m before (start s)) (.commit n w))
    ∃ count, (m.cache.deletePrefix w.entity.label t.state.cache).1 = .ok count ∧
      (step m t (.clear n)).state.cache =
        (m.cache.deletePrefix w.entity.label t.state.cache).2 := by
  intro t
  have hreturned : (step m t (.clear n)).calls n = .settled w (.ok ()) := by
    rw [← h.returned, run_writing]
  have hcommitted : t.calls n = .committed w := committed_run m _ h.committed.1 h.pending
  rcases hd : m.cache.deletePrefix w.entity.label t.state.cache with ⟨fault | count, c⟩
  · simp only [step, hcommitted, invalidate, hd, calls_now_self] at hreturned
    cases hreturned
  · refine ⟨count, rfl, ?_⟩
    simp only [step, hcommitted, invalidate, hd, state_now]

end Finished

/-! ### What is answered after a revision -/

section Revision

variable {m : Market σ} {may : σ → List CacheNote → Prop} {s : MarketState σ}
  {before between : List (Move σ)} {n : Nat} {p : Price} {value : Decimal} {now : Timestamp}

/-- When the transaction of a revision is committed, the tables show its value, and only what had
been computed before may be old. -/
theorem Finished.fresh (h : Finished m s before between n (.revisePrice p.id value now))
    (ho : (run m before (start s)).state.store.tables.Orderly)
    (hp : p ∈ (run m before (start s)).state.store.tables.prices) :
    (step m (run m before (start s)) (.commit n (.revisePrice p.id value now))).Fresh
      p.id p.pair value.stored fun i => ∃ k a, IsAbout p.id p.pair k ∧
        (run m before (start s)).calls i = .found k a := by
  obtain ⟨hcommitted, hturns⟩ := h.committed
  refine ⟨Tables.shows_of_turns ho hp hturns, fun i k a hk hi => ?_⟩
  by_cases hin : i = n
  · rw [hin, hcommitted] at hi
    cases hi
  · rw [calls_step m _ (fun he => hin (Option.some.inj he.symm))] at hi
    exact .inl ⟨k, a, hk, hi⟩

/-- A clearing of the prices that has succeeded leaves nothing standing about a price. -/
theorem current_of_cleared (hm : m.cache.Honest may) {t t' : Traffic σ} (hr : t.Ready may)
    {count : Nat} (hd : (m.cache.deletePrefix Entity.price.label t.state.cache).1 = .ok count)
    (hcache : t'.state.cache = (m.cache.deletePrefix Entity.price.label t.state.cache).2)
    (id : Uuid) (pair : Pair) (value : Decimal) :
    t'.Current id pair value may (fun i => t'.calls i = .idle) t'.state.store := by
  obtain ⟨notes, hmay⟩ := hr.honest
  refine ⟨rfl, ⟨_, hcache ▸ hm.dropped hmay _ hd, CacheNote.tell_of_dropped⟩, ?_⟩
  intro i k result hi hk hc
  rw [hi] at hc
  cases hc

/-- When a revision is answered, its value is shown by the tables and told by all that the cache may
give back. -/
theorem Finished.current (hm : m.cache.Honest may) (hs : (start s).Ready may)
    (hbefore : ∀ move ∈ before, move.Allowed may) (hbetween : ∀ move ∈ between, move.Allowed may)
    (hp : p ∈ (run m before (start s)).state.store.tables.prices)
    (h : Finished m s before between n (.revisePrice p.id value now))
    (hlast : ∀ w ∈ commits m between
      (step m (run m before (start s)) (.commit n (.revisePrice p.id value now))),
      w.price? ≠ some p.id) :
    let t := run m (writing before between n (.revisePrice p.id value now)) (start s)
    t.Ready may ∧
      t.Current p.id p.pair value.stored may (fun i => t.calls i = .idle) t.state.store ∧
      t.Fresh p.id p.pair value.stored fun i => ∃ k a, IsAbout p.id p.pair k ∧
        (run m before (start s)).calls i = .found k a := by
  intro t
  -- the steps one after another: before, transaction, between, clearing
  have hr₀ : (run m before (start s)).Ready may := hs.run hm hbefore
  have hf₁ := h.fresh hr₀.orderly hp
  have hr₁ : (step m (run m before (start s))
      (.commit n (.revisePrice p.id value now))).Ready may := hr₀.step hm trivial
  have hf₂ := hf₁.run hm hbetween hlast hr₁
  have hr₂ := hr₁.run hm hbetween
  obtain ⟨count, hcleared, hdropped⟩ := h.cleared
  have ht : t = step m (run m between (step m (run m before (start s))
      (.commit n (.revisePrice p.id value now)))) (.clear n) := run_writing ..
  rw [ht]
  exact ⟨hr₂.step hm trivial, current_of_cleared hm hr₂ hcleared hdropped ..,
    hf₂.step hr₂.orderly fun _ hw => nomatch hw⟩

end Revision

/-- **A finished revision is shown, unless an older answer is kept late.** A call has revised a
price and was answered that it is done, among any steps of other calls; since its transaction no
other write to the price has been committed, whatever writes to it have been refused; and no call
that had computed an answer about the price before the transaction keeps it after the clearing. Then
every question for the price or for the history of its pair that begins after that answer is
answered with the new value, as the store keeps it, unless a statement is refused. -/
theorem revision_shows {m : Market σ} {may : σ → List CacheNote → Prop} (hm : m.cache.Honest may)
    {s : MarketState σ} {notes : List CacheNote} (hcache : may s.cache notes)
    (hs : s.store.tables.Orderly) {before between after : List (Move σ)}
    (hallowed : ∀ move ∈ before ++ between ++ after, move.Allowed may)
    {n : Nat} {p : Price} {value : Decimal} {now : Timestamp}
    (hp : p ∈ (run m before (start s)).state.store.tables.prices)
    (hfinished : Finished m s before between n (.revisePrice p.id value now))
    (hlast : ∀ w ∈ commits m (between ++ .clear n :: after)
      (step m (run m before (start s)) (.commit n (.revisePrice p.id value now))),
      w.price? ≠ some p.id)
    (hlate : ∀ i k a, IsAbout p.id p.pair k →
      (run m before (start s)).calls i = .found k a → .keep i ∉ after)
    {r : Nat} {k : CacheKey} (hk : IsAbout p.id p.pair k)
    (hidle : (run m (writing before between n (.revisePrice p.id value now)) (start s)).calls r =
      .idle)
    (hown : own r after = [.look r k, .compute r, .keep r]) :
    ∃ result, (run m (writing before between n (.revisePrice p.id value now) ++ after)
        (start s)).calls r = .answered k result ∧
      k.Answers p.id value.stored s.store result := by
  have hbefore : ∀ move ∈ before, move.Allowed may := fun x hx =>
    hallowed x (List.mem_append_left _ (List.mem_append_left _ hx))
  have hbetween : ∀ move ∈ between, move.Allowed may := fun x hx =>
    hallowed x (List.mem_append_left _ (List.mem_append_right _ hx))
  have hafter : ∀ move ∈ after, move.Allowed may := fun x hx =>
    hallowed x (List.mem_append_right _ hx)
  rw [commits_append] at hlast
  obtain ⟨hlast₁, hlast₂⟩ := List.forall_mem_append.1 hlast
  -- the clearing commits nothing, and leads to where the revision is answered
  have hlast₃ : ∀ w ∈ commits m after
      (run m (writing before between n (.revisePrice p.id value now)) (start s)),
      w.price? ≠ some p.id := by
    rw [run_writing]
    exact hlast₂
  obtain ⟨hready, hcurrent, hfresh⟩ :=
    hfinished.current hm ⟨⟨notes, hcache⟩, hs⟩ hbefore hbetween hp hlast₁
  have hrefuses := refuses_run m (start s) (writing before between n (.revisePrice p.id value now))
  rw [run_append]
  generalize run m (writing before between n (.revisePrice p.id value now)) (start s) = t at *
  have hend := hcurrent.run hm hafter hlast₃ (fun i ⟨k, a, hk, hi⟩ => hlate i k a hk hi) hready
    hfresh
  have hdue : Due r k (t.calls r) (own r after) := by
    rw [hidle, hown]
    exact .looks
  obtain ⟨result, hanswered⟩ := exists_answered m t r hk.check after hdue
  exact ⟨result, hanswered, (hend.answers r k result hidle hk hanswered).congr hrefuses⟩

/-! ### A revision that cannot be seen -/

end Traffic

/-- The value of a price that a call was answered with. -/
def Call.told? : Call → Option Decimal
  | .answered (.price _) (.ok (p : PriceView)) => some p.value
  | _ => none

namespace Sample

/-- A price is offered, and a first call has computed what it is. -/
def computed : List (Move τ) :=
  [.commit 0 offer, .clear 0, .look 1 (.price offered.id), .compute 1]

/-- The price is revised. -/
def revision : Write := .revisePrice offered.id (amount 123) (time 2)

/-- The price is asked for by a later call. -/
def later : List (Move τ) := [.look 3 (.price ⟨1⟩), .compute 3, .keep 3]

/-- The price is to be restored, which is refused as long as it is live. -/
def restoration : Write := .restorePrice offered.id (time 3)

end Sample

namespace Traffic

open Sample in
/-- The first call keeps its answer before the cache is cleared, a restoration of the price is
refused, and the new value is told. -/
theorem revision_shows_sample :
    Finished market blank computed [.keep 1] 2 revision ∧
      (∃ what, (run market (writing computed [.keep 1] 2 revision ++ .commit 4 restoration :: later)
        (start blank)).calls 4 = .settled restoration (.error (.notFound what))) ∧
      ((run market (writing computed [.keep 1] 2 revision ++ .commit 4 restoration :: later)
        (start blank)).calls 3).told? = some (amount 123).stored := by
  have hfinished : Finished market blank computed [.keep 1] 2 revision := ⟨rfl, by simp, rfl⟩
  have hp : offered ∈ (run market computed (start blank)).state.store.tables.prices := by
    decide +kernel
  have hlast : commits market ([.keep 1] ++ .clear 2 :: (.commit 4 restoration :: later))
      (step market (run market computed (start blank)) (.commit 2 revision)) = [] := rfl
  have hlate : ∀ i k a, IsAbout offered.id offered.pair k →
      (run market computed (start blank)).calls i = .found k a →
      .keep i ∉ (.commit 4 restoration :: later : List (Move Memory)) := by
    intro i k a _ hfound hin
    obtain rfl : i = 3 := by simpa [later] using hin
    cases hfound
  have hidle : (run market (writing computed [.keep 1] 2 revision) (start blank)).calls 3 =
      .idle := rfl
  have hown : own 3 (.commit 4 restoration :: later : List (Move Memory)) = later := rfl
  obtain ⟨result, hanswered, ⟨a, rfl, -, hvalue⟩ | ⟨-, hrefused⟩⟩ :=
    revision_shows Memory.honest (Memory.noted_empty 100) Tables.orderly_empty
      (by simp [computed, later, Move.Allowed]) hp hfinished
      (fun w hw => absurd (hlast ▸ hw) List.not_mem_nil) hlate (.inl rfl) hidle hown
  · refine ⟨hfinished, ⟨_, rfl⟩, ?_⟩
    unfold revision
    rw [hanswered]
    exact congrArg some hvalue
  · exact absurd (fun _ _ => rfl) hrefused

open Sample in
/-- **An older answer that is kept late hides a revision**: the revision has been answered, there
is no other write, and a call that begins then is answered with the old value. -/
theorem late_answer_hides_revision :
    Finished market blank computed [] 2 revision ∧
      (∀ i w, .commit i w ∉ (.keep 1 :: later : List (Move Memory))) ∧
      own 3 (.keep 1 :: later : List (Move Memory)) = later ∧
      ((run market (writing computed [] 2 revision) (start blank)).calls 3 = .idle) ∧
      ((run market (writing computed [] 2 revision ++ .keep 1 :: later) (start blank)).calls
        3).told? = some (amount 105) ∧ (amount 123).stored ≠ amount 105 := by
  exact ⟨⟨rfl, by simp, rfl⟩, by simp [later], rfl, rfl, by decide +kernel, by decide +kernel⟩

end Traffic

end Market

end CropLedger
