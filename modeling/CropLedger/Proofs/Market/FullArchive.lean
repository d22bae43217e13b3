import CropLedger.Proofs.Market.Calls

/-!
# The numbers of the archive

All pairs draw the numbers of their archived values from one supply, which ends. Each revision takes
one number; when none is left, no price can be revised any more.

* `Tables.RevisedTo`: tables in which only values have changed, with numbers taken;
* `Market.revisedTo_reply`, `Market.reply_revision_of_full`: a revision with and without a number
  left;
* `Market.revisedTo_callAll`: revisions of one price take one number each;
* `Market.refused_after_revisions`: enough of them leave none for another price.
-/

namespace CropLedger

open Work

namespace Tables

variable {t t' t'' : Tables} {id : Uuid}

/-- What a revision leaves alone of a price. -/
def mark (p : Price) : Uuid × Pair × Bool := (p.id, p.pair, p.isLive)

/-- Tables in which nothing but values has changed, with numbers taken from the archive. -/
structure RevisedTo (taken : Nat) (t t' : Tables) : Prop where
  marks : t'.prices.map mark = t.prices.map mark
  lastNumber : t'.lastNumber = t.lastNumber + taken
  numbers : ∀ a ∈ t'.archived, a.number ≤ t'.lastNumber

theorem RevisedTo.trans {m n : Nat} (h : RevisedTo m t t') (h' : RevisedTo n t' t'') :
    RevisedTo (m + n) t t'' where
  marks := h'.marks.trans h.marks
  lastNumber := by
    rw [h'.lastNumber, h.lastNumber]
    omega
  numbers := h'.numbers

theorem revisedTo_setPrice (hnumbers : ∀ a ∈ t.archived, a.number ≤ t.lastNumber) (id : Uuid)
    (p : Price) (value : Decimal) (now : Timestamp) :
    RevisedTo 1 t ((t.archiving p now).setPrice id (Price.revised value now)) where
  marks := map_setPrice (t := t.archiving p now) mark fun _ => rfl
  lastNumber := rfl
  numbers := by
    intro a ha
    show a.number ≤ t.lastNumber + 1
    rcases List.mem_append.1 ha with ha | ha
    · exact Int.le_add_one (hnumbers a ha)
    · rw [List.mem_singleton.1 ha]
      exact Int.le_refl _

theorem livePrice?_of_marks (h : t'.prices.map mark = t.prices.map mark)
    (hl : (t.livePrice? id).isSome) : (t'.livePrice? id).isSome := by
  obtain ⟨p, hp⟩ := Option.isSome_iff_exists.1 hl
  obtain ⟨hm, hid, hlive⟩ := mem_of_livePrice? hp
  have hmark : mark p ∈ t'.prices.map mark := h ▸ List.mem_map_of_mem hm
  obtain ⟨q, hq, he⟩ := List.mem_map.1 hmark
  simp only [mark, Prod.mk.injEq] at he
  rw [livePrice?, List.find?_isSome]
  exact ⟨q, hq, by simp [he.1, he.2.2, hid, hlive]⟩

end Tables

namespace Prices

open Tables

variable {t : Tables} {id : Uuid} {p : Price}

/-- A revision with a number left. -/
theorem eval_revise_of_room (h : t.livePrice? id = some p)
    (hnumbers : ∀ a ∈ t.archived, a.number ≤ t.lastNumber)
    (hroom : t.lastNumber < Nat.pow 2 63 - 1) (value : Decimal) (now : Timestamp) :
    ∃ q, (revise id value now).eval t =
      (.ok q, (t.archiving p.fetched now).setPrice id (Price.revised value now)) := by
  have hrevised := revisedTo_setPrice hnumbers id p.fetched value now
  obtain ⟨q, hq⟩ := Option.isSome_iff_exists.1 (livePrice?_of_marks hrevised.marks (by rw [h]; rfl))
  have harchive : (Statement.archive p.fetched now).perform t =
      .ok ((), t.archiving p.fetched now) := by
    show Statement.changed () .full (t.archive? p.fetched now) = _
    rw [Tables.archive?_of_room hnumbers hroom]
    rfl
  have hprice : ((t.archiving p.fetched now).price? id).isSome := by
    obtain ⟨hp, hid, -⟩ := mem_of_livePrice? h
    rw [price?, List.find?_isSome]
    exact ⟨p, hp, by simp [hid]⟩
  obtain ⟨r, hr⟩ := Option.isSome_iff_exists.1 hprice
  have hrevise : (Statement.revisePrice id value now).perform (t.archiving p.fetched now) =
      .ok ((r.revised value now).fetched,
        (t.archiving p.fetched now).setPrice id (Price.revised value now)) := by
    show Statement.changePrice id (Price.revised value now) (t.archiving p.fetched now) = _
    simp only [Statement.changePrice, hr]
    rfl
  refine ⟨q.fetched, eval_bind_ok.2 ⟨_, _, eval_live_of_found h, ?_⟩⟩
  refine eval_statement_bind.2 ⟨_, _, harchive, ?_⟩
  exact eval_statement_bind.2 ⟨_, _, hrevise, eval_live_of_found hq⟩

/-- A revision with no number left. -/
theorem eval_revise_of_full (h : t.livePrice? id = some p)
    (hfull : ¬t.lastNumber < Nat.pow 2 63 - 1) (value : Decimal) (now : Timestamp) :
    (revise id value now).eval t = (.error (failed .full), t) := by
  have harchive : (Statement.archive p.fetched now).perform t = .error .full := by
    show Statement.changed () .full (t.archive? p.fetched now) = _
    rw [Tables.archive?, if_neg hfull]
    rfl
  unfold revise
  rw [eval_bind, eval_live_of_found h]
  show (Work.ask (.archive p.fetched now) _).eval t = _
  simp only [eval, harchive]

end Prices

namespace Market

open Tables

variable {σ : Type} (m : Market σ) {id : Uuid} {value : Decimal} (now : Timestamp)
  (hvalue : Prices.checkValue value = .ok ()) {s : MarketState σ}
  (h : (s.store.tables.livePrice? id).isSome)

section

include hvalue

theorem reply_revision (b : MarketState Unit) :
    let outcome := (Prices.revise id value now).atomically
      ((Write.revisePrice id value now).called.store b.store.tables)
    (Write.revisePrice id value now).called.reply bare b =
      (outcome.1.map some, ⟨outcome.2, ()⟩) := by
  show answering some (checked (Prices.checkValue value) _) _ = _
  rw [hvalue]
  show ((bare.commit .price _ _).1.map some, (bare.commit .price _ _).2) = _
  rw [bare_commit]

include h

/-- A revision with a number left is made. -/
theorem revisedTo_reply
    (hnumbers : ∀ a ∈ s.store.tables.archived, a.number ≤ s.store.tables.lastNumber)
    (hroom : s.store.tables.lastNumber < Nat.pow 2 63 - 1) :
    RevisedTo 1 s.store.tables
      ((Write.revisePrice id value now).called.reply m s).2.store.tables := by
  have hb : s.store.tables = (onTables s.store.tables).store.tables := rfl
  have hnothing := (Write.revisePrice id value now).refusesNothing_called s.store.tables
  obtain ⟨p, hp⟩ := Option.isSome_iff_exists.1 h
  obtain ⟨q, hq⟩ := Prices.eval_revise_of_room hp hnumbers hroom value now
  obtain ⟨htables, -⟩ := (Write.revisePrice id value now).called.follows_reply m hb
  have hunit := ((atomically_of_refusesNothing _ hnothing).1 hq).2
  rw [htables, reply_revision now hvalue]
  exact hunit ▸ revisedTo_setPrice hnumbers id p.fetched value now

/-- A revision with no number left is refused. -/
theorem reply_revision_of_full (hfull : ¬s.store.tables.lastNumber < Nat.pow 2 63 - 1) :
    ((Write.revisePrice id value now).called.reply m s).1 = .error (failed .full) := by
  have hb : s.store.tables = (onTables s.store.tables).store.tables := rfl
  have hnothing := (Write.revisePrice id value now).refusesNothing_called s.store.tables
  obtain ⟨p, hp⟩ := Option.isSome_iff_exists.1 h
  have heval := Prices.eval_revise_of_full hp hfull value now
  have hplain : ((Write.revisePrice id value now).called.reply bare (onTables s.store.tables)).1 =
      .error (failed .full) := by
    rw [reply_revision now hvalue]
    exact congrArg (Except.map some) ((atomically_of_refusesNothing _ hnothing).2 heval).1
  obtain ⟨-, htold⟩ := (Write.revisePrice id value now).called.follows_reply m hb
  rw [hplain] at htold
  rcases htold with hsame | ⟨_, _, _, ho, -⟩
  · exact hsame
  · cases ho

end

include hvalue h

/-- **Revisions of one price take one number each**, as long as there are numbers left. -/
theorem revisedTo_callAll (n : Nat)
    (hnumbers : ∀ a ∈ s.store.tables.archived, a.number ≤ s.store.tables.lastNumber)
    (hroom : s.store.tables.lastNumber + n ≤ Nat.pow 2 63 - 1) :
    RevisedTo n s.store.tables
      (m.callAll (List.replicate n (Write.revisePrice id value now).called) s).store.tables := by
  induction n generalizing s with
  | zero => exact ⟨rfl, (Int.add_zero _).symm, hnumbers⟩
  | succ n ih =>
    have hfirst := revisedTo_reply m now hvalue h hnumbers (by omega)
    have hlast := hfirst.lastNumber
    have hrest := ih (livePrice?_of_marks hfirst.marks h) hfirst.numbers (by omega)
    have hall := hfirst.trans hrest
    rw [Nat.add_comm 1 n] at hall
    exact hall

/-- **Revisions of one price can use up all numbers**, and then no other price can be revised. -/
theorem refused_after_revisions {n : Nat}
    (hnumbers : ∀ a ∈ s.store.tables.archived, a.number ≤ s.store.tables.lastNumber)
    (hn : s.store.tables.lastNumber + n = Nat.pow 2 63 - 1) {other : Uuid} {value' : Decimal}
    (now' : Timestamp) (hvalue' : Prices.checkValue value' = .ok ())
    (hother : (s.store.tables.livePrice? other).isSome) :
    ((Write.revisePrice other value' now').called.reply m
      (m.callAll (List.replicate n (Write.revisePrice id value now).called) s)).1 =
        .error (failed .full) := by
  have hrevised := revisedTo_callAll m now hvalue h n hnumbers (by omega)
  refine reply_revision_of_full m now' hvalue' (livePrice?_of_marks hrevised.marks hother) ?_
  rw [hrevised.lastNumber]
  omega

end Market

end CropLedger
