import CropLedger.Cache.Memory
import CropLedger.Proofs.Market.Commits

/-!
# The writes of the market

The six changes as values, so that a history of the market is a list of them. A write turns tables
into tables in one of six ways, each with what has to be there before; a write that does not happen
leaves the tables and the cache as they were.

* `Write.Turns`: what each write makes of the tables, and when;
* `Write.Turns.ne`: a write that happens can be seen in the tables;
* `Write.perform_cases`: a write happens, or nothing does.
-/

namespace CropLedger

/-! ### Rows -/

/-- The row of a new price. -/
def NewPrice.row (new : NewPrice) (id : Uuid) (now : Timestamp) : Price :=
  ⟨id, new.pair, new.value, now, now, none⟩

/-- A price with a new value. -/
def Price.revised (value : Decimal) (now : Timestamp) (p : Price) : Price :=
  { p with value := value.stored, updatedAt := now }

/-- A price with another mark of deletion. -/
def Price.marked (deletedAt : Option Timestamp) (now : Timestamp) (p : Price) : Price :=
  { p with updatedAt := now, deletedAt }

/-- What a price is, as an archived value of a number. -/
def Price.archivedAs (p : Price) (number : Int) (now : Timestamp) : ArchivedPrice :=
  ⟨number, p.id, p.pair, p.value, p.createdAt, p.updatedAt, now⟩

/-- The row of a new harvest. -/
def NewHarvest.row (new : NewHarvest) (id : Uuid) (now : Timestamp) : Harvest :=
  ⟨id, new.landCommodity, new.date, new.quantity, new.trimmedUnit, new.notes, now, now, none⟩

/-- A harvest marked as deleted. -/
def Harvest.deleted (now : Timestamp) (h : Harvest) : Harvest :=
  { h with updatedAt := now, deletedAt := some now }

namespace Tables

/-- The tables with what a price was under the next number. -/
def archiving (t : Tables) (p : Price) (now : Timestamp) : Tables :=
  { t with
    archived := t.archived ++ [(p.archivedAs (t.lastNumber + 1) now).kept]
    lastNumber := t.lastNumber + 1 }

theorem archive?_eq_some {t t' : Tables} {p : Price} {now : Timestamp}
    (h : t.archive? p now = some t') :
    (∀ a ∈ t.archived, a.number ≠ t.lastNumber + 1) ∧ t' = t.archiving p now := by
  unfold archive? insertArchived? at h
  split at h
  · split at h
    · cases h
    · rename_i hn
      cases h
      refine ⟨fun a ha he => hn (List.any_eq_true.2 ⟨a, ha, by simpa using he⟩), ?_⟩
      simp only [archiving, Price.archivedAs]
      rw [Int.max_eq_right (by omega)]
  · cases h

/-- As long as the numbers are not used up, and none is ahead of the last one, there is a next. -/
theorem archive?_of_room {t : Tables} (hnumbers : ∀ a ∈ t.archived, a.number ≤ t.lastNumber)
    (hroom : t.lastNumber < Nat.pow 2 63 - 1) (p : Price) (now : Timestamp) :
    t.archive? p now = some (t.archiving p now) := by
  have hunused : (t.archived.any fun b => b.number = t.lastNumber + 1) = false := by
    rw [List.any_eq_false]
    intro b hb he
    have hle := hnumbers b hb
    have he := of_decide_eq_true he
    omega
  unfold archive? insertArchived?
  rw [if_pos hroom, if_neg (by rw [hunused]; exact Bool.false_ne_true)]
  simp only [archiving, Price.archivedAs]
  rw [Int.max_eq_right (by omega)]

theorem room_of_archive? {t t' : Tables} {p : Price} {now : Timestamp}
    (h : t.archive? p now = some t') : t.lastNumber < Nat.pow 2 63 - 1 := by
  unfold archive? at h
  split at h
  · assumption
  · cases h

theorem insertPrice?_eq_some {t t' : Tables} {p : Price} (h : t.insertPrice? p = some t') :
    t.price? p.id = none ∧ t' = { t with prices := t.prices ++ [p.kept] } := by
  unfold insertPrice? at h
  split at h
  · cases h
  · rename_i hn
    cases h
    exact ⟨by simpa using hn, rfl⟩

theorem insertHarvest?_eq_some {t t' : Tables} {h : Harvest} (hi : t.insertHarvest? h = some t') :
    t.harvest? h.id = none ∧ t' = { t with harvests := t.harvests ++ [h.kept] } := by
  unfold insertHarvest? at hi
  split at hi
  · cases hi
  · rename_i hn
    cases hi
    exact ⟨by simpa using hn, rfl⟩

end Tables

namespace Statement

theorem changed_ok {α : Type} {answer a : α} {fault : StoreFault} {o : Option Tables} {t : Tables}
    (h : changed answer fault o = .ok (a, t)) : a = answer ∧ o = some t := by
  cases o with
  | none => cases h
  | some t' => cases h; exact ⟨rfl, rfl⟩

theorem changePrice_ok {id : Uuid} {change : Price → Price} {t t' : Tables} {p : Price}
    (h : changePrice id change t = .ok (p, t')) : t' = t.setPrice id change := by
  unfold changePrice at h
  split at h <;> cases h
  rfl

theorem changeHarvest_ok {id : Uuid} {change : Harvest → Harvest} {t t' : Tables} {u : Unit}
    (h : changeHarvest id change t = .ok (u, t')) : t' = t.setHarvest id change := by
  unfold changeHarvest at h
  split at h <;> cases h
  rfl

end Statement

namespace Market

/-! ### What writes do to the tables -/

/-- A change of the market with all that is handed in. -/
inductive Write
  | createPrice (new : NewPrice) (id : Uuid) (now : Timestamp)
  | revisePrice (id : Uuid) (value : Decimal) (now : Timestamp)
  | deletePrice (id : Uuid) (now : Timestamp)
  | restorePrice (id : Uuid) (now : Timestamp)
  | createHarvest (new : NewHarvest) (id : Uuid) (now : Timestamp)
  | deleteHarvest (id : Uuid) (now : Timestamp)

namespace Write

/-- The kind of thing that a write is about. -/
def entity : Write → Entity
  | createHarvest _ _ _ | deleteHarvest _ _ => .harvest
  | _ => .price

/-- **What each write makes of the tables**, with what has to be there before. -/
inductive Turns (t : Tables) : Write → Tables → Prop
  | createPrice {new : NewPrice} {id : Uuid} {now : Timestamp}
      (accepted : new.value.isNegative = false) (free : t.livePriceOf? new.pair = none)
      (fresh : t.price? id = none) :
      Turns t (.createPrice new id now) { t with prices := t.prices ++ [(new.row id now).kept] }
  | revisePrice {id : Uuid} {value : Decimal} {now : Timestamp} {old : Price}
      (accepted : value.isNegative = false) (found : t.livePrice? id = some old)
      (unused : ∀ a ∈ t.archived, a.number ≠ t.lastNumber + 1) :
      Turns t (.revisePrice id value now)
        ((t.archiving old.fetched now).setPrice id (Price.revised value now))
  | deletePrice {id : Uuid} {now : Timestamp} {old : Price} (found : t.livePrice? id = some old) :
      Turns t (.deletePrice id now) (t.setPrice id (Price.marked (some now) now))
  | restorePrice {id : Uuid} {now : Timestamp} {old : Price}
      (found : t.deletedPrice? id = some old) (free : t.livePriceOf? old.pair = none) :
      Turns t (.restorePrice id now) (t.setPrice id (Price.marked none now))
  | createHarvest {new : NewHarvest} {id : Uuid} {now : Timestamp}
      (fresh : t.harvest? id = none) :
      Turns t (.createHarvest new id now)
        { t with harvests := t.harvests ++ [(new.row id now).kept] }
  | deleteHarvest {id : Uuid} {now : Timestamp} {old : Harvest}
      (found : t.liveHarvest? id = some old) :
      Turns t (.deleteHarvest id now) (t.setHarvest id (Harvest.deleted now))

end Write

end Market

/-! ### What the work of a write comes to -/

namespace Tables

variable {t : Tables} {id : Uuid}

theorem id_of_livePrice? {p : Price} (h : t.livePrice? id = some p) : p.id = id := by
  have := List.find?_some h
  simp only [Bool.and_eq_true, decide_eq_true_eq] at this
  exact this.1

theorem id_of_deletedPrice? {p : Price} (h : t.deletedPrice? id = some p) : p.id = id := by
  have := List.find?_some h
  simp only [Bool.and_eq_true, decide_eq_true_eq] at this
  exact this.1

theorem id_of_liveHarvest? {h : Harvest} (hf : t.liveHarvest? id = some h) : h.id = id := by
  have := List.find?_some hf
  simp only [Bool.and_eq_true, decide_eq_true_eq] at this
  exact this.1

end Tables

namespace Prices

open Work Market

variable {t t' : Tables}

theorem isNegative_of_checkValue {value : Decimal} (h : checkValue value = .ok ()) :
    value.isNegative = false := by
  unfold checkValue at h
  split at h
  · cases h
  · rename_i hn
    simpa using hn

theorem eval_live {id : Uuid} {p : Price} (h : (live id).eval t = (.ok p, t')) :
    ∃ q, t.livePrice? id = some q ∧ p = q.fetched ∧ t' = t := by
  obtain ⟨a, t₁, ha, h⟩ := eval_statement_bind.1 h
  cases ha
  obtain ⟨ho, rfl⟩ := eval_orFail.1 h
  obtain ⟨q, hq, rfl⟩ := Option.map_eq_some_iff.1 ho
  exact ⟨q, hq, rfl, rfl⟩

theorem eval_live_of_found {id : Uuid} {p : Price} (h : t.livePrice? id = some p) :
    (live id).eval t = (.ok p.fetched, t) := by
  show (orFail (.notFound s!"price {id}") ((t.livePrice? id).map Price.fetched)).eval t = _
  rw [h]
  rfl

theorem eval_free {pair : Pair} {u : Unit} (h : (free pair).eval t = (.ok u, t')) :
    t.livePriceOf? pair = none ∧ t' = t := by
  obtain ⟨a, t₁, ha, h⟩ := eval_statement_bind.1 h
  cases ha
  cases hl : t.livePriceOf? pair with
  | none =>
    rw [hl] at h
    exact ⟨rfl, (eval_pure.1 h).2⟩
  | some p =>
    rw [hl] at h
    cases h

theorem turns_create {new : NewPrice} {id : Uuid} {now : Timestamp} {p : Price}
    (h : (guarded (checkValue new.value) (create new id now)).eval t = (.ok p, t')) :
    (Write.createPrice new id now).Turns t t' := by
  obtain ⟨hv, hw⟩ := eval_guarded_ok h
  obtain ⟨_, t₁, he, hs⟩ := eval_bind_ok.1 hw
  obtain ⟨hf, rfl⟩ := eval_free he
  obtain ⟨-, hi⟩ := Statement.changed_ok ((eval_statement _ _).1 hs)
  obtain ⟨hn, rfl⟩ := Tables.insertPrice?_eq_some hi
  exact .createPrice (isNegative_of_checkValue hv) hf hn

theorem turns_revise {id : Uuid} {value : Decimal} {now : Timestamp} {p : Price}
    (h : (guarded (checkValue value) (revise id value now)).eval t = (.ok p, t')) :
    (Write.revisePrice id value now).Turns t t' := by
  obtain ⟨hv, hw⟩ := eval_guarded_ok h
  obtain ⟨_, t₁, he, h₁⟩ := eval_bind_ok.1 hw
  obtain ⟨old, hl, rfl, rfl⟩ := eval_live he
  obtain ⟨_, t₂, ha, h₂⟩ := eval_statement_bind.1 h₁
  obtain ⟨hu, rfl⟩ := Tables.archive?_eq_some (Statement.changed_ok ha).2
  obtain ⟨_, t₃, hr, h₃⟩ := eval_statement_bind.1 h₂
  obtain rfl := Statement.changePrice_ok hr
  obtain ⟨_, _, _, rfl⟩ := eval_live h₃
  exact .revisePrice (isNegative_of_checkValue hv) hl hu

theorem turns_delete {id : Uuid} {now : Timestamp} {u : Unit}
    (h : (delete id now).eval t = (.ok u, t')) : (Write.deletePrice id now).Turns t t' := by
  obtain ⟨_, t₁, he, h₁⟩ := eval_bind_ok.1 h
  obtain ⟨old, hl, rfl, rfl⟩ := eval_live he
  obtain ⟨_, t₂, hm, h₂⟩ := eval_statement_bind.1 h₁
  obtain rfl := Statement.changePrice_ok hm
  obtain ⟨-, rfl⟩ := eval_pure.1 h₂
  have hid : old.fetched.id = id := (Tables.id_of_livePrice? hl : old.id = id)
  rw [hid]
  exact .deletePrice hl

theorem turns_restore {id : Uuid} {now : Timestamp} {p : Price}
    (h : (restore id now).eval t = (.ok p, t')) : (Write.restorePrice id now).Turns t t' := by
  obtain ⟨_, t₁, ha, h₁⟩ := eval_statement_bind.1 h
  cases ha
  obtain ⟨_, t₂, hd, h₂⟩ := eval_bind_ok.1 h₁
  obtain ⟨ho, rfl⟩ := eval_orFail.1 hd
  obtain ⟨old, hm, rfl⟩ := Option.map_eq_some_iff.1 ho
  obtain ⟨_, t₃, he, h₃⟩ := eval_bind_ok.1 h₂
  obtain ⟨hf, rfl⟩ := eval_free he
  obtain rfl := Statement.changePrice_ok ((eval_statement _ _).1 h₃)
  have hid : old.fetched.id = id := (Tables.id_of_deletedPrice? hm : old.id = id)
  rw [hid]
  exact .restorePrice hm hf

end Prices

namespace Harvests

open Work Market

variable {t t' : Tables}

theorem turns_create {new : NewHarvest} {id : Uuid} {now : Timestamp} {v : HarvestView}
    (h : (guarded (check new) (create new id now)).eval t = (.ok v, t')) :
    (Write.createHarvest new id now).Turns t t' := by
  obtain ⟨-, hw⟩ := eval_guarded_ok h
  obtain ⟨_, t₁, hi, h₁⟩ := eval_statement_bind.1 hw
  obtain ⟨hn, rfl⟩ := Tables.insertHarvest?_eq_some (Statement.changed_ok hi).2
  obtain ⟨-, rfl⟩ := eval_pure.1 h₁
  exact .createHarvest hn

theorem turns_delete {id : Uuid} {now : Timestamp} {u : Unit}
    (h : (delete id now).eval t = (.ok u, t')) : (Write.deleteHarvest id now).Turns t t' := by
  obtain ⟨_, t₁, ha, h₁⟩ := eval_statement_bind.1 h
  cases ha
  obtain ⟨_, t₂, he, h₂⟩ := eval_bind_ok.1 h₁
  obtain ⟨ho, rfl⟩ := eval_orFail.1 he
  obtain ⟨old, hm, rfl⟩ := Option.map_eq_some_iff.1 ho
  obtain rfl := Statement.changeHarvest_ok ((eval_statement _ _).1 h₂)
  have hid : old.fetched.id = id := (Tables.id_of_liveHarvest? hm : old.id = id)
  rw [hid]
  exact .deleteHarvest hm

end Harvests

/-! ### Writes leave a mark -/

namespace Tables

variable {t : Tables} {id : Uuid}

theorem setPrice_ne {f : Price → Price} {p : Price} (hp : p ∈ t.prices) (hid : p.id = id)
    (hf : (f p).deletedAt ≠ p.deletedAt) : t.setPrice id f ≠ t := by
  intro h
  have hm : t.prices.map (fun p => if p.id = id then f p else p) = t.prices.map fun p => p :=
    (congrArg prices h).trans (List.map_id' _).symm
  have he := List.map_inj_left.1 hm p hp
  rw [if_pos hid] at he
  exact hf (congrArg Price.deletedAt he)

theorem setHarvest_ne {f : Harvest → Harvest} {x : Harvest} (hx : x ∈ t.harvests) (hid : x.id = id)
    (hf : (f x).deletedAt ≠ x.deletedAt) : t.setHarvest id f ≠ t := by
  intro h
  have hm : t.harvests.map (fun x => if x.id = id then f x else x) = t.harvests.map fun x => x :=
    (congrArg harvests h).trans (List.map_id' _).symm
  have he := List.map_inj_left.1 hm x hx
  rw [if_pos hid] at he
  exact hf (congrArg Harvest.deletedAt he)

end Tables

/-- A write that happens can be seen in the tables, whatever is written. -/
theorem Market.Write.Turns.ne {t t' : Tables} {w : Market.Write} (h : w.Turns t t') : t' ≠ t := by
  intro he
  have hgrown {α : Type} {rows : List α} {row : α} : rows ++ [row] ≠ rows := by simp
  cases h with
  | createPrice => exact hgrown (congrArg Tables.prices he)
  | revisePrice => exact hgrown (congrArg Tables.archived he)
  | deletePrice found =>
    have hlive := List.find?_some found
    have hid := Tables.id_of_livePrice? found
    refine Tables.setPrice_ne (List.mem_of_find?_eq_some found) hid ?_ he
    simp only [Bool.and_eq_true, Price.isLive, Option.isNone_iff_eq_none] at hlive
    rw [hlive.2]
    exact Option.some_ne_none _
  | restorePrice found =>
    have hmark := List.find?_some found
    have hid := Tables.id_of_deletedPrice? found
    refine Tables.setPrice_ne (List.mem_of_find?_eq_some found) hid ?_ he
    simp only [Bool.and_eq_true, Price.isLive, Bool.not_eq_true', Option.isNone_eq_false_iff]
      at hmark
    exact (Option.ne_none_iff_isSome.2 hmark.2).symm
  | createHarvest => exact hgrown (congrArg Tables.harvests he)
  | deleteHarvest found =>
    have hlive := List.find?_some found
    have hid := Tables.id_of_liveHarvest? found
    refine Tables.setHarvest_ne (List.mem_of_find?_eq_some found) hid ?_ he
    simp only [Bool.and_eq_true, Harvest.isLive, Option.isNone_iff_eq_none] at hlive
    rw [hlive.2]
    exact Option.some_ne_none _

namespace Market

/-! ### Carrying writes out -/

variable {σ α : Type}

/-- An operation of which only is told whether it succeeded. -/
def unanswered (operation : Operation σ α) : Operation σ Unit := fun s =>
  ((operation s).1.map fun _ => (), (operation s).2)

theorem settled_map (entity : Entity) (a : α) (cleared : Except CacheFault Nat) :
    ((settled entity a cleared).map fun _ => ()) = settled entity () cleared := by
  cases cleared <;> rfl

theorem committed_map (result : Except ServiceFault α) :
    committed (result.map fun _ => ()) = committed result := by
  cases result <;> rfl

theorem refuses_commit (m : Market σ) (entity : Entity)
    {change : Database → Except ServiceFault α × Database}
    (h : ∀ db, (change db).2.refuses = db.refuses) (s : MarketState σ) :
    (m.commit entity change s).2.store.refuses = s.store.refuses := by
  rw [← h s.store]
  rcases hc : change s.store with ⟨result | a, store⟩
  · rw [m.commit_of_error entity hc]
  · rw [m.commit_of_ok entity hc]

theorem refuses_checked {check : Except ServiceFault Unit} {operation : Operation σ α}
    (h : ∀ s, (operation s).2.store.refuses = s.store.refuses) (s : MarketState σ) :
    (checked check operation s).2.store.refuses = s.store.refuses := by
  cases check with
  | ok u => exact h s
  | error fault => rfl

namespace Write

/-- Carries a write out. -/
def perform (m : Market σ) : Write → Operation σ Unit
  | createPrice new id now => unanswered (m.createPrice new id now)
  | revisePrice id value now => unanswered (m.revisePrice id value now)
  | deletePrice id now => unanswered (m.deletePrice id now)
  | restorePrice id now => unanswered (m.restorePrice id now)
  | createHarvest new id now => unanswered (m.createHarvest new id now)
  | deleteHarvest id now => unanswered (m.deleteHarvest id now)

/-- The tables were turned, and the cache was cleared of the write's kind. -/
structure Happened (m : Market σ) (w : Write) (s : MarketState σ)
    (outcome : Except ServiceFault Unit × MarketState σ) : Prop where
  turns : w.Turns s.store.tables outcome.2.store.tables
  answer : outcome.1 = settled w.entity () (m.cache.deletePrefix w.entity.label s.cache).1
  cache : outcome.2.cache = (m.cache.deletePrefix w.entity.label s.cache).2

theorem cases_of_isChange {m : Market σ} {w : Write} {work : Work α} {operation : Operation σ α}
    (h : IsChange m w.entity work operation)
    (ht : ∀ {t t' a}, work.eval t = (.ok a, t') → w.Turns t t') (s : MarketState σ) :
    w.Happened m s (unanswered operation s) ∨
      ∃ fault, Refused s (unanswered operation s) fault := by
  rcases h s with ⟨a, hc⟩ | ⟨fault, hr⟩
  · refine .inl ⟨ht hc.eval, ?_, hc.cache⟩
    show (operation s).1.map _ = _
    rw [hc.answer, settled_map]
  · refine .inr ⟨fault, ?_, hr.plain, hr.tables, hr.cache⟩
    show (operation s).1.map _ = _
    rw [hr.answer]
    rfl

/-- **A write happens, or nothing does.** -/
theorem perform_cases (m : Market σ) (w : Write) (s : MarketState σ) :
    w.Happened m s (w.perform m s) ∨ ∃ fault, Refused s (w.perform m s) fault := by
  cases w with
  | createPrice new id now =>
    exact cases_of_isChange (m.isChange_createPrice new id now) Prices.turns_create s
  | revisePrice id value now =>
    exact cases_of_isChange (m.isChange_revisePrice id value now) Prices.turns_revise s
  | deletePrice id now =>
    exact cases_of_isChange (m.isChange_deletePrice id now) Prices.turns_delete s
  | restorePrice id now =>
    exact cases_of_isChange (m.isChange_restorePrice id now) Prices.turns_restore s
  | createHarvest new id now =>
    exact cases_of_isChange (m.isChange_createHarvest new id now) Harvests.turns_create s
  | deleteHarvest id now =>
    exact cases_of_isChange (m.isChange_deleteHarvest id now) Harvests.turns_delete s

/-- What the store refuses is not changed by writes. -/
theorem refuses_perform (m : Market σ) (w : Write) (s : MarketState σ) :
    (w.perform m s).2.store.refuses = s.store.refuses := by
  cases w with
  | createPrice new id now =>
    exact refuses_checked (m.refuses_commit _ (Prices.create new id now).refuses_atomically) s
  | revisePrice id value now =>
    exact refuses_checked (m.refuses_commit _ (Prices.revise id value now).refuses_atomically) s
  | deletePrice id now => exact m.refuses_commit _ (Prices.delete id now).refuses_atomically s
  | restorePrice id now => exact m.refuses_commit _ (Prices.restore id now).refuses_atomically s
  | createHarvest new id now =>
    exact refuses_checked (m.refuses_commit _ (Harvests.create new id now).refuses_run) s
  | deleteHarvest id now => exact m.refuses_commit _ (Harvests.delete id now).refuses_run s

/-- Whether the write behind an answer has happened can be told from the answer. -/
theorem committed_iff_happened (m : Market σ) (w : Write) (s : MarketState σ) :
    committed (w.perform m s).1 = true ↔ w.Happened m s (w.perform m s) := by
  constructor
  · intro hc
    rcases w.perform_cases m s with h | ⟨fault, hr⟩
    · exact h
    · rw [hr.answer] at hc
      exact absurd hc (by simp [committed, hr.plain])
  · intro h
    rw [h.answer]
    exact committed_settled _ _ _

theorem tables_of_not_committed (m : Market σ) {w : Write} {s : MarketState σ}
    (h : committed (w.perform m s).1 = false) :
    (w.perform m s).2.store.tables = s.store.tables := by
  rcases w.perform_cases m s with hh | ⟨fault, hr⟩
  · rw [(w.committed_iff_happened m s).2 hh] at h
    cases h
  · exact hr.tables

end Write

/-! ### Samples -/

namespace Sample

/-- A point in time of one day, one hour east of UTC. Minutes start over after an hour. -/
def time (minute : Nat) : Timestamp :=
  ⟨⟨2024, 3, 5, by decide⟩, 12, minute % 60, 0, 0, 60, by
    have := Nat.mod_lt minute (by decide : 60 > 0)
    refine ⟨by decide, this, by decide, by decide, by decide, by decide, ?_⟩
    rw [utcDate?, if_neg (by omega), if_pos (by omega)]
    rfl⟩

/-- An amount with one decimal place, below a hundred. -/
def amount (tenths : Nat) : Decimal :=
  ⟨(tenths % 1000 : Nat), 1,
    Nat.lt_trans (Nat.mod_lt tenths (by decide : 1000 > 0)) (by decide), by decide⟩

/-- A pair that two prices stand for one after the other. -/
def pair : Pair := ⟨⟨7⟩, ⟨8⟩⟩

/-- A market whose answers are kept in memory. -/
def market : Market Memory := ⟨Memory.cache, 300000, 600000⟩

/-- Nothing is stored, and nothing is cached. -/
def blank : MarketState Memory := ⟨.empty, .empty 100⟩

/-- A price is offered. -/
def offer : Write := .createPrice ⟨pair, amount 105⟩ ⟨1⟩ (time 1)

/-- The price that is offered, as it is kept. -/
def offered : Price := ⟨⟨1⟩, pair, amount 105, time 1, time 1, none⟩

end Sample

end Market

end CropLedger
