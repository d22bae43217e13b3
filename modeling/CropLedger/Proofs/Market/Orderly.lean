import Mathlib.Data.List.Nodup
import CropLedger.Proofs.Market.Writes

/-!
# Tables in good order

The tables that a history of writes leaves behind are in good order: identifiers are not shared, a
pair has at most one live price, and archived values are numbered from one without a gap. Writes
only ever add to what is there: no price goes or comes to stand for another pair, and archived
values stay as they are.

* `Tables.Orderly`, `Turns.orderly`: the order, and that every write keeps it;
* `Tables.Extends`, `Turns.extends`: what later tables have in common with earlier ones;
* `Tables.Shows`: a value that a live price has;
* `Market.orderly_run`, `Market.extends_run`: the same of histories.
-/

namespace CropLedger

namespace Tables

variable {t : Tables} {id : Uuid} {pair : Pair}

/-! ### Looking up -/

theorem mem_of_livePrice? {p : Price} (h : t.livePrice? id = some p) :
    p ∈ t.prices ∧ p.id = id ∧ p.isLive = true := by
  have := List.find?_some h
  simp only [Bool.and_eq_true, decide_eq_true_eq] at this
  exact ⟨List.mem_of_find?_eq_some h, this⟩

theorem mem_of_deletedPrice? {p : Price} (h : t.deletedPrice? id = some p) :
    p ∈ t.prices ∧ p.id = id ∧ p.isLive = false := by
  have := List.find?_some h
  simp only [Bool.and_eq_true, decide_eq_true_eq, Bool.not_eq_true'] at this
  exact ⟨List.mem_of_find?_eq_some h, this⟩

theorem price?_eq_none_iff : t.price? id = none ↔ ∀ p ∈ t.prices, p.id ≠ id := by
  unfold price?
  simp

theorem livePriceOf?_eq_none_iff :
    t.livePriceOf? pair = none ↔ ∀ p ∈ t.prices, p.isLive = true → p.pair ≠ pair := by
  unfold livePriceOf?
  simp only [List.find?_eq_none, Bool.and_eq_true, decide_eq_true_eq, not_and]
  exact ⟨fun h p hp hl he => h p hp he hl, fun h p hp he hl => h p hp hl he⟩

theorem mem_setPrice {change : Price → Price} {q : Price} :
    q ∈ (t.setPrice id change).prices ↔
      ∃ p ∈ t.prices, q = if p.id = id then change p else p := by
  unfold setPrice
  simp only [List.mem_map, eq_comm]

theorem mem_setPrice_cases {change : Price → Price} {q : Price}
    (h : q ∈ (t.setPrice id change).prices) :
    (∃ p ∈ t.prices, p.id = id ∧ q = change p) ∨ (q ∈ t.prices ∧ q.id ≠ id) := by
  obtain ⟨p, hp, rfl⟩ := mem_setPrice.1 h
  by_cases hid : p.id = id
  · rw [if_pos hid]
    exact .inl ⟨p, hp, hid, rfl⟩
  · rw [if_neg hid]
    exact .inr ⟨hp, hid⟩

/-- A change leaves alone what it leaves alone of each price. -/
theorem map_setPrice {α : Type} (f : Price → α) {change : Price → Price}
    (h : ∀ p, f (change p) = f p) : (t.setPrice id change).prices.map f = t.prices.map f := by
  simp only [setPrice, List.map_map]
  refine List.map_congr_left fun p _ => ?_
  simp only [Function.comp]
  split
  · exact h p
  · rfl

/-! ### Good order -/

/-- **The order of tables.** -/
structure Orderly (t : Tables) : Prop where
  ids : (t.prices.map Price.id).Nodup
  live : ∀ p ∈ t.prices, ∀ q ∈ t.prices, p.isLive = true → q.isLive = true → p.pair = q.pair →
    p.id = q.id
  numbers : ∀ (i : Nat) (a : ArchivedPrice), t.archived[i]? = some a → a.number = (i : Int) + 1
  lastNumber : t.lastNumber = t.archived.length

theorem orderly_empty : Tables.empty.Orderly :=
  ⟨List.nodup_nil, by simp [Tables.empty], by simp [Tables.empty], rfl⟩

namespace Orderly

theorem eq_of_id (h : t.Orderly) {p q : Price} (hp : p ∈ t.prices) (hq : q ∈ t.prices)
    (he : p.id = q.id) : p = q :=
  List.inj_on_of_nodup_map h.ids hp hq he

theorem price?_eq_some (h : t.Orderly) {p : Price} (hp : p ∈ t.prices) :
    t.price? p.id = some p := by
  cases hf : t.price? p.id with
  | none => exact absurd rfl (price?_eq_none_iff.1 hf p hp)
  | some q =>
    have hq : q.id = p.id := by simpa using List.find?_some hf
    rw [h.eq_of_id (List.mem_of_find?_eq_some hf) hp hq]

theorem livePriceOf?_eq_some (h : t.Orderly) {p : Price} (hp : p ∈ t.prices)
    (hl : p.isLive = true) : t.livePriceOf? p.pair = some p := by
  cases hf : t.livePriceOf? p.pair with
  | none => exact absurd rfl (livePriceOf?_eq_none_iff.1 hf p hp hl)
  | some q =>
    have hq := List.find?_some hf
    simp only [Bool.and_eq_true, decide_eq_true_eq] at hq
    have hm := List.mem_of_find?_eq_some hf
    rw [h.eq_of_id hm hp (h.live q hm p hp hq.2 hl hq.1)]

theorem livePrice?_eq_some (h : t.Orderly) {p : Price} (hp : p ∈ t.prices)
    (hl : p.isLive = true) : t.livePrice? p.id = some p := by
  cases hf : t.livePrice? p.id with
  | none =>
    have := List.find?_eq_none.1 hf p hp
    simp [hl] at this
  | some q =>
    obtain ⟨hq, hid, -⟩ := mem_of_livePrice? hf
    rw [h.eq_of_id hq hp hid]

theorem archivedInOrder_eq (h : t.Orderly) : t.archivedInOrder = t.archived := by
  refine List.mergeSort_of_pairwise ?_
  rw [List.pairwise_iff_getElem]
  intro i j hi hj hij
  have h₁ := h.numbers i _ (List.getElem?_eq_getElem hi)
  have h₂ := h.numbers j _ (List.getElem?_eq_getElem hj)
  simp only [decide_eq_true_eq]
  omega

/-- A change that keeps identifiers and pairs, and gives no price life. -/
theorem setPrice (h : t.Orderly) {change : Price → Price} (hid : ∀ p, (change p).id = p.id)
    (hpair : ∀ p, (change p).pair = p.pair)
    (hlive : ∀ p, (change p).isLive = true → p.isLive = true) : (t.setPrice id change).Orderly := by
  have hsame (p : Price) : (if p.id = id then change p else p).id = p.id ∧
      (if p.id = id then change p else p).pair = p.pair ∧
      ((if p.id = id then change p else p).isLive = true → p.isLive = true) := by
    split
    · exact ⟨hid p, hpair p, hlive p⟩
    · exact ⟨rfl, rfl, fun hl => hl⟩
  refine ⟨?_, ?_, h.numbers, h.lastNumber⟩
  · rw [map_setPrice Price.id hid]
    exact h.ids
  · intro p' hp' q' hq' hpl hql he
    obtain ⟨p, hp, rfl⟩ := mem_setPrice.1 hp'
    obtain ⟨q, hq, rfl⟩ := mem_setPrice.1 hq'
    rw [(hsame p).1, (hsame q).1]
    rw [(hsame p).2.1, (hsame q).2.1] at he
    exact h.live p hp q hq ((hsame p).2.2 hpl) ((hsame q).2.2 hql) he

theorem archiving (h : t.Orderly) (p : Price) (now : Timestamp) : (t.archiving p now).Orderly := by
  refine ⟨h.ids, h.live, ?_, ?_⟩
  · intro i a ha
    simp only [Tables.archiving] at ha
    rcases Nat.lt_or_ge i t.archived.length with hi | hi
    · rw [List.getElem?_append_left hi] at ha
      exact h.numbers i a ha
    · rw [List.getElem?_append_right hi] at ha
      rw [List.getElem?_singleton] at ha
      split at ha
      · cases ha
        show t.lastNumber + 1 = i + 1
        rw [h.lastNumber]
        omega
      · cases ha
  · simp [Tables.archiving, h.lastNumber]

end Orderly

end Tables

namespace Market.Write.Turns

open Tables

variable {t t' : Tables} {w : Write}

theorem orderly_createPrice (h : t.Orderly) {new : NewPrice} {id : Uuid} {now : Timestamp}
    (free : t.livePriceOf? new.pair = none) (fresh : t.price? id = none) :
    Orderly { t with prices := t.prices ++ [(new.row id now).kept] } := by
  have hfree := livePriceOf?_eq_none_iff.1 free
  have hfresh := price?_eq_none_iff.1 fresh
  refine ⟨?_, ?_, h.numbers, h.lastNumber⟩
  · rw [List.map_append, List.nodup_append]
    refine ⟨h.ids, List.nodup_singleton _, ?_⟩
    intro a ha b hb hab
    obtain ⟨p, hp, rfl⟩ := List.mem_map.1 ha
    simp only [List.map_cons, List.map_nil, List.mem_singleton] at hb
    exact hfresh p hp (hab.trans hb)
  · intro p hp q hq hpl hql he
    rcases List.mem_append.1 hp with hp | hp <;> rcases List.mem_append.1 hq with hq | hq
    · exact h.live p hp q hq hpl hql he
    · obtain rfl := List.mem_singleton.1 hq
      exact absurd he (hfree p hp hpl)
    · obtain rfl := List.mem_singleton.1 hp
      exact absurd he.symm (hfree q hq hql)
    · rw [List.mem_singleton.1 hp, List.mem_singleton.1 hq]

theorem orderly_restorePrice (h : t.Orderly) {id : Uuid} {now : Timestamp} {old : Price}
    (found : t.deletedPrice? id = some old) (free : t.livePriceOf? old.pair = none) :
    (t.setPrice id (Price.marked none now)).Orderly := by
  have hfree := livePriceOf?_eq_none_iff.1 free
  obtain ⟨hold, hid, -⟩ := mem_of_deletedPrice? found
  refine ⟨?_, ?_, h.numbers, h.lastNumber⟩
  · have hids : (t.setPrice id (Price.marked none now)).prices.map Price.id =
        t.prices.map Price.id := map_setPrice Price.id fun _ => rfl
    rw [hids]
    exact h.ids
  · intro p' hp' q' hq' hpl hql he
    obtain ⟨p, hp, rfl⟩ := mem_setPrice.1 hp'
    obtain ⟨q, hq, rfl⟩ := mem_setPrice.1 hq'
    -- the restored price is the old one, whose pair no other live price has
    have hnone (x y : Price) (hx : x ∈ t.prices) (hy : y ∈ t.prices) (hxi : x.id = id)
        (hyl : y.isLive = true) : x.pair ≠ y.pair := by
      rw [h.eq_of_id hx hold (hxi.trans hid.symm)]
      exact fun he => hfree y hy hyl he.symm
    by_cases hpi : p.id = id <;> by_cases hqi : q.id = id
    · simp only [hpi, hqi, if_true]
      exact hpi.trans hqi.symm
    · simp only [hpi, hqi, if_true, if_false] at hql he ⊢
      exact absurd he (hnone p q hp hq hpi hql)
    · simp only [hpi, hqi, if_true, if_false] at hpl he ⊢
      exact absurd he.symm (hnone q p hq hp hqi hpl)
    · simp only [hpi, hqi, if_false] at hpl hql he ⊢
      exact h.live p hp q hq hpl hql he

/-- **Every write keeps the tables in good order.** -/
theorem orderly (h : t.Orderly) (ht : w.Turns t t') : t'.Orderly := by
  cases ht with
  | createPrice accepted free fresh => exact orderly_createPrice h free fresh
  | revisePrice accepted found unused =>
    exact (h.archiving _ _).setPrice (fun _ => rfl) (fun _ => rfl) fun _ hl => hl
  | deletePrice found =>
    exact h.setPrice (fun _ => rfl) (fun _ => rfl) fun _ hl => nomatch hl
  | restorePrice found free => exact orderly_restorePrice h found free
  | createHarvest fresh => exact ⟨h.ids, h.live, h.numbers, h.lastNumber⟩
  | deleteHarvest found => exact ⟨h.ids, h.live, h.numbers, h.lastNumber⟩

end Market.Write.Turns

/-! ### Later tables -/

namespace Tables

/-- An identifier with the pair that it stands for. -/
def entry (p : Price) : Uuid × Pair := (p.id, p.pair)

/-- **What later tables keep of earlier ones**: all prices under their identifiers and pairs, and
all archived values as they are. -/
structure Extends (t t' : Tables) : Prop where
  entries : t.prices.map entry <+: t'.prices.map entry
  archived : t.archived <+: t'.archived

theorem Extends.refl (t : Tables) : t.Extends t := ⟨List.prefix_refl _, List.prefix_refl _⟩

theorem Extends.trans {t t' t'' : Tables} (h : t.Extends t') (h' : t'.Extends t'') :
    t.Extends t'' :=
  ⟨h.entries.trans h'.entries, h.archived.trans h'.archived⟩

/-- A price of earlier tables stands for the same pair later on. -/
theorem Extends.price? {t t' : Tables} (h : t.Extends t') (ho : t'.Orderly) {p : Price}
    (hp : p ∈ t.prices) : ∃ q, t'.price? p.id = some q ∧ q.pair = p.pair := by
  have hm : entry p ∈ t'.prices.map entry := h.entries.subset (List.mem_map_of_mem hp)
  obtain ⟨q, hq, he⟩ := List.mem_map.1 hm
  have hid : q.id = p.id := congrArg Prod.fst he
  exact ⟨q, hid ▸ ho.price?_eq_some hq, congrArg Prod.snd he⟩

/-! ### A value in the tables -/

/-- A price is live, stands for a pair and has a value. -/
def Shows (t : Tables) (id : Uuid) (pair : Pair) (value : Decimal) : Prop :=
  ∃ p ∈ t.prices, p.id = id ∧ p.pair = pair ∧ p.value = value ∧ p.isLive = true

section Shows

variable {t : Tables} {id : Uuid} {pair : Pair} {value : Decimal}

/-- A change of another price leaves what is shown of a price alone. -/
theorem Shows.setPrice (h : t.Shows id pair value) {id' : Uuid} (hne : id' ≠ id)
    (change : Price → Price) : (t.setPrice id' change).Shows id pair value := by
  obtain ⟨p, hp, hid, hrest⟩ := h
  refine ⟨p, mem_setPrice.2 ⟨p, hp, ?_⟩, hid, hrest⟩
  rw [if_neg fun he => hne (he.symm.trans hid)]

/-- A price that is given another value shows it, as the store keeps it. -/
theorem Shows.revised (h : t.Shows id pair value) {value' : Decimal} {now : Timestamp} :
    (t.setPrice id (Price.revised value' now)).Shows id pair value'.stored := by
  obtain ⟨p, hp, hid, hpair, -, hlive⟩ := h
  exact ⟨p.revised value' now, mem_setPrice.2 ⟨p, hp, (if_pos hid).symm⟩, hid, hpair, rfl, hlive⟩

end Shows

end Tables

namespace Market

open Tables

/-- What revisions and marks leave alone of a price stays with it for good. -/
theorem Write.Turns.map_prefix {α : Type} (f : Price → α)
    (hr : ∀ value now p, f (Price.revised value now p) = f p)
    (hm : ∀ deletedAt now p, f (Price.marked deletedAt now p) = f p) {t t' : Tables} {w : Write}
    (ht : w.Turns t t') : t.prices.map f <+: t'.prices.map f := by
  cases ht with
  | createPrice =>
    rw [List.map_append]
    exact List.prefix_append _ _
  | revisePrice => exact (map_setPrice f (hr _ _)).symm ▸ List.prefix_refl _
  | deletePrice | restorePrice => exact (map_setPrice f (hm _ _)).symm ▸ List.prefix_refl _
  | createHarvest | deleteHarvest => exact List.prefix_refl _

theorem Write.Turns.archived_prefix {t t' : Tables} {w : Write} (ht : w.Turns t t') :
    t.archived <+: t'.archived := by
  cases ht with
  | revisePrice => exact List.prefix_append _ _
  | createPrice | deletePrice | restorePrice | createHarvest | deleteHarvest =>
    exact List.prefix_refl _

theorem Write.Turns.extends {t t' : Tables} {w : Write} (ht : w.Turns t t') : t.Extends t' :=
  ⟨ht.map_prefix entry (fun _ _ _ => rfl) (fun _ _ _ => rfl), ht.archived_prefix⟩

/-! ### Histories -/

variable {σ : Type}

/-- The state after writes one after another, whatever comes of each. -/
def run (m : Market σ) (writes : List Write) (s : MarketState σ) : MarketState σ :=
  writes.foldl (fun s w => (w.perform m s).2) s

theorem run_cons (m : Market σ) (w : Write) (writes : List Write) (s : MarketState σ) :
    m.run (w :: writes) s = m.run writes (w.perform m s).2 := rfl

theorem run_append (m : Market σ) (before after : List Write) (s : MarketState σ) :
    m.run (before ++ after) s = m.run after (m.run before s) :=
  List.foldl_append ..

theorem refuses_run (m : Market σ) (writes : List Write) (s : MarketState σ) :
    (m.run writes s).store.refuses = s.store.refuses := by
  induction writes generalizing s with
  | nil => rfl
  | cons w writes ih => rw [run_cons, ih, w.refuses_perform]

theorem refusesNothing_run (m : Market σ) (writes : List Write) {s : MarketState σ}
    (h : s.store.RefusesNothing) : (m.run writes s).store.RefusesNothing := by
  rw [Database.RefusesNothing, m.refuses_run]
  exact h

/-- A write turns the tables, or leaves them as they were. -/
theorem tables_perform (m : Market σ) (w : Write) (s : MarketState σ) :
    w.Turns s.store.tables (w.perform m s).2.store.tables ∨
      (w.perform m s).2.store.tables = s.store.tables := by
  rcases w.perform_cases m s with hh | ⟨fault, hr⟩
  · exact .inl hh.turns
  · exact .inr hr.tables

/-- What each way to turn the tables keeps is kept by every write, whatever comes of it. -/
theorem perform_keeps (m : Market σ) {P : Tables → Prop} {w : Write} {s : MarketState σ}
    (hw : ∀ {t t'}, P t → w.Turns t t' → P t') (h : P s.store.tables) :
    P (w.perform m s).2.store.tables := by
  rcases m.tables_perform w s with ht | he
  · exact hw h ht
  · exact he ▸ h

/-- What each way to turn the tables keeps, for writes of a kind, is kept by histories of them. -/
theorem run_keeps_of (m : Market σ) {Q : Write → Prop} {P : Tables → Prop}
    (hw : ∀ {t t'} {w : Write}, Q w → P t → w.Turns t t' → P t') {writes : List Write}
    (hq : ∀ w ∈ writes, Q w) {s : MarketState σ} (h : P s.store.tables) :
    P (m.run writes s).store.tables := by
  induction writes generalizing s with
  | nil => exact h
  | cons w writes ih =>
    have hfirst := m.perform_keeps (fun h ht => hw (hq w List.mem_cons_self) h ht) h
    exact ih (fun x hx => hq x (List.mem_cons_of_mem _ hx)) hfirst

/-- What each way to turn the tables keeps is kept by every history. -/
theorem run_keeps (m : Market σ) {P : Tables → Prop}
    (hw : ∀ {t t'} {w : Write}, P t → w.Turns t t' → P t') (writes : List Write)
    {s : MarketState σ} (h : P s.store.tables) : P (m.run writes s).store.tables :=
  m.run_keeps_of (Q := fun _ => True) (fun _ h ht => hw h ht) (fun _ _ => trivial) h

theorem orderly_run (m : Market σ) (writes : List Write) {s : MarketState σ}
    (h : s.store.tables.Orderly) : (m.run writes s).store.tables.Orderly :=
  m.run_keeps (fun h ht => ht.orderly h) writes h

theorem extends_run (m : Market σ) (writes : List Write) (s : MarketState σ) :
    s.store.tables.Extends (m.run writes s).store.tables :=
  m.run_keeps (fun h ht => h.trans ht.extends) writes (Extends.refl _)

end Market

end CropLedger
