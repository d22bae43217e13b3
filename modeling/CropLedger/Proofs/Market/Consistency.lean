import CropLedger.Proofs.Calendar.Utc
import CropLedger.Proofs.Market.Orderly

/-!
# The tables of prices stay consistent

Nothing but the operations themselves keeps the tables of prices in order. A history of writes from
nothing leaves at most one live price of a pair, keeps every price under its identifier, pair and
time of creation, archives only what a price of the same pair was, and stores nothing below zero;
and if the clock is never set back, the times of every row stand in their natural order.

* `Turns.price_cases`, `Turns.archived_cases`: where the rows of later tables come from;
* `Tables.Consistent`: what holds of the rows whatever the clock says;
* `Tables.Timed`: what holds of their times if the clock is never set back;
* `Market.price_store_consistent`: all of it, of every history.
-/

namespace CropLedger

/-- What a price keeps for good: its identifier, its pair, and the time of its creation. -/
def Price.origin (p : Price) : Uuid × Pair × Timestamp := (p.id, p.pair, p.createdAt)

namespace Market.Write

open Tables

variable {t t' : Tables} {w : Write}

/-! ### Where rows come from -/

/-- A reading of the clock: the one that a write is handed. -/
def now : Write → Timestamp
  | createPrice _ _ now | revisePrice _ _ now | deletePrice _ now | restorePrice _ now
  | createHarvest _ _ now | deleteHarvest _ now => now

/-- **Where a price of later tables comes from**: it was there, it is new, or it was revised or
marked by the write. -/
theorem Turns.price_cases (ht : w.Turns t t') {q : Price} (hq : q ∈ t'.prices) :
    q ∈ t.prices ∨
    (∃ new id, q = (NewPrice.row new id w.now).kept ∧ new.value.isNegative = false) ∨
    (∃ p ∈ t.prices, ∃ value, q = p.revised value w.now ∧ value.isNegative = false) ∨
    ∃ p ∈ t.prices, ∃ mark, q = p.marked mark w.now ∧ ∀ time, mark = some time → time = w.now := by
  cases ht with
  | @createPrice new id now accepted free fresh =>
    rcases List.mem_append.1 hq with hq | hq
    · exact .inl hq
    · exact .inr (.inl ⟨new, id, List.mem_singleton.1 hq, accepted⟩)
  | @revisePrice id value now old accepted found unused =>
    obtain ⟨p, hp, rfl⟩ := mem_setPrice.1 hq
    split
    · exact .inr (.inr (.inl ⟨p, hp, value, rfl, accepted⟩))
    · exact .inl hp
  | @deletePrice id now old found =>
    obtain ⟨p, hp, rfl⟩ := mem_setPrice.1 hq
    split
    · exact .inr (.inr (.inr ⟨p, hp, some now, rfl, fun _ he => (Option.some.inj he).symm⟩))
    · exact .inl hp
  | restorePrice found free =>
    obtain ⟨p, hp, rfl⟩ := mem_setPrice.1 hq
    split
    · exact .inr (.inr (.inr ⟨p, hp, none, rfl, fun _ he => nomatch he⟩))
    · exact .inl hp
  | createHarvest | deleteHarvest => exact .inl hq

/-- **Where an archived value of later tables comes from**: it was there, or it is what a live price
was before the write. -/
theorem Turns.archived_cases (ht : w.Turns t t') {a : ArchivedPrice} (ha : a ∈ t'.archived) :
    a ∈ t.archived ∨
    ∃ p ∈ t.prices, p.isLive = true ∧ ∃ number, a = (p.fetched.archivedAs number w.now).kept := by
  cases ht with
  | revisePrice accepted found unused =>
    rcases List.mem_append.1 ha with ha | ha
    · exact .inl ha
    · obtain ⟨hp, -, hl⟩ := mem_of_livePrice? found
      exact .inr ⟨_, hp, hl, _, List.mem_singleton.1 ha⟩
  | createPrice | deletePrice | restorePrice | createHarvest | deleteHarvest => exact .inl ha

end Market.Write

/-! ### What holds whatever the clock says -/

namespace Tables

open Market

variable {t t' : Tables} {w : Write}

/-- **What holds of the rows.** -/
structure Consistent (t : Tables) : Prop where
  ids : (t.prices.map Price.id).Nodup
  single : ∀ p ∈ t.prices, ∀ q ∈ t.prices, p.isLive = true → q.isLive = true → p.pair = q.pair →
    p = q
  named : ∀ a ∈ t.archived, ∃ p ∈ t.prices, p.id = a.price ∧ p.pair = a.pair
  prices : ∀ p ∈ t.prices, p.value.isNegative = false
  archived : ∀ a ∈ t.archived, a.value.isNegative = false
  deleted : ∀ p ∈ t.prices, ∀ time, p.deletedAt = some time → time = p.updatedAt

/-- Every archived value is one of a price that is there, of the same pair. -/
def Named (t : Tables) : Prop := ∀ a ∈ t.archived, ∃ p ∈ t.prices, p.id = a.price ∧ p.pair = a.pair

theorem Named.turns (h : t.Named) (ht : w.Turns t t') : t'.Named := by
  -- prices keep their entries, so what an archived value names is not lost
  have hkept {p : Price} (hp : p ∈ t.prices) : ∃ q ∈ t'.prices, entry q = entry p :=
    List.mem_map.1 (ht.extends.entries.subset (List.mem_map_of_mem hp))
  intro a ha
  rcases ht.archived_cases ha with ha | ⟨p, hp, -, number, rfl⟩
  · obtain ⟨p, hp, hid, hpair⟩ := h a ha
    obtain ⟨q, hq, he⟩ := hkept hp
    exact ⟨q, hq, (congrArg Prod.fst he).trans hid, (congrArg Prod.snd he).trans hpair⟩
  · obtain ⟨q, hq, he⟩ := hkept hp
    exact ⟨q, hq, congrArg Prod.fst he, congrArg Prod.snd he⟩

/-- No value is below zero. -/
structure NonNegative (t : Tables) : Prop where
  prices : ∀ p ∈ t.prices, p.value.isNegative = false
  archived : ∀ a ∈ t.archived, a.value.isNegative = false

theorem NonNegative.turns (h : t.NonNegative) (ht : w.Turns t t') : t'.NonNegative where
  prices q hq := by
    rcases ht.price_cases hq with hq | ⟨new, id, rfl, hv⟩ | ⟨p, hp, value, rfl, hv⟩ |
      ⟨p, hp, mark, rfl, -⟩
    · exact h.prices q hq
    · exact Decimal.isNegative_stored hv
    · exact Decimal.isNegative_stored hv
    · exact h.prices p hp
  archived a ha := by
    rcases ht.archived_cases ha with ha | ⟨p, hp, -, number, rfl⟩
    · exact h.archived a ha
    · exact Decimal.isNegative_stored (h.prices p hp)

/-- The mark of a deleted price is the time of its last change. -/
def Marked (t : Tables) : Prop :=
  ∀ p ∈ t.prices, ∀ time, p.deletedAt = some time → time = p.updatedAt

/-- A revision does not touch the mark, so it has to find none: a price that is revised is live. -/
theorem Marked.turns (h : t.Marked) (ho : t.Orderly) (ht : w.Turns t t') : t'.Marked := by
  intro q hq time htime
  cases ht with
  | createPrice =>
    rcases List.mem_append.1 hq with hq | hq
    · exact h q hq time htime
    · rw [List.mem_singleton.1 hq] at htime
      cases htime
  | @revisePrice id value now old accepted found unused =>
    obtain ⟨p, hp, rfl⟩ := mem_setPrice.1 hq
    split at htime
    · rename_i hid
      obtain ⟨hold, hoid, hlive⟩ := mem_of_livePrice? found
      rw [ho.eq_of_id hp hold (hid.trans hoid.symm)] at htime
      rw [Price.isLive, Option.isNone_iff_eq_none] at hlive
      cases htime.symm.trans hlive
    · rename_i hid
      rw [if_neg hid]
      exact h p hp time htime
  | deletePrice found =>
    obtain ⟨p, hp, rfl⟩ := mem_setPrice.1 hq
    split at htime
    · rename_i hid
      rw [if_pos hid]
      cases htime
      rfl
    · rename_i hid
      rw [if_neg hid]
      exact h p hp time htime
  | restorePrice found free =>
    obtain ⟨p, hp, rfl⟩ := mem_setPrice.1 hq
    split at htime
    · cases htime
    · rename_i hid
      rw [if_neg hid]
      exact h p hp time htime
  | createHarvest | deleteHarvest => exact h q hq time htime

/-- What every write keeps of the rows. Marks are kept in tables in good order only, so all of it
goes together. -/
structure WellKept (t : Tables) : Prop where
  orderly : t.Orderly
  named : t.Named
  nonNegative : t.NonNegative
  marked : t.Marked

theorem wellKept_empty : Tables.empty.WellKept where
  orderly := orderly_empty
  named _ ha := nomatch ha
  nonNegative := ⟨fun _ hp => (nomatch hp), fun _ ha => (nomatch ha)⟩
  marked _ hp := nomatch hp

theorem WellKept.turns (h : t.WellKept) (ht : w.Turns t t') : t'.WellKept where
  orderly := ht.orderly h.orderly
  named := h.named.turns ht
  nonNegative := h.nonNegative.turns ht
  marked := h.marked.turns h.orderly ht

theorem WellKept.consistent (h : t.WellKept) : t.Consistent where
  ids := h.orderly.ids
  single p hp q hq hpl hql he := h.orderly.eq_of_id hp hq (h.orderly.live p hp q hq hpl hql he)
  named := h.named
  prices := h.nonNegative.prices
  archived := h.nonNegative.archived
  deleted := h.marked

/-! ### What holds if the clock is never set back -/

/-- **What holds of the times of the rows.** -/
structure Timed (t : Tables) : Prop where
  prices : ∀ p ∈ t.prices, p.createdAt ≤ p.updatedAt
  archived : ∀ a ∈ t.archived, a.createdAt ≤ a.updatedAt ∧ a.updatedAt ≤ a.archivedAt

/-- No price was changed later than at a point in time. -/
def Until (t : Tables) (time : Timestamp) : Prop := ∀ p ∈ t.prices, p.updatedAt ≤ time

theorem Until.turns {time : Timestamp} (h : t.Until time) (hw : w.now ≤ time)
    (ht : w.Turns t t') : t'.Until time := by
  intro q hq
  rcases ht.price_cases hq with hq | ⟨new, id, rfl, -⟩ | ⟨p, hp, value, rfl, -⟩ |
    ⟨p, hp, mark, rfl, -⟩
  · exact h q hq
  · exact hw
  · exact hw
  · exact hw

theorem Timed.turns (h : t.Timed) (hu : t.Until w.now) (ht : w.Turns t t') : t'.Timed where
  prices q hq := by
    have hcreated (p : Price) (hp : p ∈ t.prices) : p.createdAt ≤ w.now :=
      Timestamp.le_trans (h.prices p hp) (hu p hp)
    rcases ht.price_cases hq with hq | ⟨new, id, rfl, -⟩ | ⟨p, hp, value, rfl, -⟩ |
      ⟨p, hp, mark, rfl, -⟩
    · exact h.prices q hq
    · exact Timestamp.le_refl _
    · exact hcreated p hp
    · exact hcreated p hp
  archived a ha := by
    rcases ht.archived_cases ha with ha | ⟨p, hp, -, number, rfl⟩
    · exact h.archived a ha
    · exact ⟨Timestamp.utc_le_utc.2 (h.prices p hp), Timestamp.utc_le.2 (hu p hp)⟩

end Tables

namespace Market

open Tables

variable {σ : Type} (m : Market σ)

/-! ### Histories -/

/-- The readings of the clock that a history is handed never go back. -/
def Chronological (writes : List Write) : Prop := (writes.map Write.now).Pairwise (· ≤ ·)

/-- What writes keep of tables whose rows are not later than the clock is kept by histories whose
clock is never set back. -/
theorem run_keeps_in_time {P : Tables → Prop} {U : Tables → Timestamp → Prop}
    (hU : ∀ {t t'} {w : Write} {time}, U t time → w.now ≤ time → w.Turns t t' → U t' time)
    (hP : ∀ {t t'} {w : Write}, P t → U t w.now → w.Turns t t' → P t') {writes : List Write}
    (hc : Chronological writes) {s : MarketState σ} (h : P s.store.tables)
    (hu : ∀ w ∈ writes, U s.store.tables w.now) : P (m.run writes s).store.tables := by
  induction writes generalizing s with
  | nil => exact h
  | cons w writes ih =>
    obtain ⟨hfirst, hrest⟩ := List.pairwise_cons.1 hc
    have hlater {x : Write} (hx : x ∈ writes) : U s.store.tables x.now ∧ w.now ≤ x.now :=
      ⟨hu x (List.mem_cons_of_mem _ hx), hfirst x.now (List.mem_map_of_mem hx)⟩
    rcases m.tables_perform w s with ht | he
    · exact ih hrest (hP h (hu w List.mem_cons_self) ht)
        fun x hx => hU (hlater hx).1 (hlater hx).2 ht
    · exact ih hrest (he ▸ h) fun x hx => he ▸ (hlater hx).1

theorem timed_run {writes : List Write} (hc : Chronological writes) {s : MarketState σ}
    (h : s.store.tables.Timed) (hu : ∀ w ∈ writes, s.store.tables.Until w.now) :
    (m.run writes s).store.tables.Timed :=
  m.run_keeps_in_time (fun hu hw ht => hu.turns hw ht) (fun h hu ht => h.turns hu ht) hc h hu

theorem wellKept_run (writes : List Write) {s : MarketState σ} (h : s.store.tables.WellKept) :
    (m.run writes s).store.tables.WellKept :=
  m.run_keeps (fun h ht => h.turns ht) writes h

/-- **The tables of prices stay consistent.** After any writes from nothing, whatever came of each,
the rows are consistent; what the prices were at any earlier moment keep for good, in their order,
is kept; and if the clock was never set back, the times of all rows stand in their order. -/
theorem price_store_consistent (writes : List Write) (s : MarketState σ)
    (hs : s.store.tables = Tables.empty) :
    (m.run writes s).store.tables.Consistent ∧
      (∀ earlier later, writes = earlier ++ later →
        (m.run earlier s).store.tables.prices.map Price.origin <+:
          (m.run writes s).store.tables.prices.map Price.origin) ∧
      (Chronological writes → (m.run writes s).store.tables.Timed) := by
  refine ⟨(m.wellKept_run writes (hs ▸ Tables.wellKept_empty)).consistent, ?_, fun hc => ?_⟩
  · rintro earlier later rfl
    rw [run_append]
    have hstep {t t' : Tables} {w : Write} (ht : w.Turns t t') :
        t.prices.map Price.origin <+: t'.prices.map Price.origin :=
      ht.map_prefix Price.origin (fun _ _ _ => rfl) (fun _ _ _ => rfl)
    exact m.run_keeps (fun h ht => List.IsPrefix.trans h (hstep ht)) later (List.prefix_refl _)
  · have ht : s.store.tables.Timed := hs ▸ ⟨fun _ hp => (nomatch hp), fun _ ha => (nomatch ha)⟩
    exact m.timed_run hc ht fun w _ => hs ▸ fun _ hp => nomatch hp

/-! ### A history -/

namespace Sample

/-- A price is deleted after a revision, and another one stands for its pair; only once that one is
deleted as well can the first one be restored. -/
def cycle : List Write :=
  [.createPrice ⟨pair, amount 105⟩ ⟨1⟩ (time 1),
   .revisePrice ⟨1⟩ (amount 123) (time 2),
   .deletePrice ⟨1⟩ (time 3),
   .createPrice ⟨pair, amount 111⟩ ⟨2⟩ (time 4),
   .restorePrice ⟨1⟩ (time 5),
   .deletePrice ⟨2⟩ (time 6),
   .restorePrice ⟨1⟩ (time 7),
   .createPrice ⟨pair, amount 99⟩ ⟨3⟩ (time 8)]

end Sample

open Sample in
/-- In the end the first price is the live one again, and the second one is marked. -/
theorem price_store_consistent_sample :
    (market.run cycle blank).store.tables.prices.map (fun p => (p.id, p.deletedAt)) =
        [(⟨1⟩, none), (⟨2⟩, some (time 6))] ∧
      (market.run cycle blank).store.tables.archived.map (fun a => (a.price, a.archivedAt)) =
        [(⟨1⟩, time 2)] ∧
      Chronological cycle ∧
      (market.run cycle blank).store.tables.Consistent ∧
      (market.run cycle blank).store.tables.Timed := by
  have hclock : Chronological cycle := by
    unfold Chronological
    decide +kernel
  obtain ⟨hconsistent, -, htimed⟩ := market.price_store_consistent cycle blank rfl
  exact ⟨by decide +kernel, by decide +kernel, hclock, hconsistent, htimed hclock⟩

end Market

end CropLedger
