import CropLedger.Proofs.Market.Consistency
import CropLedger.Proofs.Market.RevisionLog

/-!
# Histories come out oldest first

Archived values are numbered, and nothing sorts them by time. Yet if the clock is never set back,
the points of a pair's history stand in the order of their times, although several prices may have
stood for the pair in turn: the live price of a pair is never older than what was archived for the
pair, and it is the live price that is archived next.

* `Tables.Stamped`: a property of the times of all rows;
* `Tables.Ascending`: the order of the times, and that the live price comes last;
* `Market.ascending_run`: the same of histories;
* `Tables.Ascending.history`: the points of a pair's history stand in the order of their times.
-/

namespace CropLedger

open Market

namespace Tables

variable {t t' : Tables} {w : Write}

/-! ### The times of rows -/

/-- The times of the last change of all rows have a property. -/
structure Stamped (P : Timestamp → Prop) (t : Tables) : Prop where
  prices : ∀ p ∈ t.prices, P p.updatedAt
  archived : ∀ a ∈ t.archived, P a.updatedAt

theorem stamped_empty (P : Timestamp → Prop) : Tables.empty.Stamped P :=
  ⟨fun _ hp => (nomatch hp), fun _ ha => (nomatch ha)⟩

theorem Stamped.turns {P : Timestamp → Prop} (hutc : ∀ {time}, P time → P time.utc)
    (h : t.Stamped P) (hw : P w.now) (ht : w.Turns t t') : t'.Stamped P where
  prices q hq := by
    rcases ht.price_cases hq with hq | ⟨new, id, rfl, -⟩ | ⟨p, hp, value, rfl, -⟩ |
      ⟨p, hp, mark, rfl, -⟩
    · exact h.prices q hq
    · exact hw
    · exact hw
    · exact hw
  archived a ha := by
    rcases ht.archived_cases ha with ha | ⟨p, hp, -, number, rfl⟩
    · exact h.archived a ha
    · exact hutc (h.prices p hp)

/-! ### The order of rows -/

/-- **The order of the times of rows.** The archived values of a pair stand in the order of their
times, and the live price of the pair comes after them. -/
structure Ascending (t : Tables) : Prop where
  archived : t.archived.Pairwise fun a b => a.pair = b.pair → a.updatedAt ≤ b.updatedAt
  live : ∀ p ∈ t.prices, p.isLive = true → ∀ a ∈ t.archived, a.pair = p.pair →
    a.updatedAt ≤ p.updatedAt

theorem ascending_empty : Tables.empty.Ascending :=
  ⟨.nil, fun _ hp => (nomatch hp)⟩

/-- A change that gives the price the latest time, or takes its life, keeps the order. -/
theorem Ascending.setPrice (h : t.Ascending) {id : Uuid} {change : Price → Price} {now : Timestamp}
    (hpast : t.Stamped (· ≤ now))
    (hc : ∀ p, (change p).isLive = true → (change p).updatedAt = now) :
    (t.setPrice id change).Ascending where
  archived := h.archived
  live q hq hl a ha hpair := by
    rcases mem_setPrice_cases hq with ⟨p, hp, -, rfl⟩ | ⟨hq, -⟩
    · rw [hc p hl]
      exact hpast.archived a ha
    · exact h.live q hq hl a ha hpair

/-- A revision archives the live price, which is not older than what was archived before. -/
theorem Ascending.revisePrice (h : t.Ascending) (ho : t.Orderly) {id : Uuid} {value : Decimal}
    {now : Timestamp} {old : Price} (hpast : t.Stamped (· ≤ now))
    (found : t.livePrice? id = some old) :
    ((t.archiving old.fetched now).setPrice id (Price.revised value now)).Ascending := by
  obtain ⟨hold, hid, hlive⟩ := mem_of_livePrice? found
  refine ⟨List.pairwise_append.2 ⟨h.archived, List.pairwise_singleton _ _, ?_⟩, ?_⟩
  · intro a ha b hb hpair
    obtain rfl := List.mem_singleton.1 hb
    exact Timestamp.le_utc.2 (h.live old hold hlive a ha hpair)
  · intro q hq hl a ha hpair
    rcases mem_setPrice_cases hq with ⟨p, hp, -, rfl⟩ | ⟨hq, hne⟩
    · rcases List.mem_append.1 ha with ha | ha
      · exact hpast.archived a ha
      · obtain rfl := List.mem_singleton.1 ha
        exact Timestamp.utc_le.2 (hpast.prices old hold)
    · rcases List.mem_append.1 ha with ha | ha
      · exact h.live q hq hl a ha hpair
      · obtain rfl := List.mem_singleton.1 ha
        -- two prices of a pair cannot both be live
        exact absurd ((ho.live old hold q hq hlive hl hpair).symm.trans hid) hne

theorem Ascending.turns (h : t.Ascending) (ho : t.Orderly) (hpast : t.Stamped (· ≤ w.now))
    (ht : w.Turns t t') : t'.Ascending := by
  cases ht with
  | createPrice =>
    refine ⟨h.archived, fun q hq hl a ha hpair => ?_⟩
    rcases List.mem_append.1 hq with hq | hq
    · exact h.live q hq hl a ha hpair
    · obtain rfl := List.mem_singleton.1 hq
      exact hpast.archived a ha
  | revisePrice accepted found unused => exact h.revisePrice ho hpast found
  | deletePrice found => exact h.setPrice hpast fun _ hl => nomatch hl
  | restorePrice found free => exact h.setPrice hpast fun _ _ => rfl
  | createHarvest | deleteHarvest => exact ⟨h.archived, h.live⟩

end Tables

namespace Market

variable {σ : Type} (m : Market σ)

/-- **The times of rows stand in their order**, after any writes from nothing whose clock is never
set back. -/
theorem ascending_run {writes : List Write} (hc : Chronological writes) {s : MarketState σ}
    (hs : s.store.tables = Tables.empty) : (m.run writes s).store.tables.Ascending := by
  have hrun := m.run_keeps_in_time (P := fun t => t.Orderly ∧ t.Ascending)
    (U := fun t time => t.Stamped (· ≤ time))
    (fun hu hw ht => hu.turns Timestamp.utc_le.2 hw ht)
    (fun h hu ht => ⟨ht.orderly h.1, h.2.turns h.1 hu ht⟩) hc
    (hs ▸ ⟨Tables.orderly_empty, Tables.ascending_empty⟩)
    (fun _ _ => hs ▸ Tables.stamped_empty _)
  exact hrun.2

end Market

/-! ### Histories of pairs -/

namespace Tables

variable {t : Tables} {pair : Pair}

theorem snapshots_history (ho : t.Orderly) :
    (t.history pair).snapshots =
      ((t.archived.filter fun a => a.pair = pair).map fun a => a.fetched.snapshot) ++
        (t.livePriceOf? pair).toList.map fun p => p.fetched.snapshot := by
  simp only [history, PriceHistory.snapshots, archivedOf, ho.archivedInOrder_eq, List.map_map]
  cases t.livePriceOf? pair <;> rfl

theorem mem_of_livePriceOf? {p : Price} (h : t.livePriceOf? pair = some p) :
    p ∈ t.prices ∧ p.pair = pair ∧ p.isLive = true := by
  have := List.find?_some h
  simp only [Bool.and_eq_true, decide_eq_true_eq] at this
  exact ⟨List.mem_of_find?_eq_some h, this⟩

/-- **The points of a history stand in the order of their times.** -/
theorem Ascending.history (h : t.Ascending) (ho : t.Orderly) (pair : Pair) :
    (t.history pair).snapshots.Pairwise fun x y => x.updatedAt ≤ y.updatedAt := by
  rw [snapshots_history ho, List.pairwise_append, List.pairwise_map]
  refine ⟨?_, ?_, ?_⟩
  · refine (h.archived.filter _).imp_of_mem fun {a b} ha hb hab => ?_
    have hpa : a.pair = pair := by simpa using (List.mem_filter.1 ha).2
    have hpb : b.pair = pair := by simpa using (List.mem_filter.1 hb).2
    exact Timestamp.utc_le_utc.2 (hab (hpa.trans hpb.symm))
  · cases t.livePriceOf? pair with
    | none => exact .nil
    | some p => exact List.pairwise_singleton _ _
  · intro x hx y hy
    obtain ⟨a, ha, rfl⟩ := List.mem_map.1 hx
    obtain ⟨p, hp, rfl⟩ := List.mem_map.1 hy
    obtain ⟨hp, hpair, hlive⟩ := mem_of_livePriceOf? (Option.mem_toList.1 hp)
    obtain ⟨ha, hpa⟩ := List.mem_filter.1 ha
    have hpa : a.pair = p.pair := by simpa [hpair] using hpa
    exact Timestamp.utc_le_utc.2 (h.live p hp hlive a ha hpa)

/-- The live price is the last point of a history, and it alone is marked as current. -/
theorem current_snapshots_history (ho : t.Orderly) (pair : Pair) :
    (∀ p ∈ t.prices, p.isLive = true → p.pair = pair → ∃ earlier,
      (t.history pair).snapshots = earlier ++ [p.fetched.snapshot] ∧
        ∀ x ∈ earlier, x.current = false) ∧
    ((∀ p ∈ t.prices, p.isLive = true → p.pair ≠ pair) →
      ∀ x ∈ (t.history pair).snapshots, x.current = false) := by
  have harchived : ∀ x ∈ (t.archived.filter fun a => a.pair = pair).map fun a =>
      a.fetched.snapshot, x.current = false := by
    intro x hx
    obtain ⟨a, -, rfl⟩ := List.mem_map.1 hx
    rfl
  rw [snapshots_history ho]
  refine ⟨fun p hp hlive hpair => ?_, fun hnone => ?_⟩
  · refine ⟨_, ?_, harchived⟩
    rw [← hpair, ho.livePriceOf?_eq_some hp hlive]
    rfl
  · rw [livePriceOf?_eq_none_iff.2 hnone]
    intro x hx
    rw [Option.toList_none, List.map_nil, List.append_nil] at hx
    exact harchived x hx

end Tables

end CropLedger
