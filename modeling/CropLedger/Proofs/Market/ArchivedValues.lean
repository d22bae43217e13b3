import CropLedger.Proofs.Decimal.Stored
import CropLedger.Proofs.Market.Consistency
import CropLedger.Proofs.Market.RevisionLog

/-!
# The value that clients saw and the value that is archived

An update archives the value that the price had. That value was read from the store, as clients have
read it, and it is written once more, so what clients see of it later on went through the store a
second time. Tables that come from nothing hold values only that the store has given back, and of
those `Decimal.stored_stored` tells what becomes of them: they are archived as clients saw them, or
they are among the large ones that come back with one more unit.

* `Tables.GivenBack`: all values of prices have been given back by the store, and every write keeps
  it so;
* `PriceView.superseded`: the point of the history that an update leaves of what clients saw;
* `Market.points_of_revision`: that point is where it belongs in all later histories of the pair;
* `Market.shown_value_archived`: what clients saw before an update, and what they see of it after.
-/

namespace CropLedger

namespace Tables

variable {t t' : Tables} {w : Market.Write}

/-- All values of prices are ones that the store has given back. -/
def GivenBack (t : Tables) : Prop :=
  ∀ p ∈ t.prices, ∃ value : Decimal, value.isNegative = false ∧ p.value = value.stored

theorem givenBack_empty : Tables.empty.GivenBack := fun _ hp => nomatch hp

theorem GivenBack.turns (h : t.GivenBack) (ht : w.Turns t t') : t'.GivenBack := by
  intro q hq
  rcases ht.price_cases hq with hq | ⟨new, id, rfl, hv⟩ | ⟨p, hp, value, rfl, hv⟩ |
    ⟨p, hp, mark, rfl, -⟩
  · exact h q hq
  · exact ⟨new.value, hv, rfl⟩
  · exact ⟨value, hv, rfl⟩
  · exact h p hp

end Tables

/-- The point of a history that an update leaves of a price as clients saw it. -/
def PriceView.superseded (shown : PriceView) : PriceSnapshot :=
  ⟨shown.id, shown.pair, shown.value.stored, shown.createdAt, shown.updatedAt, false⟩

namespace Market

variable {σ : Type} (m : Market σ) {id : Uuid} {value : Decimal} {now : Timestamp}

/-- What a client is shown of a live price that is not in the cache. -/
theorem price_of_live {s : MarketState σ} {p : Price}
    (hp : s.store.tables.livePrice? id = some p) (hr : s.store.RefusesNothing)
    (hl : ((m.priceQuery id).lookup m.cache s).1 = none) :
    (m.price id s).1 = .ok p.fetched.view := by
  refine ((m.priceQuery id).answer_of_lookup_none m.cache hl hr).trans ?_
  exact congrArg Prod.fst (Work.eval_bind_ok.2 ⟨_, _, Prices.eval_live_of_found hp, rfl⟩)

/-- A committed update finds the price live, and adds what the price was to the archive. -/
theorem archived_of_committed {s : MarketState σ}
    (hc : committed ((Write.revisePrice id value now).perform m s).1 = true) :
    ∃ p number, s.store.tables.livePrice? id = some p ∧
      ((Write.revisePrice id value now).perform m s).2.store.tables.archived =
        s.store.tables.archived ++ [(p.fetched.archivedAs number now).kept] := by
  have ht := ((Write.committed_iff_happened m _ s).1 hc).turns
  generalize ((Write.revisePrice id value now).perform m s).2.store.tables = t' at ht
  cases ht with
  | revisePrice accepted found unused => exact ⟨_, _, found, rfl⟩

/-- **The point that an update leaves** stands in all later histories of the pair, after the points
that had been there before. -/
theorem points_of_revision {s : MarketState σ} (ho : s.store.tables.Orderly) {p : Price}
    {number : Int}
    (ha : ((Write.revisePrice id value now).perform m s).2.store.tables.archived =
      s.store.tables.archived ++ [(p.fetched.archivedAs number now).kept])
    (later : List Write) {s' : MarketState σ}
    (ht : s'.store.tables = (m.run (.revisePrice id value now :: later) s).store.tables)
    (hr : s'.store.RefusesNothing) (hl : ((m.historyQuery p.pair).lookup m.cache s').1 = none)
    {q : Price} (hq : q ∈ s'.store.tables.prices) (hlive : q.isLive = true)
    (hpair : q.pair = p.pair) :
    ∃ points, (m.history p.pair s').1 = .ok points ∧
      points[(s.store.tables.archivedOf p.pair).length]? = some p.superseded := by
  have ho' : s'.store.tables.Orderly := ht ▸ m.orderly_run _ ho
  obtain ⟨rest, hrest⟩ := (m.extends_run later
    ((Write.revisePrice id value now).perform m s).2).archived
  have harchived : s'.store.tables.archivedOf p.pair = s.store.tables.archivedOf p.pair ++
      (p.fetched.archivedAs number now).kept :: rest.filter fun a => a.pair = p.pair := by
    have hrow : ((p.fetched.archivedAs number now).kept).pair = p.pair := rfl
    rw [Tables.archivedOf, ho'.archivedInOrder_eq, ht, run_cons, ← hrest, ha, Tables.archivedOf,
      ho.archivedInOrder_eq, List.append_assoc, List.filter_append]
    simp [hrow]
  have hfound : s'.store.tables.livePriceOf? p.pair = some q :=
    hpair ▸ ho'.livePriceOf?_eq_some hq hlive
  refine ⟨_, ((m.historyQuery p.pair).answer_of_lookup_none m.cache hl hr).trans
    (congrArg Prod.fst (eval_points hfound)), ?_⟩
  rw [harchived]
  simp [Price.snapshot_archivedAs]

/-- **What clients saw before an update, and what they see of it after.** After any writes from
nothing, the price that a committed update finds is shown as it is; in all later histories of its
pair it stands after the points that were there before, as it was shown but for its value, which
went through the store once more; and that has not changed the value, unless it is one of those that
come back with one more unit. -/
theorem shown_value_archived (writes : List Write) {s : MarketState σ}
    (hs : s.store.tables = Tables.empty)
    (hc : committed ((Write.revisePrice id value now).perform m (m.run writes s)).1 = true) :
    ∃ shown : PriceView,
      (∀ s' : MarketState σ, s'.store.tables = (m.run writes s).store.tables →
        s'.store.RefusesNothing → ((m.priceQuery id).lookup m.cache s').1 = none →
        (m.price id s').1 = .ok shown) ∧
      (∀ (later : List Write) (s' : MarketState σ) (q : Price),
        s'.store.tables = (m.run (writes ++ .revisePrice id value now :: later) s).store.tables →
        s'.store.RefusesNothing → ((m.historyQuery shown.pair).lookup m.cache s').1 = none →
        q ∈ s'.store.tables.prices → q.isLive = true → q.pair = shown.pair →
        ∃ points, (m.history shown.pair s').1 = .ok points ∧
          points[((m.run writes s).store.tables.archivedOf shown.pair).length]? =
            some shown.superseded) ∧
      (shown.superseded.value = shown.value ∨
        ∃ places low, shown.value.DriftsAt places low) := by
  have ho : (m.run writes s).store.tables.Orderly :=
    m.orderly_run writes (hs ▸ Tables.orderly_empty)
  have hg : (m.run writes s).store.tables.GivenBack :=
    m.run_keeps (fun h ht => h.turns ht) writes (hs ▸ Tables.givenBack_empty)
  obtain ⟨p, number, hp, ha⟩ := m.archived_of_committed hc
  obtain ⟨given, hgiven, hvalue⟩ := hg p (Tables.mem_of_livePrice? hp).1
  refine ⟨p.fetched.view, ?_, ?_, ?_⟩
  · intro s' ht hr hl
    exact m.price_of_live (ht ▸ hp) hr hl
  · intro later s' q ht hr hl hq hlive hpair
    rw [run_append] at ht
    exact m.points_of_revision ho ha later ht hr hl hq hlive hpair
  · show p.value.stored = p.value ∨ ∃ places low, p.value.DriftsAt places low
    rw [hvalue]
    exact Decimal.stored_stored hgiven

/-! ### Two updates -/

namespace Sample

/-- The price that is offered is updated. -/
def update : Write := .revisePrice ⟨1⟩ (amount 123) (time 2)

/-- What is shown of a price that is offered, and of the history of its pair after an update. -/
def readings (value : Decimal) : Option Decimal × Option (List Decimal) :=
  let offered := market.run [.createPrice ⟨pair, value⟩ ⟨1⟩ (time 1)] blank
  let updated := (update.perform market offered).2
  ((market.price ⟨1⟩ offered).1.toOption.map PriceView.value,
    (market.history pair updated).1.toOption.map fun points => points.map PriceSnapshot.value)

/-- Some trillions, with two decimal places. -/
def trillions : Decimal := ⟨441696668281123, 2, by decide, by decide⟩

end Sample

open Sample in
/-- A price of 10.5 is archived as clients saw it. -/
theorem shown_value_archived_sample :
    committed (update.perform market (market.run [offer] blank)).1 = true ∧
      (market.price ⟨1⟩ (market.run [offer] blank)).1 = .ok offered.fetched.view ∧
      (∃ points, (market.history pair (market.run [offer, update] blank)).1 = .ok points ∧
        points[0]? = some offered.fetched.view.superseded) ∧
      offered.fetched.view.superseded.value = offered.fetched.view.value := by
  have hc : committed (update.perform market (market.run [offer] blank)).1 = true := by
    decide +kernel
  obtain ⟨shown, hshown, hpoints, hdrifts⟩ := market.shown_value_archived [offer] rfl hc
  have hprice := hshown (market.run [offer] blank) rfl (fun _ _ => rfl) rfl
  obtain rfl : offered.fetched.view = shown := Except.ok.inj hprice
  have hnone : ((market.run [offer] blank).store.tables.archivedOf pair).length = 0 := by
    decide +kernel
  have hpoint := hpoints [] (market.run [offer, update] blank)
    (offered.revised (amount 123) (time 2)) rfl (fun _ _ => rfl) rfl (by decide +kernel) rfl rfl
  have hsmall : (amount 105).value < 2 ^ 12 := by norm_num [Decimal.value, amount]
  refine ⟨hc, hprice, hnone ▸ hpoint, ?_⟩
  rcases hdrifts with hkept | ⟨places, low, hd⟩
  · exact hkept
  · exact absurd hd.large (not_le.2 hsmall)

open Sample in
/-- **A value that drifts**: clients saw 4416966682811.231, and are told 4416966682811.232. -/
theorem archived_value_drifts :
    readings trillions =
      (some ⟨4416966682811231, 3, by decide, by decide⟩,
        some [⟨4416966682811232, 3, by decide, by decide⟩, amount 123]) := by
  decide +kernel

end Market

end CropLedger
