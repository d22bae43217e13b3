import CropLedger.Market.Prices
import CropLedger.Proofs.Market.Orderly
import CropLedger.Proofs.Store.Tandem

/-!
# What the tables hold of a pair

Seen from one pair, tables may be reduced: prices of other pairs and their archived values may be
missing, and the numbers of archived values may be others. Work on the pair's own prices comes out
alike on tables and on reduced ones, and leaves reduced ones behind. Writes to prices of other
pairs cannot be told from the pair's point of view.

* `Tables.ReducedTo`: tables seen from one pair;
* `Tables.ReducedTo.foreign`: a write to a price of another pair;
* `Prices.inTandem_create` and the like: work on the pair's own prices.
-/

namespace CropLedger

/-- An archived value without its number. -/
def ArchivedPrice.unnumbered (a : ArchivedPrice) : ArchivedPrice := { a with number := 0 }

namespace Tables

variable {t t' : Tables} {id : Uuid} {pair : Pair}

/-! ### One pair's rows -/

/-- The prices of a pair, live and deleted, in the order of their rows. -/
def pricesOf (t : Tables) (pair : Pair) : List Price := t.prices.filter fun p => p.pair = pair

/-- The archived values of a pair without their numbers, in the order of their rows. -/
def valuesOf (t : Tables) (pair : Pair) : List ArchivedPrice :=
  (t.archived.filter fun a => a.pair = pair).map ArchivedPrice.unnumbered

/-- An identifier of none but prices of a pair. -/
def Dedicates (t : Tables) (id : Uuid) (pair : Pair) : Prop :=
  ∀ p ∈ t.prices, p.id = id → p.pair = pair

/-- An identifier of none of the prices of a pair. -/
def Denies (t : Tables) (id : Uuid) (pair : Pair) : Prop :=
  ∀ p ∈ t.prices, p.id = id → p.pair ≠ pair

/-- A pair's rows are the same, apart from numbers. -/
structure SameRows (pair : Pair) (t t' : Tables) : Prop where
  prices : t'.pricesOf pair = t.pricesOf pair
  values : t'.valuesOf pair = t.valuesOf pair

/-- **Tables seen from one pair**: the pair's own rows are the same, and no other rows have come
up. -/
structure ReducedTo (pair : Pair) (t t' : Tables) : Prop extends SameRows pair t t' where
  entries : t'.prices.map entry ⊆ t.prices.map entry
  numbers : ∀ a ∈ t'.archived, a.number ≤ t'.lastNumber
  lastNumber : t'.lastNumber ≤ t.lastNumber

/-- Tables seen from the pair of an identifier. -/
structure OwnedAs (id : Uuid) (pair : Pair) (t t' : Tables) : Prop extends ReducedTo pair t t' where
  dedicated : t.Dedicates id pair

/-- The deleted prices of a pair, in the order of their rows. -/
def deletedPricesOf (t : Tables) (pair : Pair) : List Price :=
  t.prices.filter fun p => p.pair = pair && !p.isLive

/-- **What there is of a pair is the same**: its live price, its deleted prices, and its history
apart from numbers. -/
structure SameFor (pair : Pair) (t t' : Tables) : Prop where
  live : t'.livePriceOf? pair = t.livePriceOf? pair
  deleted : t'.deletedPricesOf pair = t.deletedPricesOf pair
  history : (t'.archivedOf pair).map ArchivedPrice.unnumbered =
    (t.archivedOf pair).map ArchivedPrice.unnumbered

theorem Orderly.number_le (h : t.Orderly) {a : ArchivedPrice} (ha : a ∈ t.archived) :
    a.number ≤ t.lastNumber := by
  obtain ⟨i, hi, rfl⟩ := List.mem_iff_getElem.1 ha
  have hn := h.numbers i _ (List.getElem?_eq_getElem hi)
  have hl := h.lastNumber
  omega

theorem Orderly.reducedTo_self (h : t.Orderly) (pair : Pair) : ReducedTo pair t t :=
  ⟨⟨rfl, rfl⟩, List.Subset.refl _, fun _ ha => h.number_le ha, Int.le_refl _⟩

theorem SameRows.symm (h : SameRows pair t t') : SameRows pair t' t :=
  ⟨h.prices.symm, h.values.symm⟩

theorem SameRows.trans {t'' : Tables} (h : SameRows pair t t') (h' : SameRows pair t' t'') :
    SameRows pair t t'' :=
  ⟨h'.prices.trans h.prices, h'.values.trans h.values⟩

theorem exists_of_entries {p : Price} (he : t'.prices.map entry ⊆ t.prices.map entry)
    (hp : p ∈ t'.prices) : ∃ q ∈ t.prices, q.id = p.id ∧ q.pair = p.pair := by
  obtain ⟨q, hq, hqe⟩ := List.mem_map.1 (he (List.mem_map_of_mem hp))
  exact ⟨q, hq, congrArg Prod.fst hqe, congrArg Prod.snd hqe⟩

theorem Dedicates.of_entries (h : t.Dedicates id pair)
    (he : t'.prices.map entry ⊆ t.prices.map entry) : t'.Dedicates id pair := by
  intro p hp hid
  obtain ⟨q, hq, hqi, hqp⟩ := exists_of_entries he hp
  rw [← hqp]
  exact h q hq (hqi.trans hid)

theorem Denies.of_entries (h : t.Denies id pair)
    (he : t'.prices.map entry ⊆ t.prices.map entry) : t'.Denies id pair := by
  intro p hp hid
  obtain ⟨q, hq, hqi, hqp⟩ := exists_of_entries he hp
  rw [← hqp]
  exact h q hq (hqi.trans hid)

/-! ### Looking up -/

/-- What only a pair's own prices can be found by is found among them. -/
theorem find?_pricesOf {q : Price → Bool} (hq : ∀ p ∈ t.prices, q p = true → p.pair = pair) :
    (t.pricesOf pair).find? q = t.prices.find? q := by
  rw [← List.head?_filter, ← List.head?_filter, pricesOf, List.filter_filter]
  congr 1
  refine List.filter_congr fun p hp => ?_
  by_cases h : q p = true
  · simp [h, hq p hp h]
  · simp [h]

theorem livePriceOf?_pricesOf (t : Tables) (pair : Pair) :
    t.livePriceOf? pair = (t.pricesOf pair).find? fun p => p.pair = pair && p.isLive := by
  exact (find?_pricesOf fun _ _ hp => of_decide_eq_true (Bool.and_eq_true_iff.1 hp).1).symm

theorem deletedPricesOf_pricesOf (t : Tables) (pair : Pair) :
    t.deletedPricesOf pair = (t.pricesOf pair).filter fun p => !p.isLive := by
  unfold deletedPricesOf pricesOf
  rw [List.filter_filter]
  exact List.filter_congr fun p _ => Bool.and_comm ..

theorem Orderly.archivedOf_unnumbered (h : t.Orderly) (pair : Pair) :
    (t.archivedOf pair).map ArchivedPrice.unnumbered = t.valuesOf pair := by
  rw [archivedOf, h.archivedInOrder_eq, valuesOf]

/-- What there is of a pair can be told from the pair's own rows. -/
theorem SameRows.sameFor (h : SameRows pair t t') (ho : t.Orderly) (ho' : t'.Orderly) :
    SameFor pair t t' where
  live := by rw [livePriceOf?_pricesOf, livePriceOf?_pricesOf, h.prices]
  deleted := by rw [deletedPricesOf_pricesOf, deletedPricesOf_pricesOf, h.prices]
  history := by rw [ho.archivedOf_unnumbered, ho'.archivedOf_unnumbered, h.values]

namespace OwnedAs

variable (h : OwnedAs id pair t t')
include h

theorem dedicated' : t'.Dedicates id pair := h.dedicated.of_entries h.entries

/-- What only prices of the identifier can be found by is found alike. -/
theorem find?_eq {q : Price → Bool} (hq : ∀ p, q p = true → p.id = id) :
    t'.prices.find? q = t.prices.find? q := by
  rw [← find?_pricesOf (t := t') fun p hp hqp => h.dedicated' p hp (hq p hqp),
    ← find?_pricesOf (t := t) fun p hp hqp => h.dedicated p hp (hq p hqp), h.prices]

theorem price?_eq : t'.price? id = t.price? id := h.find?_eq fun _ hp => of_decide_eq_true hp

theorem livePrice?_eq : t'.livePrice? id = t.livePrice? id :=
  h.find?_eq fun _ hp => of_decide_eq_true (Bool.and_eq_true_iff.1 hp).1

theorem deletedPrice?_eq : t'.deletedPrice? id = t.deletedPrice? id :=
  h.find?_eq fun _ hp => of_decide_eq_true (Bool.and_eq_true_iff.1 hp).1

theorem livePriceOf?_eq : t'.livePriceOf? pair = t.livePriceOf? pair := by
  rw [livePriceOf?_pricesOf, livePriceOf?_pricesOf, h.prices]

end OwnedAs

/-! ### Changing rows -/

theorem pricesOf_append (t : Tables) (pair : Pair) (p : Price) :
    pricesOf { t with prices := t.prices ++ [p] } pair =
      t.pricesOf pair ++ if p.pair = pair then [p] else [] := by
  rw [pricesOf, List.filter_append, List.filter_singleton]
  simp [pricesOf]

theorem valuesOf_archiving (t : Tables) (pair : Pair) (p : Price) (now : Timestamp) :
    (t.archiving p now).valuesOf pair =
      t.valuesOf pair ++ if p.pair = pair then [(p.archivedAs 0 now).kept] else [] := by
  have hpair : (p.archivedAs (t.lastNumber + 1) now).kept.pair = p.pair := rfl
  have hrow : (p.archivedAs (t.lastNumber + 1) now).kept.unnumbered = (p.archivedAs 0 now).kept :=
    rfl
  unfold valuesOf Tables.archiving
  rw [List.filter_append, List.map_append, List.filter_singleton]
  by_cases h : p.pair = pair <;> simp [h, hpair, hrow]

theorem pricesOf_setPrice {change : Price → Price} (hpair : ∀ p, (change p).pair = p.pair) :
    (t.setPrice id change).pricesOf pair =
      (t.pricesOf pair).map fun p => if p.id = id then change p else p := by
  unfold pricesOf setPrice
  rw [List.filter_map]
  congr 1
  refine List.filter_congr fun p _ => ?_
  simp only [Function.comp]
  split
  · rw [hpair]
  · rfl

theorem pricesOf_setPrice_of_denies (hd : t.Denies id pair) {change : Price → Price}
    (hpair : ∀ p, (change p).pair = p.pair) :
    (t.setPrice id change).pricesOf pair = t.pricesOf pair := by
  rw [pricesOf_setPrice hpair]
  refine (List.map_congr_left fun p hp => ?_).trans (List.map_id' _)
  have hp' := List.mem_filter.1 hp
  exact if_neg fun hid => hd p hp'.1 hid (of_decide_eq_true hp'.2)

/-- A change that keeps identifiers and pairs keeps the entries. -/
theorem entries_setPrice {change : Price → Price} (hid : ∀ p, (change p).id = p.id)
    (hpair : ∀ p, (change p).pair = p.pair) :
    (t.setPrice id change).prices.map entry = t.prices.map entry :=
  map_setPrice entry fun p => by simp only [entry, hid, hpair]

/-! ### Statements about the pair's own prices -/

namespace OwnedAs

theorem setPrice (h : OwnedAs id pair t t') {change : Price → Price}
    (hid : ∀ p, (change p).id = p.id) (hpair : ∀ p, (change p).pair = p.pair) :
    OwnedAs id pair (t.setPrice id change) (t'.setPrice id change) where
  prices := by rw [pricesOf_setPrice hpair, pricesOf_setPrice hpair, h.prices]
  values := h.values
  entries := by
    rw [entries_setPrice hid hpair, entries_setPrice hid hpair]
    exact h.entries
  numbers := h.numbers
  lastNumber := h.lastNumber
  dedicated := h.dedicated.of_entries fun _ he => entries_setPrice hid hpair ▸ he

theorem insert (h : OwnedAs id pair t t') {p : Price} (hpair : p.pair = pair) :
    OwnedAs id pair { t with prices := t.prices ++ [p] }
      { t' with prices := t'.prices ++ [p] } where
  prices := by rw [pricesOf_append, pricesOf_append, h.prices]
  values := h.values
  entries := by
    rw [List.map_append, List.map_append]
    exact List.append_subset.2 ⟨List.subset_append_of_subset_left _ h.entries,
      List.subset_append_right _ _⟩
  numbers := h.numbers
  lastNumber := h.lastNumber
  dedicated := by
    intro q hq hqi
    rcases List.mem_append.1 hq with hq | hq
    · exact h.dedicated q hq hqi
    · rw [List.mem_singleton.1 hq, hpair]

theorem archiving (h : OwnedAs id pair t t') (p : Price) (now : Timestamp) :
    OwnedAs id pair (t.archiving p now) (t'.archiving p now) where
  prices := h.prices
  values := by rw [valuesOf_archiving, valuesOf_archiving, h.values]
  entries := h.entries
  numbers := by
    intro a ha
    show a.number ≤ t'.lastNumber + 1
    rcases List.mem_append.1 ha with ha | ha
    · exact Int.le_add_one (h.numbers a ha)
    · rw [List.mem_singleton.1 ha]
      exact Int.le_refl _
  lastNumber := Int.add_le_add_right h.lastNumber 1
  dedicated := h.dedicated

end OwnedAs

end Tables

namespace Statement

variable {id : Uuid} {pair : Pair}

open Tables

/-- A price that was found is one of the identifier and of the pair. -/
def FindsOwn (id : Uuid) (pair : Pair) (found : Option Price) : Prop :=
  ∀ p, found = some p → p.id = id ∧ p.pair = pair

theorem findsOwn_fetched {t : Tables} (h : t.Dedicates id pair) {found : Option Price}
    (hf : ∀ p, found = some p → p ∈ t.prices ∧ p.id = id) :
    FindsOwn id pair (found.map Price.fetched) := by
  intro q hq
  obtain ⟨p, hp, rfl⟩ := Option.map_eq_some_iff.1 hq
  obtain ⟨hm, hid⟩ := hf p hp
  exact ⟨hid, h p hm hid⟩

theorem inTandem_livePrice :
    (livePrice id).InTandem (OwnedAs id pair) (FindsOwn id pair) :=
  .told (fun _ => rfl) (fun _ _ h => congrArg _ h.livePrice?_eq) fun _ _ h =>
    findsOwn_fetched h.dedicated fun _ hp => ⟨(mem_of_livePrice? hp).1, (mem_of_livePrice? hp).2.1⟩

theorem inTandem_deletedPrice :
    (deletedPrice id).InTandem (OwnedAs id pair) (FindsOwn id pair) :=
  .told (fun _ => rfl) (fun _ _ h => congrArg _ h.deletedPrice?_eq) fun _ _ h =>
    findsOwn_fetched h.dedicated fun _ hp =>
      ⟨(mem_of_deletedPrice? hp).1, (mem_of_deletedPrice? hp).2.1⟩

theorem inTandem_livePriceOf :
    (livePriceOf pair).InTandem (OwnedAs id pair) fun _ => True :=
  .told (fun _ => rfl) (fun _ _ h => congrArg _ h.livePriceOf?_eq) fun _ _ _ => trivial

theorem inTandem_insertPrice (p : Price) :
    (insertPrice p).InTandem (OwnedAs p.id p.pair) fun _ => True := by
  intro t t' h
  simp only [perform, insertPrice?, h.price?_eq]
  split
  · exact .error
  · exact .ok trivial (h.insert (p := p.kept) rfl)

/-- A price may be archived on both sides, as long as there is a number left on the first. -/
theorem inTandem_archive (p : Price) (now : Timestamp) :
    (archive p now).InTandem (OwnedAs id pair) fun _ => True := by
  intro t t' h
  simp only [perform]
  cases ha : t.archive? p now with
  | none => exact .full
  | some u =>
    obtain ⟨-, rfl⟩ := archive?_eq_some ha
    have hroom : t'.lastNumber < Nat.pow 2 63 - 1 :=
      Int.lt_of_le_of_lt h.lastNumber (room_of_archive? ha)
    rw [archive?_of_room h.numbers hroom]
    exact .ok trivial (h.archiving p now)

theorem inTandem_changePrice (change : Price → Price) (hid : ∀ p, (change p).id = p.id)
    (hpair : ∀ p, (change p).pair = p.pair) {t t' : Tables} (h : OwnedAs id pair t t') :
    Alike (OwnedAs id pair) (fun _ => True) (changePrice id change t)
      (changePrice id change t') := by
  unfold changePrice
  rw [h.price?_eq]
  cases t.price? id with
  | none => exact .error
  | some p => exact .ok trivial (h.setPrice hid hpair)

theorem inTandem_revisePrice (value : Decimal) (now : Timestamp) :
    (revisePrice id value now).InTandem (OwnedAs id pair) fun _ => True :=
  fun _ _ h => inTandem_changePrice (Price.revised value now) (fun _ => rfl) (fun _ => rfl) h

theorem inTandem_markPrice (deletedAt : Option Timestamp) (now : Timestamp) :
    (markPrice id deletedAt now).InTandem (OwnedAs id pair) fun _ => True :=
  fun _ _ h => inTandem_changePrice (Price.marked deletedAt now) (fun _ => rfl) (fun _ => rfl) h

end Statement

/-! ### Work on the pair's own prices -/

namespace Prices

open Work Tables Statement

variable {id : Uuid} {pair : Pair}

theorem inTandem_live :
    (live id).InTandem (OwnedAs id pair) fun p => p.id = id ∧ p.pair = pair :=
  (InTandem.statement inTandem_livePrice).bind fun _ hf => .orFail hf

theorem inTandem_free : (free pair).InTandem (OwnedAs id pair) fun _ => True :=
  (InTandem.statement inTandem_livePriceOf).bind fun
    | some _, _ => .fail _
    | none, _ => .done trivial

theorem inTandem_create (new : NewPrice) (now : Timestamp) :
    (create new id now).InTandem (OwnedAs id new.pair) fun _ => True :=
  inTandem_free.bind fun _ _ =>
    .statement (inTandem_insertPrice ⟨id, new.pair, new.value, now, now, none⟩)

theorem inTandem_revise (value : Decimal) (now : Timestamp) :
    (revise id value now).InTandem (OwnedAs id pair) fun _ => True :=
  inTandem_live.bind fun existing _ => (InTandem.statement (inTandem_archive existing now)).bind
    fun _ _ => (InTandem.statement (inTandem_revisePrice value now)).bind fun _ _ =>
      inTandem_live.imp fun _ _ => trivial

theorem inTandem_delete (now : Timestamp) :
    (delete id now).InTandem (OwnedAs id pair) fun _ => True := by
  refine inTandem_live.bind fun existing hexisting => ?_
  rw [hexisting.1]
  exact (InTandem.statement (inTandem_markPrice (some now) now)).bind fun _ _ => .done trivial

theorem inTandem_restore (now : Timestamp) :
    (restore id now).InTandem (OwnedAs id pair) fun _ => True := by
  refine (InTandem.statement inTandem_deletedPrice).bind fun _ hf =>
    (InTandem.orFail hf).bind fun deleted hdeleted => ?_
  rw [hdeleted.1, hdeleted.2]
  exact inTandem_free.bind fun _ _ => .statement (inTandem_markPrice none now)

end Prices

/-! ### Writes to prices of other pairs -/

namespace Market.Write

/-- The identifier of the price that a write is about. -/
def priceId? : Write → Option Uuid
  | createPrice _ id _ | revisePrice id _ _ | deletePrice id _ | restorePrice id _ => some id
  | createHarvest _ _ _ | deleteHarvest _ _ => none

/-- The pair that a write offers a new price for. -/
def newPair? : Write → Option Pair
  | createPrice new _ _ => some new.pair
  | _ => none

/-- **A write that is about a pair**, as far as tables tell. -/
structure IsFor (w : Write) (pair : Pair) (t : Tables) : Prop where
  price : ∃ id, w.priceId? = some id ∧ t.Dedicates id pair
  new : ∀ newPair, w.newPair? = some newPair → newPair = pair

/-- **A write that is about no price of a pair**, as far as tables tell. -/
structure IsApart (w : Write) (pair : Pair) (t : Tables) : Prop where
  price : ∀ id, w.priceId? = some id → t.Denies id pair
  new : ∀ newPair, w.newPair? = some newPair → newPair ≠ pair

end Market.Write

namespace Market.Write

open Tables

variable {pair : Pair} {t t' u : Tables} {w : Write}

/-- A write that is about no price of a pair leaves the pair's rows alone. -/
theorem Turns.sameRows (ht : w.Turns t u) (h : w.IsApart pair t) : SameRows pair t u := by
  cases ht with
  | @createPrice new id now accepted free fresh =>
    have hne : (new.row id now).kept.pair ≠ pair := h.new _ rfl
    refine ⟨?_, rfl⟩
    rw [pricesOf_append, if_neg hne, List.append_nil]
  | @revisePrice id value now old accepted found unused =>
    have hdenied := h.price id rfl
    obtain ⟨hold, hid, -⟩ := mem_of_livePrice? found
    have hne : old.fetched.pair ≠ pair := hdenied old hold hid
    refine ⟨pricesOf_setPrice_of_denies (t := t.archiving old.fetched now) hdenied fun _ => rfl, ?_⟩
    refine (valuesOf_archiving t pair old.fetched now).trans ?_
    rw [if_neg hne, List.append_nil]
  | @deletePrice id now old found =>
    exact ⟨pricesOf_setPrice_of_denies (h.price id rfl) fun _ => rfl, rfl⟩
  | @restorePrice id now old found free =>
    exact ⟨pricesOf_setPrice_of_denies (h.price id rfl) fun _ => rfl, rfl⟩
  | createHarvest fresh => exact ⟨rfl, rfl⟩
  | deleteHarvest found => exact ⟨rfl, rfl⟩

theorem Turns.lastNumber_le (ht : w.Turns t u) : t.lastNumber ≤ u.lastNumber := by
  cases ht with
  | revisePrice => exact Int.le_add_one (Int.le_refl _)
  | createPrice | deletePrice | restorePrice | createHarvest | deleteHarvest => exact Int.le_refl _

end Market.Write

/-- Tables that a write to another pair's prices leaves behind are reduced to the same ones. -/
theorem Tables.ReducedTo.foreign {pair : Pair} {t t' u : Tables} (h : ReducedTo pair t t')
    {w : Market.Write} (ht : w.Turns t u) (hw : w.IsApart pair t) : ReducedTo pair u t' where
  toSameRows := (ht.sameRows hw).symm.trans h.toSameRows
  entries := List.Subset.trans h.entries ht.extends.entries.subset
  numbers := h.numbers
  lastNumber := Int.le_trans h.lastNumber ht.lastNumber_le

end CropLedger
