import CropLedger.Proofs.Market.FullArchive
import CropLedger.Proofs.Market.PairReads

/-!
# Pairs do not interfere

A run of calls is set beside the run that is left of it when all calls about other pairs are left
out. A call that remains finds tables in both runs that are the same as far as the pair goes, and
comes out alike; one that is left out cannot be told from the pair's point of view. The one thing
that pairs share is the numbers of the archive.

* `Market.replies_reduced`: the two runs side by side;
* `Market.pairs_do_not_interfere`: what follows for one pair, and for the order of calls.
-/

namespace CropLedger

namespace Market

open Tables

/-- What a caller is told if the archive has no number left. -/
def outOfNumbers : Reply := .error (Work.failed .full)

section Pairs

variable {σ α : Type} {pair : Pair} {id : Uuid} {t t' : Tables}

/-! ### A call about the pair -/

/-- Two outcomes of one call on tables that are the same as far as a pair goes. -/
def CallsAlike (pair : Pair) (outcome outcome' : Except ServiceFault α × MarketState Unit) : Prop :=
  outcome.1 = .error (Work.failed .full) ∨
    (outcome'.1 = outcome.1 ∧ ReducedTo pair outcome.2.store.tables outcome'.2.store.tables)

theorem callsAlike_commit {work : Work α} {Q : α → Prop} (h : work.InTandem (OwnedAs id pair) Q)
    (ht : OwnedAs id pair t t') (refuses : Nat → Statement → Bool) :
    CallsAlike pair (bare.commit .price work.atomically ⟨⟨t, 0, refuses⟩, ()⟩)
      (bare.commit .price work.atomically ⟨⟨t', 0, refuses⟩, ()⟩) := by
  have hstores : Database.Tandem (OwnedAs id pair) ⟨t, 0, refuses⟩ ⟨t', 0, refuses⟩ :=
    ⟨rfl, rfl, ht⟩
  rw [bare_commit, bare_commit]
  rcases h.atomically hstores with hf | ⟨he, hr⟩
  · exact .inl hf
  · exact .inr ⟨he, hr.toReducedTo⟩

theorem CallsAlike.checked {operation : Operation Unit α} {s s' : MarketState Unit}
    (h : CallsAlike pair (operation s) (operation s'))
    (hs : ReducedTo pair s.store.tables s'.store.tables) (check : Except ServiceFault Unit) :
    CallsAlike pair (checked check operation s) (checked check operation s') := by
  cases check with
  | ok u => exact h
  | error fault => exact .inr ⟨rfl, hs⟩

theorem CallsAlike.answering {β : Type} {operation : Operation Unit α} {s s' : MarketState Unit}
    (h : CallsAlike pair (operation s) (operation s')) (f : α → β) :
    CallsAlike pair (answering f operation s) (answering f operation s') := by
  unfold Market.answering
  rcases h with hf | ⟨he, hr⟩
  · exact .inl (by rw [hf]; rfl)
  · exact .inr ⟨by rw [he], hr⟩

/-- **A call that is about the pair comes out alike.** -/
theorem WriteCall.alike (c : WriteCall) {s s' : MarketState Unit}
    (hc : c.write.IsFor pair s.store.tables)
    (hs : ReducedTo pair s.store.tables s'.store.tables) :
    CallsAlike pair (c.reply bare s) (c.reply bare s') := by
  obtain ⟨w, refuses⟩ := c
  obtain ⟨id, hid, hd⟩ := hc.price
  have howned : OwnedAs id pair s.store.tables s'.store.tables := ⟨hs, hd⟩
  cases w with
  | createPrice new _ now =>
    cases hid
    obtain rfl := hc.new _ rfl
    have h := callsAlike_commit (Prices.inTandem_create new now) howned refuses
    exact (h.checked hs _).answering _
  | revisePrice _ value now =>
    cases hid
    have h := callsAlike_commit (Prices.inTandem_revise value now) howned refuses
    exact (h.checked hs _).answering _
  | deletePrice _ now =>
    cases hid
    exact (callsAlike_commit (Prices.inTandem_delete now) howned refuses).answering _
  | restorePrice _ now =>
    cases hid
    exact (callsAlike_commit (Prices.inTandem_restore now) howned refuses).answering _
  | createHarvest _ _ _ => cases hid
  | deleteHarvest _ _ => cases hid

/-- A call that is about no price of the pair cannot be told. -/
theorem WriteCall.apart (c : WriteCall) {s : MarketState Unit}
    (hc : c.write.IsApart pair s.store.tables) (hs : ReducedTo pair s.store.tables t') :
    ReducedTo pair (c.reply bare s).2.store.tables t' := by
  rcases c.tables_reply bare s with ht | he
  · exact hs.foreign ht hc
  · exact he ▸ hs

/-! ### Two runs side by side -/

/-- A choice of the calls that are about a pair, as the tables of the end tell. -/
def Sorts (keep : WriteCall → Bool) (pair : Pair) (final : Tables) (calls : List WriteCall) :
    Prop :=
  ∀ c ∈ calls, (keep c = true → c.write.IsFor pair final) ∧
    (keep c = false → c.write.IsApart pair final)

theorem Write.IsFor.of_extends {w : Write} (h : w.IsFor pair t') (he : t.Extends t') :
    w.IsFor pair t := by
  obtain ⟨id, hid, hd⟩ := h.price
  exact ⟨⟨id, hid, hd.of_entries he.entries.subset⟩, h.new⟩

theorem Write.IsApart.of_extends {w : Write} (h : w.IsApart pair t') (he : t.Extends t') :
    w.IsApart pair t :=
  ⟨fun id hid => (h.price id hid).of_entries he.entries.subset, h.new⟩

/-- **The run of the calls that are about a pair**: each has the reply that it has in the whole run,
unless the archive has no number left in the whole run, and the tables stay the same as far as the
pair goes. -/
theorem replies_reduced {keep : WriteCall → Bool} {calls : List WriteCall} {s s' : MarketState Unit}
    (hs : ReducedTo pair s.store.tables s'.store.tables)
    (hk : Sorts keep pair (bare.callAll calls s).store.tables calls)
    (hfull : ∀ e ∈ bare.replies calls s, keep e.1 = true → e.2 ≠ outOfNumbers) :
    (bare.replies calls s).filter (fun e => keep e.1) = bare.replies (calls.filter keep) s' ∧
      ReducedTo pair (bare.callAll calls s).store.tables
        (bare.callAll (calls.filter keep) s').store.tables := by
  induction calls generalizing s s' with
  | nil => exact ⟨rfl, hs⟩
  | cons c calls ih =>
    have hlater : s.store.tables.Extends (bare.callAll (c :: calls) s).store.tables :=
      bare.extends_callAll (c :: calls) s
    have hrest : Sorts keep pair (bare.callAll calls (c.reply bare s).2).store.tables calls :=
      fun c' hc' => hk c' (List.mem_cons_of_mem _ hc')
    have hfull' : ∀ e ∈ bare.replies calls (c.reply bare s).2, keep e.1 = true →
        e.2 ≠ outOfNumbers := fun e he => hfull e (List.mem_cons_of_mem _ he)
    simp only [replies, callAll_cons]
    cases hkeep : keep c with
    | false =>
      rw [List.filter_cons_of_neg (by simp [hkeep]), List.filter_cons_of_neg (by simp [hkeep])]
      have happart := ((hk c List.mem_cons_self).2 hkeep).of_extends hlater
      exact ih (c.apart happart hs) hrest hfull'
    | true =>
      rw [List.filter_cons_of_pos (by simp [hkeep]), List.filter_cons_of_pos hkeep]
      have hfor := ((hk c List.mem_cons_self).1 hkeep).of_extends hlater
      rcases c.alike hfor hs with hf | ⟨he, hr⟩
      · exact absurd hf (hfull _ List.mem_cons_self hkeep)
      · obtain ⟨hreplies, htables⟩ := ih hr hrest hfull'
        refine ⟨?_, htables⟩
        rw [hreplies]
        simp only [replies, he]

/-! ### The pairs that calls concern -/

/-- The identifier and the pair of the price that a write would create. -/
def Write.offer? : Write → Option (Uuid × Pair)
  | createPrice new id _ => some (id, new.pair)
  | _ => none

/-- The identifier that a write is handed for a new price. -/
def Write.newId? (w : Write) : Option Uuid := w.offer?.map Prod.fst

/-- The pairs that a write concerns, given the prices that there are: the pair of a new price, or
those of the prices of an identifier. -/
def Write.pairs (entries : List (Uuid × Pair)) : Write → List Pair
  | createPrice new _ _ => [new.pair]
  | revisePrice id _ _ | deletePrice id _ | restorePrice id _ =>
    (entries.filter fun e => e.1 = id).map Prod.snd
  | createHarvest _ _ _ | deleteHarvest _ _ => []

/-- **Whether a call remains** when those about other pairs are left out. Calls about harvests are
left out, too. -/
def WriteCall.remains (entries : List (Uuid × Pair)) (pair : Pair) (c : WriteCall) : Bool :=
  c.write.entity = .price && (c.write.pairs entries).all fun other => other = pair

/-- The prices that there are and those that calls would create. -/
def claimed (t : Tables) (calls : List WriteCall) : List (Uuid × Pair) :=
  t.prices.map entry ++ calls.filterMap fun c => c.write.offer?

theorem mem_claimed {calls : List WriteCall} {e : Uuid × Pair} :
    e ∈ claimed t calls ↔
      e ∈ t.prices.map entry ∨ ∃ c ∈ calls, c.write.offer? = some e := by
  rw [claimed, List.mem_append, List.mem_filterMap]

theorem ids_claimed (t : Tables) (calls : List WriteCall) :
    (claimed t calls).map Prod.fst =
      t.prices.map Price.id ++ calls.filterMap fun c => c.write.newId? := by
  rw [claimed, List.map_append, List.map_map, List.map_filterMap]
  rfl

theorem Write.Turns.entries {w : Write} (ht : w.Turns t t') {e : Uuid × Pair}
    (he : e ∈ t'.prices.map entry) : e ∈ t.prices.map entry ∨ w.offer? = some e := by
  cases ht with
  | createPrice =>
    rw [List.map_append] at he
    rcases List.mem_append.1 he with he | he
    · exact .inl he
    · exact .inr (congrArg some (List.mem_singleton.1 he).symm)
  | revisePrice | deletePrice | restorePrice =>
    rw [map_setPrice entry] at he
    · exact .inl he
    · exact fun _ => rfl
  | createHarvest | deleteHarvest => exact .inl he

/-- All prices were there before, or some call has created them. -/
theorem entries_callAll (m : Market σ) (calls : List WriteCall) (s : MarketState σ) :
    (m.callAll calls s).store.tables.prices.map entry ⊆ claimed s.store.tables calls := by
  induction calls generalizing s with
  | nil => exact List.subset_append_left _ _
  | cons c calls ih =>
    intro e he
    rw [mem_claimed, List.exists_mem_cons_iff]
    rcases mem_claimed.1 (ih _ he) with hm | hlater
    · rcases c.tables_reply m s with ht | hsame
      · exact (ht.entries hm).imp_right .inl
      · exact .inl (hsame ▸ hm)
    · exact .inr (.inr hlater)

section Sorts

variable {entries claims : List (Uuid × Pair)} {final : Tables} {w : Write}

theorem remains_iff {c : WriteCall} (hc : c.write.entity = .price) (pair : Pair) :
    c.remains entries pair = true ↔ ∀ other ∈ c.write.pairs entries, other = pair := by
  simp [WriteCall.remains, hc]

/-- A write to a price by its identifier is about the pair if all entries of the identifier are,
and is about no price of the pair if one is not. -/
theorem isFor_isApart_of_priceId (hclaims : (claims.map Prod.fst).Nodup)
    (hentries : entries ⊆ claims) (hfinal : final.prices.map entry ⊆ entries)
    (hid : w.priceId? = some id)
    (hpairs : w.pairs entries = (entries.filter fun e => e.1 = id).map Prod.snd)
    (hnew : w.newPair? = none) (pair : Pair) :
    ((∀ other ∈ w.pairs entries, other = pair) → w.IsFor pair final) ∧
      (¬(∀ other ∈ w.pairs entries, other = pair) → w.IsApart pair final) := by
  have hprice {p : Price} (hp : p ∈ final.prices) : entry p ∈ entries :=
    hfinal (List.mem_map_of_mem hp)
  rw [hpairs]
  constructor
  · refine fun hall => ⟨⟨id, hid, fun p hp hpid => hall p.pair ?_⟩, by simp [hnew]⟩
    exact List.mem_map.2 ⟨entry p, List.mem_filter.2 ⟨hprice hp, decide_eq_true hpid⟩, rfl⟩
  · intro hsome
    simp only [List.mem_map, List.mem_filter, decide_eq_true_eq, not_forall] at hsome
    obtain ⟨_, ⟨e, ⟨he, hei⟩, rfl⟩, hne⟩ := hsome
    refine ⟨fun id' hid' p hp hpid => ?_, by simp [hnew]⟩
    obtain rfl : id = id' := Option.some.inj (hid.symm.trans hid')
    obtain rfl : e = entry p :=
      List.inj_on_of_nodup_map hclaims (hentries he) (hentries (hprice hp)) (hei.trans hpid.symm)
    exact hne

/-- A write of a new price is about the pair of the new price and no other. -/
theorem isFor_isApart_createPrice (hclaims : (claims.map Prod.fst).Nodup)
    (hfinal : final.prices.map entry ⊆ claims) {new : NewPrice} (hoffer : (id, new.pair) ∈ claims)
    (now : Timestamp) (pair : Pair) :
    (new.pair = pair → (Write.createPrice new id now).IsFor pair final) ∧
      (new.pair ≠ pair → (Write.createPrice new id now).IsApart pair final) := by
  have hown {p : Price} (hp : p ∈ final.prices) (hpid : p.id = id) : p.pair = new.pair := by
    have he : entry p = (id, new.pair) :=
      List.inj_on_of_nodup_map hclaims (hfinal (List.mem_map_of_mem hp)) hoffer hpid
    exact congrArg Prod.snd he
  constructor
  · intro h
    refine ⟨⟨id, rfl, fun p hp hpid => (hown hp hpid).trans h⟩, ?_⟩
    rintro _ ⟨⟩
    exact h
  · intro h
    constructor
    · rintro _ ⟨⟩ p hp hpid
      rw [hown hp hpid]
      exact h
    · rintro _ ⟨⟩
      exact h

/-- **The choice of the calls that remain sorts them**, as long as no identifier is claimed for
two pairs. -/
theorem sorts_remains {calls : List WriteCall} (hclaims : (claims.map Prod.fst).Nodup)
    (hentries : entries ⊆ claims) (hfinal : final.prices.map entry ⊆ entries)
    (hoffers : ∀ c ∈ calls, ∀ e, c.write.offer? = some e → e ∈ claims) (pair : Pair) :
    Sorts (WriteCall.remains entries pair) pair final calls := by
  intro c hc
  rw [Bool.eq_false_iff, Ne]
  obtain ⟨w, refuses⟩ := c
  cases w with
  | createPrice new id now =>
    rw [remains_iff rfl]
    simp only [Write.pairs, List.forall_mem_singleton]
    exact isFor_isApart_createPrice hclaims (List.Subset.trans hfinal hentries)
      (hoffers _ hc (id, new.pair) rfl) now pair
  | revisePrice id value now =>
    rw [remains_iff rfl]
    exact isFor_isApart_of_priceId hclaims hentries hfinal rfl rfl rfl pair
  | deletePrice id now =>
    rw [remains_iff rfl]
    exact isFor_isApart_of_priceId hclaims hentries hfinal rfl rfl rfl pair
  | restorePrice id now =>
    rw [remains_iff rfl]
    exact isFor_isApart_of_priceId hclaims hentries hfinal rfl rfl rfl pair
  | createHarvest new id now => exact ⟨nofun, fun _ => ⟨nofun, nofun⟩⟩
  | deleteHarvest id now => exact ⟨nofun, fun _ => ⟨nofun, nofun⟩⟩

end Sorts

/-! ### What callers are told -/

/-- Two replies to one call that are the same, clearing the cache aside. -/
def SameCall (e e' : WriteCall × Reply) : Prop := e'.1 = e.1 ∧ SameButForClearing e.2 e'.2

section Told

variable {outcomes told told' : List (WriteCall × Reply)}

theorem sameCall_of_tells (h : List.Forall₂ TellsCall outcomes told)
    (h' : List.Forall₂ TellsCall outcomes told') : List.Forall₂ SameCall told told' := by
  induction h generalizing told' with
  | nil =>
    cases h'
    exact .nil
  | cons hc _ ih =>
    cases h' with
    | cons hc' hrest => exact .cons ⟨hc'.1.trans hc.1.symm, _, hc.2, hc'.2⟩ (ih hrest)

theorem tells_filter (keep : WriteCall → Bool) (h : List.Forall₂ TellsCall outcomes told) :
    List.Forall₂ TellsCall (outcomes.filter fun e => keep e.1) (told.filter fun e => keep e.1) :=
  List.rel_filter (fun e e' ht => by
    show keep e.1 = true ↔ keep e'.1 = true
    rw [ht.1]) h

/-- A caller is told that no number is left if that is the outcome. -/
theorem outcome_ne_outOfNumbers (keep : WriteCall → Bool)
    (h : List.Forall₂ TellsCall outcomes told)
    (hfull : ∀ e ∈ told, keep e.1 = true → e.2 ≠ outOfNumbers) :
    ∀ e ∈ outcomes, keep e.1 = true → e.2 ≠ outOfNumbers := by
  induction h with
  | nil => exact fun _ he => absurd he List.not_mem_nil
  | @cons e e' _ _ hc _ ih =>
    rw [List.forall_mem_cons] at hfull ⊢
    refine ⟨fun hkeep he => ?_, ih hfull.2⟩
    refine hfull.1 (hc.1 ▸ hkeep) ?_
    rcases hc.2 with hsame | ⟨a, entity, fault, ho, -⟩
    · exact hsame.trans he
    · cases ho.symm.trans he

end Told

/-! ### Leaving calls out -/

theorem offers_claimed (t : Tables) {calls : List WriteCall} :
    ∀ c ∈ calls, ∀ e, c.write.offer? = some e → e ∈ claimed t calls :=
  fun c hc _ he => mem_claimed.2 (.inr ⟨c, hc, he⟩)

/-- **A run without the calls that are about other pairs**: those that remain have the same replies,
and what there is of the pair is the same at the end. -/
theorem replies_remaining (m : Market σ) {calls : List WriteCall} {s s' : MarketState σ}
    (ho : s.store.tables.Orderly) (hs : s'.store.tables = s.store.tables)
    {keep : WriteCall → Bool} (hk : Sorts keep pair (m.callAll calls s).store.tables calls)
    (hfull : ∀ e ∈ m.replies calls s, keep e.1 = true → e.2 ≠ outOfNumbers) :
    List.Forall₂ SameCall ((m.replies calls s).filter fun e => keep e.1)
        (m.replies (calls.filter keep) s') ∧
      SameFor pair (m.callAll calls s).store.tables
        (m.callAll (calls.filter keep) s').store.tables := by
  have hb : s.store.tables = (onTables s.store.tables).store.tables := rfl
  obtain ⟨hwhole, htold⟩ := m.follows_callAll calls hb
  obtain ⟨hpart, htold'⟩ := m.follows_callAll (calls.filter keep) (hs.trans hb)
  have hstart : ReducedTo pair (onTables s.store.tables).store.tables
      (onTables s.store.tables).store.tables := ho.reducedTo_self pair
  obtain ⟨hreplies, hr⟩ := replies_reduced hstart (hwhole ▸ hk)
    (outcome_ne_outOfNumbers keep htold hfull)
  constructor
  · exact sameCall_of_tells (hreplies ▸ tells_filter keep htold) htold'
  · rw [hwhole, hpart]
    exact hr.sameFor (bare.orderly_callAll _ ho) (bare.orderly_callAll _ ho)

/-! ### Calls in another order -/

section Swapped

variable {before after : List WriteCall} {x y : WriteCall} {p q : Pair}

theorem filter_swapped {keep : WriteCall → Bool} (h : keep x = false ∨ keep y = false) :
    (before ++ y :: x :: after).filter keep = (before ++ x :: y :: after).filter keep := by
  simp only [List.filter_append, List.filter_cons]
  rcases h with h | h <;> simp [h]

/-- Of two calls about different pairs not both remain. -/
theorem not_both_remain {entries : List (Uuid × Pair)} (hx : p ∈ x.write.pairs entries)
    (hy : q ∈ y.write.pairs entries) (hne : p ≠ q) (pair : Pair) :
    x.remains entries pair = false ∨ y.remains entries pair = false := by
  by_contra hboth
  simp only [not_or, Bool.not_eq_false, WriteCall.remains, Bool.and_eq_true, List.all_eq_true,
    decide_eq_true_eq] at hboth
  exact hne ((hboth.1.2 p hx).trans (hboth.2.2 q hy).symm)

theorem pairs_mono {entries claims : List (Uuid × Pair)} (h : entries ⊆ claims) (w : Write) :
    w.pairs entries ⊆ w.pairs claims := by
  have hby (id : Uuid) : (entries.filter fun e => e.1 = id).map Prod.snd ⊆
      (claims.filter fun e => e.1 = id).map Prod.snd :=
    List.map_subset _ fun e he => by
      simp only [List.mem_filter] at he ⊢
      exact ⟨h he.1, he.2⟩
  cases w with
  | createPrice => exact List.Subset.refl _
  | revisePrice id | deletePrice id | restorePrice id => exact hby id
  | createHarvest | deleteHarvest => exact List.Subset.refl _

theorem claimed_swapped (t : Tables) :
    claimed t (before ++ y :: x :: after) ⊆ claimed t (before ++ x :: y :: after) := by
  intro e he
  simp only [mem_claimed, List.mem_append, List.mem_cons] at he ⊢
  grind

variable {b : MarketState Unit}
  (ho : b.store.tables.Orderly)
  (hclaims : ((claimed b.store.tables (before ++ x :: y :: after)).map Prod.fst).Nodup)
  (hne : p ≠ q)
  (hx : p ∈ x.write.pairs
    ((bare.callAll (before ++ x :: y :: after) b).store.tables.prices.map entry))
  (hy : q ∈ y.write.pairs
    ((bare.callAll (before ++ x :: y :: after) b).store.tables.prices.map entry))
  (hfull : ∀ e ∈ bare.replies (before ++ x :: y :: after) b, e.2 ≠ outOfNumbers)
  (hfull' : ∀ e ∈ bare.replies (before ++ y :: x :: after) b, e.2 ≠ outOfNumbers)

theorem offers_swapped (t : Tables) : ∀ c ∈ before ++ y :: x :: after, ∀ e,
    c.write.offer? = some e → e ∈ claimed t (before ++ x :: y :: after) :=
  fun c hc e he => claimed_swapped t (offers_claimed t c hc e he)

include ho hclaims hne hx hy hfull hfull'

/-- **Two calls about different pairs may be made in either order**: no pair's rows can tell. The
calls about one pair are the same in both orders, so both runs reduce to one. -/
theorem sameMarket_swapped :
    SameMarket (bare.callAll (before ++ x :: y :: after) b).store.tables
      (bare.callAll (before ++ y :: x :: after) b).store.tables := by
  refine ⟨bare.orderly_callAll _ ho, bare.orderly_callAll _ ho, fun pair => ?_⟩
  -- whether a price comes to be may depend on the order, so the calls are sorted by what is claimed
  have hsub := entries_callAll bare (before ++ x :: y :: after) b
  have hsub' := entries_callAll bare (before ++ y :: x :: after) b
  have hsorts := sorts_remains hclaims (List.Subset.refl _) hsub (offers_claimed _) pair
  have hsorts' := sorts_remains hclaims (List.Subset.refl _)
    (List.Subset.trans hsub' (claimed_swapped _)) (offers_swapped _) pair
  obtain ⟨-, hr⟩ := replies_reduced (ho.reducedTo_self pair) hsorts fun e he _ => hfull e he
  obtain ⟨-, hr'⟩ := replies_reduced (ho.reducedTo_self pair) hsorts' fun e he _ => hfull' e he
  have hnot := not_both_remain (pairs_mono hsub _ hx) (pairs_mono hsub _ hy) hne pair
  rw [filter_swapped hnot] at hr'
  exact hr.toSameRows.trans hr'.symm

/-- The calls that are about a pair have the same replies in both orders. -/
theorem replies_swapped (pair : Pair) :
    (bare.replies (before ++ y :: x :: after) b).filter (fun e => e.1.remains
        ((bare.callAll (before ++ x :: y :: after) b).store.tables.prices.map entry) pair) =
      (bare.replies (before ++ x :: y :: after) b).filter fun e => e.1.remains
        ((bare.callAll (before ++ x :: y :: after) b).store.tables.prices.map entry) pair := by
  have hsame := sameMarket_swapped ho hclaims hne hx hy hfull hfull'
  have hsub := entries_callAll bare (before ++ x :: y :: after) b
  have hsub' : (bare.callAll (before ++ y :: x :: after) b).store.tables.prices.map entry ⊆
      (bare.callAll (before ++ x :: y :: after) b).store.tables.prices.map entry :=
    List.map_subset _ fun _ => hsame.mem_prices.1
  have hsorts := sorts_remains hclaims hsub (List.Subset.refl _) (offers_claimed _) pair
  have hsorts' := sorts_remains hclaims hsub hsub' (offers_swapped _) pair
  rw [(replies_reduced (ho.reducedTo_self pair) hsorts fun e he _ => hfull e he).1,
    (replies_reduced (ho.reducedTo_self pair) hsorts' fun e he _ => hfull' e he).1,
    filter_swapped (not_both_remain hx hy hne pair)]

end Swapped

/-- **Pairs do not interfere.** Calls one after another, each with its reading of the clock, its
identifier and the statements that the store refuses meanwhile, start from tables in good order,
and the identifiers for new prices are distinct and new.

If all calls are left out that concern other pairs, and those about harvests with them, the calls
that remain have the same replies, clearing the cache aside, and at the end the pair has the same
live price, the same deleted prices and the same history apart from numbers; unless a call that
remains finds that the archive has no number left.

Two calls next to each other that concern different pairs may be made in either order, if in
neither a call finds that the archive has no number left: pair by pair, the calls about prices have
the same replies, and all that clients can read of prices is the same. Nothing is said about the
replies to calls about harvests. -/
theorem pairs_do_not_interfere (m : Market σ) (calls : List WriteCall) (s : MarketState σ)
    (ho : s.store.tables.Orderly)
    (hids : (s.store.tables.prices.map Price.id ++
      calls.filterMap fun c => c.write.newId?).Nodup) :
    let final := (m.callAll calls s).store.tables
    let remains := WriteCall.remains (final.prices.map entry)
    (∀ (pair : Pair) (s' : MarketState σ), s'.store.tables = s.store.tables →
      (∀ e ∈ m.replies calls s, remains pair e.1 = true → e.2 ≠ outOfNumbers) →
      List.Forall₂ SameCall ((m.replies calls s).filter fun e => remains pair e.1)
          (m.replies (calls.filter (remains pair)) s') ∧
        SameFor pair final (m.callAll (calls.filter (remains pair)) s').store.tables) ∧
    ∀ (before after : List WriteCall) (x y : WriteCall) (p q : Pair) (s' : MarketState σ),
      calls = before ++ x :: y :: after → s'.store.tables = s.store.tables →
      p ∈ x.write.pairs (final.prices.map entry) → q ∈ y.write.pairs (final.prices.map entry) →
      p ≠ q → (∀ e ∈ m.replies calls s, e.2 ≠ outOfNumbers) →
      (∀ e ∈ m.replies (before ++ y :: x :: after) s', e.2 ≠ outOfNumbers) →
      (∀ pair, List.Forall₂ SameCall ((m.replies calls s).filter fun e => remains pair e.1)
        ((m.replies (before ++ y :: x :: after) s').filter fun e => remains pair e.1)) ∧
      (∀ pair, SameFor pair final
        (m.callAll (before ++ y :: x :: after) s').store.tables) ∧
      ∀ k : CacheKey, k.entity = .price →
        k.value (m.callAll (before ++ y :: x :: after) s').store.tables = k.value final := by
  intro final remains
  have hclaims : ((claimed s.store.tables calls).map Prod.fst).Nodup := by
    rw [ids_claimed]
    exact hids
  refine ⟨fun pair s' hs hfull => ?_, ?_⟩
  · have hsorts := sorts_remains hclaims (entries_callAll m calls s) (List.Subset.refl _)
      (offers_claimed _) pair
    exact replies_remaining m ho hs hsorts hfull
  · rintro before after x y p q s' rfl hs hx hy hne hfull hfull'
    have hb : s.store.tables = (onTables s.store.tables).store.tables := rfl
    obtain ⟨hwhole, htold⟩ := m.follows_callAll (before ++ x :: y :: after) hb
    obtain ⟨hwhole', htold'⟩ := m.follows_callAll (before ++ y :: x :: after) (hs.trans hb)
    have hplain := outcome_ne_outOfNumbers (fun _ => true) htold fun e he _ => hfull e he
    have hplain' := outcome_ne_outOfNumbers (fun _ => true) htold' fun e he _ => hfull' e he
    simp only [final, remains, hwhole, hwhole'] at hx hy ⊢
    have hsame := sameMarket_swapped ho hclaims hne hx hy (fun e he => hplain e he rfl)
      fun e he => hplain' e he rfl
    refine ⟨fun pair => ?_, fun pair => (hsame.rows pair).sameFor hsame.orderly hsame.orderly',
      fun k hk => CacheKey.value_of_sameMarket hsame hk⟩
    have hreplies := replies_swapped ho hclaims hne hx hy (fun e he => hplain e he rfl)
      (fun e he => hplain' e he rfl) pair
    exact sameCall_of_tells (tells_filter _ htold) (hreplies ▸ tells_filter _ htold')

end Pairs

/-! ### Calls about two pairs -/

instance (r : Reply) : Decidable (r = outOfNumbers) :=
  match r with
  | .error (.database report) =>
    decidable_of_iff (report = StoreFault.full.message) (by simp [outOfNumbers, Work.failed])
  | .ok _ | .error (.notFound _) | .error (.alreadyExists _) | .error (.validation _)
  | .error (.invalidation _ _) | .error .panicked => .isFalse (by simp [outOfNumbers, Work.failed])

namespace Sample

/-- Another pair. -/
def elsewhere : Pair := ⟨⟨7⟩, ⟨9⟩⟩

/-- Two prices are offered for a pair, and two for another one; the store refuses a statement on the
way. -/
def mixed : List WriteCall :=
  [(Write.createPrice ⟨pair, amount 105⟩ ⟨1⟩ (time 1)).called,
   (Write.createPrice ⟨elsewhere, amount 80⟩ ⟨2⟩ (time 2)).called,
   (Write.revisePrice ⟨1⟩ (amount 123) (time 3)).called,
   ⟨.revisePrice ⟨2⟩ (amount 85) (time 4), fun n _ => n = 3⟩,
   (Write.deletePrice ⟨1⟩ (time 5)).called,
   (Write.createPrice ⟨elsewhere, amount 90⟩ ⟨3⟩ (time 6)).called,
   (Write.createPrice ⟨pair, amount 111⟩ ⟨4⟩ (time 7)).called]

/-- The same calls, the last revision before the other one. -/
def swapped : List WriteCall :=
  [(Write.createPrice ⟨pair, amount 105⟩ ⟨1⟩ (time 1)).called,
   (Write.createPrice ⟨elsewhere, amount 80⟩ ⟨2⟩ (time 2)).called,
   ⟨.revisePrice ⟨2⟩ (amount 85) (time 4), fun n _ => n = 3⟩,
   (Write.revisePrice ⟨1⟩ (amount 123) (time 3)).called,
   (Write.deletePrice ⟨1⟩ (time 5)).called,
   (Write.createPrice ⟨elsewhere, amount 90⟩ ⟨3⟩ (time 6)).called,
   (Write.createPrice ⟨pair, amount 111⟩ ⟨4⟩ (time 7)).called]

/-- The prices of both pairs in the end. -/
def entries : List (Uuid × Pair) := [(⟨1⟩, pair), (⟨2⟩, elsewhere), (⟨4⟩, pair)]

end Sample

open Sample in
/-- Four calls remain of the pair, with the same replies on their own; and the two revisions may be
made in either order, although one of them is in vain. -/
theorem pairs_do_not_interfere_sample :
    (mixed.filter (WriteCall.remains entries pair)).length = 4 ∧
      List.Forall₂ SameCall
        ((market.replies mixed blank).filter fun e => e.1.remains entries pair)
        (market.replies (mixed.filter (WriteCall.remains entries pair)) blank) ∧
      SameFor pair (market.callAll mixed blank).store.tables
        (market.callAll (mixed.filter (WriteCall.remains entries pair)) blank).store.tables ∧
      ((market.replies mixed blank).map fun e => e.2.toBool) =
        [true, true, true, false, true, false, true] ∧
      ∀ k : CacheKey, k.entity = .price →
        k.value (market.callAll swapped blank).store.tables =
          k.value (market.callAll mixed blank).store.tables := by
  have hids : (blank.store.tables.prices.map Price.id ++
      mixed.filterMap fun c => c.write.newId?).Nodup := by decide +kernel
  have hentries : (market.callAll mixed blank).store.tables.prices.map entry = entries := by
    decide +kernel
  have hroom : ∀ e ∈ market.replies mixed blank, e.2 ≠ outOfNumbers := by decide +kernel
  have hroom' : ∀ e ∈ market.replies swapped blank, e.2 ≠ outOfNumbers := by decide +kernel
  have h := pairs_do_not_interfere market mixed blank orderly_empty hids
  simp only [hentries] at h
  obtain ⟨hreplies, hsame⟩ := h.1 pair blank rfl fun e he _ => hroom e he
  obtain ⟨-, -, hreads⟩ := h.2 (mixed.take 2) (mixed.drop 4) _ _ pair elsewhere blank rfl rfl
    (by decide +kernel) (by decide +kernel) (by decide +kernel) hroom hroom'
  exact ⟨by decide +kernel, hreplies, hsame, by decide +kernel, hreads⟩

/-! ### The last number -/

namespace Sample

/-- Two prices are offered for two pairs. -/
def offers : List WriteCall :=
  [(Write.createPrice ⟨pair, amount 105⟩ ⟨1⟩ (time 1)).called,
   (Write.createPrice ⟨elsewhere, amount 80⟩ ⟨2⟩ (time 2)).called]

/-- The first of them is revised many times, then the second one once. -/
def crowded (n : Nat) : List WriteCall :=
  offers ++ List.replicate n (Write.revisePrice ⟨1⟩ (amount 123) (time 3)).called ++
    [(Write.revisePrice ⟨2⟩ (amount 85) (time 4)).called]

/-- What there is of the second price. -/
def alone : List WriteCall :=
  [(Write.createPrice ⟨elsewhere, amount 80⟩ ⟨2⟩ (time 2)).called,
   (Write.revisePrice ⟨2⟩ (amount 85) (time 4)).called]

/-- The second price, revised. -/
def lastRevised : Price := ⟨⟨2⟩, elsewhere, amount 85, time 2, time 4, none⟩

theorem entries_crowded (n : Nat) :
    (⟨1⟩, pair) ∈ (market.callAll (crowded n) blank).store.tables.prices.map entry ∧
      ∀ e ∈ (market.callAll (crowded n) blank).store.tables.prices.map entry,
        e.1 = ⟨2⟩ → e.2 = elsewhere := by
  constructor
  · have hoffers : (⟨1⟩, pair) ∈ (market.callAll offers blank).store.tables.prices.map entry := by
      decide +kernel
    rw [crowded, List.append_assoc, callAll_append]
    exact (market.extends_callAll _ _).entries.subset hoffers
  · intro e he hid
    obtain ⟨c, hc, ho⟩ := (mem_claimed.1 (entries_callAll market (crowded n) blank he)).resolve_left
      List.not_mem_nil
    simp only [crowded, offers, List.mem_append, List.mem_cons, List.not_mem_nil, or_false,
      List.mem_replicate] at hc
    rcases hc with ((rfl | rfl) | ⟨-, rfl⟩) | rfl
    · cases ho
      cases hid
    · cases ho
      rfl
    · cases ho
    · cases ho

/-- Only calls about the second price remain of the crowd. -/
theorem filter_crowded (n : Nat) :
    (crowded n).filter (WriteCall.remains
      ((market.callAll (crowded n) blank).store.tables.prices.map entry) elsewhere) = alone := by
  obtain ⟨hfirst, hsecond⟩ := entries_crowded n
  generalize (market.callAll (crowded n) blank).store.tables.prices.map entry = entries at *
  have hcreate : offers.filter (WriteCall.remains entries elsewhere) =
      [(Write.createPrice ⟨elsewhere, amount 80⟩ ⟨2⟩ (time 2)).called] := by
    have hne : pair ≠ elsewhere := by decide
    simp [offers, WriteCall.remains, Write.called, Write.pairs, Write.entity, hne]
  have hrevise : ¬WriteCall.remains entries elsewhere
      (Write.revisePrice ⟨1⟩ (amount 123) (time 3)).called = true := by
    rw [remains_iff rfl]
    intro hall
    have hpair : pair ∈ (Write.revisePrice ⟨1⟩ (amount 123) (time 3)).pairs entries :=
      List.mem_map.2 ⟨_, List.mem_filter.2 ⟨hfirst, decide_eq_true rfl⟩, rfl⟩
    exact absurd (hall pair hpair) (by decide)
  have hlast : WriteCall.remains entries elsewhere
      (Write.revisePrice ⟨2⟩ (amount 85) (time 4)).called = true := by
    rw [remains_iff rfl]
    intro other hother
    obtain ⟨e, he, rfl⟩ := List.mem_map.1 hother
    obtain ⟨he, hid⟩ := List.mem_filter.1 he
    exact hsecond e he (of_decide_eq_true hid)
  rw [crowded, List.filter_append, List.filter_append, hcreate, List.filter_replicate,
    if_neg hrevise, List.filter_cons_of_pos hlast]
  rfl

/-- The last call finds no number left if the crowd takes them all. -/
theorem refused_crowded {n : Nat} (hn : (n : Int) = Nat.pow 2 63 - 1) :
    (market.replies (crowded n) blank).getLast?.map Prod.snd = some outOfNumbers := by
  have hfirst : Prices.checkValue (amount 123) = .ok () := rfl
  have hsecond : Prices.checkValue (amount 85) = .ok () := rfl
  have hlive : ((market.callAll offers blank).store.tables.livePrice? ⟨1⟩).isSome := by
    decide +kernel
  have hother : ((market.callAll offers blank).store.tables.livePrice? ⟨2⟩).isSome := by
    decide +kernel
  have hlast : (market.callAll offers blank).store.tables.lastNumber = 0 := by decide +kernel
  have hreply := refused_after_revisions market (time 3) hfirst hlive (by decide +kernel)
    (hlast ▸ (Int.zero_add _).trans hn) (time 4) hsecond hother
  rw [crowded, replies_append, callAll_append]
  simp only [replies, List.getLast?_concat, Option.map_some]
  exact congrArg some hreply

end Sample

open Sample in
/-- **The archive's numbers are shared.** Where the revisions of one price take all of them, the
revision of another pair's price is refused, which would be made if they were left out. -/
theorem last_number_taken :
    (market.replies (crowded (Nat.pow 2 63 - 1)) blank).getLast?.map Prod.snd = some outOfNumbers ∧
      (crowded (Nat.pow 2 63 - 1)).filter (WriteCall.remains
        ((market.callAll (crowded (Nat.pow 2 63 - 1)) blank).store.tables.prices.map entry)
        elsewhere) = alone ∧
      (market.replies alone blank).getLast?.map Prod.snd = some (.ok (some lastRevised.fetched)) :=
  ⟨refused_crowded (by decide), filter_crowded _, rfl⟩

end Market

end CropLedger
