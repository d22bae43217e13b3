import Mathlib.Data.List.Forall2
import CropLedger.Proofs.Market.Orderly
import CropLedger.Proofs.Store.Sessions

/-!
# Revisions of one price at once

A revision looks the price up, archives what it has found, and gives the price its value. The change
of the price waits for other revisions, but the look-up does not. So a revision archives the value
that the price had when the revision began, which need not be the value that it supersedes: of two
revisions that have found the same value, both archive it, and what the first one has written is
archived by neither.

* `Prices.Revising`: a revision from its look-up on;
* `Revised.Kept`: what revisions at once keep, with its steps;
* `Revised.archive_what_was_found`: what they archive, and when nothing is lost;
* `Revised.superseded_value_lost`: a value that is lost.
-/

namespace CropLedger

/-! ### One revision -/

namespace Prices

/-- **A revision that has found the price**: what it still has to do, and what it has changed. -/
inductive Revising (id : Uuid) (value : Decimal) (now : Timestamp) (found : Price) :
    Work Price → List Statement → Prop
  | found : Revising id value now found
      (.ask (.archive found now) fun _ => .ask (.revisePrice id value now) fun _ => live id) []
  | archived : Revising id value now found
      (.ask (.revisePrice id value now) fun _ => live id) [.archive found now]
  | revised {work : Work Price} (rest : work.Asks fun q => q.isQuestion = true) :
      Revising id value now found work [.archive found now, .revisePrice id value now]

variable {id : Uuid} {value : Decimal} {now : Timestamp} {found : Price} {changes : List Statement}

/-- The statements of a revision, one after another. -/
theorem revise_eq (id : Uuid) (value : Decimal) (now : Timestamp) : revise id value now =
    .ask (.livePrice id) fun answer =>
      (Work.orFail (.notFound s!"price {id}") answer).bind fun found =>
        .ask (.archive found now) fun _ => .ask (.revisePrice id value now) fun _ => live id :=
  rfl

theorem asks_live (id : Uuid) : (live id).Asks fun q => q.isQuestion = true := by
  have hlookup : (Work.statement (.livePrice id)).Asks fun q => q.isQuestion = true :=
    Work.Asks.statement rfl
  exact hlookup.bind fun _ => Work.Asks.orFail _ _

/-- A statement takes a revision further, whatever its answer. -/
theorem Revising.asked {q : Statement} {next : q.Answer → Work Price}
    (h : Revising id value now found (.ask q next) changes) (answer : q.Answer) :
    Revising id value now found (next answer) (changes ++ q.changes) := by
  cases h with
  | found => exact .archived
  | archived => exact .revised (asks_live id)
  | revised rest =>
    have hnone : q.changes = [] := if_pos rest.1
    rw [hnone, List.append_nil]
    exact .revised (rest.2 answer)

/-- A revision that is done has archived what it has found, and has changed the price. -/
theorem Revising.done {a : Price} (h : Revising id value now found (.done a) changes) :
    changes = [.archive found now, .revisePrice id value now] := by
  cases h with
  | revised rest => rfl

/-- What the changes of a revision make of the tables. -/
theorem replay_revision {t t' : Tables}
    (h : Statement.replay [.archive found now, .revisePrice id value now] t = .ok t') :
    t' = (t.archiving found now).setPrice id (Price.revised value now) := by
  simp only [Statement.replay] at h
  cases ha : (Statement.archive found now).perform t with
  | error fault =>
    rw [ha] at h
    cases h
  | ok outcome =>
    obtain ⟨u, t₁⟩ := outcome
    obtain ⟨-, rfl⟩ := Tables.archive?_eq_some (Statement.changed_ok ha).2
    rw [ha] at h
    simp only at h
    cases hr : (Statement.revisePrice id value now).perform (t.archiving found now) with
    | error fault =>
      rw [hr] at h
      cases h
    | ok outcome =>
      obtain ⟨q, t₂⟩ := outcome
      rw [hr] at h
      cases h
      exact Statement.changePrice_ok hr

end Prices

namespace Revised

open Sessions Prices

/-! ### The values of the price -/

/-- The values that a price has had: the first one, and then those of the committed revisions. -/
def told (initial : Decimal) (value : Nat → Decimal) (order : List Nat) : List Decimal :=
  initial :: order.map fun n => (value n).stored

section Told

variable {initial : Decimal} {value : Nat → Decimal} {order : List Nat}

theorem told_append (n : Nat) :
    told initial value (order ++ [n]) = told initial value order ++ [(value n).stored] := by
  simp [told]

theorem told_last {w : Decimal} (h : (told initial value order).getLast? = some w) :
    (told initial value order)[order.length]? = some w := by
  rw [List.getLast?_eq_getElem?] at h
  simpa [told] using h

theorem told_later {j : Nat} {w : Decimal} (n : Nat) (h : (told initial value order)[j]? = some w) :
    (told initial value (order ++ [n]))[j]? = some w := by
  obtain ⟨hj, -⟩ := List.getElem?_eq_some_iff.1 h
  rw [told_append, List.getElem?_append_left hj, h]

end Told

/-! ### What revisions at once keep -/

section Kept

variable (t : Tables) (p : Price) (value : Nat → Decimal) (now : Nat → Timestamp)

/-- An archived value that a revision has left: the one that the price had when it began. -/
def Left (s : Sessions Price) (n : Nat) (a : ArchivedPrice) : Prop :=
  a.price = p.id ∧ ∃ w, (told p.value value s.order)[s.begun n]? = some w ∧ a.value = w.stored

/-- Where a unit stands if it is a revision of the price. -/
def Placed (s : Sessions Price) (n : Nat) : Transaction Price → Prop
  | .waiting work => work = revise p.id (value n) (now n)
  | .opened work changes => ∃ found, Revising p.id (value n) (now n) found work changes ∧
      found.id = p.id ∧ (told p.value value s.order)[s.begun n]? = some found.value
  | _ => True

/-- **What revisions of a price keep**, from some tables on. -/
structure Kept (s : Sessions Price) : Prop where
  orderly : s.tables.Orderly
  shows : ∃ w, (told p.value value s.order).getLast? = some w ∧ s.tables.Shows p.id p.pair w
  archived : ∃ rows, s.tables.archived = t.archived ++ rows ∧
    List.Forall₂ (Left p value s) s.order rows
  placed : ∀ n, Placed p value now s n (s.units n)
  nodup : s.order.Nodup
  ordered : ∀ n, n ∈ s.order ↔ ∃ a, s.units n = .committed a

variable {t p value now} {s : Sessions Price} {n : Nat}

theorem kept_start (ho : t.Orderly) (hp : p ∈ t.prices) (hl : p.isLive = true) :
    Kept t p value now (start t fun n => revise p.id (value n) (now n)) where
  orderly := ho
  shows := ⟨p.value, rfl, p, hp, rfl, rfl, rfl, hl⟩
  archived := ⟨[], (List.append_nil _).symm, .nil⟩
  placed _ := rfl
  nodup := List.nodup_nil
  ordered n := by simp [start]

/-- What holds of a unit goes on to hold when others have been committed. -/
theorem Left.later {s' : Sessions Price} {a : ArchivedPrice} (h : Left p value s n a)
    (hbegun : s'.begun n = s.begun n)
    (hlater : ∀ w, (told p.value value s.order)[s.begun n]? = some w →
      (told p.value value s'.order)[s.begun n]? = some w) : Left p value s' n a := by
  obtain ⟨hprice, w, hw, hvalue⟩ := h
  refine ⟨hprice, w, ?_, hvalue⟩
  rw [hbegun]
  exact hlater w hw

theorem Placed.later {s' : Sessions Price} {unit : Transaction Price}
    (h : Placed p value now s n unit)
    (hbegun : ∀ work changes, unit = .opened work changes → s'.begun n = s.begun n)
    (hlater : ∀ w, (told p.value value s.order)[s.begun n]? = some w →
      (told p.value value s'.order)[s.begun n]? = some w) : Placed p value now s' n unit := by
  cases unit with
  | opened work changes =>
    obtain ⟨found, hf, hid, hvalue⟩ := h
    refine ⟨found, hf, hid, ?_⟩
    rw [hbegun work changes rfl]
    exact hlater _ hvalue
  | waiting work => exact h
  | committed _ | rolledBack _ => trivial

theorem Kept.beginning (h : Kept t p value now s) {work : Work Price}
    (hn : s.units n = .waiting work) : Kept t p value now (s.beginning n) := by
  have hother {m : Nat} (hm : s.units m ≠ .waiting work) :
      (s.beginning n).begun m = s.begun m := by
    refine Function.update_of_ne (fun he => hm ?_) ..
    rw [he, hn]
  obtain ⟨rows, hrows, hleft⟩ := h.archived
  refine ⟨h.orderly, h.shows, ⟨rows, hrows, ?_⟩, fun m => ?_, h.nodup, h.ordered⟩
  · -- the units that have been committed are not the one that begins
    have hcommitted : ∀ m ∈ s.order, (s.beginning n).begun m = s.begun m := by
      intro m hm
      obtain ⟨a, ha⟩ := (h.ordered m).1 hm
      exact hother (by rw [ha]; nofun)
    exact ((List.forall₂_and_left _ _).2 ⟨hcommitted, hleft⟩).imp fun m a ⟨hb, hl⟩ =>
      hl.later hb fun _ hw => hw
  · exact (h.placed m).later (fun _ _ hu => hother (by rw [hu]; nofun)) fun _ hw => hw

/-- A unit that has not been committed comes to stand elsewhere. -/
theorem Kept.update (h : Kept t p value now s) (hn : ∀ a, s.units n ≠ .committed a)
    (unit : Transaction Price) (hunit : Placed p value now s n unit)
    (hopen : ∀ a, unit ≠ .committed a) (holder : Uuid → Option Nat) :
    Kept t p value now { s with units := Function.update s.units n unit, holder } := by
  refine ⟨h.orderly, h.shows, h.archived, fun m => ?_, h.nodup, fun m => ?_⟩
  · show Placed p value now s m (Function.update s.units n unit m)
    by_cases hm : m = n
    · rw [hm, Function.update_self]
      exact hunit
    · rw [Function.update_of_ne hm]
      exact h.placed m
  · show m ∈ s.order ↔ ∃ a, Function.update s.units n unit m = .committed a
    rw [h.ordered m]
    by_cases hm : m = n
    · subst hm
      rw [Function.update_self]
      exact ⟨fun ⟨a, ha⟩ => absurd ha (hn a), fun ⟨a, ha⟩ => absurd ha (hopen a)⟩
    · rw [Function.update_of_ne hm]

theorem Kept.giveUp (h : Kept t p value now s) (hn : ∀ a, s.units n ≠ .committed a)
    (fault : ServiceFault) : Kept t p value now (s.giveUp n fault) :=
  h.update hn (.rolledBack fault) trivial (fun _ he => nomatch he) _

theorem Kept.goOn (h : Kept t p value now s) (hn : ∀ a, s.units n ≠ .committed a) {q : Statement}
    {work : Work Price} {changes : List Statement}
    (hplaced : Placed p value now s n (.opened work changes)) :
    Kept t p value now (s.goOn n q work changes) :=
  h.update hn (.opened work changes) hplaced (fun _ he => nomatch he) _

theorem Kept.commit (h : Kept t p value now s) (hn : ∀ a, s.units n ≠ .committed a) {found : Price}
    (hid : found.id = p.id)
    (hfound : (told p.value value s.order)[s.begun n]? = some found.value) (result : Price) :
    Kept t p value now (s.commit n result
      ((s.tables.archiving found (now n)).setPrice p.id (Price.revised (value n) (now n)))) := by
  -- all that was told stays where it was, since what is told grows at its end
  have hnew : n ∉ s.order := fun hin => (h.ordered n).1 hin |>.elim hn
  obtain ⟨w, -, hshows⟩ := h.shows
  obtain ⟨rows, hrows, hleft⟩ := h.archived
  refine ⟨?_, ⟨(value n).stored, ?_, ?_⟩, ?_, ?_, ?_, ?_⟩
  · exact (h.orderly.archiving found (now n)).setPrice (fun _ => rfl) (fun _ => rfl) fun _ hl => hl
  · show (told p.value value (s.order ++ [n])).getLast? = _
    rw [told_append, List.getLast?_concat]
  · have harchiving : (s.tables.archiving found (now n)).Shows p.id p.pair w := hshows
    exact harchiving.revised
  · refine ⟨rows ++ [(found.archivedAs (s.tables.lastNumber + 1) (now n)).kept], ?_, ?_⟩
    · show s.tables.archived ++ [_] = _
      rw [hrows, List.append_assoc]
    · refine List.rel_append (hleft.imp fun m a hl => hl.later rfl fun _ => told_later n)
        (.cons ⟨hid, found.value, told_later n hfound, rfl⟩ .nil)
  · intro m
    show Placed p value now (s.commit n result _) m (Function.update s.units n _ m)
    by_cases hm : m = n
    · rw [hm, Function.update_self]
      trivial
    · rw [Function.update_of_ne hm]
      exact (h.placed m).later (fun _ _ _ => rfl) fun _ => told_later n
  · exact List.nodup_append.2 ⟨h.nodup, List.nodup_singleton n, by
      intro a ha b hb he
      rw [List.mem_singleton.1 hb] at he
      exact hnew (he ▸ ha)⟩
  · intro m
    show m ∈ s.order ++ [n] ↔ ∃ a, Function.update s.units n _ m = .committed a
    by_cases hm : m = n
    · rw [hm, Function.update_self]
      exact ⟨fun _ => ⟨result, rfl⟩, fun _ => by simp⟩
    · rw [Function.update_of_ne hm, ← h.ordered m]
      simp [hm]

/-- A revision that goes on keeps it all. -/
theorem Kept.proceed (h : Kept t p value now s) (hn : ∀ a, s.units n ≠ .committed a)
    {work : Work Price} {changes : List Statement} {found : Price}
    (hrevising : Revising p.id (value n) (now n) found work changes) (hid : found.id = p.id)
    (hfound : (told p.value value s.order)[s.begun n]? = some found.value) :
    Kept t p value now (s.proceed n changes work) := by
  have hp := s.proceeds n changes work
  generalize s.proceed n changes work = s' at hp
  cases hp with
  | committed made =>
    obtain rfl := hrevising.done
    obtain rfl := replay_revision made
    exact h.commit hn hid hfound _
  | @asked q next view view' answer free seen made =>
    exact h.goOn hn ⟨found, hrevising.asked answer, hid, hfound⟩
  | waits blocked => exact h
  | givenUp fault => exact h.giveUp hn fault

/-- A revision that begins looks the price up, and finds the value that the price has then. -/
theorem Kept.begins (h : Kept t p value now s)
    (hn : s.units n = .waiting (revise p.id (value n) (now n))) :
    Kept t p value now ((s.beginning n).proceed n [] (revise p.id (value n) (now n))) := by
  have hbeginning := h.beginning hn
  have hopen : ∀ a, (s.beginning n).units n ≠ .committed a := fun a he => nomatch hn.symm.trans he
  have hp := (s.beginning n).proceeds n [] (revise p.id (value n) (now n))
  generalize (s.beginning n).proceed n [] (revise p.id (value n) (now n)) = s' at hp
  rw [revise_eq] at hp
  cases hp with
  | @asked q next view view' answer free seen made =>
    cases seen
    cases made
    obtain ⟨w, hlast, row, hrow, hid, -, hvalue, hlive⟩ := h.shows
    have hfound : s.tables.livePrice? p.id = some row := by
      rw [← hid]
      exact h.orderly.livePrice?_eq_some hrow hlive
    have hfound : (s.beginning n).tables.livePrice? p.id = some row := hfound
    rw [hfound]
    refine hbeginning.goOn hopen ⟨row.fetched, .found, hid, ?_⟩
    have hnow : (s.beginning n).begun n = s.order.length := Function.update_self ..
    rw [hnow]
    exact (told_last hlast).trans (congrArg some hvalue.symm)
  | waits blocked => exact hbeginning
  | givenUp fault => exact hbeginning.giveUp hopen fault

theorem Kept.step (h : Kept t p value now s) (tick : Tick) : Kept t p value now (s.step tick) := by
  cases tick with
  | advance n =>
    have hplaced := h.placed n
    cases hn : s.units n with
    | waiting work =>
      rw [hn] at hplaced
      obtain rfl := hplaced
      simp only [Sessions.step, hn]
      exact h.begins hn
    | opened work changes =>
      rw [hn] at hplaced
      obtain ⟨found, hrevising, hid, hfound⟩ := hplaced
      simp only [Sessions.step, hn]
      exact h.proceed (by simp [hn]) hrevising hid hfound
    | committed result =>
      simp only [Sessions.step, hn]
      exact h
    | rolledBack fault =>
      simp only [Sessions.step, hn]
      exact h
  | refuse n =>
    cases hn : s.units n with
    | waiting work =>
      simp only [Sessions.step, hn]
      exact h.giveUp (by simp [hn]) _
    | opened work changes =>
      simp only [Sessions.step, hn]
      exact h.giveUp (by simp [hn]) _
    | committed result =>
      simp only [Sessions.step, hn]
      exact h
    | rolledBack fault =>
      simp only [Sessions.step, hn]
      exact h

theorem Kept.run (h : Kept t p value now s) (ticks : List Tick) :
    Kept t p value now (Sessions.run ticks s) := by
  induction ticks generalizing s with
  | nil => exact h
  | cons tick ticks ih => exact ih (h.step tick)

/-! ### What is archived -/

/-- If each revision begins when those before it have been committed, and no other one has, then
each archives the value that it supersedes. -/
theorem values_of_inTurn (hp : p.value.stored = p.value) (hvalue : ∀ n, (value n).stored = value n)
    {rows : List ArchivedPrice} (hleft : List.Forall₂ (Left p value s) s.order rows)
    (hturn : ∀ j n, s.order[j]? = some n → s.begun n = j) :
    rows.map ArchivedPrice.value = (told p.value value s.order).dropLast := by
  have hlength : s.order.length = rows.length := hleft.length_eq
  have hkept : ∀ w ∈ told p.value value s.order, w.stored = w := by
    intro w hw
    rcases List.mem_cons.1 hw with rfl | hw
    · exact hp
    · obtain ⟨n, -, rfl⟩ := List.mem_map.1 hw
      rw [hvalue n, hvalue n]
  -- the revision at place `j` began when `j` were committed, so it has found what they left
  refine List.ext_getElem? fun j => ?_
  rcases Nat.lt_or_ge j s.order.length with hj | hj
  · obtain ⟨-, w, hw, hstored⟩ := hleft.get hj (hlength ▸ hj)
    rw [hturn j (s.order.get ⟨j, hj⟩) (List.getElem?_eq_getElem hj)] at hw
    have hrow : (rows.map ArchivedPrice.value)[j]? = some w := by
      rw [List.getElem?_map, List.getElem?_eq_getElem (hlength ▸ hj)]
      exact congrArg some (hstored.trans (hkept w (List.mem_of_getElem? hw)))
    rw [hrow, List.getElem?_dropLast, if_pos (by simpa [told] using hj), hw]
  · have hrows : (rows.map ArchivedPrice.value)[j]? = none := by
      simpa [← hlength] using hj
    rw [hrows, List.getElem?_dropLast, if_neg (by simpa [told] using hj)]

end Kept

/-- **Revisions archive what they have found.** Any number of revisions of one price are under way
at once, some of them given up. However their statements follow one another, the price has the value
of the last one that was committed, and each committed revision has left one archived value: the
value that the price had when the revision began. So no superseded value is lost if each revision
begins when those committed before it are done. -/
theorem archive_what_was_found {t : Tables} (ho : t.Orderly) {p : Price} (hp : p ∈ t.prices)
    (hl : p.isLive = true) (value : Nat → Decimal) (now : Nat → Timestamp) (ticks : List Tick) :
    let s := Sessions.run ticks (start t fun n => revise p.id (value n) (now n))
    (s.order.Nodup ∧ ∀ n, n ∈ s.order ↔ ∃ a, s.units n = .committed a) ∧
      ∃ q rows, s.tables.livePrice? p.id = some q ∧
        (told p.value value s.order).getLast? = some q.value ∧
        s.tables.archived = t.archived ++ rows ∧ List.Forall₂ (Left p value s) s.order rows ∧
        (p.value.stored = p.value → (∀ n, (value n).stored = value n) →
          (∀ j n, s.order[j]? = some n → s.begun n = j) →
          rows.map ArchivedPrice.value ++ [q.value] = p.value :: s.order.map value) := by
  intro s
  have h : Kept t p value now s := (kept_start ho hp hl).run ticks
  obtain ⟨w, hlast, q, hq, hid, -, rfl, hlive⟩ := h.shows
  obtain ⟨rows, hrows, hleft⟩ := h.archived
  refine ⟨⟨h.nodup, h.ordered⟩, q, rows, ?_, hlast, hrows, hleft, fun hvalue hvalues hturn => ?_⟩
  · rw [← hid]
    exact h.orderly.livePrice?_eq_some hq hlive
  · rw [values_of_inTurn hvalue hvalues hleft hturn, List.dropLast_append_getLast? _ hlast]
    exact congrArg (p.value :: ·) (List.map_congr_left fun n _ => hvalues n)

/-! ### Two revisions -/

end Revised

namespace Market.Sample

/-- The values of two revisions. -/
def rivalValue (n : Nat) : Decimal := amount (if n = 0 then 123 else 115)

/-- Their readings of the clock. -/
def rivalTime (n : Nat) : Timestamp := time (if n = 0 then 2 else 3)

/-- The revisions, of a price that is offered. -/
def rivals : Sessions Price :=
  .start (market.run [offer] blank).store.tables fun n =>
    Prices.revise offered.id (rivalValue n) (rivalTime n)

/-- One revision after the other. -/
def inTurn : List Tick := List.replicate 5 (.advance 0) ++ List.replicate 5 (.advance 1)

/-- Both look the price up, and then one goes on after the other. -/
def crossing : List Tick :=
  .advance 0 :: .advance 1 :: (List.replicate 4 (.advance 0) ++ List.replicate 4 (.advance 1))

end Market.Sample

namespace Revised

open Market.Sample

/-- One after the other the revisions archive both values that they supersede. -/
theorem archive_what_was_found_sample :
    (market.run [offer] blank).store.tables.Orderly ∧
      offered ∈ (market.run [offer] blank).store.tables.prices ∧
      ∃ q rows, (Sessions.run inTurn rivals).tables.livePrice? offered.id = some q ∧
        (Sessions.run inTurn rivals).tables.archived = rows ∧
        rows.map ArchivedPrice.value ++ [q.value] = [amount 105, amount 123, amount 115] := by
  have ho : (market.run [offer] blank).store.tables.Orderly :=
    market.orderly_run [offer] Tables.orderly_empty
  have hp : offered ∈ (market.run [offer] blank).store.tables.prices := by decide +kernel
  have hkept : ∀ n, (rivalValue n).stored = rivalValue n := by
    intro n
    unfold rivalValue
    split <;> decide +kernel
  have horder : (Sessions.run inTurn rivals).order = [0, 1] := by decide +kernel
  have hturn : ∀ j n, (Sessions.run inTurn rivals).order[j]? = some n →
      (Sessions.run inTurn rivals).begun n = j := by
    rw [horder]
    rintro (_ | _ | j) n hn
    · cases hn
      decide +kernel
    · cases hn
      decide +kernel
    · cases hn
  obtain ⟨-, q, rows, hq, -, hrows, -, hnothing⟩ :=
    archive_what_was_found ho hp rfl rivalValue rivalTime inTurn
  refine ⟨ho, hp, q, rows, hq, hrows, ?_⟩
  rw [hnothing (by decide +kernel) hkept hturn]
  exact congrArg (fun order => offered.value :: List.map rivalValue order) horder

/-- **A superseded value is lost**: both revisions have been committed, and both have archived the
value that the price had at first, so the value of the first revision was superseded and is archived
by none. -/
theorem superseded_value_lost :
    (Sessions.run crossing rivals).order = [0, 1] ∧
      (Sessions.run crossing rivals).tables.archived.map ArchivedPrice.value =
        [offered.value, offered.value] ∧
      (Sessions.run crossing rivals).tables.archived.map ArchivedPrice.value ++
          ((Sessions.run crossing rivals).tables.livePrice? offered.id).toList.map Price.value ≠
        offered.value :: (Sessions.run crossing rivals).order.map rivalValue ∧
      rivalValue 0 ∉ (Sessions.run crossing rivals).tables.archived.map ArchivedPrice.value := by
  decide +kernel

end Revised

end CropLedger
