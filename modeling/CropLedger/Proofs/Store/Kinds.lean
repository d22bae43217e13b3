import CropLedger.Cache.Key
import CropLedger.Proofs.Store.Evaluation

/-!
# Questions about one kind of thing

The tables are about prices, their archived values with them, or about harvests. A question about
one kind of thing has the same answer wherever the tables about that kind are the same.

* `Tables.Agree`: tables that are the same about a kind;
* `Work.Asks.eval_congr`: work that asks about one kind comes to the same on them.
-/

namespace CropLedger

/-- The kind of thing that a table is about. -/
def Table.entity : Table → Entity
  | .prices | .archived => .price
  | .harvests => .harvest

/-- Tables that are the same about a kind of thing. -/
def Tables.Agree (e : Entity) (t t' : Tables) : Prop :=
  match e with
  | .price => t.prices = t'.prices ∧ t.archived = t'.archived
  | .harvest => t.harvests = t'.harvests

namespace Statement

/-- A question about a kind of thing. -/
def AsksAbout (e : Entity) (s : Statement) : Prop :=
  s.isQuestion = true ∧ s.table.map Table.entity = some e

theorem perform_congr {e : Entity} {s : Statement} (hs : s.AsksAbout e) {t t' : Tables}
    (h : t.Agree e t') : (s.perform t).map Prod.fst = (s.perform t').map Prod.fst := by
  obtain ⟨prices, archived, harvests, last⟩ := t
  obtain ⟨prices', archived', harvests', last'⟩ := t'
  obtain ⟨hq, he⟩ := hs
  cases e with
  | price =>
    obtain ⟨rfl, rfl⟩ : prices = prices' ∧ archived = archived' := h
    cases s <;> first | (cases hq; done) | (cases he; done) | rfl
  | harvest =>
    obtain rfl : harvests = harvests' := h
    cases s <;> first | (cases hq; done) | (cases he; done) | rfl

end Statement

/-- **Work that asks about one kind comes to the same where the tables about it are the same.** -/
theorem Work.Asks.eval_congr {α : Type} {e : Entity} {work : Work α}
    (h : work.Asks (Statement.AsksAbout e)) {t t' : Tables} (ht : t.Agree e t') :
    (work.eval t).1 = (work.eval t').1 := by
  induction work generalizing t t' with
  | done a => rfl
  | fail fault => rfl
  | ask s next ih =>
    have hp := Statement.perform_congr h.1 ht
    simp only [eval]
    cases h₁ : s.perform t with
    | error fault =>
      cases h₂ : s.perform t' with
      | error fault' =>
        rw [h₁, h₂] at hp
        cases hp
        rfl
      | ok outcome =>
        rw [h₁, h₂] at hp
        cases hp
    | ok outcome =>
      cases h₂ : s.perform t' with
      | error fault =>
        rw [h₁, h₂] at hp
        cases hp
      | ok outcome' =>
        obtain ⟨answer, u⟩ := outcome
        obtain ⟨answer', u'⟩ := outcome'
        rw [h₁, h₂] at hp
        obtain rfl : answer = answer' := Except.ok.inj hp
        obtain rfl := Statement.perform_question h.1.1 h₁
        obtain rfl := Statement.perform_question h.1.1 h₂
        exact ih answer (h.2 answer) ht

end CropLedger
