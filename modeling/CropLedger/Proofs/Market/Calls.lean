import Mathlib.Data.List.Forall2
import CropLedger.Proofs.Market.Orderly

/-!
# Calls and their replies

Calls are made one after another, each with its reading of the clock, its identifier and the
statements that the store refuses meanwhile. What becomes of the tables, and what a caller is told,
does not depend on the cache, except that the clearing after a write may fail. So runs of calls are
compared where there is no cache.

* `Market.callAll`, `Market.replies`: a run of calls;
* `Market.SameButForClearing`: two replies that tell of the same outcome;
* `Market.follows_callAll`: every market does to the tables what the bare one does.
-/

namespace CropLedger

namespace Market

variable {σ α β : Type}

/-! ### Calls and replies -/

/-- What a caller is told: the price, if the call has one. -/
abbrev Reply := Except ServiceFault (Option Price)

/-- An operation with something made of its answer. -/
def answering (f : α → β) (operation : Operation σ α) : Operation σ β := fun s =>
  ((operation s).1.map f, (operation s).2)

/-- Carries a write out, and answers with the price. -/
def Write.reply (m : Market σ) : Write → Operation σ (Option Price)
  | createPrice new id now => answering some (m.createPrice new id now)
  | revisePrice id value now => answering some (m.revisePrice id value now)
  | deletePrice id now => answering (fun _ => none) (m.deletePrice id now)
  | restorePrice id now => answering some (m.restorePrice id now)
  | createHarvest new id now => answering (fun _ => none) (m.createHarvest new id now)
  | deleteHarvest id now => answering (fun _ => none) (m.deleteHarvest id now)

/-- A write as it is called, with the statements that the store refuses meanwhile. -/
structure WriteCall where
  write : Write
  refuses : Nat → Statement → Bool

/-- A write called while the store refuses nothing. -/
def Write.called (w : Write) : WriteCall := ⟨w, fun _ _ => false⟩

namespace WriteCall

/-- The store as a call finds it. -/
def store (c : WriteCall) (t : Tables) : Database := ⟨t, 0, c.refuses⟩

/-- Carries a call out. -/
def reply (m : Market σ) (c : WriteCall) : Operation σ (Option Price) := fun s =>
  c.write.reply m { s with store := c.store s.store.tables }

end WriteCall

theorem Write.refusesNothing_called (w : Write) (t : Tables) :
    (w.called.store t).RefusesNothing := fun _ _ => rfl

variable (m : Market σ)

/-- The state after calls one after another, whatever comes of each. -/
def callAll (calls : List WriteCall) (s : MarketState σ) : MarketState σ :=
  calls.foldl (fun s c => (c.reply m s).2) s

/-- Calls one after another, each with its reply. -/
def replies : List WriteCall → MarketState σ → List (WriteCall × Reply)
  | [], _ => []
  | c :: calls, s => (c, (c.reply m s).1) :: replies calls (c.reply m s).2

theorem callAll_cons (c : WriteCall) (calls : List WriteCall) (s : MarketState σ) :
    m.callAll (c :: calls) s = m.callAll calls (c.reply m s).2 := rfl

theorem callAll_append (before after : List WriteCall) (s : MarketState σ) :
    m.callAll (before ++ after) s = m.callAll after (m.callAll before s) :=
  List.foldl_append ..

theorem replies_append (before after : List WriteCall) (s : MarketState σ) :
    m.replies (before ++ after) s = m.replies before s ++ m.replies after (m.callAll before s) := by
  induction before generalizing s with
  | nil => rfl
  | cons c before ih => exact congrArg (_ :: ·) (ih _)

theorem Write.reply_snd (w : Write) (s : MarketState σ) : (w.reply m s).2 = (w.perform m s).2 := by
  cases w <;> rfl

/-- A call turns the tables, or leaves them as they were. -/
theorem WriteCall.tables_reply (c : WriteCall) (s : MarketState σ) :
    c.write.Turns s.store.tables (c.reply m s).2.store.tables ∨
      (c.reply m s).2.store.tables = s.store.tables := by
  unfold WriteCall.reply
  rw [c.write.reply_snd m]
  exact m.tables_perform c.write { s with store := c.store s.store.tables }

theorem WriteCall.keeps {P : Tables → Prop} {c : WriteCall} {s : MarketState σ}
    (hw : ∀ {t t'}, P t → c.write.Turns t t' → P t') (h : P s.store.tables) :
    P (c.reply m s).2.store.tables := by
  rcases c.tables_reply m s with ht | he
  · exact hw h ht
  · exact he ▸ h

/-- What each way to turn the tables keeps is kept by all calls. -/
theorem callAll_keeps {P : Tables → Prop} (hw : ∀ {t t'} {w : Write}, P t → w.Turns t t' → P t')
    (calls : List WriteCall) {s : MarketState σ} (h : P s.store.tables) :
    P (m.callAll calls s).store.tables := by
  induction calls generalizing s with
  | nil => exact h
  | cons c calls ih => exact ih (c.keeps m hw h)

theorem orderly_callAll (calls : List WriteCall) {s : MarketState σ} (h : s.store.tables.Orderly) :
    (m.callAll calls s).store.tables.Orderly :=
  m.callAll_keeps (fun h ht => ht.orderly h) calls h

theorem extends_callAll (calls : List WriteCall) (s : MarketState σ) :
    s.store.tables.Extends (m.callAll calls s).store.tables :=
  m.callAll_keeps (fun h ht => h.trans ht.extends) calls (Tables.Extends.refl _)

/-! ### Without a cache -/

/-- A market whose cache never holds anything. -/
def bare : Market Unit :=
  ⟨⟨fun _ _ => (.ok none, ()), fun _ _ _ _ => (.ok (), ()), fun _ _ => (.ok 0, ())⟩, 0, 0⟩

/-- The state of the bare market. -/
def onTables (t : Tables) : MarketState Unit := ⟨⟨t, 0, fun _ _ => false⟩, ()⟩

theorem bare_commit (entity : Entity) (change : Database → Except ServiceFault α × Database)
    (db : Database) :
    bare.commit entity change ⟨db, ()⟩ = ((change db).1, ⟨(change db).2, ()⟩) := by
  rcases hc : change db with ⟨fault | a, store⟩
  · exact bare.commit_of_error (s := ⟨db, ()⟩) entity hc
  · exact bare.commit_of_ok (s := ⟨db, ()⟩) entity hc

/-- What may be told of an outcome: that it is so, or that the cache could not be cleared after a
write that has happened. -/
def Tells (outcome told : Except ServiceFault α) : Prop :=
  told = outcome ∨ ∃ a entity fault, outcome = .ok a ∧ told = .error (.invalidation entity fault)

/-- **Two replies that are the same, clearing the cache aside.** -/
def SameButForClearing (r r' : Except ServiceFault α) : Prop :=
  ∃ outcome, Tells outcome r ∧ Tells outcome r'

/-- An operation does to the store what another one does in the bare market, and tells of it. -/
def Follows (plain : Operation Unit α) (operation : Operation σ α) : Prop :=
  ∀ s : MarketState σ, (operation s).2.store = (plain ⟨s.store, ()⟩).2.store ∧
    Tells (plain ⟨s.store, ()⟩).1 (operation s).1

theorem follows_commit (entity : Entity) (change : Database → Except ServiceFault α × Database) :
    Follows (bare.commit entity change) (m.commit entity change) := by
  intro s
  rcases hc : change s.store with ⟨fault | a, store⟩
  · rw [m.commit_of_error entity hc, bare.commit_of_error (s := ⟨s.store, ()⟩) entity hc]
    exact ⟨rfl, .inl rfl⟩
  · rw [m.commit_of_ok entity hc, bare.commit_of_ok (s := ⟨s.store, ()⟩) entity hc]
    refine ⟨rfl, ?_⟩
    cases (m.cache.deletePrefix entity.label s.cache).1 with
    | ok n => exact .inl rfl
    | error fault => exact .inr ⟨a, entity, fault, rfl, rfl⟩

theorem Follows.checked {plain : Operation Unit α} {operation : Operation σ α}
    (h : Follows plain operation) (check : Except ServiceFault Unit) :
    Follows (checked check plain) (checked check operation) := by
  intro s
  cases check with
  | ok u => exact h s
  | error fault => exact ⟨rfl, .inl rfl⟩

theorem Follows.answering {plain : Operation Unit α} {operation : Operation σ α}
    (h : Follows plain operation) (f : α → β) :
    Follows (answering f plain) (answering f operation) := by
  intro s
  obtain ⟨hs, ht⟩ := h s
  refine ⟨hs, ?_⟩
  unfold Market.answering
  rcases ht with he | ⟨a, entity, fault, ho, he⟩
  · exact .inl (congrArg (Except.map f) he)
  · rw [ho, he]
    exact .inr ⟨f a, entity, fault, rfl, rfl⟩

theorem Write.follows_reply (w : Write) : Follows (w.reply bare) (w.reply m) := by
  cases w with
  | createPrice new id now => exact ((m.follows_commit _ _).checked _).answering _
  | revisePrice id value now => exact ((m.follows_commit _ _).checked _).answering _
  | deletePrice id now => exact (m.follows_commit _ _).answering _
  | restorePrice id now => exact (m.follows_commit _ _).answering _
  | createHarvest new id now => exact ((m.follows_commit _ _).checked _).answering _
  | deleteHarvest id now => exact (m.follows_commit _ _).answering _

theorem WriteCall.follows_reply (c : WriteCall) {s : MarketState σ} {b : MarketState Unit}
    (h : s.store.tables = b.store.tables) :
    (c.reply m s).2.store.tables = (c.reply bare b).2.store.tables ∧
      Tells (c.reply bare b).1 (c.reply m s).1 := by
  obtain ⟨hs, ht⟩ := c.write.follows_reply m { s with store := c.store s.store.tables }
  unfold WriteCall.reply
  rw [← h]
  exact ⟨congrArg Database.tables hs, ht⟩

/-- The same call, told of its outcome. -/
def TellsCall (outcome told : WriteCall × Reply) : Prop :=
  told.1 = outcome.1 ∧ Tells outcome.2 told.2

/-- **Calls do to the tables what they do in the bare market**, and tell of it. -/
theorem follows_callAll (calls : List WriteCall) {s : MarketState σ} {b : MarketState Unit}
    (h : s.store.tables = b.store.tables) :
    (m.callAll calls s).store.tables = (bare.callAll calls b).store.tables ∧
      List.Forall₂ TellsCall (bare.replies calls b) (m.replies calls s) := by
  induction calls generalizing s b with
  | nil => exact ⟨h, .nil⟩
  | cons c calls ih =>
    obtain ⟨ht, htold⟩ := c.follows_reply m h
    obtain ⟨hrest, hreplies⟩ := ih ht
    exact ⟨hrest, .cons ⟨rfl, htold⟩ hreplies⟩

end Market

end CropLedger
