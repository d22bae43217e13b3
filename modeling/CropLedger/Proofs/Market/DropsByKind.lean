import CropLedger.Proofs.Cache.Honest
import CropLedger.Proofs.Cache.Keys
import CropLedger.Proofs.Market.RefusedScans

/-!
# Drops by kind

The name of a question tells the question, and starts with the label of its kind. A cache that is in
use by a market has no other names, since it is called with such names and labels alone. So a drop
by the label of a kind takes away what is kept about that kind, all of it and nothing else.

* `Entity.HasName`: the names of the questions about a kind;
* `Cache.InUse`: the states of a cache in use, with `InUse.ask` and `InUse.perform` for whole
  operations;
* `Cache.InUse.named`: all names in it are those of questions;
* `TakesOnly`: what is told of a drop by kind;
* `names_tell_questions`: names, kinds, and drops by kind.
-/

namespace CropLedger

variable {σ α : Type}

/-! ### Names of a kind -/

/-- The names of the questions about a kind of thing. -/
def Entity.HasName (e : Entity) (name : String) : Prop :=
  ∃ k : CacheKey, k.entity = e ∧ k.text = name

/-- A name starts with the label of a kind if it is that of a question about the kind. -/
theorem Entity.HasName.label_prefix {e : Entity} {name : String} (h : e.HasName name) :
    e.label.toList <+: name.toList := by
  obtain ⟨k, he, rfl⟩ := h
  exact (k.label_prefix_iff e).2 he

/-- The name of a question that starts with the label of a kind is that of one about the kind. -/
theorem Entity.hasName_of_prefix {e : Entity} {name : String}
    (hname : ∃ k : CacheKey, k.text = name) (h : e.label.toList <+: name.toList) :
    e.HasName name := by
  obtain ⟨k, rfl⟩ := hname
  exact ⟨k, (k.label_prefix_iff e).1 h, rfl⟩

/-! ### Caches in use -/

namespace Cache

variable {cache : Cache σ} {names : σ → List String} {c : σ}

/-- **The states of a cache that is in use by a market**: it is empty at first, answers are looked
up and kept under the names of their questions, and kinds of things are dropped by their labels, in
any order. In between time may pass, and entries may be lost. -/
inductive InUse (cache : Cache σ) (names : σ → List String) : σ → Prop
  | opened {c : σ} (empty : names c = []) : InUse cache names c
  | get {c : σ} (h : InUse cache names c) (k : CacheKey) : InUse cache names (cache.get k.text c).2
  | set {c : σ} (h : InUse cache names c) (k : CacheKey) (bytes : Bytes) (ttl : Nat) :
    InUse cache names (cache.set k.text bytes ttl c).2
  | drop {c : σ} (h : InUse cache names c) (e : Entity) :
    InUse cache names (cache.deletePrefix e.label c).2
  | lose {c c' : σ} (h : InUse cache names c) (fewer : names c' ⊆ names c) : InUse cache names c'

/-- A question makes such calls only. -/
theorem InUse.ask {m : Market σ} {s : MarketState σ} (h : m.cache.InUse names s.cache)
    (k : CacheKey) : m.cache.InUse names (k.ask m s).2.cache := by
  have hasked := k.asked m s
  generalize k.ask m s = outcome at hasked
  cases hasked with
  | rejected _ => exact h
  | found _ _ _ => exact h.get k
  | computed _ _ => exact (h.get k).set k _ _
  | failed _ _ => exact h.get k

/-- A write makes such calls only. -/
theorem InUse.perform {m : Market σ} {s : MarketState σ} (h : m.cache.InUse names s.cache)
    (w : Market.Write) : m.cache.InUse names (w.perform m s).2.cache := by
  rcases w.perform_cases m s with hh | ⟨fault, hr⟩
  · rw [hh.cache]
    exact h.drop w.entity
  · rw [hr.cache]
    exact h

/-- A call adds no name to a cache but the one that it hands over. -/
structure AddsHanded (cache : Cache σ) (names : σ → List String) : Prop where
  get : ∀ key c, names (cache.get key c).2 ⊆ names c
  set : ∀ key bytes ttl c, names (cache.set key bytes ttl c).2 ⊆ key :: names c
  drop : ∀ label c, names (cache.deletePrefix label c).2 ⊆ names c

/-- **All names in a cache in use are those of questions.** -/
theorem InUse.named (h : cache.InUse names c) (hc : cache.AddsHanded names) :
    ∀ name ∈ names c, ∃ k : CacheKey, k.text = name := by
  induction h with
  | opened empty =>
    intro name hname
    rw [empty] at hname
    cases hname
  | get _ k ih => exact fun name hname => ih name (hc.get _ _ hname)
  | set _ k bytes ttl ih =>
    intro name hname
    rcases List.mem_cons.1 (hc.set _ _ _ _ hname) with rfl | hname
    · exact ⟨k, rfl⟩
    · exact ih name hname
  | drop _ e ih => exact fun name hname => ih name (hc.drop _ _ hname)
  | lose _ fewer ih => exact fun name hname => ih name (fewer hname)

end Cache

/-! ### Drops -/

/-- **A drop takes away of a kind only**: what there was is what is gone and what is left, what is
gone has names of the kind, an answer counts it, and nothing is gone if the drop has failed. -/
structure TakesOnly (name : α → String) (e : Entity) (answer : Except CacheFault Nat)
    (gone left before : List α) : Prop where
  split : (gone ++ left).Perm before
  kind : ∀ x ∈ gone, e.HasName (name x)
  counted : ∀ n, answer = .ok n → gone.length = n
  failed : ∀ fault, answer = .error fault → gone = []

namespace TakesOnly

variable {name : α → String} {e : Entity} {entries : List α}

/-- Entries that are sorted out by a test that only names of the kind pass. -/
theorem filter {p : α → Bool} (hp : ∀ x ∈ entries, p x = true → e.HasName (name x)) :
    TakesOnly name e (.ok (entries.filter p).length) (entries.filter p)
      (entries.filter fun x => !p x) entries where
  split := List.filter_append_perm p entries
  kind x hx := hp x (List.mem_filter.1 hx).1 (List.mem_filter.1 hx).2
  counted _ hn := Except.ok.inj hn
  failed _ hf := nomatch hf

theorem error (fault : CacheFault) : TakesOnly name e (.error fault) [] entries entries where
  split := .refl _
  kind _ hx := nomatch hx
  counted _ hn := nomatch hn
  failed _ _ := rfl

end TakesOnly

/-! ### The cache in memory -/

namespace Memory

variable {m : Memory}

/-- The names of all entries, gone or not. -/
def names (m : Memory) : List String := m.entries.map MemoryEntry.key

theorem addsHanded : cache.AddsHanded names where
  get _ _ := List.Subset.refl _
  set key bytes ttl m name hname := by
    obtain ⟨entry, he, rfl⟩ := List.mem_map.1 hname
    rcases mem_insert he with he | rfl
    · exact List.mem_cons_of_mem _ (List.mem_map_of_mem he)
    · exact List.mem_cons_self
  drop label m :=
    List.map_subset _ fun _ he => mem_entries_of_live (List.mem_filter.1 he).1

/-- What is left by a drop is not gone otherwise. -/
theorem live_deletePrefix (m : Memory) (label : String) :
    (m.deletePrefix label).2.live = m.live.filter fun entry => !startsWith label entry :=
  List.filter_eq_self.2 fun _ he => (List.mem_filter.1 (List.mem_filter.1 he).1).2

theorem takesOnly (h : cache.InUse names m) (e : Entity) :
    TakesOnly MemoryEntry.key e (cache.deletePrefix e.label m).1
      (m.live.filter (startsWith e.label)) (cache.deletePrefix e.label m).2.live m.live := by
  show TakesOnly _ e _ _ (m.deletePrefix e.label).2.live m.live
  rw [live_deletePrefix]
  refine TakesOnly.filter fun entry he hstarts => ?_
  have hname := h.named addsHanded entry.key (List.mem_map_of_mem (mem_entries_of_live he))
  exact Entity.hasName_of_prefix hname (startsWith_iff.1 hstarts)

/-- Nothing is left of a kind. -/
theorem cleared (m : Memory) (e : Entity) :
    ∀ entry ∈ (cache.deletePrefix e.label m).2.live, ¬e.HasName entry.key := by
  intro entry he hname
  change entry ∈ (m.deletePrefix e.label).2.live at he
  rw [live_deletePrefix] at he
  have hkept := (List.mem_filter.1 he).2
  rw [startsWith_iff.2 hname.label_prefix] at hkept
  cases hkept

end Memory

/-! ### The cache behind a key server -/

namespace Remote

open KeyServer

variable {s : KeyServer}

theorem entries_get (key : String) (s : KeyServer) : (get key s).2.entries = s.entries := by
  have hsent := (s.alike_send (.get key)).entries
  unfold get
  generalize s.send (.get key) = sent at hsent
  obtain ⟨accepted, after⟩ := sent
  cases accepted with
  | true => exact hsent
  | false => exact hsent

theorem addsHanded : cache.AddsHanded keys where
  get key s := by
    show List.map _ (get key s).2.entries ⊆ _
    rw [entries_get]
    exact List.Subset.refl _
  set key bytes ttl s := by
    have hsent := (s.alike_send (.setex key (seconds ttl) bytes)).entries
    show List.map _ (set key bytes ttl s).2.entries ⊆ _
    unfold set
    generalize s.send (.setex key (seconds ttl) bytes) = sent at hsent
    obtain ⟨accepted, after⟩ := sent
    intro name hname
    obtain ⟨entry, he, rfl⟩ := List.mem_map.1 hname
    cases accepted with
    | true =>
      rcases mem_insertInto he with rfl | he
      · exact List.mem_cons_self
      · rw [hsent] at he
        exact List.mem_cons_of_mem _ (List.mem_map_of_mem he)
    | false =>
      rw [hsent] at he
      exact List.mem_cons_of_mem _ (List.mem_map_of_mem he)
  drop label s := by
    have hdropped := dropped label s
    show List.map _ (deletePrefix label s).2.entries ⊆ _
    generalize deletePrefix label s = outcome at hdropped
    cases hdropped with
    | unscanned _ halike => exact halike.entries ▸ List.Subset.refl _
    | undeleted _ _ halike => exact halike.entries ▸ List.Subset.refl _
    | done _ halike =>
      rw [halike.entries]
      exact List.map_subset _ List.filter_sublist.subset

/-- What a drop by kind finds has names of the kind. -/
theorem hasName_of_found (h : cache.InUse keys s) (hs : s.Dependable) {e : Entity}
    {entry : String × Bytes} (he : entry ∈ s.entries)
    (hfound : (found e.label s).contains entry.1 = true) : e.HasName entry.1 := by
  have hname := h.named addsHanded entry.1 (List.mem_map_of_mem he)
  exact Entity.hasName_of_prefix hname ((mem_found hs (Market.plain_label e)).1 hfound).1

/-- Whatever the server refuses, only what is about the kind is gone. -/
theorem takesOnly (h : cache.InUse keys s) (hs : s.Dependable) (e : Entity) :
    ∃ gone, TakesOnly Prod.fst e (cache.deletePrefix e.label s).1 gone
      (cache.deletePrefix e.label s).2.entries s.entries := by
  have hdropped := dropped e.label s
  show ∃ gone, TakesOnly _ e (deletePrefix e.label s).1 gone (deletePrefix e.label s).2.entries _
  generalize deletePrefix e.label s = outcome at hdropped
  cases hdropped with
  | unscanned _ halike =>
    refine ⟨[], ?_⟩
    rw [halike.entries]
    exact TakesOnly.error refused
  | undeleted _ _ halike =>
    refine ⟨[], ?_⟩
    rw [halike.entries]
    exact TakesOnly.error refused
  | done _ halike =>
    refine ⟨s.entries.filter fun entry => (found e.label s).contains entry.1, ?_⟩
    rw [halike.entries]
    apply TakesOnly.filter
    intro entry he hfound
    exact hasName_of_found h hs he hfound

/-- Nothing is left of a kind by a drop that is answered, if no page of its scan is refused. -/
theorem cleared (hs : s.Dependable) {e : Entity} {n : Nat}
    (hn : (cache.deletePrefix e.label s).1 = .ok n) (hscans : s.ScansThrough) :
    ∀ entry ∈ (cache.deletePrefix e.label s).2.entries, ¬e.HasName entry.1 := by
  intro entry he hname
  have haccounted := accounted hs (Market.plain_label e)
  exact haccounted.cleared n hn hscans entry he hname.label_prefix

end Remote

/-! ### Names, kinds and drops -/

/-- **The name of a question tells which question it is, and starts with the label of its own kind
and of no other.** So what a drop by kind takes away is what is kept about the kind, all of it and
nothing else: always from a cache in memory that is in use, and from one behind a key server
whenever it answers all commands. If the server refuses some, still nothing else is gone, and
nothing of the kind is left by a drop that is answered after a scan that went through. -/
theorem names_tell_questions :
    (∀ a b : CacheKey, a.text = b.text ↔ a = b) ∧
    (∀ (k : CacheKey) (e : Entity), e.label.toList <+: k.text.toList ↔ k.entity = e) ∧
    (∀ m : Memory, Memory.cache.InUse Memory.names m → ∀ e : Entity, ∃ n m' gone,
      Memory.cache.deletePrefix e.label m = (.ok n, m') ∧
      TakesOnly MemoryEntry.key e (.ok n) gone m'.live m.live ∧
      ∀ entry ∈ m'.live, ¬e.HasName entry.key) ∧
    ∀ s : KeyServer, Remote.cache.InUse KeyServer.keys s → s.Dependable → ∀ e : Entity,
      ∃ answer s' gone, Remote.cache.deletePrefix e.label s = (answer, s') ∧
      TakesOnly Prod.fst e answer gone s'.entries s.entries ∧
      (∀ n, answer = .ok n → s.ScansThrough → ∀ entry ∈ s'.entries, ¬e.HasName entry.1) ∧
      ((∀ kind n, s.refuses kind n = false) → s.ScansThrough ∧ ∃ n, answer = .ok n) := by
  refine ⟨?_, fun k e => k.label_prefix_iff e, ?_, ?_⟩
  · intro a b
    exact ⟨CacheKey.text_injective, fun h => congrArg _ h⟩
  · intro m hm e
    exact ⟨_, _, _, rfl, Memory.takesOnly hm e, Memory.cleared m e⟩
  · intro s hs hdependable e
    obtain ⟨gone, htakes⟩ := Remote.takesOnly hs hdependable e
    refine ⟨_, _, gone, rfl, htakes, ?_, ?_⟩
    · intro n hn hscans
      exact Remote.cleared hdependable hn hscans
    · intro haccepts
      obtain ⟨after, hdrop, -⟩ := Remote.dropped_of_accepts haccepts e.label
      exact ⟨fun _ _ => haccepts _ _, _, congrArg Prod.fst hdrop⟩

namespace Market.Sample

/-- A price is offered, and each kind of question is asked. -/
def allAsked (m : Market σ) (s : MarketState σ) : MarketState σ :=
  let questions : List CacheKey :=
    [.price ⟨1⟩, .prices ⟨1, 10⟩, .history pair, .harvests ⟨9⟩ ⟨1, 10⟩]
  questions.foldl (fun s k => (k.ask m s).2) (offer.perform m s).2

theorem inUse_allAsked {m : Market σ} {names : σ → List String} {s : MarketState σ}
    (h : names s.cache = []) : m.cache.InUse names (allAsked m s).cache := by
  have hopened : m.cache.InUse names s.cache := .opened h
  exact ((((hopened.perform offer).ask _).ask _).ask _).ask _

/-- The answers are kept in memory. -/
def inMemoryAsked : MarketState Memory := allAsked market blank

/-- The answers are kept by a key server with one name to a page. -/
def onServerAsked : MarketState KeyServer :=
  allAsked (remote 300000 600000) ⟨.empty, .empty 1⟩

theorem inUse_inMemoryAsked : Memory.cache.InUse Memory.names inMemoryAsked.cache :=
  inUse_allAsked (m := market) (s := blank) rfl

theorem inUse_onServerAsked : Remote.cache.InUse KeyServer.keys onServerAsked.cache :=
  inUse_allAsked (m := remote 300000 600000) (s := ⟨.empty, .empty 1⟩) rfl

theorem dependable_onServerAsked : onServerAsked.cache.Dependable :=
  ⟨(KeyServer.dependable_empty 1).reports, (KeyServer.dependable_empty 1).starred⟩

end Market.Sample

open Market.Sample in
/-- Three answers are about prices and one is about harvests. -/
theorem names_tell_questions_sample :
    (∃ m' gone, Memory.cache.deletePrefix "price" inMemoryAsked.cache = (.ok 3, m') ∧
      TakesOnly MemoryEntry.key .price (.ok 3) gone m'.live inMemoryAsked.cache.live ∧
      ∀ entry ∈ m'.live, ¬Entity.price.HasName entry.key) ∧
    ∃ s' gone, Remote.cache.deletePrefix "harvest" onServerAsked.cache = (.ok 1, s') ∧
      TakesOnly Prod.fst .harvest (.ok 1) gone s'.entries onServerAsked.cache.entries ∧
      ∀ entry ∈ s'.entries, ¬Entity.harvest.HasName entry.1 := by
  obtain ⟨-, -, hmemory, hserver⟩ := names_tell_questions
  constructor
  · obtain ⟨n, m', gone, hdrop, htakes, hleft⟩ := hmemory _ inUse_inMemoryAsked .price
    have hcount : (Memory.cache.deletePrefix "price" inMemoryAsked.cache).1 = .ok 3 := rfl
    obtain rfl : 3 = n := Except.ok.inj (hcount.symm.trans (congrArg Prod.fst hdrop))
    exact ⟨m', gone, hdrop, htakes, hleft⟩
  · obtain ⟨answer, s', gone, hdrop, htakes, hleft, hanswers⟩ :=
      hserver _ inUse_onServerAsked dependable_onServerAsked .harvest
    have hcount : (Remote.cache.deletePrefix "harvest" onServerAsked.cache).1 = .ok 1 := rfl
    obtain rfl : .ok 1 = answer := hcount.symm.trans (congrArg Prod.fst hdrop)
    obtain ⟨hscans, -⟩ := hanswers fun _ _ => rfl
    exact ⟨s', gone, hdrop, htakes, hleft 1 rfl hscans⟩

end CropLedger
