import Mathlib.Data.List.Dedup
import Mathlib.Data.List.Perm.Subperm
import CropLedger.Cache.Memory
import CropLedger.Proofs.Cache.KeyServers
import CropLedger.Proofs.Json.Records

/-!
# Two backends of one behaviour

While the clock stands still, a cache is a list of entries under names. The cache in memory keeps
such a list as long as its capacity lasts, and a dependable key server that refuses nothing keeps
one too, whatever its pages are. So the two give the same replies.

* `Shelf.cache`: the list of entries as a cache;
* `Cache.Follows.serveAll`: one cache gives the replies of another, call by call;
* `Memory.follows`, `Remote.follows`: both backends follow the list;
* `backends_agree`: the two backends give the same replies, and drop what a label names, no more.
-/

namespace CropLedger

/-! ### Calls and replies -/

/-- A call of a cache. -/
inductive CacheRequest
  | get (key : String)
  | set (key : String) (bytes : Bytes) (ttl : Nat)
  | drop (label : String)
  deriving DecidableEq

/-- What a cache gives back to a call. -/
inductive CacheReply
  | found (entry : Except CacheFault (Option Bytes))
  | kept (done : Except CacheFault Unit)
  | dropped (count : Except CacheFault Nat)

/-- The name that a call sets. -/
def CacheRequest.sets? : CacheRequest → Option String
  | .set key _ _ => some key
  | _ => none

namespace Cache

variable {σ τ : Type}

/-- What a call gives back and leaves behind. -/
def serve (cache : Cache σ) : CacheRequest → σ → CacheReply × σ
  | .get key, s => (cache.get key s).map .found id
  | .set key bytes ttl, s => (cache.set key bytes ttl s).map .kept id
  | .drop label, s => (cache.deletePrefix label s).map .dropped id

/-- What calls give back one after another, and what they leave behind. -/
def serveAll (cache : Cache σ) : List CacheRequest → σ → List CacheReply × σ
  | [], s => ([], s)
  | r :: rs, s =>
    let (reply, s) := cache.serve r s
    (cache.serveAll rs s).map (reply :: ·) id

/-- **A drop is exact**: the entries whose names start with the label are gone, all others are as
they were, and the count is the number of names that were dropped. -/
structure DropsExactly (cache : Cache σ) (label : String) (s : σ) : Prop where
  gone : ∀ key, label.toList <+: key.toList →
    (cache.get key (cache.deletePrefix label s).2).1 = .ok none
  untouched : ∀ key, ¬label.toList <+: key.toList →
    (cache.get key (cache.deletePrefix label s).2).1 = (cache.get key s).1
  counted : ∀ names : List String, names.Nodup →
    (∀ key, key ∈ names ↔
      label.toList <+: key.toList ∧ ∃ bytes, (cache.get key s).1 = .ok (some bytes)) →
    (cache.deletePrefix label s).1 = .ok names.length

/-- **One cache follows another** on some calls: a relation of their states is kept by each call,
and makes the replies the same. -/
def Follows (cache : Cache σ) (other : Cache τ) (related : σ → τ → Prop)
    (allowed : CacheRequest → Prop) : Prop :=
  ∀ r, allowed r → ∀ s t, related s t →
    (cache.serve r s).1 = (other.serve r t).1 ∧ related (cache.serve r s).2 (other.serve r t).2

namespace Follows

variable {cache : Cache σ} {other : Cache τ} {related : σ → τ → Prop}
  {allowed : CacheRequest → Prop}

/-- A cache that follows another one call by call gives the same replies to any number of calls. -/
theorem serveAll (h : cache.Follows other related allowed) {rs : List CacheRequest}
    (hrs : ∀ r ∈ rs, allowed r) {s : σ} {t : τ} (hst : related s t) :
    (cache.serveAll rs s).1 = (other.serveAll rs t).1 ∧
      related (cache.serveAll rs s).2 (other.serveAll rs t).2 := by
  induction rs generalizing s t with
  | nil => exact ⟨rfl, hst⟩
  | cons r rs ih =>
    obtain ⟨hreply, hnext⟩ := h r (hrs r List.mem_cons_self) s t hst
    obtain ⟨hreplies, hlast⟩ := ih (fun r hr => hrs r (List.mem_cons_of_mem _ hr)) hnext
    exact ⟨congrArg₂ List.cons hreply hreplies, hlast⟩

theorem get_eq (h : cache.Follows other related allowed) (hget : ∀ key, allowed (.get key))
    {s : σ} {t : τ} (hst : related s t) (key : String) :
    (cache.get key s).1 = (other.get key t).1 :=
  CacheReply.found.inj (h _ (hget key) s t hst).1

/-- A cache that follows another one is as exact in its drops. -/
theorem dropsExactly (h : cache.Follows other related allowed) (hget : ∀ key, allowed (.get key))
    {label : String} (hdrop : allowed (.drop label)) {s : σ} {t : τ} (hst : related s t)
    (ht : other.DropsExactly label t) : cache.DropsExactly label s := by
  obtain ⟨hreply, hafter⟩ := h _ hdrop s t hst
  have hsame := h.get_eq hget hst
  have hsame' := h.get_eq hget hafter
  refine ⟨fun key hk => (hsame' key).trans (ht.gone key hk),
    fun key hk => ((hsame' key).trans (ht.untouched key hk)).trans (hsame key).symm, ?_⟩
  intro names hn hnames
  refine (CacheReply.dropped.inj hreply).trans (ht.counted names hn fun key => ?_)
  rw [hnames key, hsame key]

end Follows

end Cache

/-! ### A list of entries -/

/-- Entries under names. -/
abbrev Shelf := List (String × Bytes)

namespace Shelf

open Json.Record (lookup_of_mem mem_of_lookup_eq_some)

variable {l l' : Shelf} {key : String} {bytes : Bytes}

/-- Whether an entry's name starts with a label. -/
def startsWith (label : String) (e : String × Bytes) : Bool :=
  label.toList.isPrefixOf e.1.toList

/-- How a list of entries is called as a cache. -/
def cache : Cache Shelf where
  get key l := (.ok (l.lookup key), l)
  set key bytes _ l := (.ok (), (key, bytes) :: l.filter fun e => e.1 ≠ key)
  deletePrefix label l :=
    (.ok (l.filter (startsWith label)).length, l.filter fun e => !startsWith label e)

/-- No name stands for two entries. -/
def Unique (l : Shelf) : Prop := (l.map Prod.fst).Nodup

theorem Unique.filter (h : l.Unique) (p : String × Bytes → Bool) : Unique (l.filter p) :=
  h.sublist (List.filter_sublist.map _)

theorem Unique.perm (h : l.Unique) (hp : l.Perm l') : l'.Unique := (hp.map _).nodup h

theorem Unique.cons_filter (h : l.Unique) (key : String) (bytes : Bytes) :
    Unique ((key, bytes) :: l.filter fun e => e.1 ≠ key) := by
  refine List.nodup_cons.2 ⟨fun hk => ?_, h.filter _⟩
  obtain ⟨e, he, rfl⟩ := List.mem_map.1 hk
  simpa using (List.mem_filter.1 he).2

theorem Unique.lookup_eq_some_iff (h : l.Unique) : l.lookup key = some bytes ↔ (key, bytes) ∈ l :=
  ⟨mem_of_lookup_eq_some, fun hm => lookup_of_mem h hm⟩

/-- The order of the entries does not matter to a lookup. -/
theorem Unique.lookup_perm (h : l.Unique) (hp : l.Perm l') (key : String) :
    l.lookup key = l'.lookup key := by
  ext bytes
  rw [h.lookup_eq_some_iff, (h.perm hp).lookup_eq_some_iff, hp.mem_iff]

theorem startsWith_iff {label : String} {e : String × Bytes} :
    startsWith label e = true ↔ label.toList <+: e.1.toList := List.isPrefixOf_iff_prefix

/-- **A list of entries is exact in its drops.** -/
theorem Unique.dropsExactly (h : l.Unique) (label : String) : cache.DropsExactly label l where
  gone key hk := by
    show Except.ok (List.lookup key (l.filter fun e => !startsWith label e)) = _
    have hnone : ¬∃ bytes, (key, bytes) ∈ l.filter fun e => !startsWith label e := by
      rintro ⟨bytes, hm⟩
      have hkept := (List.mem_filter.1 hm).2
      rw [startsWith_iff.2 hk] at hkept
      cases hkept
    cases hl : List.lookup key (l.filter fun e => !startsWith label e) with
    | none => rfl
    | some bytes => exact absurd ⟨bytes, mem_of_lookup_eq_some hl⟩ hnone
  untouched key hk := by
    show Except.ok (List.lookup key (l.filter fun e => !startsWith label e)) =
      .ok (l.lookup key)
    congr 1
    ext bytes
    rw [(h.filter _).lookup_eq_some_iff, h.lookup_eq_some_iff, List.mem_filter]
    have hstays : (!startsWith label (key, bytes)) = true := by
      rw [Bool.not_eq_true', ← Bool.not_eq_true, startsWith_iff]
      exact hk
    exact and_iff_left hstays
  counted names hn hnames := by
    show Except.ok (l.filter (startsWith label)).length = _
    -- the names that are dropped and the names that are asked for are the same, each once
    have hsame : ((l.filter (startsWith label)).map Prod.fst).Perm names := by
      refine (List.perm_ext_iff_of_nodup (h.filter _) hn).2 fun key => ?_
      rw [hnames key]
      constructor
      · intro hk
        obtain ⟨e, he, rfl⟩ := List.mem_map.1 hk
        obtain ⟨hm, hs⟩ := List.mem_filter.1 he
        exact ⟨startsWith_iff.1 hs, e.2, congrArg Except.ok (lookup_of_mem h hm)⟩
      · rintro ⟨hs, bytes, hb⟩
        have hm := mem_of_lookup_eq_some (Except.ok.inj hb)
        exact List.mem_map.2 ⟨(key, bytes), List.mem_filter.2 ⟨hm, startsWith_iff.2 hs⟩, rfl⟩
    rw [← hsame.length_eq, List.length_map]

end Shelf

/-! ### The cache in memory -/

namespace Memory

/-- An entry without its time. -/
def timeless (e : MemoryEntry) : String × Bytes := (e.key, e.bytes)

/-- **A cache in memory has the entries of a list**: none of its own is gone, and there is room for
all names that may be set. -/
structure Mirrors (names : List String) (m : Memory) (l : Shelf) : Prop where
  current : ∀ e ∈ m.entries, m.holds e = true
  same : (m.entries.map timeless).Perm l
  unique : l.Unique
  named : ∀ e ∈ l, e.1 ∈ names
  room : names.dedup.length ≤ m.capacity

variable {names : List String} {m : Memory} {l : Shelf}

theorem Mirrors.live_eq (h : m.Mirrors names l) : m.live = m.entries :=
  List.filter_eq_self.2 h.current

/-- What is taken out of a cache in memory by names is taken out of the list. -/
theorem Mirrors.filter (h : m.Mirrors names l) (p : String × Bytes → Bool) :
    ((m.live.filter fun e => p (timeless e)).map timeless).Perm (l.filter p) := by
  rw [h.live_eq, ← Function.comp_def p timeless, ← List.filter_map]
  exact h.same.filter p

theorem find?_eq_lookup (entries : List MemoryEntry) (key : String) :
    (entries.find? fun e => e.key = key).map MemoryEntry.bytes =
      (entries.map timeless).lookup key := by
  induction entries with
  | nil => rfl
  | cons e entries ih =>
    rw [List.map_cons, timeless, List.lookup_cons]
    by_cases he : e.key = key
    · rw [List.find?_cons_of_pos (by simpa using he), he, beq_self_eq_true]
      rfl
    · rw [List.find?_cons_of_neg (by simpa using he), ih, beq_false_of_ne (Ne.symm he)]

theorem Mirrors.find?_eq (h : m.Mirrors names l) (key : String) : m.find? key = l.lookup key := by
  rw [find?, h.live_eq, find?_eq_lookup]
  exact (h.unique.perm h.same.symm).lookup_perm h.same key

/-- There is room for one more entry under a name that may be set. -/
theorem Mirrors.others_lt (h : m.Mirrors names l) {key : String} (hk : key ∈ names) :
    (m.live.filter fun e => e.key ≠ key).length < m.capacity := by
  have hsame := h.filter fun e => e.1 ≠ key
  have hunique := h.unique.cons_filter key []
  have hnamed : ((key, []) :: l.filter fun e => e.1 ≠ key).map Prod.fst ⊆ names.dedup := by
    intro name hname
    rw [List.mem_dedup]
    rcases List.mem_cons.1 hname with rfl | hname
    · exact hk
    · obtain ⟨e, he, rfl⟩ := List.mem_map.1 hname
      exact h.named e (List.mem_filter.1 he).1
  have hlength := (List.subperm_of_subset hunique hnamed).length_le
  rw [List.map_cons, List.length_cons, List.length_map, ← hsame.length_eq, List.length_map]
    at hlength
  exact Nat.lt_of_lt_of_le hlength h.room

theorem Mirrors.insert (h : m.Mirrors names l) {key : String} (hk : key ∈ names) (bytes : Bytes)
    {ttl : Nat} (httl : 0 < ttl) :
    (m.insert key bytes ttl).Mirrors names ((key, bytes) :: l.filter fun e => e.1 ≠ key) where
  current e he := by
    rw [Memory.insert, if_pos (h.others_lt hk)] at he
    rcases List.mem_append.1 he with he | he
    · exact (List.mem_filter.1 (List.mem_filter.1 he).1).2
    · rw [List.mem_singleton.1 he]
      exact decide_eq_true (Nat.lt_add_of_pos_right httl)
  same := by
    simp only [Memory.insert, if_pos (h.others_lt hk), List.map_append, List.map_cons, List.map_nil]
    exact List.perm_append_comm.trans ((h.filter fun e => e.1 ≠ key).cons _)
  unique := h.unique.cons_filter key bytes
  named e he := by
    rcases List.mem_cons.1 he with rfl | he
    · exact hk
    · exact h.named e (List.mem_filter.1 he).1
  room := h.room

theorem Mirrors.deletePrefix (h : m.Mirrors names l) (label : String) :
    (m.deletePrefix label).1 = (l.filter (Shelf.startsWith label)).length ∧
      (m.deletePrefix label).2.Mirrors names (l.filter fun e => !Shelf.startsWith label e) := by
  refine ⟨?_, ?_, ?_, h.unique.filter _, ?_, h.room⟩
  · have hsame := h.filter (Shelf.startsWith label)
    rw [← hsame.length_eq, List.length_map]
    rfl
  · intro e he
    exact (List.mem_filter.1 (List.mem_filter.1 he).1).2
  · exact h.filter fun e => !Shelf.startsWith label e
  · intro e he
    exact h.named e (List.mem_filter.1 he).1

/-- The calls that a cache in memory with room for some names can keep up with. -/
def Allows (names : List String) : CacheRequest → Prop
  | .set key _ ttl => key ∈ names ∧ 0 < ttl
  | _ => True

/-- **The cache in memory follows the list of entries** as long as there is room. -/
theorem follows (names : List String) :
    cache.Follows Shelf.cache (Mirrors names) (Allows names) := by
  intro r hr m l h
  cases r with
  | get key => exact ⟨congrArg _ (congrArg Except.ok (h.find?_eq key)), h⟩
  | set key bytes ttl => exact ⟨rfl, h.insert hr.1 bytes hr.2⟩
  | drop label =>
    obtain ⟨hcount, hafter⟩ := h.deletePrefix label
    exact ⟨congrArg _ (congrArg Except.ok hcount), hafter⟩

end Memory

/-! ### The cache behind a key server -/

namespace Remote

open KeyServer

/-- **A key server has the entries of a list**: it is dependable, refuses nothing, and keeps its
entries in order. -/
structure Mirrors (s : KeyServer) (l : Shelf) : Prop where
  dependable : s.Dependable
  accepts : ∀ kind n, s.refuses kind n = false
  sorted : Sorted s.entries
  same : s.entries.Perm l

variable {s s' : KeyServer} {l : Shelf}

theorem Mirrors.unique (h : Mirrors s l) : l.Unique := Shelf.Unique.perm h.sorted.nodup h.same

/-- A server that goes on in the same way may have the entries of another list. -/
theorem Mirrors.of_alike (h : Mirrors s l) (ha : s.Alike s') : Mirrors s' l where
  dependable := ⟨ha.paging ▸ h.dependable.reports, ha.matching ▸ h.dependable.starred⟩
  accepts := ha.refuses ▸ h.accepts
  sorted := ha.entries ▸ h.sorted
  same := ha.entries ▸ h.same

theorem Mirrors.get (h : Mirrors s l) (key : String) :
    (Remote.get key s).1 = .ok (l.lookup key) ∧ Mirrors (Remote.get key s).2 l := by
  have hsent : s.send (.get key) = (true, (s.send (.get key)).2) :=
    Prod.ext (congrArg Bool.not (h.accepts _ _)) rfl
  rw [Remote.get, hsent]
  refine ⟨congrArg Except.ok ?_, h.of_alike (s.alike_send _)⟩
  exact (h.unique.perm h.same.symm).lookup_perm h.same key

theorem Mirrors.insert (h : Mirrors s l) (key : String) (bytes : Bytes) :
    Mirrors (s.insert key bytes) ((key, bytes) :: l.filter fun e => e.1 ≠ key) where
  dependable := ⟨h.dependable.reports, h.dependable.starred⟩
  accepts := h.accepts
  sorted := sorted_insertInto h.sorted key bytes
  same := (insertInto_perm h.sorted key bytes).trans ((h.same.filter _).cons _)

theorem Mirrors.set (h : Mirrors s l) (key : String) (bytes : Bytes) (ttl : Nat) :
    (Remote.set key bytes ttl s).1 = .ok () ∧
      Mirrors (Remote.set key bytes ttl s).2 ((key, bytes) :: l.filter fun e => e.1 ≠ key) := by
  have hsent : s.send (.setex key (seconds ttl) bytes) =
      (true, (s.send (.setex key (seconds ttl) bytes)).2) :=
    Prod.ext (congrArg Bool.not (h.accepts _ _)) rfl
  rw [Remote.set, hsent]
  exact ⟨rfl, (h.of_alike (s.alike_send _)).insert key bytes⟩

theorem Mirrors.contains_found (h : Mirrors s l) {label : String} (hl : Plain label)
    {e : String × Bytes} (he : e ∈ s.entries) :
    (found label s).contains e.1 = Shelf.startsWith label e := by
  have hscans : s.ScansThrough := fun _ _ => h.accepts _ _
  have hseen : e.1 ∈ s.seen := hscans.mem_seen h.dependable (List.mem_map_of_mem he)
  rw [Remote.contains_found h.dependable hl, List.contains_iff_mem.2 hseen, Bool.and_true]
  rfl

theorem Mirrors.erase (h : Mirrors s l) {label : String} (hl : Plain label) :
    Mirrors (s.erase (found label s)) (l.filter fun e => !Shelf.startsWith label e) where
  dependable := ⟨h.dependable.reports, h.dependable.starred⟩
  accepts := h.accepts
  sorted := h.sorted.filter _
  same := by
    have hfound : (s.erase (found label s)).entries =
        s.entries.filter fun e => !Shelf.startsWith label e :=
      List.filter_congr fun e he => congrArg Bool.not (h.contains_found hl he)
    rw [hfound]
    exact h.same.filter _

theorem Mirrors.deletePrefix (h : Mirrors s l) {label : String} (hl : Plain label) :
    (deletePrefix label s).1 = .ok (l.filter (Shelf.startsWith label)).length ∧
      Mirrors (deletePrefix label s).2 (l.filter fun e => !Shelf.startsWith label e) := by
  have hcount : s.count (found label s) = (l.filter (Shelf.startsWith label)).length := by
    rw [← (h.same.filter _).length_eq, count]
    exact congrArg _ (List.filter_congr fun e he => h.contains_found hl he)
  obtain ⟨s', hdrop, halike⟩ := dropped_of_accepts h.accepts label
  rw [hdrop]
  exact ⟨congrArg Except.ok hcount, (h.erase hl).of_alike halike⟩

/-- The calls that mean the same to a key server: labels have no special signs. -/
def Allows : CacheRequest → Prop
  | .drop label => Plain label
  | _ => True

/-- **A key server that refuses nothing follows the list of entries.** -/
theorem follows : cache.Follows Shelf.cache Mirrors Allows := by
  intro r hr s l h
  cases r with
  | get key =>
    obtain ⟨hfound, hafter⟩ := h.get key
    exact ⟨congrArg _ hfound, hafter⟩
  | set key bytes ttl =>
    obtain ⟨hdone, hafter⟩ := h.set key bytes ttl
    exact ⟨congrArg _ hdone, hafter⟩
  | drop label =>
    obtain ⟨hcount, hafter⟩ := h.deletePrefix hr
    exact ⟨congrArg _ hcount, hafter⟩

end Remote

/-! ### Both -/

/-- The names that are set by some calls. -/
def namesSet (rs : List CacheRequest) : List String := rs.filterMap CacheRequest.sets?

/-- A call that both backends understand alike: an entry is kept for some time, and a label has no
special signs. -/
def CacheRequest.Usual : CacheRequest → Prop
  | .get _ => True
  | .set _ _ ttl => 0 < ttl
  | .drop label => KeyServer.Plain label

instance : DecidablePred CacheRequest.Usual := fun r => by
  cases r <;> unfold CacheRequest.Usual <;> infer_instance

/-- **Calls that both backends keep up with**: there are no more names than the cache in memory has
room for. -/
structure Manageable (capacity : Nat) (rs : List CacheRequest) : Prop where
  usual : ∀ r ∈ rs, r.Usual
  fits : (namesSet rs).dedup.length ≤ capacity

theorem Manageable.memory {capacity : Nat} {rs : List CacheRequest} (h : Manageable capacity rs) :
    ∀ r ∈ rs, Memory.Allows (namesSet rs) r := by
  intro r hr
  have husual := h.usual r hr
  cases r with
  | set key bytes ttl => exact ⟨List.mem_filterMap.2 ⟨_, hr, rfl⟩, husual⟩
  | _ => trivial

theorem CacheRequest.Usual.remote {r : CacheRequest} (h : r.Usual) : Remote.Allows r := by
  cases r with
  | drop label => exact h
  | _ => trivial

/-- **The two backends give the same replies**: to any calls that both can keep up with, made while
the clock stands still to caches that are empty at first, the cache in memory gives the replies of
any dependable key server that refuses nothing, whatever its pages are. And whatever has been called
so far, a drop by a plain label is exact in both. -/
theorem backends_agree (now : Nat) {capacity : Nat} {rs : List CacheRequest}
    (hrs : Manageable capacity rs) {s : KeyServer} (hs : s.Dependable)
    (haccepts : ∀ kind n, s.refuses kind n = false)
    (hempty : s.entries = []) :
    (Memory.cache.serveAll rs ⟨[], now, capacity⟩).1 = (Remote.cache.serveAll rs s).1 ∧
    ∀ label, KeyServer.Plain label →
      Memory.cache.DropsExactly label (Memory.cache.serveAll rs ⟨[], now, capacity⟩).2 ∧
      Remote.cache.DropsExactly label (Remote.cache.serveAll rs s).2 := by
  have hunique : Shelf.Unique [] := List.nodup_nil
  have hmemory : Memory.Mirrors (namesSet rs) ⟨[], now, capacity⟩ [] :=
    ⟨List.forall_mem_nil _, .refl _, hunique, List.forall_mem_nil _, hrs.fits⟩
  have hremote : Remote.Mirrors s [] := by
    refine ⟨hs, haccepts, ?_, ?_⟩
    · rw [hempty]
      exact List.Pairwise.nil
    · rw [hempty]
  obtain ⟨hreplies, hmemory⟩ := (Memory.follows _).serveAll hrs.memory hmemory
  obtain ⟨hreplies', hremote⟩ :=
    Remote.follows.serveAll (fun r hr => (hrs.usual r hr).remote) hremote
  refine ⟨hreplies.trans hreplies'.symm, fun label hlabel => ⟨?_, ?_⟩⟩
  · exact (Memory.follows _).dropsExactly (fun _ => trivial) trivial hmemory
      (hmemory.unique.dropsExactly label)
  · exact Remote.follows.dropsExactly (fun _ => trivial) hlabel hremote
      (hremote.unique.dropsExactly label)

namespace KeyServer

/-- A server that reports each name twice, on pages with empty ones between them. -/
def stammering : KeyServer :=
  { empty 1 with paging := fun _ keys => keys.flatMap fun key => [[], [key], [key]] }

theorem dependable_stammering : stammering.Dependable where
  reports _ keys key hk :=
    ⟨[key], List.mem_flatMap.2 ⟨key, hk, by simp⟩, List.mem_singleton_self key⟩
  starred := (dependable_empty 1).starred

end KeyServer

theorem backends_agree_sample :
    let calls : List CacheRequest := [.set "price_1" [1] 1000, .set "harvest_1" [2] 1000,
      .set "price_2" [3] 1000, .drop "price", .get "price_1", .get "harvest_1"]
    Manageable 3 calls ∧ KeyServer.stammering.Dependable ∧
      (Memory.cache.serveAll calls ⟨[], 0, 3⟩).1 =
        (Remote.cache.serveAll calls KeyServer.stammering).1 ∧
      (Remote.cache.serveAll calls KeyServer.stammering).1 =
        [.kept (.ok ()), .kept (.ok ()), .kept (.ok ()), .dropped (.ok 2), .found (.ok none),
          .found (.ok (some [2]))] := by
  intro calls
  have hcalls : Manageable 3 calls := ⟨by decide, by decide⟩
  have hagree := backends_agree 0 hcalls KeyServer.dependable_stammering (fun _ _ => rfl) rfl
  exact ⟨hcalls, KeyServer.dependable_stammering, hagree.1, by rfl⟩

end CropLedger
