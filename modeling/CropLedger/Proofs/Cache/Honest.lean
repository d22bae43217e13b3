import CropLedger.Cache.Memory
import CropLedger.Proofs.Market.Questions

/-!
# Honest caches

A cache may fail, forget, or give back bytes that are of no use. It is honest if the bytes that it
gives back otherwise were handed to it under the same name, and not before it last confirmed to
have dropped the name.

* `CacheNote.Standing`: bytes that a cache may still give back;
* `Cache.noting`: a cache that keeps notes, and does nothing else that is different;
* `Cache.Honest`: what an honest cache does, by the notes;
* `Memory.honest`: the cache in memory is honest.
-/

namespace CropLedger

/-- What was handed to a cache, and what it has confirmed to have dropped. -/
inductive CacheNote
  | handed (key : String) (bytes : Bytes)
  | dropped (label : String)

/-- Bytes were handed over under a name that has not been dropped since. The latest note is the
first one. -/
def CacheNote.Standing : List CacheNote → String → Bytes → Prop
  | [], _, _ => False
  | .handed key' bytes' :: notes, key, bytes =>
    key' = key ∧ bytes' = bytes ∨ Standing notes key bytes
  | .dropped label :: notes, key, bytes =>
    ¬label.toList <+: key.toList ∧ Standing notes key bytes

namespace Cache

variable {σ : Type}

/-- A cache that keeps notes. -/
def noting (cache : Cache σ) : Cache (σ × List CacheNote) where
  get key s := ((cache.get key s.1).1, (cache.get key s.1).2, s.2)
  set key bytes ttl s :=
    ((cache.set key bytes ttl s.1).1, (cache.set key bytes ttl s.1).2, .handed key bytes :: s.2)
  deletePrefix label s :=
    ((cache.deletePrefix label s.1).1, (cache.deletePrefix label s.1).2,
      match (cache.deletePrefix label s.1).1 with
      | .ok _ => .dropped label :: s.2
      | .error _ => s.2)

/-- **An honest cache**: `may c notes` tells in which states it may be after what was noted. A
look-up fails, finds nothing, finds bytes that are no answer to the question of that name, or finds
bytes that are standing. -/
structure Honest (cache : Cache σ) (may : σ → List CacheNote → Prop) : Prop where
  found : ∀ {c notes}, may c notes → ∀ (k : CacheKey) {bytes},
    (cache.get k.text c).1 = .ok (some bytes) →
    (∀ a, Json.Reader.decode k.reader bytes ≠ .ok a) ∨ CacheNote.Standing notes k.text bytes
  get : ∀ {c notes}, may c notes → ∀ key, may (cache.get key c).2 notes
  set : ∀ {c notes}, may c notes → ∀ key bytes ttl,
    may (cache.set key bytes ttl c).2 (.handed key bytes :: notes)
  dropped : ∀ {c notes}, may c notes → ∀ label {n}, (cache.deletePrefix label c).1 = .ok n →
    may (cache.deletePrefix label c).2 (.dropped label :: notes)
  kept : ∀ {c notes}, may c notes → ∀ label {fault},
    (cache.deletePrefix label c).1 = .error fault → may (cache.deletePrefix label c).2 notes

end Cache

/-! ### The cache in memory -/

namespace Memory

/-- All entries are standing. -/
def Noted (m : Memory) (notes : List CacheNote) : Prop :=
  ∀ e ∈ m.entries, CacheNote.Standing notes e.key e.bytes

theorem noted_empty (capacity : Nat) : (empty capacity).Noted [] := fun _ he => nomatch he

theorem noted_advance {m : Memory} {notes : List CacheNote} (h : m.Noted notes) (millis : Nat) :
    (m.advance millis).Noted notes := h

theorem mem_entries_of_live {m : Memory} {e : MemoryEntry} (h : e ∈ m.live) : e ∈ m.entries :=
  (List.mem_filter.1 h).1

/-- What is found is an entry that is not gone. -/
theorem exists_of_find? {m : Memory} {key : String} {bytes : Bytes}
    (h : m.find? key = some bytes) :
    ∃ e ∈ m.entries, e.key = key ∧ e.bytes = bytes ∧ m.now < e.gone := by
  obtain ⟨e, he, hbytes⟩ := Option.map_eq_some_iff.1 h
  have hkey : e.key = key := by simpa using List.find?_some he
  obtain ⟨hmem, hholds⟩ := List.mem_filter.1 (List.mem_of_find?_eq_some he)
  exact ⟨e, hmem, hkey, hbytes, of_decide_eq_true hholds⟩

/-- Keeping an entry adds that one at most. -/
theorem mem_insert {m : Memory} {key : String} {bytes : Bytes} {ttl : Nat} {e : MemoryEntry}
    (h : e ∈ (m.insert key bytes ttl).entries) :
    e ∈ m.entries ∨ e = ⟨key, bytes, m.now + ttl⟩ := by
  have hothers : e ∈ (m.live.filter fun e => e.key ≠ key) → e ∈ m.entries :=
    fun he => mem_entries_of_live (List.mem_filter.1 he).1
  simp only [insert] at h
  split at h
  · rcases List.mem_append.1 h with he | he
    · exact .inl (hothers he)
    · exact .inr (List.mem_singleton.1 he)
  · exact .inl (hothers h)

theorem noted_insert {m : Memory} {notes : List CacheNote} (h : m.Noted notes) (key : String)
    (bytes : Bytes) (ttl : Nat) : (m.insert key bytes ttl).Noted (.handed key bytes :: notes) := by
  intro e he
  rcases mem_insert he with he | rfl
  · exact .inr (h e he)
  · exact .inl ⟨rfl, rfl⟩

theorem startsWith_iff {label : String} {e : MemoryEntry} :
    startsWith label e = true ↔ label.toList <+: e.key.toList := List.isPrefixOf_iff_prefix

theorem noted_deletePrefix {m : Memory} {notes : List CacheNote} (h : m.Noted notes)
    (label : String) : (m.deletePrefix label).2.Noted (.dropped label :: notes) := by
  intro e he
  obtain ⟨hlive, hlabel⟩ := List.mem_filter.1 he
  refine ⟨fun hp => ?_, h e (mem_entries_of_live hlive)⟩
  rw [startsWith_iff.2 hp] at hlabel
  cases hlabel

/-- **The cache in memory is honest.** -/
theorem honest : Memory.cache.Honest Noted where
  found := by
    intro c notes h k bytes hf
    obtain ⟨e, he, hkey, rfl, -⟩ := exists_of_find? (Except.ok.inj hf)
    exact .inr (hkey ▸ h e he)
  get h _ := h
  set h key bytes ttl := noted_insert h key bytes ttl
  dropped h label _ _ := noted_deletePrefix h label
  kept _ _ _ hf := nomatch hf

end Memory

end CropLedger
