import CropLedger.Cache.Remote

/-!
# Scans of a key server

A drop by label scans the names of a server page by page and deletes what it has found. What it
finds is decided by the pages it gets to see: those before the first one that is refused.

* `KeyServer.Dependable`: what is relied on of a server;
* `KeyServer.insertInto_perm`: an entry is kept in place of the one of the same name;
* `Remote.scan_eq`: what a scan finds;
* `Remote.dropped`: what comes of a drop.
-/

namespace CropLedger

namespace KeyServer

/-! ### What is relied on -/

/-- The signs that are special in a pattern. -/
def special : List Char := ['*', '?', '[', '\\']

/-- A label without special signs. -/
def Plain (label : String) : Prop := ∀ c ∈ label.toList, c ∉ special

instance (label : String) : Decidable (Plain label) :=
  decidable_of_iff (label.toList.all fun c => !special.contains c) (by simp [Plain])

/-- **What is relied on of a server**: a scan reports each name that is there, on some page and
maybe on more than one, and a plain label followed by a star is matched by the names that start
with the label. -/
structure Dependable (s : KeyServer) : Prop where
  reports : ∀ n keys, ∀ key ∈ keys, ∃ page ∈ s.paging n keys, key ∈ page
  starred : ∀ label, Plain label → ∀ key,
    s.matching (Remote.pattern label) key = label.toList.isPrefixOf key.toList

theorem flatten_chunksFrom (size fuel : Nat) (keys : List String) :
    (chunksFrom size fuel keys).flatten = keys := by
  induction fuel generalizing keys with
  | zero => simp [chunksFrom]
  | succ fuel ih =>
    unfold chunksFrom
    split
    · simp
    · rw [List.flatten_cons, ih, List.take_append_drop]

theorem dependable_empty (pageSize : Nat) : (empty pageSize).Dependable where
  reports n keys key hk := by
    rw [← flatten_chunksFrom pageSize keys.length keys] at hk
    exact List.mem_flatten.1 hk
  starred label _ key := by
    have hlabel : (Remote.pattern label).toList.dropLast = label.toList := by
      simp [Remote.pattern]
    show (Remote.pattern label).toList.dropLast.isPrefixOf key.toList = _
    rw [hlabel]

/-- A server that keeps the same entries, and goes on in the same way. -/
structure Alike (s s' : KeyServer) : Prop where
  entries : s'.entries = s.entries
  paging : s'.paging = s.paging
  matching : s'.matching = s.matching
  refuses : s'.refuses = s.refuses

theorem Alike.trans {s s' s'' : KeyServer} (h : s.Alike s') (h' : s'.Alike s'') : s.Alike s'' :=
  ⟨h'.entries.trans h.entries, h'.paging.trans h.paging, h'.matching.trans h.matching,
    h'.refuses.trans h.refuses⟩

/-- Taking in a command changes no entries. -/
theorem alike_send (s : KeyServer) (c : Command) : s.Alike (s.send c).2 := ⟨rfl, rfl, rfl, rfl⟩

theorem send_scan (s : KeyServer) (cursor : Nat) (pattern : String) :
    s.send (.scan cursor pattern) =
      (!s.refuses .scan (s.counts .scan), (s.send (.scan cursor pattern)).2) := rfl

theorem send_del (s : KeyServer) (keys : List String) :
    s.send (.del keys) = (!s.refuses .del (s.counts .del), (s.send (.del keys)).2) := rfl

theorem counts_send (s : KeyServer) (c : Command) :
    (s.send c).2.counts c.kind = s.counts c.kind + 1 := if_pos rfl

/-! ### Entries -/

/-- Entries in the order of their names, no name twice. -/
def Sorted (entries : List (String × Bytes)) : Prop := entries.Pairwise fun a b => a.1 < b.1

variable {entries : List (String × Bytes)}

theorem ne_of_lt {a b : String} (h : a < b) : a ≠ b := fun he => String.lt_irrefl b (he ▸ h)

theorem Sorted.nodup (h : Sorted entries) : (entries.map Prod.fst).Nodup :=
  List.pairwise_map.2 (h.imp ne_of_lt)

/-- An entry is kept in place of the one of the same name, if there is one. -/
theorem insertInto_perm (h : Sorted entries) (key : String) (bytes : Bytes) :
    (insertInto key bytes entries).Perm
      ((key, bytes) :: entries.filter fun e => e.1 ≠ key) := by
  induction entries with
  | nil => exact .refl _
  | cons e rest ih =>
    obtain ⟨k, b⟩ := e
    obtain ⟨hk, hrest⟩ := List.pairwise_cons.1 h
    have hkept (hle : ∀ e ∈ rest, key < e.1) : rest.filter (fun e => e.1 ≠ key) = rest :=
      List.filter_eq_self.2 fun e he => decide_eq_true (ne_of_lt (hle e he)).symm
    unfold insertInto
    split
    · rename_i hlt
      have hne := (ne_of_lt hlt).symm
      rw [List.filter_cons_of_pos (by simpa using hne),
        hkept fun e he => String.lt_trans hlt (hk e he)]
    · split
      · rename_i heq
        rw [List.filter_cons_of_neg (by simp [heq]), hkept fun e he => heq ▸ hk e he]
      · rename_i hne
        rw [List.filter_cons_of_pos (by simpa using Ne.symm hne)]
        exact ((ih hrest).cons _).trans (.swap ..)

/-- Keeping an entry adds that one at most. -/
theorem mem_insertInto {key : String} {bytes : Bytes} {e : String × Bytes}
    (h : e ∈ insertInto key bytes entries) : e = (key, bytes) ∨ e ∈ entries := by
  induction entries with
  | nil => exact .inl (List.mem_singleton.1 h)
  | cons other rest ih =>
    unfold insertInto at h
    split at h
    · exact List.mem_cons.1 h
    · split at h
      · exact (List.mem_cons.1 h).imp_right (List.mem_cons_of_mem _)
      · rcases List.mem_cons.1 h with rfl | h
        · exact .inr List.mem_cons_self
        · exact (ih h).imp_right (List.mem_cons_of_mem _)

theorem sorted_insertInto (h : Sorted entries) (key : String) (bytes : Bytes) :
    Sorted (insertInto key bytes entries) := by
  induction entries with
  | nil => exact List.pairwise_singleton ..
  | cons e rest ih =>
    obtain ⟨k, b⟩ := e
    obtain ⟨hk, hrest⟩ := List.pairwise_cons.1 h
    unfold insertInto
    split
    · rename_i hlt
      refine List.pairwise_cons.2 ⟨fun e he => ?_, h⟩
      rcases List.mem_cons.1 he with rfl | he
      · exact hlt
      · exact String.lt_trans hlt (hk e he)
    · rename_i hnot
      split
      · rename_i heq
        exact List.pairwise_cons.2 ⟨fun e he => heq ▸ hk e he, hrest⟩
      · rename_i hne
        refine List.pairwise_cons.2 ⟨fun e he => ?_, ih hrest⟩
        rcases List.mem_cons.1 ((insertInto_perm hrest key bytes).subset he) with rfl | he
        · exact String.not_le.1 fun hle => hne (String.le_antisymm hle (String.not_lt.1 hnot))
        · exact hk e (List.mem_filter.1 he).1

/-! ### Pages that are seen -/

/-- The pages before the first one that is refused, if the first one is asked for by a numbered
command. -/
def reached (refuses : Nat → Bool) : Nat → List (List String) → List (List String)
  | _, [] => []
  | n, page :: pages => if refuses n then [] else page :: reached refuses (n + 1) pages

/-- The names that a scan gets to see. -/
def seen (s : KeyServer) : List String :=
  (reached (s.refuses .scan) (s.counts .scan) (s.paging (s.counts .scan) s.keys)).flatten

/-- None of the pages of the next scan is refused. -/
def ScansThrough (s : KeyServer) : Prop :=
  ∀ i < (s.paging (s.counts .scan) s.keys).length, s.refuses .scan (s.counts .scan + i) = false

theorem reached_eq_self {refuses : Nat → Bool} {n : Nat} {pages : List (List String)}
    (h : ∀ i < pages.length, refuses (n + i) = false) : reached refuses n pages = pages := by
  induction pages generalizing n with
  | nil => rfl
  | cons page pages ih =>
    have hfirst := h 0 (Nat.zero_lt_succ _)
    rw [Nat.add_zero] at hfirst
    rw [reached, hfirst, if_neg Bool.false_ne_true, ih]
    intro i hi
    rw [Nat.add_assoc, Nat.add_comm 1 i]
    exact h (i + 1) (Nat.succ_lt_succ hi)

/-- A scan none of whose pages is refused gets to see all names. -/
theorem ScansThrough.mem_seen {s : KeyServer} (h : s.ScansThrough) (hs : s.Dependable)
    {key : String} (hk : key ∈ s.keys) : key ∈ s.seen := by
  rw [seen, reached_eq_self h]
  exact List.mem_flatten.2 (hs.reports _ _ _ hk)

end KeyServer

namespace Remote

open KeyServer

variable {s : KeyServer}

/-! ### Scans -/

/-- The names that are found on later pages. -/
theorem scanOn_eq (pattern : String) (cursor : Nat) (pages : List (List String)) (s : KeyServer) :
    (scanOn pattern cursor pages s).1 =
      (reached (s.refuses .scan) (s.counts .scan) pages).flatten.filter (s.matching pattern) ∧
    s.Alike (scanOn pattern cursor pages s).2 := by
  induction pages generalizing cursor s with
  | nil => exact ⟨rfl, rfl, rfl, rfl, rfl⟩
  | cons page pages ih =>
    obtain ⟨hfound, halike⟩ := ih (cursor + page.length) (s.send (.scan cursor pattern)).2
    have hsent := s.alike_send (.scan cursor pattern)
    have hcounts : (s.send (.scan cursor pattern)).2.counts .scan = s.counts .scan + 1 :=
      s.counts_send _
    rw [hsent.refuses, hsent.matching, hcounts] at hfound
    rw [scanOn, s.send_scan]
    cases hr : s.refuses .scan (s.counts .scan) with
    | true =>
      refine ⟨?_, hsent⟩
      simp only [Bool.not_true, reached, hr, if_true, List.flatten_nil, List.filter_nil]
    | false =>
      refine ⟨?_, hsent.trans halike⟩
      simp only [Bool.not_false, reached, hr, Bool.false_eq_true, if_false, List.flatten_cons,
        List.filter_append, hfound, hsent.matching]

/-- **What a scan finds**: the names that match, of those that it gets to see; it fails if its first
page is refused. -/
theorem scan_eq (pattern : String) (s : KeyServer) :
    (scan pattern s).1 = (if s.refuses .scan (s.counts .scan) then .error refused
      else .ok (s.seen.filter (s.matching pattern))) ∧
    s.Alike (scan pattern s).2 := by
  have hsent := s.alike_send (.scan 0 pattern)
  rw [scan, s.send_scan, seen]
  cases hr : s.refuses .scan (s.counts .scan) with
  | true => exact ⟨rfl, hsent⟩
  | false =>
    cases s.paging (s.counts .scan) s.keys with
    | nil => exact ⟨rfl, hsent⟩
    | cons first pages =>
      obtain ⟨hfound, halike⟩ := scanOn_eq pattern first.length pages (s.send (.scan 0 pattern)).2
      have hcounts : (s.send (.scan 0 pattern)).2.counts .scan = s.counts .scan + 1 :=
        s.counts_send _
      rw [hsent.refuses, hsent.matching, hcounts] at hfound
      refine ⟨?_, hsent.trans halike⟩
      simp only [Bool.not_false, Bool.false_eq_true, if_false, List.headD_cons, List.drop_one,
        List.tail_cons, hfound, hsent.matching, reached, hr, List.flatten_cons, List.filter_append]

/-! ### Drops -/

/-- **What can come of a drop** that finds some names: the scan does not begin, what it found is not
deleted, or it is. -/
inductive Dropped (s : KeyServer) (found : List String) : Except CacheFault Nat × KeyServer → Prop
  | unscanned {s' : KeyServer} (refuses : s.refuses .scan (s.counts .scan) = true)
    (alike : s.Alike s') : Dropped s found (.error refused, s')
  | undeleted {s' : KeyServer} {n : Nat} (refuses : s.refuses .del n = true) (some : found ≠ [])
    (alike : s.Alike s') : Dropped s found (.error refused, s')
  | done {s' : KeyServer} (accepts : s.refuses .scan (s.counts .scan) = false)
    (alike : (s.erase found).Alike s') : Dropped s found (.ok (s.count found), s')

/-- Deleting no names changes nothing. -/
theorem alike_erase_nil {s s' : KeyServer} (h : s.Alike s') : (s.erase []).Alike s' := by
  refine ⟨?_, h.paging, h.matching, h.refuses⟩
  rw [h.entries]
  exact (List.filter_eq_self.2 fun _ _ => rfl).symm

/-- The names that a drop by a label finds. -/
def found (label : String) (s : KeyServer) : List String :=
  s.seen.filter (s.matching (pattern label))

/-- **What comes of a drop by a label.** -/
theorem dropped (label : String) (s : KeyServer) :
    Dropped s (found label s) (deletePrefix label s) := by
  obtain ⟨hscan, halike⟩ := scan_eq (pattern label) s
  rw [← found] at hscan
  generalize found label s = found at hscan
  unfold deletePrefix
  generalize scan (pattern label) s = outcome at hscan halike
  obtain ⟨result, after⟩ := outcome
  cases hr : s.refuses .scan (s.counts .scan) with
  | true =>
    rw [hr] at hscan
    cases hscan
    exact .unscanned hr halike
  | false =>
    rw [hr] at hscan
    cases hscan
    cases found with
    | nil =>
      have hnone : s.count [] = 0 := by simp [count]
      rw [← hnone]
      exact .done hr (alike_erase_nil halike)
    | cons key keys =>
      have hsent := halike.trans (after.alike_send (.del (key :: keys)))
      show Dropped s (key :: keys) (delete (key :: keys) after)
      rw [delete, after.send_del]
      cases hd : after.refuses .del (after.counts .del) with
      | true => exact .undeleted (halike.refuses ▸ hd) (List.cons_ne_nil key keys) hsent
      | false =>
        have hcount : (after.send (.del (key :: keys))).2.count (key :: keys) =
            s.count (key :: keys) := by
          rw [count, hsent.entries, count]
        simp only [Bool.not_false, hcount]
        refine .done hr ⟨?_, hsent.paging, hsent.matching, hsent.refuses⟩
        rw [erase, erase, hsent.entries]

/-- A server that refuses nothing answers every drop and deletes what it finds. -/
theorem dropped_of_accepts (h : ∀ kind n, s.refuses kind n = false) (label : String) :
    ∃ s', deletePrefix label s = (.ok (s.count (found label s)), s') ∧
      (s.erase (found label s)).Alike s' := by
  have hdropped := dropped label s
  generalize deletePrefix label s = outcome at hdropped
  cases hdropped with
  | unscanned hrefuses => exact absurd ((h _ _).symm.trans hrefuses) Bool.false_ne_true
  | undeleted hrefuses => exact absurd ((h _ _).symm.trans hrefuses) Bool.false_ne_true
  | done _ halike => exact ⟨_, rfl, halike⟩

/-- What is found by a plain label is what starts with it, of what is seen. -/
theorem contains_found (hs : s.Dependable) {label : String} (hl : Plain label) (key : String) :
    (found label s).contains key =
      (label.toList.isPrefixOf key.toList && s.seen.contains key) := by
  rw [Bool.eq_iff_iff, List.contains_iff_mem, found, List.mem_filter, hs.starred label hl key,
    Bool.and_eq_true, List.contains_iff_mem]
  exact and_comm

end Remote
end CropLedger
