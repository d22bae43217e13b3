import CropLedger.Proofs.Cache.KeyServers
import CropLedger.Proofs.Market.Writes

/-!
# Refused scans

A drop by label that is answered has deleted what its scan has seen. A later page that is refused
ends the scan as its last page does and cannot be told from it, so an answer alone does not say that
nothing is left: it does only if no page was refused.

* `Remote.Accounted`: what the answer of a drop tells of the entries that are left;
* `Market.scanned_writes_clear`: a write that is answered leaves nothing of its kind, if no page of
  its scan is refused;
* `Market.refused_page_hides_entry`: an answered write after which the old answer is found.
-/

namespace CropLedger

open KeyServer

namespace Remote

/-- **What the answer of a drop by a label tells**: a failure has changed nothing; otherwise all
that was seen under the label is gone and counted, everything else is left, and of what starts with
the label nothing is left if no page of the scan was refused. -/
structure Accounted (label : String) (s : KeyServer)
    (outcome : Except CacheFault Nat × KeyServer) : Prop where
  failed : ∀ fault, outcome.1 = .error fault → outcome.2.entries = s.entries
  noticed : s.refuses .scan (s.counts .scan) = true → outcome.1 = .error refused
  left : ∀ n, outcome.1 = .ok n → ∀ e, e ∈ outcome.2.entries ↔
    e ∈ s.entries ∧ ¬(label.toList <+: e.1.toList ∧ e.1 ∈ s.seen)
  counted : ∀ n, outcome.1 = .ok n → n + outcome.2.entries.length = s.entries.length
  cleared : ∀ n, outcome.1 = .ok n → s.ScansThrough →
    ∀ e ∈ outcome.2.entries, ¬label.toList <+: e.1.toList

variable {s s' : KeyServer} {label : String}

theorem accounted_failed (h : s.Alike s') : Accounted label s (.error refused, s') where
  failed _ _ := h.entries
  noticed _ := rfl
  left _ hn := nomatch hn
  counted _ hn := nomatch hn
  cleared _ hn := nomatch hn

theorem mem_found (hs : s.Dependable) (hl : Plain label) {key : String} :
    (found label s).contains key = true ↔ label.toList <+: key.toList ∧ key ∈ s.seen := by
  rw [contains_found hs hl, Bool.and_eq_true, List.isPrefixOf_iff_prefix, List.contains_iff_mem]

/-- What is erased and what is left are all there was. -/
theorem count_add_length_erase (keys : List String) (s : KeyServer) :
    s.count keys + (s.erase keys).entries.length = s.entries.length := by
  have hsplit := List.length_eq_countP_add_countP (l := s.entries) fun e => keys.contains e.1
  simp only [decide_not, Bool.decide_eq_true, List.countP_eq_length_filter] at hsplit
  exact hsplit.symm

theorem accounted_done (hs : s.Dependable) (hl : Plain label)
    (haccepts : s.refuses .scan (s.counts .scan) = false)
    (h : (s.erase (found label s)).Alike s') :
    Accounted label s (.ok (s.count (found label s)), s') := by
  have hleft : ∀ e, e ∈ s'.entries ↔
      e ∈ s.entries ∧ ¬(label.toList <+: e.1.toList ∧ e.1 ∈ s.seen) := by
    intro e
    rw [h.entries, ← mem_found hs hl, Bool.not_eq_true, ← Bool.not_eq_true']
    exact List.mem_filter
  refine ⟨fun _ hf => (nomatch hf), fun hr => ?_, fun _ _ => hleft, ?_, ?_⟩
  · rw [haccepts] at hr
    cases hr
  · intro n hn
    cases hn
    rw [h.entries]
    exact count_add_length_erase _ s
  · intro _ _ hscans e he hstarts
    obtain ⟨hin, hnot⟩ := (hleft e).1 he
    exact hnot ⟨hstarts, hscans.mem_seen hs (List.mem_map_of_mem hin)⟩

/-- Every drop by a plain label is accounted for. -/
theorem accounted (hs : s.Dependable) (hl : Plain label) :
    Accounted label s (deletePrefix label s) := by
  have hdropped := dropped label s
  generalize deletePrefix label s = outcome at hdropped
  cases hdropped with
  | unscanned _ halike => exact accounted_failed halike
  | undeleted _ _ halike => exact accounted_failed halike
  | done haccepts halike => exact accounted_done hs hl haccepts halike

end Remote

namespace Market

theorem plain_label (entity : Entity) : Plain entity.label := by cases entity <;> decide

/-- A market whose answers are kept by a key server. -/
def remote (defaultTtl historyTtl : Nat) : Market KeyServer :=
  ⟨Remote.cache, defaultTtl, historyTtl⟩

/-- **A drop is accounted for, and a write that is answered leaves nothing of its kind in the cache
if no page of its scan is refused**, whatever the server has and whatever it refuses otherwise. -/
theorem scanned_writes_clear {s : KeyServer} (hs : s.Dependable) :
    (∀ label, Plain label → Remote.Accounted label s (Remote.deletePrefix label s)) ∧
    ∀ (defaultTtl historyTtl : Nat) (store : Database) (w : Write),
      (w.perform (remote defaultTtl historyTtl) ⟨store, s⟩).1 = .ok () → s.ScansThrough →
      ∀ e ∈ (w.perform (remote defaultTtl historyTtl) ⟨store, s⟩).2.cache.entries,
        ¬w.entity.label.toList <+: e.1.toList := by
  refine ⟨fun label hl => Remote.accounted hs hl, ?_⟩
  intro defaultTtl historyTtl store w hok hscans
  have hhappened : w.Happened _ ⟨store, s⟩ (w.perform (remote defaultTtl historyTtl) ⟨store, s⟩) :=
    (w.committed_iff_happened _ _).1 (by rw [hok]; rfl)
  have hdropped : Remote.Accounted w.entity.label s (Remote.deletePrefix w.entity.label s) :=
    Remote.accounted hs (plain_label w.entity)
  -- an answer without a fault means that the drop was answered
  have hcleared : ∃ n, (Remote.deletePrefix w.entity.label s).1 = .ok n := by
    have hanswer := hhappened.answer.symm.trans hok
    show ∃ n, ((remote defaultTtl historyTtl).cache.deletePrefix w.entity.label s).1 = .ok n
    cases hd : ((remote defaultTtl historyTtl).cache.deletePrefix w.entity.label s).1 with
    | ok n => exact ⟨n, rfl⟩
    | error fault =>
      rw [hd] at hanswer
      cases hanswer
  obtain ⟨n, hn⟩ := hcleared
  rw [hhappened.cache]
  exact hdropped.cleared n hn hscans

namespace Sample

/-- A price and a page of harvests are asked for, and their answers are kept on two pages. -/
def twoPages : MarketState KeyServer :=
  let offered := (offer.perform (remote 300000 600000) ⟨.empty, .empty 1⟩).2
  let asked := ((remote 300000 600000).harvests ⟨9⟩ ⟨1, 10⟩ offered).2
  ((remote 300000 600000).price ⟨1⟩ asked).2

/-- The price is raised. -/
def raise : Write := .revisePrice ⟨1⟩ (amount 123) (time 2)

/-- The second page is refused to the scan after it is raised. -/
def secondRefused : MarketState KeyServer :=
  { twoPages with cache := twoPages.cache.failing .scan 1 }

end Sample

open Sample in
theorem scanned_writes_clear_sample :
    twoPages.cache.keys.length = 2 ∧
      ∀ e ∈ (raise.perform (remote 300000 600000) twoPages).2.cache.entries,
        ¬"price".toList <+: e.1.toList := by
  have hs : twoPages.cache.Dependable :=
    ⟨(dependable_empty 1).reports, (dependable_empty 1).starred⟩
  exact ⟨by decide +kernel,
    (scanned_writes_clear hs).2 300000 600000 twoPages.store raise rfl fun _ _ => rfl⟩

open Sample in
/-- **A refused page hides an entry**: the scan stops before the price, the drop is answered, and so
is the revision, but the price that is found afterwards is the old one. -/
theorem refused_page_hides_entry :
    secondRefused.cache.Dependable ∧ Plain "price" ∧
      (Remote.deletePrefix "price" secondRefused.cache).1 = .ok 0 ∧
      (∃ e ∈ (Remote.deletePrefix "price" secondRefused.cache).2.entries,
        "price".toList <+: e.1.toList) ∧
      (raise.perform (remote 300000 600000) secondRefused).1 = .ok () ∧
      ((remote 300000 600000).price ⟨1⟩
        (raise.perform (remote 300000 600000) secondRefused).2).1.toOption.map PriceView.value =
        some (amount 105) ∧
      (raise.perform (remote 300000 600000) secondRefused).2.store.tables.prices.map
        Price.value = [(amount 123).stored] := by
  have hs : secondRefused.cache.Dependable :=
    ⟨(dependable_empty 1).reports, (dependable_empty 1).starred⟩
  refine ⟨hs, by decide, rfl, ?_, rfl, by decide +kernel, by decide +kernel⟩
  decide +kernel

end Market

end CropLedger
