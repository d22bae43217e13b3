import CropLedger.Proofs.Json.Records
import CropLedger.Proofs.Report.Jobs
import CropLedger.Proofs.Report.Outages
import CropLedger.Report.Worker

/-!
# What is saved is found again

A report that was saved is a file of its name that holds its workbook; the unfinished name is gone,
and every other name stands for what it stood for.

* `Listing.mem_insert`, `Listing.mem_erase`: names and what they stand for;
* `Directory.saveIn_ok`: the directory after a report was saved;
* `Directory.saveIn_of_clear`: a report can be saved where no folder stands in its way;
* `ReportRequest.render_ok`: the directory after a report was rendered;
* `ReportWorker.process_ok`: the file of a job that was worked off holds the workbook of its
  request.
-/

namespace CropLedger

/-! ### Names and what they stand for -/

namespace Listing

variable {entries : Listing} {name n : Bytes} {entry e : Entry}

theorem has_iff : entries.Has n ↔ ∃ e, (n, e) ∈ entries := by
  constructor
  · rintro ⟨⟨m, e⟩, he, rfl⟩
    exact ⟨e, he⟩
  · rintro ⟨e, he⟩
    exact ⟨(n, e), he, rfl⟩

theorem mem_erase : (n, e) ∈ entries.erase name ↔ (n, e) ∈ entries ∧ n ≠ name := by
  rw [erase, List.mem_filter, decide_eq_true_eq]

theorem mem_insert :
    (n, e) ∈ entries.insert name entry ↔
      ((n, e) ∈ entries ∧ n ≠ name) ∨ (n = name ∧ e = entry) := by
  rw [insert, List.mem_append, mem_erase, List.mem_singleton, Prod.mk.injEq]

theorem nodup_erase (h : (entries.map Prod.fst).Nodup) (name : Bytes) :
    ((entries.erase name).map Prod.fst).Nodup :=
  h.sublist (List.filter_sublist.map _)

theorem nodup_insert (h : (entries.map Prod.fst).Nodup) (name : Bytes) (entry : Entry) :
    ((entries.insert name entry).map Prod.fst).Nodup := by
  rw [insert, List.map_append, List.nodup_append]
  refine ⟨nodup_erase h name, by simp, ?_⟩
  intro a ha b hb
  obtain ⟨x, hx, rfl⟩ := List.mem_map.1 ha
  obtain rfl := List.mem_singleton.1 hb
  exact (mem_erase.1 hx).2

theorem find?_eq_some (h : (entries.map Prod.fst).Nodup) :
    entries.find? n = some e ↔ (n, e) ∈ entries :=
  ⟨Json.Record.mem_of_lookup_eq_some, fun hm => Json.Record.lookup_of_mem h hm⟩

theorem find?_erase_self : (entries.erase name).find? name = none := by
  refine List.lookup_eq_none_iff.2 fun x hx => ?_
  have hne := (mem_erase.1 hx).2
  simpa using hne.symm

theorem find?_insert_self : (entries.insert name entry).find? name = some entry := by
  have hnone : (entries.erase name).lookup name = none := find?_erase_self
  rw [find?, insert, List.lookup_append, hnone]
  simp

theorem find?_erase_of_ne (h : n ≠ name) : (entries.erase name).find? n = entries.find? n := by
  induction entries with
  | nil => rfl
  | cons x rest ih =>
    obtain ⟨m, e⟩ := x
    unfold find? erase at ih ⊢
    by_cases hm : m = name
    · rw [List.filter_cons_of_neg (by simpa using hm), ih, List.lookup_cons, hm,
        beq_eq_false_iff_ne.2 h]
    · rw [List.filter_cons_of_pos (by simpa using hm), List.lookup_cons, List.lookup_cons, ih]

theorem find?_insert_of_ne (h : n ≠ name) :
    (entries.insert name entry).find? n = entries.find? n := by
  have hlast : List.lookup n [(name, entry)] = none := by
    rw [List.lookup_cons, beq_eq_false_iff_ne.2 h]
    rfl
  have hrest : (entries.erase name).lookup n = entries.find? n := find?_erase_of_ne h
  rw [find?, insert, List.lookup_append, hlast, Option.or_none, hrest]

end Listing

/-! ### Saving -/

namespace Directory

/-- The directory after a report was saved. -/
def saved (name : Bytes) (book : Workbook) (entries : Listing) : Listing :=
  ((entries.insert (unfinished name) (.file (.workbook book))).erase (unfinished name)).insert name
    (.file (.workbook book))

theorem saveIn_ok {name : Bytes} {book : Workbook} {entries after : Listing}
    (h : saveIn name book entries = (.ok (), after)) : after = saved name book entries := by
  unfold saveIn at h
  split at h
  · cases h
  · rename_i written hwritten
    obtain rfl : written = entries.insert (unfinished name) (.file (.workbook book)) := by
      unfold Listing.write at hwritten
      split at hwritten
      · cases hwritten
      · exact (Except.ok.inj hwritten).symm
    split at h
    · cases h
    · rename_i renamed hrenamed
      cases h
      unfold Listing.rename at hrenamed
      rw [Listing.find?_insert_self] at hrenamed
      split at hrenamed
      · cases hrenamed
      · cases hrenamed
      · rename_i entry _ hentry _
        cases hentry
        exact (Except.ok.inj hrenamed).symm

/-- No folder stands in the way of a file: neither under its name nor under its unfinished name. -/
structure Clear (name : Bytes) (entries : Listing) : Prop where
  unfinished : entries.find? (unfinished name) ≠ some .folder
  finished : entries.find? name ≠ some .folder

theorem ne_unfinished (name : Bytes) : name ≠ unfinished name := by
  intro h
  have hlen := congrArg List.length h
  have hpart : 0 < (Utf8.encode ".part").length := by decide
  rw [unfinished, List.length_append] at hlen
  omega

/-- Where no folder stands in its way, a report can be saved. -/
theorem saveIn_of_clear {name : Bytes} {entries : Listing} (h : Clear name entries)
    (book : Workbook) : saveIn name book entries = (.ok (), saved name book entries) := by
  have hwrite : entries.write (unfinished name) (.workbook book) =
      .ok (entries.insert (unfinished name) (.file (.workbook book))) := by
    unfold Listing.write
    split
    · rename_i hfind
      exact absurd hfind h.unfinished
    · rfl
  have hrename : (entries.insert (unfinished name) (.file (.workbook book))).rename
      (unfinished name) name = .ok (saved name book entries) := by
    unfold Listing.rename
    rw [Listing.find?_insert_self, Listing.find?_insert_of_ne (ne_unfinished name)]
    split
    · rename_i hfind
      cases hfind
    · rename_i hfolder
      exact absurd hfolder h.finished
    · rename_i entry _ hentry _
      cases hentry
      rfl
  simp only [saveIn, hwrite, hrename]

theorem clear_of_noFolder {entries : Listing} (h : ∀ n, (n, Entry.folder) ∉ entries)
    (name : Bytes) : Clear name entries :=
  ⟨fun hf => h _ (Json.Record.mem_of_lookup_eq_some hf),
    fun hf => h _ (Json.Record.mem_of_lookup_eq_some hf)⟩

theorem save_ok {name : String} {book : Workbook} {d d' : Directory}
    (h : d.save name book = (.ok (), d')) :
    ∃ entries, d.prepare = .ok entries ∧ d' = .listing (saved (Utf8.encode name) book entries) := by
  unfold save at h
  split at h
  · cases h
  · rename_i entries hentries
    rcases hs : saveIn (Utf8.encode name) book entries with ⟨result, after⟩
    rw [hs] at h
    obtain ⟨rfl, rfl⟩ := Prod.mk.inj h
    exact ⟨entries, hentries, congrArg listing (saveIn_ok hs)⟩

theorem mem_saved {name n : Bytes} {book : Workbook} {entries : Listing} {e : Entry} :
    (n, e) ∈ saved name book entries ↔
      ((n, e) ∈ entries ∧ n ≠ unfinished name ∧ n ≠ name) ∨
        (n = name ∧ e = .file (.workbook book)) := by
  rw [saved, Listing.mem_insert, Listing.mem_erase, Listing.mem_insert]
  constructor
  · rintro (⟨⟨⟨hm, hu⟩ | ⟨rfl, -⟩, hne⟩, hn⟩ | hself)
    · exact .inl ⟨hm, hu, hn⟩
    · exact absurd rfl hne
    · exact .inr hself
  · rintro (⟨hm, hu, hn⟩ | hself)
    · exact .inl ⟨⟨.inl ⟨hm, hu⟩, hu⟩, hn⟩
    · exact .inr hself

theorem find?_saved_self {name : Bytes} {book : Workbook} {entries : Listing} :
    (saved name book entries).find? name = some (.file (.workbook book)) :=
  Listing.find?_insert_self

theorem nodup_saved {name : Bytes} {book : Workbook} {entries : Listing}
    (h : (entries.map Prod.fst).Nodup) : ((saved name book entries).map Prod.fst).Nodup :=
  Listing.nodup_insert (Listing.nodup_erase (Listing.nodup_insert h _ _) _) _ _

theorem load_saved {name : String} {book : Workbook} {entries : Listing} :
    (listing (saved (Utf8.encode name) book entries)).load name = .ok (.workbook book) := by
  simp only [load, find?_saved_self]

end Directory

/-! ### Rendering -/

/-- A report that was rendered is saved under the name that its request and the time give it. -/
theorem ReportRequest.render_ok {r : ReportRequest} {t : Timestamp}
    {built : Except WorkbookFault Workbook} {d d' : Directory} {name : String}
    (h : r.render t built d = (.ok name, d')) :
    ∃ book entries, built = .ok book ∧ d.prepare = .ok entries ∧ name = r.fileName t ∧
      d' = .listing (Directory.saved (Utf8.encode (r.fileName t)) book entries) := by
  unfold ReportRequest.render at h
  cases built with
  | error fault => cases h
  | ok book =>
    rcases hs : d.save (r.fileName t) book with ⟨result, after⟩
    simp only [hs] at h
    cases result with
    | error fault => cases h
    | ok u =>
      obtain ⟨hname, rfl⟩ := Prod.mk.inj h
      obtain ⟨entries, hp, hd⟩ := Directory.save_ok hs
      exact ⟨book, entries, rfl, hp, (Except.ok.inj hname).symm, hd⟩

/-- Where no folder stands in its way, a report that could be built is saved. -/
theorem ReportRequest.render_of_clear {r : ReportRequest} {t : Timestamp} {d : Directory}
    {entries : Listing} (hprepare : d.prepare = .ok entries)
    (h : Directory.Clear (Utf8.encode (r.fileName t)) entries) (book : Workbook) :
    r.render t (.ok book) d = (.ok (r.fileName t),
      .listing (Directory.saved (Utf8.encode (r.fileName t)) book entries)) := by
  simp only [ReportRequest.render, Directory.save, hprepare, Directory.saveIn_of_clear h]

/-- Where no name stands for a folder, a report that could be built is saved. -/
theorem ReportRequest.render_of_noFolder {d : Directory} {entries : Listing}
    (hprepare : d.prepare = .ok entries) (h : ∀ n, (n, Entry.folder) ∉ entries) (r : ReportRequest)
    (t : Timestamp) (book : Workbook) :
    r.render t (.ok book) d = (.ok (r.fileName t),
      .listing (Directory.saved (Utf8.encode (r.fileName t)) book entries)) :=
  render_of_clear hprepare (Directory.clear_of_noFolder h _) book

/-- **The file of a job that was worked off holds the workbook of its request**, made from the store
as the worker found it. -/
theorem ReportWorker.process_ok {r : ReportRequest} {now : Timestamp} {w w' : ReportWorker}
    {name : String} (h : ReportWorker.process r.jobBytes now w = (.ok name, w')) :
    ∃ book, (r.book.run w.store).1 = .ok (.ok book) ∧ name = r.fileName now ∧
      w'.reports.load name = .ok (.workbook book) := by
  unfold ReportWorker.process at h
  rw [ReportRequest.decode_jobBytes] at h
  simp only [ReportWorker.render] at h
  rcases hb : r.book.run w.store with ⟨built, store⟩
  rw [hb] at h
  cases built with
  | error fault => cases h
  | ok built =>
    rcases hr : r.render now built w.reports with ⟨result, reports⟩
    simp only [hr] at h
    cases result with
    | error fault => cases h
    | ok found =>
      obtain ⟨hname, rfl⟩ := Prod.mk.inj h
      obtain rfl := Except.ok.inj hname
      obtain ⟨book, entries, rfl, -, rfl, rfl⟩ := ReportRequest.render_ok hr
      exact ⟨book, rfl, rfl, Directory.load_saved⟩

/-- What comes of a message that is the job of a request whose workbook can be built, where no
folder stands in the way of its file. -/
theorem ReportWorker.process_of_clear {payload : Bytes} {r : ReportRequest} {now : Timestamp}
    {w : ReportWorker} {book : Workbook}
    (hdecode : Json.Reader.decode ReportRequest.jobReader payload = .ok r)
    (hbook : (r.book.run w.store).1 = .ok (.ok book)) {entries : Listing}
    (hprepare : w.reports.prepare = .ok entries)
    (h : Directory.Clear (Utf8.encode (r.fileName now)) entries) :
    ReportWorker.process payload now w = (.ok (r.fileName now), ⟨(r.book.run w.store).2,
      .listing (Directory.saved (Utf8.encode (r.fileName now)) book entries)⟩) := by
  rcases hrun : r.book.run w.store with ⟨built, store⟩
  rw [hrun] at hbook
  obtain rfl : built = .ok (.ok book) := hbook
  have hrender := ReportRequest.render_of_clear hprepare h book
  unfold ReportWorker.process
  rw [hdecode]
  simp only [ReportWorker.render, hrun, hrender]
  rfl

/-- Where no name stands for a folder, a job whose workbook can be built leaves its file. -/
theorem ReportWorker.process_of_noFolder {r : ReportRequest} {now : Timestamp} {w : ReportWorker}
    {book : Workbook} (hbook : (r.book.run w.store).1 = .ok (.ok book)) {entries : Listing}
    (hprepare : w.reports.prepare = .ok entries) (h : ∀ n, (n, Entry.folder) ∉ entries) :
    ∃ w', ReportWorker.process r.jobBytes now w = (.ok (r.fileName now), w') ∧
      w'.reports.load (r.fileName now) = .ok (.workbook book) :=
  ⟨_, ReportWorker.process_of_clear r.decode_jobBytes hbook hprepare
    (Directory.clear_of_noFolder h _), Directory.load_saved⟩

end CropLedger
