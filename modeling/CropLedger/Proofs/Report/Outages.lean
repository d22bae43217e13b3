import CropLedger.Report.Worker

/-!
# Workers on a disk that fails

The calls by which a report is saved can fail for reasons of the disk. A worker gives up at the
first one that does; all that it may leave behind then is the unfinished file.

* `DiskOutage`: which calls fail, and what a failed call leaves behind;
* `ReportWorker.processDuring`: how a message is worked off meanwhile;
* `ReportWorker.processDuring_none`: a disk that does not fail makes no difference;
* `Directory.savedAs_during`: which names there are after a report was saved.
-/

namespace CropLedger

/-- Which of the calls that save a file fail. A write that fails leaves what the name stood for, or
as much as was written; a file that cannot be removed stays. -/
structure DiskOutage where
  prepare : Option FileFault
  write : Option (FileFault × Option FileContent)
  rename : Option FileFault
  remove : Option FileFault

/-- A disk that does not fail. -/
def DiskOutage.none : DiskOutage := ⟨.none, .none, .none, .none⟩

/-! ### Saving -/

/-- What a call comes to that fails if there is a fault. -/
def DiskOutage.orFail {α : Type} : Option FileFault → Except FileFault α → Except FileFault α
  | some fault, _ => .error fault
  | .none, result => result

namespace Directory

/-- Removes a file, if the disk allows it. -/
def removeDuring (o : DiskOutage) (name : Bytes) (entries : Listing) : Listing :=
  match o.remove with
  | some _ => entries
  | none => entries.erase name

/-- Writes a file under its unfinished name, then renames it. -/
def saveInDuring (o : DiskOutage) (name : Bytes) (book : Workbook) (entries : Listing) :
    Except FileFault Unit × Listing :=
  match o.write with
  | some (fault, some content) => (.error fault, entries.insert (unfinished name) (.file content))
  | some (fault, none) => (.error fault, entries)
  | none =>
    match entries.write (unfinished name) (.workbook book) with
    | .error fault => (.error fault, entries)
    | .ok written =>
      match DiskOutage.orFail o.rename (written.rename (unfinished name) name) with
      | .error fault => (.error fault, removeDuring o (unfinished name) written)
      | .ok renamed => (.ok (), renamed)

/-- Writes a workbook as a file of a name. -/
def saveDuring (o : DiskOutage) (name : String) (book : Workbook) (d : Directory) :
    Except FileFault Unit × Directory :=
  match DiskOutage.orFail o.prepare d.prepare with
  | .error fault => (.error fault, d)
  | .ok entries =>
    let (result, entries) := saveInDuring o (Utf8.encode name) book entries
    (result, .listing entries)

end Directory

/-! ### Working off messages -/

/-- Saves a workbook, if it could be built, under the name of a request and a time. -/
def ReportRequest.renderDuring (o : DiskOutage) (r : ReportRequest) (generatedAt : Timestamp)
    (book : Except WorkbookFault Workbook) (d : Directory) :
    Except RenderFault String × Directory :=
  match book with
  | .error fault => (.error (.workbook fault), d)
  | .ok book =>
    match d.saveDuring o (r.fileName generatedAt) book with
    | (.ok (), d) => (.ok (r.fileName generatedAt), d)
    | (.error fault, d) => (.error (.files fault), d)

namespace ReportWorker

/-- Renders the report of a request. -/
def renderDuring (o : DiskOutage) (r : ReportRequest) (now : Timestamp) (w : ReportWorker) :
    Except WorkerFault String × ReportWorker :=
  match r.book.run w.store with
  | (.error fault, store) => (.error (.load fault), { w with store })
  | (.ok book, store) =>
    let (result, reports) := r.renderDuring o now book w.reports
    (result.mapError .render, ⟨store, reports⟩)

/-- Reads the message of a job and renders its report. -/
def processDuring (o : DiskOutage) (payload : Bytes) (now : Timestamp) (w : ReportWorker) :
    Except WorkerFault String × ReportWorker :=
  match Json.Reader.decode ReportRequest.jobReader payload with
  | .error fault => (.error (.decode fault), w)
  | .ok r => renderDuring o r now w

/-- **A disk that does not fail makes no difference.** -/
theorem processDuring_none (payload : Bytes) (now : Timestamp) (w : ReportWorker) :
    processDuring .none payload now w = process payload now w := rfl

end ReportWorker

/-! ### Names -/

namespace Listing

/-- A name stands for something. -/
def Has (entries : Listing) (name : Bytes) : Prop := ∃ e ∈ entries, e.1 = name

variable {entries : Listing} {name n : Bytes}

theorem has_erase : (entries.erase name).Has n ↔ entries.Has n ∧ n ≠ name := by
  simp only [Has, erase, List.mem_filter, decide_eq_true_eq]
  constructor
  · rintro ⟨e, ⟨he, hne⟩, rfl⟩
    exact ⟨⟨e, he, rfl⟩, hne⟩
  · rintro ⟨⟨e, he, rfl⟩, hne⟩
    exact ⟨e, ⟨he, hne⟩, rfl⟩

theorem has_insert {entry : Entry} :
    (entries.insert name entry).Has n ↔ entries.Has n ∨ n = name := by
  have happ : (entries.insert name entry).Has n ↔ (entries.erase name).Has n ∨ name = n := by
    simp [Has, insert, or_and_right, exists_or]
  rw [happ, has_erase]
  by_cases hn : n = name
  · simp [hn]
  · simp [hn, Ne.symm hn]

theorem write_eq_ok {content : FileContent} {written : Listing}
    (h : entries.write name content = .ok written) :
    written = entries.insert name (.file content) := by
  unfold write at h
  split at h
  · cases h
  · exact (Except.ok.inj h).symm

theorem rename_eq_ok {old new : Bytes} {renamed : Listing}
    (h : entries.rename old new = .ok renamed) :
    ∃ entry, renamed = (entries.erase old).insert new entry := by
  unfold rename at h
  split at h
  · cases h
  · cases h
  · exact ⟨_, (Except.ok.inj h).symm⟩

end Listing

namespace Directory

/-- Which names there are once a report has been saved, or should have been: the finished name if it
is done; no other ones are new but the unfinished name, and no other one is gone. -/
structure SavedAs (name : Bytes) (done : Prop) (before after : Listing) : Prop where
  finished : done → after.Has name
  added : ∀ n, after.Has n → before.Has n ∨ n = unfinished name ∨ (done ∧ n = name)
  kept : ∀ n, before.Has n → n ≠ unfinished name → after.Has n

variable {name : Bytes} {done : Prop} {entries : Listing}

theorem savedAs_untouched (h : ¬done) : SavedAs name done entries entries :=
  ⟨fun hd => absurd hd h, fun _ hn => .inl hn, fun _ hn _ => hn⟩

theorem savedAs_unfinished (h : ¬done) (entry : Entry) :
    SavedAs name done entries (entries.insert (unfinished name) entry) where
  finished hd := absurd hd h
  added _ hn := (Listing.has_insert.1 hn).imp_right .inl
  kept _ hn _ := Listing.has_insert.2 (.inl hn)

theorem savedAs_during (o : DiskOutage) (name : Bytes) (book : Workbook) (entries : Listing) :
    SavedAs name ((saveInDuring o name book entries).1 = .ok ()) entries
      (saveInDuring o name book entries).2 := by
  unfold saveInDuring
  split
  · exact savedAs_unfinished nofun _
  · exact savedAs_untouched nofun
  · split
    · exact savedAs_untouched nofun
    · rename_i written hw
      obtain rfl := Listing.write_eq_ok hw
      split
      · rename_i fault hr
        unfold removeDuring
        split
        · exact savedAs_unfinished nofun _
        · refine ⟨nofun, fun n hn => ?_, fun n hn hne => ?_⟩
          · exact (Listing.has_insert.1 (Listing.has_erase.1 hn).1).imp_right .inl
          · exact Listing.has_erase.2 ⟨Listing.has_insert.2 (.inl hn), hne⟩
      · rename_i renamed hr
        have hok : (entries.insert (unfinished name) (.file (.workbook book))).rename
            (unfinished name) name = .ok renamed := by
          unfold DiskOutage.orFail at hr
          split at hr
          · cases hr
          · exact hr
        obtain ⟨entry, rfl⟩ := Listing.rename_eq_ok hok
        refine ⟨fun _ => Listing.has_insert.2 (.inr rfl), fun n hn => ?_, fun n hn hne => ?_⟩
        · rcases Listing.has_insert.1 hn with hn | rfl
          · exact (Listing.has_insert.1 (Listing.has_erase.1 hn).1).imp_right .inl
          · exact .inr (.inr ⟨rfl, rfl⟩)
        · refine Listing.has_insert.2 (.inl (Listing.has_erase.2 ⟨?_, hne⟩))
          exact Listing.has_insert.2 (.inl hn)

end Directory

namespace ReportWorker

/-- **How the rendering of a report comes out** in a directory that can be listed: the file is saved
under its name, or there is a fault and no new file but an unfinished one. -/
inductive Rendered (r : ReportRequest) (now : Timestamp) (before : Listing) :
    Except WorkerFault String × ReportWorker → Prop
  | done {store : Database} {after : Listing}
    (saved : Directory.SavedAs (Utf8.encode (r.fileName now)) True before after) :
    Rendered r now before (.ok (r.fileName now), ⟨store, .listing after⟩)
  | failed {fault : WorkerFault} {store : Database} {after : Listing}
    (spoilt : Directory.SavedAs (Utf8.encode (r.fileName now)) False before after) :
    Rendered r now before (.error fault, ⟨store, .listing after⟩)

theorem rendered (o : DiskOutage) (r : ReportRequest) (now : Timestamp) (store : Database)
    (before : Listing) :
    Rendered r now before (renderDuring o r now ⟨store, .listing before⟩) := by
  unfold renderDuring
  rcases r.book.run store with ⟨book | book, store'⟩
  · exact .failed (Directory.savedAs_untouched id)
  · cases book with
    | error fault => exact .failed (Directory.savedAs_untouched id)
    | ok book =>
      have hs := Directory.savedAs_during o (Utf8.encode (r.fileName now)) book before
      simp only [ReportRequest.renderDuring, Directory.saveDuring, Directory.prepare]
      cases o.prepare with
      | some fault => exact .failed (Directory.savedAs_untouched id)
      | none =>
        simp only [DiskOutage.orFail]
        generalize Directory.saveInDuring o (Utf8.encode (r.fileName now)) book before = outcome
          at hs
        rcases outcome with ⟨fault | u, after⟩
        · exact .failed (by simpa using hs)
        · exact .done (by simpa using hs)

end ReportWorker

end CropLedger
