import CropLedger.Proofs.Report.Directories
import CropLedger.Proofs.Report.PriceSheets

/-!
# Handling a delivery, call by call

A delivery is handled by calls on the store and on the disk. The worker can be stopped after any of
them, each call on the disk can fail, and a write may get as far as any of the bytes; meanwhile
other tasks work on other files. All that happens before the last call happens to the unfinished
file, which no request sees, and the last call gives its name to a file that is complete.

* `Handling.advance`: the next call of a worker, and what the disk makes of it;
* `Handling.Reached`: the moments in the handling of a delivery;
* `Handling.Sound`, `Handling.Sound.advance`: the invariant, and that every call keeps it;
* `Handling.reached_process`: an undisturbed handling is that of `ReportWorker.process`;
* `Handling.only_complete_reports_served`: what requests see at every moment.
-/

namespace CropLedger

/-! ### Deliveries and how far they are handled -/

/-- A delivered message, with the time and the store that its worker finds. -/
structure Delivery where
  payload : Bytes
  now : Timestamp
  store : Database

namespace Delivery

/-- The message is the job of a request. -/
def Asks (x : Delivery) (r : ReportRequest) : Prop :=
  Json.Reader.decode ReportRequest.jobReader x.payload = .ok r

/-- What the data of a request come to in the store of a delivery. -/
def Builds (x : Delivery) (r : ReportRequest) (outcome : Except WorkbookFault Workbook) : Prop :=
  (r.book.run x.store).1 = .ok outcome

/-- The name of the finished file. -/
def finished (x : Delivery) (r : ReportRequest) : Bytes := Utf8.encode (r.fileName x.now)

/-- The name of the unfinished file. -/
def unfinished (x : Delivery) (r : ReportRequest) : Bytes := Directory.unfinished (x.finished r)

/-- A name is that of the delivery's unfinished file. -/
def Unfinished (x : Delivery) (n : Bytes) : Prop := ∃ r, x.Asks r ∧ n = x.unfinished r

end Delivery

/-- The delivery of the job of a request. -/
def ReportRequest.delivery (r : ReportRequest) (now : Timestamp) (store : Database) : Delivery :=
  ⟨r.jobBytes, now, store⟩

theorem ReportRequest.asks_delivery (r : ReportRequest) (now : Timestamp) (store : Database) :
    (r.delivery now store).Asks r := decode_jobBytes r

/-- How far the handling of a delivery has come. -/
inductive Stage
  | received
  | decoded (r : ReportRequest)
  | loaded (r : ReportRequest) (outcome : Except WorkbookFault Workbook)
  | built (r : ReportRequest) (book : Workbook)
  | prepared (r : ReportRequest) (book : Workbook)
  | writing (r : ReportRequest) (book : Workbook)
  | written (r : ReportRequest) (book : Workbook)
  | failing (fault : FileFault) (r : ReportRequest)
  | ended (result : Except WorkerFault String)

/-- The end of a handling in which a call on the disk failed. -/
def Stage.spoilt (fault : FileFault) : Stage := .ended (.error (.render (.files fault)))

/-- The end of a handling in which a workbook was saved under a name, or was not. -/
def Stage.saved (name : String) : Except FileFault Unit → Stage
  | .ok () => .ended (.ok name)
  | .error fault => .spoilt fault

/-- What the disk makes of a call: it is done as far as the files allow, it fails, or only some
bytes have been written yet. -/
inductive DiskAnswer
  | done
  | failed (fault : FileFault)
  | partly (raw : Bytes)

/-- Why a call fails, if it does. -/
def DiskAnswer.fault? : DiskAnswer → Option FileFault
  | .failed fault => some fault
  | .done | .partly _ => none

/-- A handling, and the directory as it stands. -/
structure Handling where
  stage : Stage
  reports : Directory

namespace Handling

/-- What a call on the files comes to, which fails if the disk does. -/
def call (answer : DiskAnswer) (change : Listing → Except FileFault Listing) (d : Directory) :
    Except FileFault Directory :=
  DiskOutage.orFail answer.fault? (d.change change)

/-- Takes the next step: reads the message, loads the data, sees whether the workbook was built,
makes the directory, opens the unfinished file, writes it, renames it; a file that cannot be renamed
is removed. -/
def advance (x : Delivery) (answer : DiskAnswer) (h : Handling) : Handling :=
  match h.stage with
  | .received =>
    match Json.Reader.decode ReportRequest.jobReader x.payload with
    | .error fault => ⟨.ended (.error (.decode fault)), h.reports⟩
    | .ok r => ⟨.decoded r, h.reports⟩
  | .decoded r =>
    match (r.book.run x.store).1 with
    | .error fault => ⟨.ended (.error (.load fault)), h.reports⟩
    | .ok outcome => ⟨.loaded r outcome, h.reports⟩
  | .loaded _ (.error fault) => ⟨.ended (.error (.render (.workbook fault))), h.reports⟩
  | .loaded r (.ok book) => ⟨.built r book, h.reports⟩
  | .built r book =>
    match DiskOutage.orFail answer.fault? h.reports.prepare with
    | .error fault => ⟨.spoilt fault, h.reports⟩
    | .ok entries => ⟨.prepared r book, .listing entries⟩
  | .prepared r book =>
    match call answer (·.write (x.unfinished r) (.bytes [])) h.reports with
    | .error fault => ⟨.spoilt fault, h.reports⟩
    | .ok reports => ⟨.writing r book, reports⟩
  | .writing r book =>
    match answer with
    | .partly raw =>
      match h.reports.change (·.write (x.unfinished r) (.bytes raw)) with
      | .error fault => ⟨.spoilt fault, h.reports⟩
      | .ok reports => ⟨.writing r book, reports⟩
    | answer =>
      match call answer (·.write (x.unfinished r) (.workbook book)) h.reports with
      | .error fault => ⟨.spoilt fault, h.reports⟩
      | .ok reports => ⟨.written r book, reports⟩
  | .written r _ =>
    match call answer (·.rename (x.unfinished r) (x.finished r)) h.reports with
    | .error fault => ⟨.failing fault r, h.reports⟩
    | .ok reports => ⟨.ended (.ok (r.fileName x.now)), reports⟩
  | .failing fault r =>
    match call answer (fun entries => .ok (entries.erase (x.unfinished r))) h.reports with
    | .error _ => ⟨.spoilt fault, h.reports⟩
    | .ok reports => ⟨.spoilt fault, reports⟩
  | .ended _ => h

/-- **The moments in the handling of a delivery** in a directory, with the names that others have
changed meanwhile. A handling that is stopped takes no further step. Others may do to files what
they like, but for the delivery's unfinished file. -/
inductive Reached (x : Delivery) (d : Directory) : List Bytes → Handling → Prop
  | start : Reached x d [] ⟨.received, d⟩
  | step {others : List Bytes} {h : Handling} (answer : DiskAnswer)
    (before : Reached x d others h) : Reached x d others (h.advance x answer)
  | other {others : List Bytes} {h : Handling} {n : Bytes} (entry : Option Entry)
    (apart : ¬x.Unfinished n) (before : Reached x d others h) :
    Reached x d (n :: others) ⟨h.stage, h.reports.put n entry⟩

end Handling

/-! ### The invariant -/

namespace Stage

/-- The names that a handling may have touched: that of the unfinished file, and in the end that of
the finished one. -/
def Own (x : Delivery) : Stage → Bytes → Prop
  | .ended (.ok name), n => x.Unfinished n ∨ n = Utf8.encode name
  | _, n => x.Unfinished n

/-- What is known at each stage of the request, of its workbook and of the file. -/
def Holds (x : Delivery) (others : List Bytes) (reports : Directory) : Stage → Prop
  | .received | .ended (.error _) => True
  | .decoded r => x.Asks r
  | .loaded r outcome => x.Asks r ∧ x.Builds r outcome
  | .built r book | .prepared r book => x.Asks r ∧ x.Builds r (.ok book)
  | .writing r book =>
    x.Asks r ∧ x.Builds r (.ok book) ∧
      ∃ content, reports.find? (x.unfinished r) = some (.file content)
  | .written r book =>
    x.Asks r ∧ x.Builds r (.ok book) ∧
      reports.find? (x.unfinished r) = some (.file (.workbook book))
  | .failing _ r => x.Asks r ∧ reports.find? (x.unfinished r) ≠ some .folder
  | .ended (.ok name) =>
    ∃ r book, x.Asks r ∧ x.Builds r (.ok book) ∧ name = r.fileName x.now ∧
      reports.find? (x.unfinished r) = none ∧
      (x.finished r ∉ others → reports.find? (x.finished r) = some (.file (.workbook book)))

end Stage

namespace Handling

/-- **The invariant**: what is known of the stage, and nothing but what the handling may have
touched differs from what was there before, as far as it is not others'. -/
structure Sound (x : Delivery) (d : Directory) (others : List Bytes) (h : Handling) : Prop where
  stage : h.stage.Holds x others h.reports
  kept : Directory.Kept others (h.stage.Own x) d h.reports
  apart : ∀ n ∈ others, ¬x.Unfinished n

section Invariant

variable {x : Delivery} {d reports : Directory} {others : List Bytes} {r : ReportRequest}
  {book : Workbook} {answer : DiskAnswer}

theorem orFail_ok {α : Type} {fault? : Option FileFault} {result : Except FileFault α} {a : α}
    (h : DiskOutage.orFail fault? result = .ok a) : result = .ok a := by
  unfold DiskOutage.orFail at h
  split at h
  · cases h
  · exact h

theorem Sound.fail {stage : Stage} (h : Sound x d others ⟨stage, reports⟩)
    (unnamed : ∀ name, stage ≠ .ended (.ok name)) (fault : WorkerFault) :
    Sound x d others ⟨.ended (.error fault), reports⟩ := by
  refine ⟨trivial, ?_, h.apart⟩
  cases stage with
  | ended result =>
    cases result with
    | ok name => exact absurd rfl (unnamed name)
    | error fault => exact h.kept
  | _ => exact h.kept

/-- The unfinished file is written. -/
theorem Sound.write (h : Sound x d others ⟨.prepared r book, reports⟩) {content : FileContent}
    {reports' : Directory}
    (hwrite : reports.change (·.write (x.unfinished r) content) = .ok reports')
    {stage : Stage} (hstage : reports'.find? (x.unfinished r) = some (.file content) →
      stage.Holds x others reports')
    (hown : stage.Own x = x.Unfinished) : Sound x d others ⟨stage, reports'⟩ := by
  have hown' : x.Unfinished (x.unfinished r) := ⟨r, h.stage.1, rfl⟩
  obtain ⟨hkept, hfile⟩ := Directory.kept_write x.Unfinished hwrite hown'
  refine ⟨hstage hfile, ?_, h.apart⟩
  show Directory.Kept others (stage.Own x) d reports'
  rw [hown]
  exact h.kept.trans hkept

/-- **Every call keeps the invariant.** -/
theorem Sound.advance {h : Handling} (hs : h.Sound x d others) (answer : DiskAnswer) :
    (h.advance x answer).Sound x d others := by
  obtain ⟨stage, reports⟩ := h
  cases stage with
  | received =>
    simp only [Handling.advance]
    split
    · exact hs.fail nofun _
    · rename_i r hdecode
      exact ⟨hdecode, hs.kept, hs.apart⟩
  | decoded r =>
    simp only [Handling.advance]
    split
    · exact hs.fail nofun _
    · rename_i outcome hbuilds
      exact ⟨⟨hs.stage, hbuilds⟩, hs.kept, hs.apart⟩
  | loaded r outcome =>
    cases outcome with
    | error fault => exact hs.fail nofun _
    | ok book => exact ⟨hs.stage, hs.kept, hs.apart⟩
  | built r book =>
    simp only [Handling.advance]
    split
    · exact hs.fail nofun _
    · rename_i entries hprepare
      exact ⟨hs.stage, hs.kept.trans (Directory.kept_prepare _ (orFail_ok hprepare)), hs.apart⟩
  | prepared r book =>
    simp only [Handling.advance]
    split
    · exact hs.fail nofun _
    · rename_i reports' hwrite
      exact hs.write (orFail_ok hwrite) (fun hfile => ⟨hs.stage.1, hs.stage.2, _, hfile⟩) rfl
  | writing r book =>
    have hprepared : Sound x d others ⟨.prepared r book, reports⟩ :=
      ⟨⟨hs.stage.1, hs.stage.2.1⟩, hs.kept, hs.apart⟩
    simp only [Handling.advance]
    split
    · split
      · exact hs.fail nofun _
      · rename_i reports' hwrite
        exact hprepared.write hwrite (fun hfile => ⟨hs.stage.1, hs.stage.2.1, _, hfile⟩) rfl
    · split
      · exact hs.fail nofun _
      · rename_i reports' hwrite
        exact hprepared.write (orFail_ok hwrite) (fun hfile => ⟨hs.stage.1, hs.stage.2.1, hfile⟩)
          rfl
  | written r book =>
    obtain ⟨hasks, hbuilds, hfile⟩ := hs.stage
    have hkept : Directory.Kept others x.Unfinished d reports := hs.kept
    simp only [Handling.advance]
    split
    · refine ⟨⟨hasks, ?_⟩, hkept, hs.apart⟩
      show reports.find? (x.unfinished r) ≠ _
      rw [hfile]
      exact nofun
    · rename_i reports' hrename
      obtain ⟨hrenamed, hgone, hfinal⟩ := Directory.kept_rename
        (fun n => x.Unfinished n ∨ n = x.finished r) (orFail_ok hrename)
        (.inl ⟨r, hasks, rfl⟩) (.inr rfl) (Directory.ne_unfinished _).symm hfile
      exact ⟨⟨r, book, hasks, hbuilds, rfl, hgone, fun _ => hfinal⟩,
        (hkept.mono fun _ => .inl).trans hrenamed, hs.apart⟩
  | failing fault r =>
    obtain ⟨hasks, hfolder⟩ := hs.stage
    have hkept : Directory.Kept others x.Unfinished d reports := hs.kept
    simp only [Handling.advance]
    split
    · exact hs.fail nofun _
    · rename_i reports' herase
      exact ⟨trivial, hkept.trans
        (Directory.kept_erase _ (orFail_ok herase) ⟨r, hasks, rfl⟩ hfolder), hs.apart⟩
  | ended result => exact hs

/-- What others do to files that are not the delivery's unfinished one keeps the invariant. -/
theorem Sound.other {h : Handling} (hs : h.Sound x d others) {n : Bytes} (entry : Option Entry)
    (apart : ¬x.Unfinished n) : Sound x d (n :: others) ⟨h.stage, h.reports.put n entry⟩ := by
  obtain ⟨stage, reports⟩ := h
  obtain ⟨hkept, hsame⟩ := hs.kept.put n entry
  have hpart : ∀ r, x.Asks r → (reports.put n entry).find? (x.unfinished r) =
      reports.find? (x.unfinished r) :=
    fun r hr => hsame _ fun he => apart ⟨r, hr, he.symm⟩
  refine ⟨?_, hkept, List.forall_mem_cons.2 ⟨apart, hs.apart⟩⟩
  have hstage := hs.stage
  cases stage with
  | received => trivial
  | decoded r => exact hstage
  | loaded r outcome => exact hstage
  | built r book => exact hstage
  | prepared r book => exact hstage
  | writing r book =>
    obtain ⟨hasks, hbuilds, content, hfile⟩ := hstage
    exact ⟨hasks, hbuilds, content, (hpart r hasks).trans hfile⟩
  | written r book =>
    obtain ⟨hasks, hbuilds, hfile⟩ := hstage
    exact ⟨hasks, hbuilds, (hpart r hasks).trans hfile⟩
  | failing fault r =>
    obtain ⟨hasks, hfolder⟩ := hstage
    refine ⟨hasks, ?_⟩
    show (reports.put n entry).find? (x.unfinished r) ≠ _
    rw [hpart r hasks]
    exact hfolder
  | ended result =>
    cases result with
    | error fault => trivial
    | ok name =>
      obtain ⟨r, book, hasks, hbuilds, hname, hgone, hfinal⟩ := hstage
      refine ⟨r, book, hasks, hbuilds, hname, (hpart r hasks).trans hgone, fun hmem => ?_⟩
      show (reports.put n entry).find? (x.finished r) = _
      rw [hsame _ (List.ne_of_not_mem_cons hmem)]
      exact hfinal (List.not_mem_of_not_mem_cons hmem)

theorem sound_of_reached {h : Handling} (reached : Reached x d others h) :
    h.Sound x d others := by
  induction reached with
  | start => exact ⟨trivial, .refl d, nofun⟩
  | step answer before ih => exact ih.advance answer
  | other entry apart before ih => exact ih.other entry apart

end Invariant

/-! ### Undisturbed handlings -/

theorem Reached.next {x : Delivery} {d : Directory} {others : List Bytes} {h h' : Handling}
    (reached : Reached x d others h) (answer : DiskAnswer) (he : h.advance x answer = h') :
    Reached x d others h' :=
  he ▸ reached.step answer

section Undisturbed

variable {x : Delivery} {d : Directory} {others : List Bytes} {r : ReportRequest} {book : Workbook}
  {entries : Listing}

theorem call_done (change : Listing → Except FileFault Listing) (entries : Listing) :
    call .done change (.listing entries) = (change entries).map .listing := rfl

theorem reached_decoded (d : Directory) (hasks : x.Asks r) : Reached x d [] ⟨.decoded r, d⟩ :=
  Reached.start.next .done (by simp only [advance]; rw [hasks])

theorem reached_loaded (d : Directory) (hasks : x.Asks r)
    {outcome : Except WorkbookFault Workbook} (hbuilds : x.Builds r outcome) :
    Reached x d [] ⟨.loaded r outcome, d⟩ :=
  (reached_decoded d hasks).next .done (by simp only [advance]; rw [hbuilds])

theorem Reached.prepared (reached : Reached x d others ⟨.loaded r (.ok book), d⟩)
    (hprepare : d.prepare = .ok entries) :
    Reached x d others ⟨.prepared r book, .listing entries⟩ := by
  have hbuilt : Reached x d others ⟨.built r book, d⟩ := reached.next .done rfl
  exact hbuilt.next .done (by
    simp only [advance, DiskAnswer.fault?, DiskOutage.orFail, hprepare])

/-- Where no folder is in its way the unfinished file is opened, in place of one of that name. -/
theorem Reached.opened (reached : Reached x d others ⟨.prepared r book, .listing entries⟩)
    (hfolder : entries.find? (x.unfinished r) ≠ some .folder) :
    Reached x d others ⟨.writing r book,
      .listing (entries.insert (x.unfinished r) (.file (.bytes [])))⟩ := by
  obtain ⟨hfound, -⟩ | ⟨-, hwrites⟩ := entries.write_cases (x.unfinished r)
  · exact absurd hfound hfolder
  · exact reached.next .done (by simp only [advance, call_done, hwrites]; rfl)

/-- The file that is being written can hold any bytes. -/
theorem Reached.partly {content : FileContent}
    (reached : Reached x d others ⟨.writing r book,
      .listing (entries.insert (x.unfinished r) (.file content))⟩) (raw : Bytes) :
    Reached x d others ⟨.writing r book,
      .listing (entries.insert (x.unfinished r) (.file (.bytes raw)))⟩ :=
  reached.next (.partly raw) (by simp only [advance, Directory.change, Listing.write_insert]; rfl)

/-- An undisturbed handling saves the workbook as `Directory.saveIn` does. -/
theorem Reached.saved {after : Listing} {result : Except FileFault Unit}
    (reached : Reached x d others ⟨.prepared r book, .listing entries⟩)
    (hsave : Directory.saveIn (x.finished r) book entries = (result, after)) :
    Reached x d others ⟨.saved (r.fileName x.now) result, .listing after⟩ := by
  have hsaveIn : Directory.saveIn (x.finished r) book entries =
      match entries.write (x.unfinished r) (.workbook book) with
      | .error fault => (.error fault, entries)
      | .ok written =>
        match written.rename (x.unfinished r) (x.finished r) with
        | .error fault => (.error fault, written.erase (x.unfinished r))
        | .ok renamed => (.ok (), renamed) := rfl
  rw [hsaveIn] at hsave
  obtain ⟨-, hfails⟩ | ⟨hfolder, hwrites⟩ := entries.write_cases (x.unfinished r)
  · rw [hfails] at hsave
    cases hsave
    exact reached.next .done (by simp only [advance, call_done, hfails]; rfl)
  · rw [hwrites] at hsave
    have hwritten : Reached x d others ⟨.written r book,
        .listing (entries.insert (x.unfinished r) (.file (.workbook book)))⟩ :=
      (reached.opened hfolder).next .done (by
        simp only [advance, call_done, Listing.write_insert]
        rfl)
    simp only at hsave
    cases hrename : (entries.insert (x.unfinished r) (.file (.workbook book))).rename
        (x.unfinished r) (x.finished r) with
    | error fault =>
      rw [hrename] at hsave
      cases hsave
      exact (hwritten.next .done (by simp only [advance, call_done, hrename]; rfl)).step .done
    | ok renamed =>
      rw [hrename] at hsave
      cases hsave
      exact hwritten.next .done (by simp only [advance, call_done, hrename]; rfl)

/-- **A handling that is not disturbed comes to what `ReportWorker.process` does.** -/
theorem reached_process (x : Delivery) (d : Directory) :
    Reached x d [] ⟨.ended (ReportWorker.process x.payload x.now ⟨x.store, d⟩).1,
      (ReportWorker.process x.payload x.now ⟨x.store, d⟩).2.reports⟩ := by
  unfold ReportWorker.process
  cases hdecode : Json.Reader.decode ReportRequest.jobReader x.payload with
  | error fault => exact Reached.start.next .done (by simp only [advance, hdecode])
  | ok r =>
    rcases hrun : r.book.run x.store with ⟨fault | outcome, store⟩
    · simp only [ReportWorker.render, hrun]
      exact (reached_decoded d hdecode).next .done (by simp only [advance, hrun])
    · have hloaded : Reached x d [] ⟨.loaded r outcome, d⟩ :=
        reached_loaded d hdecode (congrArg Prod.fst hrun)
      simp only [ReportWorker.render, hrun, ReportRequest.render]
      cases outcome with
      | error fault => exact hloaded.next .done rfl
      | ok book =>
        simp only [Directory.save]
        cases hprepare : d.prepare with
        | error fault =>
          exact (hloaded.step .done).next .done (by
            simp only [advance, DiskAnswer.fault?, DiskOutage.orFail, hprepare]
            rfl)
        | ok entries =>
          simp only
          rcases hsave : Directory.saveIn (Utf8.encode (r.fileName x.now)) book entries with
            ⟨fault | u, after⟩
          · exact (hloaded.prepared hprepare).saved hsave
          · exact (hloaded.prepared hprepare).saved hsave

end Undisturbed

/-! ### What requests see -/

/-- A handling is over, and a name holds the workbook that was built for it: the name that its
request and its time give. -/
def Serves (x : Delivery) (h : Handling) (n : Bytes) : Prop :=
  ∃ r book, x.Asks r ∧ x.Builds r (.ok book) ∧ n = x.finished r ∧
    h.stage = .ended (.ok (r.fileName x.now)) ∧ h.reports.find? n = some (.file (.workbook book))

theorem hidden_of_unfinished {x : Delivery} {n : Bytes} (h : x.Unfinished n) (r : ReportRequest) :
    ¬r.Sees n := by
  obtain ⟨asked, -, hname⟩ := h
  rw [hname]
  exact r.not_sees_unfinished _

/-- What a request sees is as it was, or is the complete workbook of a handling that has ended. -/
theorem Sound.kept_or_serves {x : Delivery} {d : Directory} {others : List Bytes} {h : Handling}
    (hs : h.Sound x d others) {n : Bytes} (hothers : n ∉ others) (hfinished : ¬x.Unfinished n) :
    h.reports.find? n = d.find? n ∨ h.Serves x n := by
  by_cases hown : h.stage.Own x n
  · obtain ⟨stage, reports⟩ := h
    cases stage with
    | ended result =>
      cases result with
      | error fault => exact absurd hown hfinished
      | ok name =>
        obtain ⟨asked, book, hasks, hbuilds, rfl, -, hfinal⟩ := hs.stage
        have hname : n = x.finished asked := hown.resolve_left hfinished
        rw [hname] at hothers ⊢
        exact .inr ⟨asked, book, hasks, hbuilds, rfl, rfl, hfinal hothers⟩
    | _ => exact absurd hown hfinished
  · exact .inl (hs.kept.entries n hothers hown)

/-- **Only complete reports are served.** At every moment in the handling of a delivery, and for
every request: a name that the request can lead to stands for what it stood for before the delivery,
or it is the one that the handling has given to the complete workbook of the delivery, as far as
others do not touch the name. Once the handling has ended with a fault, all names stand for what
they stood for, and if nobody else did anything, the same file is found for the request, and the
files that it can lead to hold the same. -/
theorem only_complete_reports_served {x : Delivery} {d : Directory} {others : List Bytes}
    {h : Handling} (reached : Reached x d others h) (r : ReportRequest) :
    (∀ n, r.Sees n → n ∉ others → h.reports.find? n = d.find? n ∨ h.Serves x n) ∧
      ∀ fault, h.stage = .ended (.error fault) →
        (∀ n, r.Sees n → n ∉ others → h.reports.find? n = d.find? n) ∧
          (others = [] → h.reports.newest r = d.newest r ∧
            ∀ name, r.matchesName name = true → h.reports.load name = d.load name) := by
  have hs := sound_of_reached reached
  have hserved : ∀ n, r.Sees n → n ∉ others →
      h.reports.find? n = d.find? n ∨ h.Serves x n :=
    fun n hn hothers => hs.kept_or_serves hothers fun hpart => hidden_of_unfinished hpart r hn
  refine ⟨hserved, fun fault hfault => ?_⟩
  have hsame : ∀ n, r.Sees n → n ∉ others → h.reports.find? n = d.find? n := by
    intro n hn hothers
    refine (hserved n hn hothers).resolve_right ?_
    rintro ⟨asked, book, -, -, -, hover, -⟩
    rw [hfault] at hover
    cases hover
  refine ⟨hsame, ?_⟩
  rintro rfl
  have hall := fun n hn => hsame n hn List.not_mem_nil
  exact ⟨Directory.newest_congr hs.kept.blocked hall, fun name hname =>
    Directory.load_congr hs.kept.blocked (hall _ (ReportRequest.sees_encode.2 hname))⟩

/-! ### A handling that is stopped -/

namespace Sample

open ReportLine.Sample (asked noon)

/-- The job of a report, which is worked off at noon. -/
def delivery : Delivery := asked.delivery noon .empty

/-- The sheet of a pair that has no price. -/
def sheet : Workbook :=
  ⟨"Price History", [["No", "Commodity ID", "Location ID", "Price", "Status", "Created At",
    "Updated At"].map Cell.ofText]⟩

/-- An older report of the same request, and what is left of a rendering that was stopped. -/
def littered : Listing :=
  [(Utf8.encode (asked.fileName MadeOf.Sample.newYear), .file (.workbook sheet)),
    (delivery.unfinished asked, .file (.bytes [7]))]

/-- Two bytes of the file have been written. -/
def stopped : Handling :=
  ⟨.writing asked sheet,
    .listing (littered.insert (delivery.unfinished asked) (.file (.bytes [80, 75])))⟩

theorem ofSnapshots_empty (pair : Pair) (range : DateRange) :
    Workbook.ofSnapshots (range.select (Tables.empty.history pair).snapshots) = .ok sheet := by
  have hhistory : (Tables.empty.history pair).snapshots = [] := by
    simp [Tables.history, Tables.archivedOf, Tables.archivedInOrder, Tables.livePriceOf?,
      Tables.empty, PriceHistory.snapshots]
  rw [hhistory]
  rfl

theorem builds_sheet : delivery.Builds asked (.ok sheet) := by
  have works : Database.empty.RefusesNothing := fun _ _ => rfl
  have hrun := Work.run_of_refusesNothing asked.book works
  rw [asked, ReportRequest.eval_book] at hrun
  rw [← ofSnapshots_empty]
  exact congrArg Prod.fst hrun

theorem files_littered : ∀ e ∈ littered, e.2 ≠ .folder := by simp [littered]

theorem reached_stopped : Reached delivery (.listing littered) [] stopped := by
  have hfolder : littered.find? (delivery.unfinished asked) ≠ some .folder :=
    fun hfolder => files_littered _ (Json.Record.mem_of_lookup_eq_some hfolder) rfl
  have hloaded := reached_loaded (.listing littered) (asked.asks_delivery noon .empty)
    builds_sheet
  exact ((hloaded.prepared rfl).opened hfolder).partly [80, 75]

end Sample

open Sample ReportLine.Sample in
/-- A worker that is stopped in the middle of a file leaves its beginning in place of an older one,
and no request sees that anything has happened. -/
theorem only_complete_reports_served_sample :
    Reached delivery (.listing littered) [] stopped ∧
      stopped.reports.find? (delivery.unfinished asked) = some (.file (.bytes [80, 75])) ∧
      ∀ (r : ReportRequest) (n : Bytes), r.Sees n →
        stopped.reports.find? n = (Directory.listing littered).find? n := by
  refine ⟨reached_stopped, Listing.find?_insert_self, fun r n hn => ?_⟩
  obtain ⟨hserved, -⟩ := only_complete_reports_served reached_stopped r
  refine (hserved n hn List.not_mem_nil).resolve_right ?_
  rintro ⟨r', book, -, -, -, hover, -⟩
  cases hover

end Handling

end CropLedger
