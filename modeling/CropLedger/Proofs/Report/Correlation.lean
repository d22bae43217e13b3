import CropLedger.Proofs.Report.Jobs
import CropLedger.Proofs.Report.Names
import CropLedger.Proofs.Report.Outages
import CropLedger.Proofs.Text.Utf8
import CropLedger.Report.Dispatcher

/-!
# Reports find who asked for them

Nothing but the request itself ties a report to who asked for it. Calls, deliveries, workers and
polls may come in any order, jobs may be lost, and the broker, the store and the disk may fail; yet
a poll finds a report if and only if one was rendered for a job of that very request.

* `ReportLine`: what is under way between requests and reports;
* `ReportLine.Reaches`: the states that calls, deliveries and workers lead to;
* `ReportLine.Sound`: the invariant, with `ReportLine.Filed` for the directory;
* `ReportLine.reports_correlate`: what a poll finds, and how often a report can be rendered.
-/

namespace CropLedger

variable {τ : Type}

/-! ### Names in the directory -/

namespace Directory

variable {r : ReportRequest} {entries : Listing} {name : String}

theorem mem_names : name ∈ names entries ↔ ∃ n, entries.Has n ∧ Utf8.decode? n = some name := by
  simp only [names, List.mem_filterMap, Listing.Has]
  constructor
  · rintro ⟨e, he, hd⟩
    exact ⟨e.1, ⟨e, he, rfl⟩, hd⟩
  · rintro ⟨n, ⟨e, he, rfl⟩, hd⟩
    exact ⟨e, he, hd⟩

theorem foldl_later_some (latest : String) (found : List String) :
    ∃ last, found.foldl later (some latest) = some last ∧ (last = latest ∨ last ∈ found) := by
  induction found generalizing latest with
  | nil => exact ⟨latest, rfl, .inl rfl⟩
  | cons name found ih =>
    simp only [List.foldl_cons, later]
    split
    · obtain ⟨last, hl, hm⟩ := ih name
      refine ⟨last, hl, .inr ?_⟩
      rcases hm with rfl | hm
      · exact List.mem_cons_self
      · exact List.mem_cons_of_mem _ hm
    · obtain ⟨last, hl, hm⟩ := ih latest
      exact ⟨last, hl, hm.imp_right (List.mem_cons_of_mem _)⟩

/-- The greatest matching name is one of the matching names, and there is none only if none of the
names matches. -/
theorem newestName?_cases (r : ReportRequest) (entries : Listing) :
    (∃ name, newestName? r entries = some name ∧ name ∈ names entries ∧ r.matchesName name = true) ∨
    newestName? r entries = none ∧ ∀ name ∈ names entries, r.matchesName name = false := by
  unfold newestName?
  cases hf : (names entries).filter r.matchesName with
  | nil =>
    refine .inr ⟨rfl, fun name hn => ?_⟩
    simpa using List.filter_eq_nil_iff.1 hf name hn
  | cons first found =>
    obtain ⟨last, hl, hm⟩ := foldl_later_some first found
    have hmem : last ∈ (names entries).filter r.matchesName := by
      rw [hf]
      rcases hm with rfl | hm
      · exact List.mem_cons_self
      · exact List.mem_cons_of_mem _ hm
    exact .inl ⟨last, hl, List.mem_filter.1 hmem⟩

theorem newest_listing : (Directory.listing entries).newest r = .ok name ↔
    newestName? r entries = some name := by
  simp only [newest]
  cases newestName? r entries <;> simp

theorem unfinished_encode (name : String) :
    unfinished (Utf8.encode name) = Utf8.encode (name ++ ".part") := by
  simp [unfinished, Utf8.encode]

end Directory

/-! ### Calls -/

/-- A publisher that notes what it is handed. -/
def Publisher.noting (p : Publisher τ) : Publisher (τ × List Message) where
  publish m s := ((p.publish m s.1).1, (p.publish m s.1).2, m :: s.2)

/-- A dispatcher whose publisher notes what it is handed. -/
def Dispatcher.noting (d : Dispatcher τ) : Dispatcher (τ × List Message) :=
  ⟨d.publisher.noting, d.exchange, d.baseUrl⟩

/-- **What a call for a report comes to**: a range that is none publishes nothing; for any other one
the job is published once, and there is a ticket if the broker takes it. -/
inductive Dispatcher.Requested (d : Dispatcher τ) (r : ReportRequest) (b : τ × List Message) :
    Except DispatchFault ReportTicket × τ × List Message → Prop
  | inverted {fault : RangeFault} (none : r.range.last < r.range.first) :
    Requested d r b (.error (.range fault), b)
  | taken (valid : r.range.first ≤ r.range.last)
    (acked : (d.publisher.publish (d.job r) b.1).1 = .ok ()) :
    Requested d r b
      (.ok (.of r d.baseUrl), (d.publisher.publish (d.job r) b.1).2, d.job r :: b.2)
  | failed {fault : BrokerFault} (valid : r.range.first ≤ r.range.last)
    (failed : (d.publisher.publish (d.job r) b.1).1 = .error fault) :
    Requested d r b
      (.error (.publish fault), (d.publisher.publish (d.job r) b.1).2, d.job r :: b.2)

theorem Dispatcher.requested (d : Dispatcher τ) (r : ReportRequest) (b : τ × List Message) :
    Requested d r b (d.noting.request r b) := by
  unfold Dispatcher.request
  cases hc : r.range.check with
  | error fault =>
    have hinverted : r.range.last < r.range.first := by
      unfold DateRange.check at hc
      split at hc
      · assumption
      · cases hc
    exact .inverted hinverted
  | ok u =>
    have hvalid := (DateRange.check_eq_ok_iff _).1 hc
    rcases hp : d.publisher.publish (d.job r) b.1 with ⟨answer, broker⟩
    have hnoted : d.noting.publisher.publish (d.noting.job r) b =
        (answer, broker, d.job r :: b.2) := by
      show ((d.publisher.publish (d.job r) b.1).1, (d.publisher.publish (d.job r) b.1).2, _) = _
      rw [hp]
      rfl
    have hbroker : broker = (d.publisher.publish (d.job r) b.1).2 := by rw [hp]
    simp only [hnoted]
    rw [hbroker]
    cases answer with
    | ok v => exact .taken hvalid (by rw [hp])
    | error fault => exact .failed hvalid (by rw [hp])

theorem Dispatcher.payload_job (d : Dispatcher τ) (r : ReportRequest) :
    (d.job r).payload = r.jobBytes := rfl

/-! ### What is under way -/

/-- A message, and the request that it was published for. -/
structure ReportJob where
  request : ReportRequest
  message : Message

/-- A report that was rendered: the request that its job was published for, the time, and the name
of the file. -/
structure Rendering where
  request : ReportRequest
  time : Timestamp
  name : String

/-- What is under way between requests and reports: the broker, the jobs that it holds and those
that stand in a queue, the directory, and what was asked for and rendered, latest first. -/
structure ReportLine (τ : Type) where
  broker : τ
  published : List ReportJob
  queued : List (ReportKind × ReportJob)
  reports : Directory
  calls : List ReportRequest
  renderings : List Rendering

namespace ReportLine

/-- Nothing was asked for, and no report is there. -/
def opened (broker : τ) : ReportLine τ := ⟨broker, [], [], .listing [], [], []⟩

/-- A call for a report; what it publishes is for its request. -/
def call (d : Dispatcher τ) (r : ReportRequest) (s : ReportLine τ) :
    Except DispatchFault ReportTicket × ReportLine τ :=
  let (answer, broker, messages) := d.noting.request r (s.broker, [])
  (answer, { s with
    broker
    published := messages.map (⟨r, ·⟩) ++ s.published
    calls := r :: s.calls })

/-- A job is worked off, with the store and the disk as they happen to be. -/
def workOff (job : ReportJob) (store : Database) (disk : DiskOutage) (now : Timestamp)
    (s : ReportLine τ) : ReportLine τ :=
  let (answer, worker) :=
    ReportWorker.processDuring disk job.message.payload now ⟨store, s.reports⟩
  { s with
    reports := worker.reports
    renderings := (answer.toOption.map (⟨job.request, now, ·⟩)).toList ++ s.renderings }

/-- **The states that calls, deliveries and workers lead to**, in any order. A published job may be
delivered to the queue that is bound under its key, and a job in a queue may be handed to a worker;
either is done at most once. The broker may change at any time. -/
inductive Reaches (d : Dispatcher τ) : ReportLine τ → Prop
  | opened (broker : τ) : Reaches d (opened broker)
  | called {s : ReportLine τ} (h : Reaches d s) (r : ReportRequest) : Reaches d (s.call d r).2
  | delivered {s : ReportLine τ} (h : Reaches d s) {before after : List ReportJob}
    {job : ReportJob} (published : s.published = before ++ job :: after) {kind : ReportKind}
    (bound : job.message.routingKey = kind.routingKey) :
    Reaches d { s with published := before ++ after, queued := (kind, job) :: s.queued }
  | handled {s : ReportLine τ} (h : Reaches d s) {before after : List (ReportKind × ReportJob)}
    {kind : ReportKind} {job : ReportJob} (queued : s.queued = before ++ (kind, job) :: after)
    (store : Database) (disk : DiskOutage) (now : Timestamp) :
    Reaches d ({ s with queued := before ++ after }.workOff job store disk now)
  | passed {s : ReportLine τ} (h : Reaches d s) (broker : τ) : Reaches d { s with broker }

/-! ### The invariant -/

/-- Whether a call is one for a request, with a range that is one. -/
def asksFor (r call : ReportRequest) : Bool := call = r && call.range.first ≤ call.range.last

/-- How many jobs of a request are published or queued. -/
def inFlight (r : ReportRequest) (s : ReportLine τ) : Nat :=
  s.published.countP (·.request = r) + s.queued.countP (·.2.request = r)

/-- How many reports were rendered for jobs of a request. -/
def rendered (r : ReportRequest) (s : ReportLine τ) : Nat := s.renderings.countP (·.request = r)

/-- How many calls for a request had a range that is one. -/
def called (r : ReportRequest) (s : ReportLine τ) : Nat := s.calls.countP (asksFor r)

/-- The files are those that were rendered, under their names, and some that are not finished. -/
structure Filed (renderings : List Rendering) (entries : Listing) : Prop where
  named : ∀ x ∈ renderings, x.name = x.request.fileName x.time
  present : ∀ x ∈ renderings, entries.Has (Utf8.encode x.name)
  only : ∀ n, entries.Has n → (∃ x ∈ renderings, n = Utf8.encode x.name) ∨
    ∃ name : String, n = Utf8.encode (name ++ ".part")

/-- **The invariant**: jobs carry their requests, the files are those that were rendered, and every
rendering and every job in flight stems from a call of its own. -/
structure Sound (s : ReportLine τ) : Prop where
  published : ∀ job ∈ s.published, job.message.payload = job.request.jobBytes
  queued : ∀ x ∈ s.queued, x.2.message.payload = x.2.request.jobBytes
  filed : ∃ entries, s.reports = .listing entries ∧ Filed s.renderings entries
  counted : ∀ r, s.rendered r + s.inFlight r ≤ s.called r

theorem sound_opened (broker : τ) : (opened broker).Sound where
  published _ h := nomatch h
  queued _ h := nomatch h
  filed := ⟨[], rfl, fun _ h => (nomatch h), fun _ h => (nomatch h), fun _ ⟨_, h, _⟩ => (nomatch h)⟩
  counted r := by simp [rendered, inFlight, called, opened]

theorem Sound.call {d : Dispatcher τ} {s : ReportLine τ} (h : s.Sound) (r : ReportRequest) :
    (s.call d r).2.Sound := by
  have hr := d.requested r (s.broker, [])
  unfold ReportLine.call
  generalize d.noting.request r (s.broker, []) = outcome at hr
  cases hr with
  | inverted =>
    refine ⟨h.published, h.queued, h.filed, fun r' => ?_⟩
    have := h.counted r'
    simp only [rendered, inFlight, called, List.map_nil, List.nil_append, List.countP_cons] at *
    omega
  | taken valid | failed valid =>
    refine ⟨?_, h.queued, h.filed, fun r' => ?_⟩
    · intro job hj
      rcases List.mem_cons.1 hj with rfl | hj
      · exact d.payload_job r
      · exact h.published job hj
    · have := h.counted r'
      have hv : asksFor r' r = decide (r = r') := by simp [asksFor, valid]
      simp only [rendered, inFlight, called, List.map_cons, List.map_nil, List.cons_append,
        List.nil_append, List.countP_cons, hv] at *
      omega

theorem Sound.delivered {s : ReportLine τ} (h : s.Sound) {before after : List ReportJob}
    {job : ReportJob} (published : s.published = before ++ job :: after) (kind : ReportKind) :
    Sound { s with published := before ++ after, queued := (kind, job) :: s.queued } := by
  have hmem : ∀ x ∈ before ++ job :: after, x.message.payload = x.request.jobBytes :=
    fun x hx => h.published x (published ▸ hx)
  refine ⟨fun x hx => ?_, fun x hx => ?_, h.filed, fun r => ?_⟩
  · exact hmem x (((List.sublist_cons_self job after).append_left before).subset hx)
  · rcases List.mem_cons.1 hx with rfl | hx
    · exact hmem job (List.mem_append_right _ List.mem_cons_self)
    · exact h.queued x hx
  · have := h.counted r
    simp only [rendered, inFlight, called, published, List.countP_append, List.countP_cons] at *
    omega

/-! ### Working off -/

theorem finished_ne_unfinished (r : ReportRequest) (t : Timestamp) (name : String) :
    Utf8.encode (r.fileName t) ≠ Directory.unfinished (Utf8.encode name) := by
  intro h
  rw [Directory.unfinished_encode] at h
  have hpart := r.matchesName_part name
  rw [← Utf8.encode_injective h, ReportRequest.matchesName_fileName.2 rfl] at hpart
  cases hpart

/-- A rendering that fails leaves at most an unfinished file behind. -/
theorem Filed.failed {renderings : List Rendering} {before after : Listing}
    (h : Filed renderings before) {name : String}
    (spoilt : Directory.SavedAs (Utf8.encode name) False before after) :
    Filed renderings after where
  named := h.named
  present x hx := by
    refine spoilt.kept _ (h.present x hx) ?_
    rw [h.named x hx]
    exact finished_ne_unfinished _ _ _
  only n hn := by
    rcases spoilt.added n hn with hn | hn | ⟨hf, -⟩
    · exact h.only n hn
    · exact .inr ⟨name, hn.trans (Directory.unfinished_encode _)⟩
    · exact hf.elim

/-- A report that is rendered is a file of its own name, and takes no other name away. -/
theorem Filed.done {renderings : List Rendering} {before after : Listing}
    (h : Filed renderings before) {r : ReportRequest} {now : Timestamp}
    (saved : Directory.SavedAs (Utf8.encode (r.fileName now)) True before after) :
    Filed (⟨r, now, r.fileName now⟩ :: renderings) after where
  named x hx := by
    rcases List.mem_cons.1 hx with rfl | hx
    · rfl
    · exact h.named x hx
  present x hx := by
    rcases List.mem_cons.1 hx with rfl | hx
    · exact saved.finished trivial
    · refine saved.kept _ (h.present x hx) ?_
      rw [h.named x hx]
      exact finished_ne_unfinished _ _ _
  only n hn := by
    rcases saved.added n hn with hn | hn | ⟨-, hn⟩
    · rcases h.only n hn with ⟨x, hx, he⟩ | hpart
      · exact .inl ⟨x, List.mem_cons_of_mem _ hx, he⟩
      · exact .inr hpart
    · exact .inr ⟨r.fileName now, hn.trans (Directory.unfinished_encode _)⟩
    · exact .inl ⟨⟨r, now, r.fileName now⟩, List.mem_cons_self, hn⟩

theorem processDuring_jobBytes (o : DiskOutage) (r : ReportRequest) (now : Timestamp)
    (w : ReportWorker) :
    ReportWorker.processDuring o r.jobBytes now w = ReportWorker.renderDuring o r now w := by
  simp only [ReportWorker.processDuring, ReportRequest.decode_jobBytes]

theorem renderings_workOff {job : ReportJob} (h : job.message.payload = job.request.jobBytes)
    (store : Database) (disk : DiskOutage) (now : Timestamp) (s : ReportLine τ) :
    (s.workOff job store disk now).renderings =
      ((ReportWorker.renderDuring disk job.request now ⟨store, s.reports⟩).1.toOption.map
        (⟨job.request, now, ·⟩)).toList ++ s.renderings := by
  simp only [workOff, h, processDuring_jobBytes]

theorem Sound.handled {s : ReportLine τ} (h : s.Sound)
    {before after : List (ReportKind × ReportJob)} {kind : ReportKind} {job : ReportJob}
    (queued : s.queued = before ++ (kind, job) :: after) (store : Database) (disk : DiskOutage)
    (now : Timestamp) : Sound ({ s with queued := before ++ after }.workOff job store disk now) := by
  have hmem : ∀ x ∈ before ++ (kind, job) :: after, x.2.message.payload = x.2.request.jobBytes :=
    fun x hx => h.queued x (queued ▸ hx)
  have hpayload : job.message.payload = job.request.jobBytes :=
    hmem (kind, job) (List.mem_append_right _ List.mem_cons_self)
  have hqueued : ∀ x ∈ before ++ after, x.2.message.payload = x.2.request.jobBytes :=
    fun x hx => hmem x (((List.sublist_cons_self _ after).append_left before).subset hx)
  obtain ⟨entries, hentries, hfiled⟩ := h.filed
  have hworked := ReportWorker.rendered disk job.request now store entries
  unfold workOff
  simp only [hpayload, processDuring_jobBytes, hentries]
  generalize ReportWorker.renderDuring disk job.request now ⟨store, .listing entries⟩ = outcome
    at hworked
  cases hworked with
  | @done store' after' saved =>
    refine ⟨h.published, hqueued, ⟨after', rfl, hfiled.done saved⟩, fun r => ?_⟩
    -- the job has left the queue and counts among the renderings from now on
    have := h.counted r
    simp only [rendered, inFlight, called, queued, Except.toOption, Option.map_some,
      Option.toList_some, List.cons_append, List.nil_append, List.countP_append,
      List.countP_cons] at *
    omega
  | @failed fault store' after' spoilt =>
    refine ⟨h.published, hqueued, ⟨after', rfl, hfiled.failed spoilt⟩, fun r => ?_⟩
    have := h.counted r
    simp only [rendered, inFlight, called, queued, Except.toOption, Option.map_none,
      Option.toList_none, List.nil_append, List.countP_append, List.countP_cons] at *
    omega

theorem sound_of_reaches {d : Dispatcher τ} {s : ReportLine τ} (h : Reaches d s) : s.Sound := by
  induction h with
  | opened broker => exact sound_opened broker
  | called _ r ih => exact ih.call r
  | delivered _ published bound ih => exact ih.delivered published _
  | handled _ queued store disk now ih => exact ih.handled queued store disk now
  | passed _ broker ih => exact ⟨ih.published, ih.queued, ih.filed, ih.counted⟩

/-! ### Polls -/

/-- What there is to say about the reports of a request in some state. -/
structure Correlates (d : Dispatcher τ) (s : ReportLine τ) (r : ReportRequest) : Prop where
  /-- A poll finds a file if and only if a job of that request was rendered. -/
  found_iff : (∃ name, s.reports.newest r = .ok name) ↔ ∃ x ∈ s.renderings, x.request = r
  /-- The file that is found was rendered for a job of that request. -/
  own : ∀ name, s.reports.newest r = .ok name →
    ∃ x ∈ s.renderings, x.request = r ∧ x.name = name ∧ name = r.fileName x.time
  /-- No more reports are rendered than were asked for with a range that is one. -/
  counted : s.rendered r ≤ s.called r
  /-- A call whose range is none publishes nothing. -/
  inverted : r.range.last < r.range.first → (s.call d r).2.published = s.published
  /-- Any call publishes at most the one job of its request. -/
  single : (s.call d r).2.published = s.published ∨
    (s.call d r).2.published = ⟨r, d.job r⟩ :: s.published
  /-- There is a ticket only for a job that the broker took. -/
  ticketed : ∀ ticket, (s.call d r).1 = .ok ticket →
    (d.publisher.publish (d.job r) s.broker).1 = .ok ()

theorem Sound.own {s : ReportLine τ} (hs : s.Sound) {r : ReportRequest} {name : String}
    (h : s.reports.newest r = .ok name) :
    ∃ x ∈ s.renderings, x.request = r ∧ x.name = name ∧ name = r.fileName x.time := by
  obtain ⟨entries, hentries, hfiled⟩ := hs.filed
  rw [hentries, Directory.newest_listing] at h
  rcases Directory.newestName?_cases r entries with ⟨found, hf, hmem, hmatch⟩ | ⟨hf, -⟩
  · rw [hf] at h
    cases h
    obtain ⟨n, hn, hd⟩ := Directory.mem_names.1 hmem
    -- what is found is finished, and so it carries the request that it was rendered for
    rcases hfiled.only n hn with ⟨x, hx, rfl⟩ | ⟨unfinished, rfl⟩
    · have hname : x.name = name := Option.some.inj ((Utf8.decode?_encode _).symm.trans hd)
      have hfile : name = x.request.fileName x.time := hname.symm.trans (hfiled.named x hx)
      rw [hfile] at hmatch
      obtain rfl := ReportRequest.matchesName_fileName.1 hmatch
      exact ⟨x, hx, rfl, hname, hfile⟩
    · have hname : unfinished ++ ".part" = name :=
        Option.some.inj ((Utf8.decode?_encode _).symm.trans hd)
      rw [← hname, ReportRequest.matchesName_part] at hmatch
      cases hmatch
  · rw [hf] at h
    cases h

theorem Sound.found {s : ReportLine τ} (hs : s.Sound) {x : Rendering} (hx : x ∈ s.renderings) :
    ∃ name, s.reports.newest x.request = .ok name := by
  obtain ⟨entries, hentries, hfiled⟩ := hs.filed
  have hmem : x.name ∈ Directory.names entries :=
    Directory.mem_names.2 ⟨_, hfiled.present x hx, Utf8.decode?_encode _⟩
  have hmatch : x.request.matchesName x.name = true := by
    rw [hfiled.named x hx]
    exact ReportRequest.matchesName_fileName.2 rfl
  rcases Directory.newestName?_cases x.request entries with ⟨found, hf, -⟩ | ⟨-, hnone⟩
  · refine ⟨found, ?_⟩
    rw [hentries]
    exact Directory.newest_listing.2 hf
  · rw [hnone _ hmem] at hmatch
    cases hmatch

/-- **Reports find who asked for them**, whatever the order of calls, deliveries and workers was,
whatever was lost, and whatever the broker, the store and the disk failed to do. -/
theorem reports_correlate {d : Dispatcher τ} {s : ReportLine τ} (h : Reaches d s)
    (r : ReportRequest) : Correlates d s r := by
  have hs := sound_of_reaches h
  have hcall := d.requested r (s.broker, [])
  refine ⟨⟨?_, ?_⟩, fun _ => hs.own, ?_, ?_, ?_, ?_⟩
  · rintro ⟨name, hname⟩
    obtain ⟨x, hx, hr, -⟩ := hs.own hname
    exact ⟨x, hx, hr⟩
  · rintro ⟨x, hx, rfl⟩
    exact hs.found hx
  · have := hs.counted r
    omega
  · intro hinverted
    unfold call
    generalize d.noting.request r (s.broker, []) = outcome at hcall
    cases hcall with
    | inverted => rfl
    | taken valid | failed valid =>
      exact absurd hinverted (Int.not_lt.2 valid)
  · unfold call
    generalize d.noting.request r (s.broker, []) = outcome at hcall
    cases hcall with
    | inverted => exact .inl rfl
    | taken | failed => exact .inr rfl
  · intro ticket ht
    unfold call at ht
    generalize d.noting.request r (s.broker, []) = outcome at hcall ht
    cases hcall with
    | inverted | failed => cases ht
    | taken valid acked => exact acked

/-! ### A run -/

namespace Sample

/-- A dispatcher whose broker takes every job. -/
def dispatcher : Dispatcher Outbox := ⟨Outbox.publisher, "reports", "http://localhost"⟩

/-- The two days that reports are asked for. -/
def range : DateRange := ⟨⟨2024, 3, 1, by decide⟩, ⟨2024, 3, 2, by decide⟩⟩

/-- A report of a pair. -/
def asked : ReportRequest := ⟨.priceHistory ⟨⟨7⟩, ⟨8⟩⟩, range⟩

/-- The same report but for the order of the identifiers. -/
def swapped : ReportRequest := ⟨.priceHistory ⟨⟨8⟩, ⟨7⟩⟩, range⟩

/-- A point in time. -/
def noon : Timestamp := .ofUtc range.last 720 0 0 (by decide) (by decide) (by decide)

/-- Both reports were asked for. -/
def bothAsked : ReportLine Outbox :=
  ((((opened .empty).call dispatcher asked).2).call dispatcher swapped).2

/-- The job of the first one is in its queue. -/
def waiting : ReportLine Outbox :=
  { bothAsked with
    published := [⟨swapped, dispatcher.job swapped⟩] ++ []
    queued := (.priceHistory, ⟨asked, dispatcher.job asked⟩) :: bothAsked.queued }

/-- The job in the queue was worked off. -/
def served : ReportLine Outbox :=
  { waiting with queued := [] ++ [] }.workOff ⟨asked, dispatcher.job asked⟩ .empty .none noon

theorem published_bothAsked : bothAsked.published =
    [⟨swapped, dispatcher.job swapped⟩] ++ ⟨asked, dispatcher.job asked⟩ :: [] := rfl

theorem queued_waiting : waiting.queued =
    [] ++ (ReportKind.priceHistory, ⟨asked, dispatcher.job asked⟩) :: [] := rfl

theorem bound_asked :
    (dispatcher.job asked).routingKey = ReportKind.priceHistory.routingKey := rfl

theorem reaches_bothAsked : Reaches dispatcher bothAsked :=
  .called (.called (.opened Outbox.empty) asked) swapped

theorem reaches_waiting : Reaches dispatcher waiting :=
  .delivered reaches_bothAsked published_bothAsked bound_asked

theorem reaches_served : Reaches dispatcher served :=
  .handled reaches_waiting queued_waiting .empty .none noon

theorem render_asked :
    (ReportWorker.renderDuring .none asked noon ⟨.empty, .listing []⟩).1.toOption =
      some (asked.fileName noon) := by decide +kernel

theorem renderings_served : served.renderings = [⟨asked, noon, asked.fileName noon⟩] := by
  have hpayload := dispatcher.payload_job asked
  rw [served, @renderings_workOff _ ⟨asked, dispatcher.job asked⟩ hpayload]
  have hreports : waiting.reports = .listing [] := rfl
  have hrenderings : waiting.renderings = [] := rfl
  simp only [hreports, hrenderings, render_asked]
  rfl

end Sample

open Sample in
/-- Of two reports that differ in the order of identifiers one is there, and the other one is not. -/
theorem reports_correlate_sample :
    Reaches dispatcher served ∧ (∃ name, served.reports.newest asked = .ok name) ∧
      (¬∃ name, served.reports.newest swapped = .ok name) ∧
      served.rendered asked = 1 ∧ 1 ≤ served.called asked := by
  have hasked := reports_correlate reaches_served asked
  have hswapped := reports_correlate reaches_served swapped
  have hone : served.rendered asked = 1 := by
    rw [rendered, renderings_served]
    rfl
  refine ⟨reaches_served, hasked.found_iff.2 ?_, fun hfound => ?_, hone, hone ▸ hasked.counted⟩
  · rw [renderings_served]
    exact ⟨_, List.mem_singleton_self _, rfl⟩
  · obtain ⟨x, hx, hr⟩ := hswapped.found_iff.1 hfound
    rw [renderings_served] at hx
    obtain rfl := List.mem_singleton.1 hx
    exact absurd hr (by decide)

end ReportLine

end CropLedger
