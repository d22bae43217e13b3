import CropLedger.Broker.Consumer
import CropLedger.Proofs.Report.Handling

/-!
# Failed jobs harm no other job

A consumer hands on every delivery that it sees, once and in order, and after any failure sets
itself up again. The handling of one that fails leaves the directory as it was, but for unfinished
files; and which unfinished files there are makes no difference to the handling of the next one. So
without the deliveries that fail, all others would have come to the same.

* `Consumer.CanSee`, `Consumer.handled_step`: which events there can be, and what is handed on;
* `Consumed`: what comes of events, one delivery after another;
* `Directory.SameReports`: directories that differ in no more than in unfinished files;
* `Handling.Reached.failed_kept`, `Handling.Reached.again`: a delivery that fails, and one that is
  handled in a directory with other unfinished files;
* `failed_jobs_harm_no_other`: the two runs compared.
-/

namespace CropLedger

/-! ### What a consumer sees and hands on -/

namespace Consumer

/-- The events that a consumer can see: only one that is set up is sent deliveries, faults and the
end of its deliveries, and only one that is not sets itself up. -/
def CanSee (c : Consumer) : ConsumerEvent → Prop
  | .setupFailed | .setUp => c.isSetUp = false
  | .delivery _ | .deliveryFailed | .ended => c.isSetUp = true

/-- The events that a consumer can see one after another. -/
def Sees (c : Consumer) : List ConsumerEvent → Prop
  | [] => True
  | e :: events => c.CanSee e ∧ (c.step e).2.Sees events

/-- The payloads that are delivered by events. -/
def delivered (events : List ConsumerEvent) : List Bytes :=
  events.filterMap fun
    | .delivery payload => some payload
    | _ => none

/-- What a consumer hands on is what it is delivered. -/
theorem handled_step {c : Consumer} {e : ConsumerEvent} (h : c.CanSee e) :
    handled (c.step e).1 = delivered [e] := by
  cases e with
  | setupFailed =>
    simp only [step, if_neg (Bool.eq_false_iff.1 h)]
    rfl
  | setUp => rfl
  | delivery payload =>
    simp only [step, if_pos (show c.isSetUp = true from h)]
    rfl
  | deliveryFailed | ended =>
    simp only [step, if_pos (show c.isSetUp = true from h)]
    rfl

theorem handled_run {c : Consumer} {events : List ConsumerEvent} (h : c.Sees events) :
    handled (c.run events) = delivered events := by
  induction events generalizing c with
  | nil => rfl
  | cons e events ih =>
    have hfirst := handled_step h.1
    rw [run, handled, List.filterMap_append]
    change handled (c.step e).1 ++ handled ((c.step e).2.run events) = _
    rw [hfirst, ih h.2, delivered, delivered, delivered, ← List.filterMap_append]
    rfl

end Consumer

/-! ### What comes of deliveries -/

/-- A delivery with what came of it. -/
structure Attempt extends Delivery where
  result : Except WorkerFault String

/-- Whether a report was rendered. -/
def Attempt.succeeded (x : Attempt) : Bool := x.result.isOk

/-- What happens to a task that consumes jobs. -/
inductive TaskEvent
  | setupFailed
  | setUp
  | delivery (x : Attempt)
  | deliveryFailed
  | ended

namespace TaskEvent

/-- What the consumer sees of an event. -/
def seen : TaskEvent → ConsumerEvent
  | .setupFailed => .setupFailed
  | .setUp => .setUp
  | .delivery x => .delivery x.payload
  | .deliveryFailed => .deliveryFailed
  | .ended => .ended

/-- The delivery that an event is, with what came of it. -/
def attempt? : TaskEvent → Option Attempt
  | .delivery x => some x
  | _ => none

/-- Whether an event is anything but the delivery of a job that fails. -/
def harmless : TaskEvent → Bool
  | .delivery x => x.succeeded
  | _ => true

theorem delivered_seen (events : List TaskEvent) :
    Consumer.delivered (events.map seen) = (events.filterMap attempt?).map (·.payload) := by
  rw [Consumer.delivered, List.filterMap_map, List.map_filterMap]
  congr 1
  funext e
  cases e <;> rfl

end TaskEvent

/-- **What comes of events**: the consumer takes them one by one, and each delivery that it hands on
is handled before the next event. The disk may answer the handling in any way. The deliveries that
are handled are listed with what came of them. -/
inductive Consumed : Consumer → Directory → List TaskEvent → List Attempt → Directory → Prop
  | nil (c : Consumer) (d : Directory) : Consumed c d [] [] d
  | idle {c : Consumer} {d d' : Directory} {e : TaskEvent} {events : List TaskEvent}
    {handled : List Attempt} (canSee : c.CanSee e.seen)
    (nothing : Consumer.handled (c.step e.seen).1 = [])
    (later : Consumed (c.step e.seen).2 d events handled d') : Consumed c d (e :: events) handled d'
  | handled {c : Consumer} {d d' d'' : Directory} {x : Attempt} {events : List TaskEvent}
    {handled : List Attempt} (canSee : c.CanSee (TaskEvent.delivery x).seen)
    (handedOn : Consumer.handled (c.step (TaskEvent.delivery x).seen).1 = [x.payload])
    (reached : Handling.Reached x.toDelivery d [] ⟨.ended x.result, d'⟩)
    (later : Consumed (c.step (TaskEvent.delivery x).seen).2 d' events handled d'') :
    Consumed c d (.delivery x :: events) (x :: handled) d''

/-- What comes of a delivery if it is handled undisturbed. -/
def Delivery.workOff (x : Delivery) (d : Directory) : Except WorkerFault String × Directory :=
  ((ReportWorker.process x.payload x.now ⟨x.store, d⟩).1,
    (ReportWorker.process x.payload x.now ⟨x.store, d⟩).2.reports)

/-- What comes of deliveries that are handled undisturbed, one after another. -/
def Delivery.workOffAll : List Delivery → Directory → List (Except WorkerFault String) × Directory
  | [], d => ([], d)
  | x :: deliveries, d =>
    ((x.workOff d).1 :: (workOffAll deliveries (x.workOff d).2).1,
      (workOffAll deliveries (x.workOff d).2).2)

/-! ### One delivery -/

/-- A name is that of an unfinished file. -/
def Directory.Unfinished (n : Bytes) : Prop :=
  ∃ name : String, n = Directory.unfinished (Utf8.encode name)

/-- **The same reports**: two directories differ in no more than in unfinished files. -/
abbrev Directory.SameReports (d d' : Directory) : Prop :=
  Directory.Kept [] Directory.Unfinished d d'

section SameReports

variable {own : Bytes → Prop} {d d' d₂ d₂' : Directory}

theorem Directory.Kept.symm (h : Directory.Kept [] own d d') : Directory.Kept [] own d' d where
  blocked := h.blocked.symm
  folders n hn := (h.folders n hn).symm
  entries n hn hown := (h.entries n hn hown).symm

/-- Two directories with the same reports still have them after changes to the same names, if these
stand for the same then. -/
theorem Directory.SameReports.changed (same : d.SameReports d₂) (h : Directory.Kept [] own d d')
    (h₂ : Directory.Kept [] own d₂ d₂')
    (hown : ∀ n, own n → ¬Directory.Unfinished n → d₂'.find? n = d'.find? n) :
    d'.SameReports d₂' where
  blocked := h₂.blocked.trans (same.blocked.trans h.blocked.symm)
  folders n hn := (h₂.folders n hn).trans ((same.folders n hn).trans (h.folders n hn).symm)
  entries n hn hfinished := by
    by_cases ho : own n
    · exact hown n ho hfinished
    · rw [h₂.entries n hn ho, same.entries n hn hfinished, h.entries n hn ho]

/-- Where a file has been finished, it can be finished in any directory with the same reports. -/
theorem Directory.SameReports.exists_clear (same : d.SameReports d₂)
    (h : Directory.Kept [] own d d') {name : Bytes} {content : FileContent}
    (hgone : d'.find? (Directory.unfinished name) = none)
    (hfile : d'.find? name = some (.file content)) :
    ∃ entries, d₂.prepare = .ok entries ∧ Directory.Clear name entries := by
  obtain ⟨entries, hprepare⟩ : ∃ entries, d₂.prepare = .ok entries := by
    cases d₂ with
    | file =>
      rw [h.blocked.2 (same.blocked.1 rfl)] at hfile
      cases hfile
    | missing => exact ⟨[], rfl⟩
    | listing entries => exact ⟨entries, rfl⟩
  have hprepared := Directory.kept_prepare Directory.Unfinished hprepare
  have hfolders (n : Bytes) : entries.find? n = some .folder ↔ d'.find? n = some .folder :=
    ((same.trans hprepared).folders n List.not_mem_nil).trans (h.folders n List.not_mem_nil).symm
  refine ⟨entries, hprepare, ?_, ?_⟩
  · rw [Ne, hfolders, hgone]
    exact nofun
  · rw [Ne, hfolders, hfile]
    exact nofun

/-- Requests find the same in both. -/
theorem Directory.SameReports.newest (h : d.SameReports d') (r : ReportRequest) :
    d'.newest r = d.newest r ∧
      ∀ name, r.matchesName name = true → d'.load name = d.load name := by
  have hsame : ∀ n, r.Sees n → d'.find? n = d.find? n := by
    refine fun n hn => h.entries n List.not_mem_nil ?_
    rintro ⟨name, hname⟩
    rw [hname] at hn
    exact r.not_sees_unfinished name hn
  exact ⟨Directory.newest_congr h.blocked hsame, fun name hname =>
    Directory.load_congr h.blocked (hsame _ (ReportRequest.sees_encode.2 hname))⟩

end SameReports

namespace Handling

variable {x : Delivery} {d d' : Directory}

theorem unfinished_of_unfinished {n : Bytes} (h : x.Unfinished n) : Directory.Unfinished n :=
  h.elim fun r hr => ⟨r.fileName x.now, hr.2⟩

/-- **A delivery that fails leaves the reports as they were.** -/
theorem Reached.failed_kept {fault : WorkerFault}
    (reached : Reached x d [] ⟨.ended (.error fault), d'⟩) : d.SameReports d' :=
  (sound_of_reached reached).kept.mono fun _ => unfinished_of_unfinished

/-- A handling that is not disturbed comes to what the delivery is worked off to. -/
theorem reached_workOff (x : Delivery) (d : Directory) :
    Reached x d [] ⟨.ended (x.workOff d).1, (x.workOff d).2⟩ := reached_process x d

/-- **A delivery that succeeds comes to the same where only unfinished files differ.** -/
theorem Reached.again {name : String} {d₂ : Directory}
    (reached : Reached x d [] ⟨.ended (.ok name), d'⟩) (same : d.SameReports d₂) :
    ∃ d₂', x.workOff d₂ = (.ok name, d₂') ∧ d'.SameReports d₂' := by
  obtain ⟨⟨r, book, hasks, hbuilds, rfl, hgone, hfinal⟩, hkept, -⟩ := sound_of_reached reached
  have hfile : d'.find? (x.finished r) = some (.file (.workbook book)) := hfinal List.not_mem_nil
  obtain ⟨entries, hprepare, hclear⟩ := same.exists_clear hkept hgone hfile
  have hprocess := ReportWorker.process_of_clear (w := ⟨x.store, d₂⟩) hasks hbuilds hprepare hclear
  -- what is known of the first handling is known of the second one as well
  have hagain := reached_workOff x d₂
  rcases hworked : x.workOff d₂ with ⟨result, d₂'⟩
  obtain rfl : .ok (r.fileName x.now) = result :=
    (congrArg Prod.fst hprocess).symm.trans (congrArg Prod.fst hworked)
  rw [hworked] at hagain
  obtain ⟨⟨r₂, book₂, hasks₂, hbuilds₂, -, -, hfinal₂⟩, hkept₂, -⟩ := sound_of_reached hagain
  obtain rfl : r = r₂ := Except.ok.inj (hasks.symm.trans hasks₂)
  obtain rfl : book = book₂ := Except.ok.inj (Except.ok.inj (hbuilds.symm.trans hbuilds₂))
  refine ⟨d₂', rfl, same.changed hkept hkept₂ fun n hown hfinished => ?_⟩
  have hname : n = x.finished r :=
    hown.resolve_left fun hpart => hfinished (unfinished_of_unfinished hpart)
  rw [hname, hfile]
  exact hfinal₂ List.not_mem_nil

end Handling

/-! ### A run of deliveries -/

namespace Consumed

variable {c : Consumer} {d d' d'' : Directory} {events later : List TaskEvent}
  {handled more : List Attempt}

/-- The consumer after events. -/
def after (c : Consumer) (events : List TaskEvent) : Consumer :=
  events.foldl (fun c e => (c.step e.seen).2) c

theorem append (run : Consumed c d events handled d')
    (next : Consumed (after c events) d' later more d'') :
    Consumed c d (events ++ later) (handled ++ more) d'' := by
  induction run with
  | nil => exact next
  | idle canSee nothing _ ih => exact .idle canSee nothing (ih next)
  | handled canSee handedOn reached _ ih => exact .handled canSee handedOn reached (ih next)

theorem sees (run : Consumed c d events handled d') : c.Sees (events.map TaskEvent.seen) := by
  induction run with
  | nil => trivial
  | idle canSee _ _ ih => exact ⟨canSee, ih⟩
  | handled canSee _ _ _ ih => exact ⟨canSee, ih⟩

/-- An event of which nothing is handed on is no delivery. -/
theorem attempt?_of_nothing {e : TaskEvent} (canSee : c.CanSee e.seen)
    (nothing : Consumer.handled (c.step e.seen).1 = []) : e.attempt? = none := by
  cases e with
  | delivery x =>
    rw [Consumer.handled_step canSee] at nothing
    cases nothing
  | _ => rfl

/-- **What is handled is what is delivered**, each once and in order. -/
theorem handled_eq (run : Consumed c d events handled d') :
    handled = events.filterMap TaskEvent.attempt? := by
  induction run with
  | nil => rfl
  | idle canSee nothing _ ih =>
    rw [List.filterMap_cons_none (attempt?_of_nothing canSee nothing), ih]
  | handled _ _ _ _ ih => rw [List.filterMap_cons_some (f := TaskEvent.attempt?) rfl, ← ih]

/-- A delivery can always be next, at most after the consumer has been set up. -/
theorem exists_next (c : Consumer) (d : Directory) (x : Delivery) :
    ∃ before ∈ [[], [TaskEvent.setUp]], ∃ result d',
      Consumed c d (before ++ [.delivery ⟨x, result⟩]) [⟨x, result⟩] d' := by
  have hnext (c : Consumer) (hc : c.isSetUp = true) :
      Consumed c d [.delivery ⟨x, (x.workOff d).1⟩] [⟨x, (x.workOff d).1⟩] (x.workOff d).2 :=
    .handled hc (Consumer.handled_step (e := .delivery x.payload) hc) (Handling.reached_workOff x d)
      (.nil _ _)
  by_cases hc : c.isSetUp = true
  · exact ⟨[], by simp, _, _, hnext c hc⟩
  · refine ⟨[.setUp], by simp, _, _, .idle (Bool.eq_false_iff.2 hc) rfl (hnext _ ?_)⟩
    simp [Consumer.step, TaskEvent.seen, hc]

/-- **Without the deliveries that fail all others come to the same.** -/
theorem without_failed (run : Consumed c d events handled d') {d₂ : Directory}
    (same : d.SameReports d₂) :
    ∃ d₂', Consumed c d₂ (events.filter TaskEvent.harmless) (handled.filter Attempt.succeeded) d₂' ∧
      Delivery.workOffAll ((handled.filter Attempt.succeeded).map Attempt.toDelivery) d₂ =
        ((handled.filter Attempt.succeeded).map Attempt.result, d₂') ∧ d'.SameReports d₂' := by
  induction run generalizing d₂ with
  | nil c d => exact ⟨d₂, .nil c d₂, rfl, same⟩
  | @idle c d d' e events handled canSee nothing _ ih =>
    have hharmless : e.harmless = true := by
      have hnone := attempt?_of_nothing canSee nothing
      cases e with
      | delivery x => cases hnone
      | _ => rfl
    obtain ⟨d₂', hrun, hresults, hsame⟩ := ih same
    rw [List.filter_cons_of_pos hharmless]
    exact ⟨d₂', .idle canSee nothing hrun, hresults, hsame⟩
  | @handled c d d₁ d' x events handled canSee handedOn reached _ ih =>
    obtain ⟨x, result⟩ := x
    cases result with
    | error fault =>
      obtain ⟨d₂', hrun, hresults, hsame⟩ := ih (reached.failed_kept.symm.trans same)
      have hharmful : ¬TaskEvent.harmless (.delivery ⟨x, .error fault⟩) = true :=
        Bool.false_ne_true
      have hfailed : ¬Attempt.succeeded ⟨x, .error fault⟩ = true := Bool.false_ne_true
      rw [List.filter_cons_of_neg hharmful, List.filter_cons_of_neg hfailed]
      exact ⟨d₂', hrun, hresults, hsame⟩
    | ok name =>
      obtain ⟨d₂₁, hagain, hbetween⟩ := reached.again same
      obtain ⟨d₂', hrun, hresults, hsame⟩ := ih hbetween
      have hreached := Handling.reached_workOff x d₂
      rw [hagain] at hreached
      rw [List.filter_cons_of_pos rfl, List.filter_cons_of_pos rfl]
      refine ⟨d₂', .handled canSee handedOn hreached hrun, ?_, hsame⟩
      rw [List.map_cons, Delivery.workOffAll, hagain, hresults]
      rfl

end Consumed

/-- **Failed jobs harm no other job.** Let a task consume any events there can be, with any answers
of the disk. What it hands on to be handled are the payloads that are delivered, each once and in
order, and whatever has happened, a next delivery is handled at the latest once the consumer has set
itself up. Without the deliveries whose handling fails, the events can happen too; the others, even
if nothing disturbs them, have the same results, and leave the same reports behind: no request finds
anything else, and every file that is not unfinished holds the same. -/
theorem failed_jobs_harm_no_other {d d' : Directory} {events : List TaskEvent}
    {handled : List Attempt} (run : Consumed .start d events handled d') :
    handled = events.filterMap TaskEvent.attempt? ∧
      Consumer.handled (Consumer.start.run (events.map TaskEvent.seen)) =
        handled.map (·.payload) ∧
      (∀ x : Delivery, ∃ before ∈ [[], [TaskEvent.setUp]], ∃ result d'',
        Consumed .start d (events ++ (before ++ [.delivery ⟨x, result⟩])) (handled ++ [⟨x, result⟩])
          d'') ∧
      ∃ d₂, Consumed .start d (events.filter TaskEvent.harmless)
          (handled.filter Attempt.succeeded) d₂ ∧
        Delivery.workOffAll ((handled.filter Attempt.succeeded).map Attempt.toDelivery) d =
          ((handled.filter Attempt.succeeded).map Attempt.result, d₂) ∧
        (∀ n, ¬Directory.Unfinished n → d₂.find? n = d'.find? n) ∧
        ∀ r : ReportRequest, d₂.newest r = d'.newest r ∧
          ∀ name, r.matchesName name = true → d₂.load name = d'.load name := by
  refine ⟨run.handled_eq, ?_, fun x => ?_, ?_⟩
  · rw [Consumer.handled_run run.sees, run.handled_eq, TaskEvent.delivered_seen]
  · obtain ⟨before, hbefore, result, d'', hnext⟩ :=
      Consumed.exists_next (Consumed.after .start events) d' x
    exact ⟨before, hbefore, result, d'', run.append hnext⟩
  · obtain ⟨d₂, hrun, hresults, hsame⟩ := run.without_failed (.refl d)
    exact ⟨d₂, hrun, hresults, fun n hn => hsame.entries n List.not_mem_nil hn, hsame.newest⟩

namespace Consumed.Sample

open Handling.Sample ReportLine.Sample

/-- The directory once the job was handled. -/
def rendered : Directory :=
  .listing (Directory.saved (delivery.finished asked) sheet
    (littered.insert (delivery.unfinished asked) (.file (.bytes [80, 75]))))

/-- The disk fails in the middle of a file. -/
def failing : Attempt := ⟨delivery, .error (.render (.files .notFound))⟩

/-- The same job is rendered. -/
def succeeding : Attempt := ⟨delivery, .ok (asked.fileName noon)⟩

/-- A job fails, the connection breaks, and the job is delivered again. -/
def disturbed : List TaskEvent :=
  [.setupFailed, .setUp, .delivery failing, .deliveryFailed, .setUp, .delivery succeeding]

theorem reached_failing :
    Handling.Reached delivery (.listing littered) [] ⟨.ended failing.result, stopped.reports⟩ :=
  reached_stopped.next (.failed .notFound) rfl

theorem reached_succeeding :
    Handling.Reached delivery stopped.reports [] ⟨.ended succeeding.result, rendered⟩ := by
  have hnone : ∀ n, (n, Entry.folder) ∉
      littered.insert (delivery.unfinished asked) (.file (.bytes [80, 75])) := by
    intro n hn
    rcases Listing.mem_insert.1 hn with ⟨hn, -⟩ | ⟨-, hn⟩
    · exact files_littered _ hn rfl
    · cases hn
  have hclear := Directory.clear_of_noFolder hnone (delivery.finished asked)
  have hloaded := Handling.reached_loaded stopped.reports (asked.asks_delivery noon .empty)
    builds_sheet
  exact (hloaded.prepared rfl).saved (Directory.saveIn_of_clear hclear sheet)

theorem consumed_disturbed :
    Consumed .start (.listing littered) disturbed [failing, succeeding] rendered :=
  .idle rfl rfl (.idle rfl rfl (.handled rfl rfl reached_failing
    (.idle rfl rfl (.idle rfl rfl (.handled rfl rfl reached_succeeding (.nil _ _))))))

end Consumed.Sample

open Consumed.Sample Handling.Sample ReportLine.Sample in
/-- A job whose file could only be written in part is delivered again, after the connection was
broken; all is as if it had been delivered once. -/
theorem failed_jobs_harm_no_other_sample :
    Consumed .start (.listing littered) disturbed [failing, succeeding] rendered ∧
      Consumer.handled (Consumer.start.run (disturbed.map TaskEvent.seen)) =
        [delivery.payload, delivery.payload] ∧
      ∃ d₂, Delivery.workOffAll [delivery] (.listing littered) = ([.ok (asked.fileName noon)], d₂) ∧
        ∀ r : ReportRequest, d₂.newest r = rendered.newest r := by
  obtain ⟨-, hhandled, -, d₂, -, hresults, -, hsame⟩ :=
    failed_jobs_harm_no_other consumed_disturbed
  exact ⟨consumed_disturbed, hhandled, d₂, hresults, fun r => (hsame r).1⟩

end CropLedger
