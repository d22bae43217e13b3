import CropLedger.Proofs.Calendar.FileTimes
import CropLedger.Proofs.Report.Correlation
import CropLedger.Proofs.Report.Files

/-!
# The newest rendering is found

The name of a report that is found is the greatest one in the order of texts. All names of a request
start with its stem, and what comes after it sorts as the times of rendering do; so the greatest
name is that of the newest rendering, whatever else there is in the directory and in whatever order
it is listed.

* `ReportRequest.fileName_lt`: names of one request sort as the times of rendering do;
* `Directory.not_newestName?_lt`: what is found is the greatest name of the request;
* `MadeOf`: directories made of reports that were rendered, and of what does not belong to them;
* `MadeOf.holds`: the invariant `Holds` of such directories;
* `newest_rendering_found`: which report is found.
-/

namespace CropLedger

/-! ### The order of names -/

theorem Text.append_lt_append_iff {start a b : List Char} : start ++ a < start ++ b ↔ a < b := by
  induction start with
  | nil => rfl
  | cons c start ih =>
    rw [List.cons_append, List.cons_append, List.cons_lt_cons_iff, ih]
    simp only [Char.lt_irrefl, false_or, true_and]

theorem ReportRequest.fileName_lt {r : ReportRequest} {t u : Timestamp} (ht : t.HasPlainYear)
    (hu : u.HasPlainYear) : r.fileName t < r.fileName u ↔ t.cut < u.cut := by
  show (r.fileName t).toList < (r.fileName u).toList ↔ _
  rw [toList_fileName, toList_fileName, Text.append_lt_append_iff,
    Timestamp.fileText_append_lt ht hu]

namespace Directory

theorem not_foldl_later_lt {latest last : String} {found : List String}
    (h : found.foldl later (some latest) = some last) :
    ∀ name ∈ latest :: found, ¬last.toList < name.toList := by
  induction found generalizing latest with
  | nil =>
    cases h
    intro name hname
    obtain rfl := List.mem_singleton.1 hname
    exact List.lt_irrefl _
  | cons name found ih =>
    -- the one that is given up is below the one that is kept
    have hstep : ∃ kept, later (some latest) name = some kept ∧
        ¬kept.toList < latest.toList ∧ ¬kept.toList < name.toList := by
      by_cases hlt : latest < name
      · refine ⟨name, if_pos hlt, fun h' => ?_, List.lt_irrefl _⟩
        exact List.lt_irrefl _ (List.lt_trans h' hlt)
      · exact ⟨latest, if_neg hlt, List.lt_irrefl _, hlt⟩
    obtain ⟨kept, hkept, hlatest, hname⟩ := hstep
    rw [List.foldl_cons, hkept] at h
    have hlast := List.not_lt.1 (ih h kept List.mem_cons_self)
    intro other hother
    rcases List.mem_cons.1 hother with rfl | hother
    · exact List.not_lt.2 (List.le_trans (List.not_lt.1 hlatest) hlast)
    · rcases List.mem_cons.1 hother with rfl | hother
      · exact List.not_lt.2 (List.le_trans (List.not_lt.1 hname) hlast)
      · exact ih h other (List.mem_cons_of_mem _ hother)

/-- No name of a request is greater than the one that is found. -/
theorem not_newestName?_lt {r : ReportRequest} {entries : Listing} {last name : String}
    (h : newestName? r entries = some last) (hname : name ∈ names entries)
    (hmatch : r.matchesName name = true) : ¬last < name := by
  have hmem : name ∈ (names entries).filter r.matchesName := List.mem_filter.2 ⟨hname, hmatch⟩
  unfold newestName? at h
  cases hf : (names entries).filter r.matchesName with
  | nil =>
    rw [hf] at hmem
    cases hmem
  | cons first found =>
    rw [hf] at h hmem
    exact not_foldl_later_lt h name hmem

end Directory

/-! ### Directories of reports -/

/-- A report that was rendered: the request, the time and the workbook. -/
structure FinishedReport where
  request : ReportRequest
  time : Timestamp
  book : Workbook

/-- The name of its file. -/
def FinishedReport.name (x : FinishedReport) : String := x.request.fileName x.time

theorem FinishedReport.matchesName_name {r : ReportRequest} (x : FinishedReport) :
    r.matchesName x.name = true ↔ r = x.request := ReportRequest.matchesName_fileName

/-- Names that do not belong to a request: those that are no text, those that are not finished, and
those that start with something else. -/
inductive Stray (r : ReportRequest) (n : Bytes) : Prop
  | unreadable (none : Utf8.decode? n = none)
  | unfinished {name : String} (text : Utf8.decode? n = some (name ++ ".part"))
  | unrelated {name : String} (text : Utf8.decode? n = some name)
    (stem : ¬r.stemChars <+: name.toList)

/-- Directories that are made, in some order, of reports that were rendered and of names that do not
belong to a request. They may be listed in any order. -/
inductive MadeOf (r : ReportRequest) : List FinishedReport → Directory → Prop
  | missing : MadeOf r [] .missing
  | empty : MadeOf r [] (.listing [])
  | rendered {done : List FinishedReport} {d d' : Directory} {name : String} (x : FinishedReport)
    (before : MadeOf r done d)
    (finished : x.request.render x.time (.ok x.book) d = (.ok name, d')) :
    MadeOf r (x :: done) d'
  | strewn {done : List FinishedReport} {entries : Listing} {n : Bytes} (entry : Entry)
    (before : MadeOf r done (.listing entries)) (stray : Stray r n) :
    MadeOf r done (.listing (entries.insert n entry))
  | relisted {done : List FinishedReport} {entries entries' : Listing}
    (before : MadeOf r done (.listing entries)) (order : entries.Perm entries') :
    MadeOf r done (.listing entries')

theorem Stray.matchesName {r : ReportRequest} {n : Bytes} {name : String} (h : Stray r n)
    (text : Utf8.decode? n = some name) : r.matchesName name = false := by
  cases h with
  | unreadable none =>
    rw [none] at text
    cases text
  | unfinished text' =>
    obtain rfl := Option.some.inj (text'.symm.trans text)
    exact r.matchesName_part _
  | unrelated text' stem =>
    obtain rfl := Option.some.inj (text'.symm.trans text)
    rw [← Bool.not_eq_true, ReportRequest.matchesName_iff]
    rintro ⟨time, hname, -⟩
    exact stem ⟨_, hname.symm⟩

/-- **The invariant**: the files of a request are the ones that were rendered for it, each with the
workbook of the last one of its name, and all of them are there. -/
structure Holds (r : ReportRequest) (done : List FinishedReport) (entries : Listing) : Prop where
  nodup : (entries.map Prod.fst).Nodup
  present : ∀ x ∈ done, x.request = r → entries.Has (Utf8.encode x.name)
  only : ∀ n e name, (n, e) ∈ entries → Utf8.decode? n = some name → r.matchesName name = true →
    ∃ x ∈ done, x.request = r ∧ name = x.name ∧ e = .file (.workbook x.book)

section Invariant

variable {r : ReportRequest} {done : List FinishedReport} {entries : Listing}

theorem Holds.saved (h : Holds r done entries) (x : FinishedReport) :
    Holds r (x :: done) (Directory.saved (Utf8.encode x.name) x.book entries) where
  nodup := Directory.nodup_saved h.nodup
  present y hy hr := by
    rcases List.mem_cons.1 hy with rfl | hy
    · exact Listing.has_iff.2 ⟨_, Directory.mem_saved.2 (.inr ⟨rfl, rfl⟩)⟩
    · obtain ⟨e, he⟩ := Listing.has_iff.1 (h.present y hy hr)
      have hfinished := ReportLine.finished_ne_unfinished y.request y.time x.name
      refine Listing.has_iff.2 ?_
      by_cases hname : Utf8.encode y.name = Utf8.encode x.name
      · exact ⟨_, Directory.mem_saved.2 (.inr ⟨hname, rfl⟩)⟩
      · exact ⟨e, Directory.mem_saved.2 (.inl ⟨he, hfinished, hname⟩)⟩
  only n e name hm htext hmatch := by
    rcases Directory.mem_saved.1 hm with ⟨hm, -, -⟩ | ⟨hn, he⟩
    · obtain ⟨y, hy, hfound⟩ := h.only n e name hm htext hmatch
      exact ⟨y, List.mem_cons_of_mem _ hy, hfound⟩
    · rw [hn, Utf8.decode?_encode] at htext
      have hname : name = x.name := (Option.some.inj htext).symm
      rw [hname] at hmatch
      exact ⟨x, List.mem_cons_self, (x.matchesName_name.1 hmatch).symm, hname, he⟩

theorem Holds.strewn (h : Holds r done entries) {n : Bytes} (stray : Stray r n) (entry : Entry) :
    Holds r done (entries.insert n entry) where
  nodup := Listing.nodup_insert h.nodup _ _
  present x hx hr := Listing.has_insert.2 (.inl (h.present x hx hr))
  only m e name hm htext hmatch := by
    rcases Listing.mem_insert.1 hm with ⟨hm, -⟩ | ⟨rfl, -⟩
    · exact h.only m e name hm htext hmatch
    · rw [stray.matchesName htext] at hmatch
      cases hmatch

theorem Holds.relisted (h : Holds r done entries) {entries' : Listing}
    (order : entries.Perm entries') : Holds r done entries' where
  nodup := (order.map Prod.fst).nodup_iff.1 h.nodup
  present x hx hr := by
    obtain ⟨e, he⟩ := Listing.has_iff.1 (h.present x hx hr)
    exact Listing.has_iff.2 ⟨e, order.subset he⟩
  only n e name hm := h.only n e name (order.symm.subset hm)

/-- The invariant holds in every directory that is made of reports. -/
theorem MadeOf.holds {d : Directory} (h : MadeOf r done d) :
    ∃ entries, d.prepare = .ok entries ∧ Holds r done entries := by
  have hnone : Holds r [] [] :=
    ⟨List.nodup_nil, fun _ hx => (nomatch hx), fun _ _ _ hm => (nomatch hm)⟩
  induction h with
  | missing => exact ⟨[], rfl, hnone⟩
  | empty => exact ⟨[], rfl, hnone⟩
  | rendered x before finished ih =>
    obtain ⟨book, entries, hbook, hprepare, -, rfl⟩ := ReportRequest.render_ok finished
    cases hbook
    obtain ⟨entries', hprepare', hholds⟩ := ih
    obtain rfl := Except.ok.inj (hprepare.symm.trans hprepare')
    exact ⟨_, rfl, hholds.saved x⟩
  | strewn entry before stray ih =>
    obtain ⟨entries, hprepare, hholds⟩ := ih
    cases hprepare
    exact ⟨_, rfl, hholds.strewn stray entry⟩
  | relisted before order ih =>
    obtain ⟨entries, hprepare, hholds⟩ := ih
    cases hprepare
    exact ⟨_, rfl, hholds.relisted order⟩

end Invariant

/-! ### What is found -/

theorem Directory.newest_of_prepare {r : ReportRequest} {d : Directory} {entries : Listing}
    (h : d.prepare = .ok entries) : d.newest r = (listing entries).newest r := by
  cases d with
  | missing =>
    cases h
    rfl
  | file => cases h
  | listing found =>
    cases h
    rfl

theorem Directory.load_of_prepare {name : String} {d : Directory} {entries : Listing}
    (h : d.prepare = .ok entries) : d.load name = (listing entries).load name := by
  cases d with
  | missing =>
    cases h
    rfl
  | file => cases h
  | listing found =>
    cases h
    rfl

section Found

variable {r : ReportRequest} {done : List FinishedReport} {entries : Listing} {x : FinishedReport}

theorem Holds.mem_names (h : Holds r done entries) (hx : x ∈ done) (hr : x.request = r) :
    x.name ∈ Directory.names entries ∧ r.matchesName x.name = true :=
  ⟨Directory.mem_names.2 ⟨_, h.present x hx hr, Utf8.decode?_encode _⟩,
    x.matchesName_name.2 hr.symm⟩

/-- A file of a request holds the workbook of a rendering of that name. -/
theorem Holds.file (h : Holds r done entries) (hx : x ∈ done) (hr : x.request = r) :
    ∃ y ∈ done, y.request = r ∧ y.name = x.name ∧
      (Directory.listing entries).load x.name = .ok (.workbook y.book) := by
  obtain ⟨e, he⟩ := Listing.has_iff.1 (h.present x hx hr)
  have hmatch := x.matchesName_name.2 hr.symm
  obtain ⟨y, hy, hyr, hname, hbook⟩ := h.only _ e _ he (Utf8.decode?_encode _) hmatch
  have hfind := (Listing.find?_eq_some h.nodup).2 he
  refine ⟨y, hy, hyr, hname.symm, ?_⟩
  rw [hbook] at hfind
  simp only [Directory.load, hfind]

/-- What is found is the file of a rendering that is not before any other one. -/
theorem Holds.newest (h : Holds r done entries)
    (plain : ∀ x ∈ done, x.request = r → x.time.HasPlainYear) {name : String}
    (hname : Directory.newestName? r entries = some name) (hmem : name ∈ Directory.names entries)
    (hmatch : r.matchesName name = true) :
    ∃ x ∈ done, x.request = r ∧ name = r.fileName x.time ∧
      (Directory.listing entries).load name = .ok (.workbook x.book) ∧
      ∀ y ∈ done, y.request = r → y.time.cut ≤ x.time.cut := by
  obtain ⟨n, hn, htext⟩ := Directory.mem_names.1 hmem
  obtain ⟨e, he⟩ := Listing.has_iff.1 hn
  obtain ⟨x₀, hx₀, hr₀, hname₀, -⟩ := h.only n e name he htext hmatch
  obtain ⟨x, hx, hr, hxname, hload⟩ := h.file hx₀ hr₀
  have hfile : name = r.fileName x.time := by
    rw [hname₀, ← hxname, FinishedReport.name, hr]
  refine ⟨x, hx, hr, hfile, hname₀ ▸ hload, fun y hy hyr => ?_⟩
  -- the name of the other one is in the directory too, and so it is not the greater one
  have hyname : y.name = r.fileName y.time := by rw [FinishedReport.name, hyr]
  obtain ⟨hymem, hymatch⟩ := h.mem_names hy hyr
  have hle := Directory.not_newestName?_lt hname hymem hymatch
  rw [hyname, hfile, ReportRequest.fileName_lt (plain x hx hr) (plain y hy hyr)] at hle
  exact Int.not_lt.1 hle

end Found

/-- **The newest rendering is found.** There is nothing to be found for a request if and only if
nothing was rendered for it; otherwise what is found is the file of a rendering of the request, and
none of its renderings has a later time, cut to milliseconds. -/
theorem newest_rendering_found {r : ReportRequest} {done : List FinishedReport} {d : Directory}
    (h : MadeOf r done d) (plain : ∀ x ∈ done, x.request = r → x.time.HasPlainYear) :
    (d.newest r = .error .notReady ↔ ∀ x ∈ done, x.request ≠ r) ∧
      ((∃ x ∈ done, x.request = r) → ∃ x ∈ done, x.request = r ∧
        d.newest r = .ok (r.fileName x.time) ∧ d.load (r.fileName x.time) = .ok (.workbook x.book) ∧
        ∀ y ∈ done, y.request = r → y.time.cut ≤ x.time.cut) := by
  obtain ⟨entries, hprepare, hholds⟩ := h.holds
  rw [Directory.newest_of_prepare hprepare]
  simp only [Directory.load_of_prepare hprepare]
  rcases Directory.newestName?_cases r entries with ⟨name, hname, hmem, hmatch⟩ | ⟨hnone, hno⟩
  · have hnewest := Directory.newest_listing.2 hname
    obtain ⟨x, hx, hr, hfile, hload, hlast⟩ := hholds.newest plain hname hmem hmatch
    refine ⟨⟨fun hnot => ?_, fun hnot => absurd hr (hnot x hx)⟩, fun _ => ?_⟩
    · rw [hnewest] at hnot
      cases hnot
    · exact ⟨x, hx, hr, hfile ▸ hnewest, hfile ▸ hload, hlast⟩
  · have hnobody : ∀ x ∈ done, x.request ≠ r := by
      intro x hx hr
      obtain ⟨hmem, hmatch⟩ := hholds.mem_names hx hr
      rw [hno x.name hmem] at hmatch
      cases hmatch
    have hnewest : (Directory.listing entries).newest r = .error .notReady := by
      simp only [Directory.newest, hnone]
    refine ⟨⟨fun _ => hnobody, fun _ => hnewest⟩, ?_⟩
    rintro ⟨x, hx, hr⟩
    exact absurd hr (hnobody x hx)

namespace MadeOf.Sample

open ReportLine.Sample (asked)

/-- The last half second of the year 2016, which a leap second was added to. -/
def eve : Timestamp :=
  .ofUtc ⟨2016, 12, 31, by decide⟩ 1439 60 500000000 (by decide) (by decide) (by decide)

/-- The next point in time that is a whole second. -/
def newYear : Timestamp :=
  .ofUtc ⟨2017, 1, 1, by decide⟩ 0 0 0 (by decide) Timestamp.first_second_le Timestamp.no_nanos_lt

/-- The report of a time, which has no rows. -/
def blank (t : Timestamp) : FinishedReport := ⟨asked, t, ⟨"Price History", []⟩⟩

/-- The newer report is saved first. -/
def first : Listing :=
  Directory.saved (Utf8.encode (asked.fileName newYear)) (blank newYear).book []

/-- A file that is not finished was left behind. -/
def littered : Listing := first.insert (Utf8.encode "notes.part") (.file (.bytes []))

/-- The older report is saved last, and listed first. -/
def listed : Listing :=
  (Directory.saved (Utf8.encode (asked.fileName eve)) (blank eve).book littered).reverse

theorem noFolder_littered : ∀ n, (n, Entry.folder) ∉ littered := by
  intro n h
  rcases Listing.mem_insert.1 h with ⟨h, -⟩ | ⟨-, h⟩
  · rcases Directory.mem_saved.1 h with ⟨h, -⟩ | ⟨-, h⟩ <;> cases h
  · cases h

theorem madeOf_listed : MadeOf asked [blank eve, blank newYear] (.listing listed) := by
  have hfirst : MadeOf asked [blank newYear] (.listing first) :=
    .rendered (blank newYear) .missing
      (ReportRequest.render_of_noFolder rfl (fun _ => List.not_mem_nil) _ _ _)
  have hstray : Stray asked (Utf8.encode "notes.part") :=
    .unfinished (Utf8.decode?_encode ("notes" ++ ".part"))
  have hlittered := hfirst.strewn (.file (.bytes [])) hstray
  have hlast := MadeOf.rendered (blank eve) hlittered
    (ReportRequest.render_of_noFolder rfl noFolder_littered _ _ _)
  exact hlast.relisted (List.reverse_perm _).symm

end MadeOf.Sample

open MadeOf.Sample ReportLine.Sample in
/-- The later one of two reports is found, which was rendered half a second after the leap second
of the other one. -/
theorem newest_rendering_found_sample :
    MadeOf asked [blank eve, blank newYear] (.listing listed) ∧
      (∀ x ∈ [blank eve, blank newYear], x.request = asked → x.time.HasPlainYear) ∧
      (Directory.listing listed).newest asked = .ok (asked.fileName newYear) := by
  have hplain : ∀ x ∈ [blank eve, blank newYear], x.request = asked → x.time.HasPlainYear := by
    decide +kernel
  have hmade := madeOf_listed
  obtain ⟨-, hfound⟩ := newest_rendering_found hmade hplain
  obtain ⟨x, hx, -, hnewest, -, hlast⟩ := hfound ⟨blank eve, List.mem_cons_self, rfl⟩
  have hlater := hlast (blank newYear) (List.mem_cons_of_mem _ List.mem_cons_self) rfl
  rcases List.mem_cons.1 hx with rfl | hx
  · exact absurd hlater (by decide +kernel)
  · obtain rfl := List.mem_singleton.1 hx
    exact ⟨hmade, hplain, hnewest⟩

end CropLedger
