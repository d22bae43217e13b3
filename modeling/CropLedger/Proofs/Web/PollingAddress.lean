import CropLedger.Cache.Memory
import CropLedger.Proofs.Uuid
import CropLedger.Proofs.Web.Forms
import CropLedger.Web.App

/-!
# The address in a ticket leads back to the request

A ticket names the address where its report will be. Taken apart again, the path of that address
is the one of the files of the same target, and its query names the two ends of the range. So
whoever calls it asks for the files of the request that was accepted. After the year 9999 it is not
so: the sign of the year stands in the query as it is, where it is read as a blank, and the query is
refused.

* `Resource.ofPath?_path`, `Resource.identify_files`: the path, taken apart;
* `Request.action_eq`: what is asked for at the address of a request;
* `App.polling_address_leads_back`: where the address in a ticket leads;
* `App.late_polling_address_refused`: a report that is never found there.
-/

namespace CropLedger

/-- Who gets a ticket has asked for a range, and gets the ticket of the request. -/
theorem Dispatcher.request_ok {τ : Type} {d : Dispatcher τ} {r : ReportRequest} {b b' : τ}
    {ticket : ReportTicket} (h : d.request r b = (.ok ticket, b')) :
    r.range.first ≤ r.range.last ∧ ticket = .of r d.baseUrl := by
  unfold request at h
  split at h
  · cases Prod.mk.inj h |>.1
  · rename_i hcheck
    refine ⟨(DateRange.check_eq_ok_iff _).1 hcheck, ?_⟩
    split at h
    · exact (Except.ok.inj (Prod.mk.inj h).1).symm
    · cases (Prod.mk.inj h).1

theorem Date.year_le {a b : Date} (h : a ≤ b) : a.year ≤ b.year := by
  obtain ⟨-, -, ha₁, ha₂, ha₃, ha₄⟩ := a.isDate
  obtain ⟨-, -, hb₁, hb₂, hb₃, hb₄⟩ := b.isDate
  have hday := daysIn_le b.year b.month
  have hkey : a.key ≤ b.key := h
  unfold key at hkey
  omega

namespace ReportRequest

/-- The address of the newest file, after the base. -/
def fileAddress (r : ReportRequest) : String := path r.target ++ "?" ++ Web.Form.ofRange r.range

theorem downloadUrl_eq (r : ReportRequest) (base : String) : r.downloadUrl base =
    String.ofList (Text.dropEndWhile (· = '/') base.toList) ++ r.fileAddress := by
  rw [← String.toList_inj]
  simp [downloadUrl, fileAddress, Web.Form.ofRange, toString]

/-- What the path of a target says between its slashes. -/
def pathParts : ReportTarget → List (List Char)
  | .priceHistory pair => ["".toList, "api".toList, "prices".toList, "history".toList,
    pair.commodity.chars, pair.location.chars, "download".toList, "file".toList]
  | .harvest land => ["".toList, "api".toList, "land-commodities".toList, land.chars,
    "harvests".toList, "download".toList, "file".toList]

theorem path_priceHistory (pair : Pair) : path (.priceHistory pair) = "/api/prices/history/" ++
    pair.commodity.toText ++ "/" ++ pair.location.toText ++ "/download/file" := rfl

theorem path_harvest (land : Uuid) : path (.harvest land) = "/api/land-commodities/" ++
    land.toText ++ "/harvests/download/file" := rfl

theorem toList_path (t : ReportTarget) : (path t).toList = Text.join '/' (pathParts t) := by
  cases t with
  | priceHistory pair => simp [path_priceHistory, pathParts, Text.join, Uuid.toText]
  | harvest land => simp [path_harvest, pathParts, Text.join, Uuid.toText]

/-- Nothing in a part of a path ends the part, the path or the address. -/
def Plain (part : List Char) : Prop := '/' ∉ part ∧ '?' ∉ part ∧ '#' ∉ part

instance (part : List Char) : Decidable (Plain part) := inferInstanceAs (Decidable (_ ∧ _))

theorem plain_chars (id : Uuid) : Plain id.chars :=
  ⟨id.not_mem_chars rfl (by decide), id.not_mem_chars rfl (by decide),
    id.not_mem_chars rfl (by decide)⟩

theorem plain_pathParts (t : ReportTarget) : ∀ part ∈ pathParts t, Plain part := by
  have hword : ∀ word ∈ ["", "api", "prices", "history", "land-commodities", "harvests", "download",
    "file"], Plain word.toList := by decide
  cases t with
  | priceHistory pair =>
    simp only [pathParts, List.forall_mem_cons]
    exact ⟨hword _ (by decide), hword _ (by decide), hword _ (by decide), hword _ (by decide),
      plain_chars _, plain_chars _, hword _ (by decide), hword _ (by decide), List.forall_mem_nil _⟩
  | harvest land =>
    simp only [pathParts, List.forall_mem_cons]
    exact ⟨hword _ (by decide), hword _ (by decide), hword _ (by decide), plain_chars _,
      hword _ (by decide), hword _ (by decide), hword _ (by decide), List.forall_mem_nil _⟩

theorem splitOn_path (t : ReportTarget) : Text.splitOn '/' (path t).toList = pathParts t := by
  rw [toList_path, Text.splitOn_join]
  · cases t with
    | priceHistory pair => exact List.cons_ne_nil _ _
    | harvest land => exact List.cons_ne_nil _ _
  · exact fun part hpart => (plain_pathParts t part hpart).1

theorem not_mem_path {c : Char} (h : c = '?' ∨ c = '#') (t : ReportTarget) :
    c ∉ (path t).toList := by
  rw [toList_path]
  intro hc
  rcases Text.mem_join hc with hc | ⟨part, hpart, hc⟩
  · rcases h with rfl | rfl
    · exact absurd hc (by decide)
    · exact absurd hc (by decide)
  · rcases h with rfl | rfl
    · exact (plain_pathParts t part hpart).2.1 hc
    · exact (plain_pathParts t part hpart).2.2 hc

end ReportRequest

namespace Web

open ReportRequest

/-! ### The path -/

namespace Resource

variable {α : Type}

/-- The files of a target, with a form of its identifiers. -/
def files (form : Uuid → α) : ReportTarget → Resource α
  | .priceHistory pair => .historyFile (form pair.commodity) (form pair.location)
  | .harvest land => .harvestFile (form land)

/-- **The path of a target names its files.** -/
theorem ofPath?_path (t : ReportTarget) : ofPath? (path t) = some (files Uuid.toText t) := by
  have hid (id : Uuid) : id.chars ≠ [] :=
    List.ne_nil_of_length_pos (id.length_chars ▸ (by decide : 0 < 36))
  rw [ofPath?, parts, splitOn_path]
  cases t with
  | priceHistory pair =>
    simp only [pathParts, List.map_cons, List.map_nil, String.ofList_toList]
    rw [if_neg]
    · simp only [ofParts?]
      rfl
    · simp [hid]
  | harvest land =>
    simp only [pathParts, List.map_cons, List.map_nil, String.ofList_toList]
    rw [if_neg]
    · simp only [ofParts?]
      rfl
    · simp [hid]

theorem traverse_files {β ε : Type} {form : Uuid → α} {form' : Uuid → β}
    {read : String → α → Except ε β} (h : ∀ name id, read name (form id) = .ok (form' id))
    (t : ReportTarget) : (files form t).traverse read = .ok (files form' t) := by
  cases t with
  | priceHistory pair =>
    simp only [files, traverse, h]
    rfl
  | harvest land =>
    simp only [files, traverse, h]
    rfl

/-- The identifiers of a target are read from its path. -/
theorem identify_files (t : ReportTarget) : (files Uuid.toText t).identify = .ok (files id t) := by
  have htext (name : String) (id : Uuid) : readText name id.toText = .ok id.toText := by
    rw [readText, unescapeText?_of_not_mem]
    rw [Uuid.toText, String.toList_ofList]
    exact id.not_mem_chars rfl (by decide)
  have hidentifier (name : String) (id : Uuid) : readIdentifier name id.toText = .ok id := by
    rw [readIdentifier, Uuid.read_toText]
    rfl
  rw [identify, traverse_files htext]
  exact traverse_files hidentifier t

end Resource

namespace Request

variable {q : Request} {r : ReportRequest}

theorem address_eq (h : q.uri = r.fileAddress) :
    q.address = (ReportRequest.path r.target).toList ++ '?' :: (Form.ofRange r.range).toList := by
  have huri : q.uri.toList =
      (ReportRequest.path r.target).toList ++ '?' :: (Form.ofRange r.range).toList := by
    rw [h, fileAddress, String.toList_append, String.toList_append, List.append_assoc]
    rfl
  rw [address, huri, Text.takeWhile_of_not_mem]
  rw [List.mem_append, List.mem_cons, not_or, not_or]
  exact ⟨not_mem_path (.inr rfl) _, by decide, Form.number_sign_not_mem_ofRange _⟩

theorem path_eq (h : q.uri = r.fileAddress) : q.path = ReportRequest.path r.target := by
  rw [path, address_eq h, Text.takeWhile_append_separator (not_mem_path (.inl rfl) _),
    String.ofList_toList]

theorem query_eq (h : q.uri = r.fileAddress) : q.query = Form.parse (Form.ofRange r.range) := by
  rw [query, address_eq h, Text.dropWhile_append_separator (not_mem_path (.inl rfl) _),
    List.drop_one, List.tail_cons, String.ofList_toList]

/-- **At the address of a request its files are asked for**, in the range that the query gives. -/
theorem action_of_address (hm : q.method = Verb.get.word) (h : q.uri = r.fileAddress) :
    q.action = q.range.map fun range => .fetchReport ⟨r.target, range⟩ := by
  have hverb : Verb.ofWord? q.method = some .get := hm ▸ rfl
  have hallowed : (Resource.files Uuid.toText r.target).verbs.contains Verb.get = true := by
    cases r.target with
    | priceHistory pair => rfl
    | harvest land => rfl
  rw [action, path_eq h, Resource.ofPath?_path]
  simp only [hverb, hallowed, Resource.identify_files, bind, Except.bind, not_true, if_false,
    Except.mapError]
  cases r.target with
  | priceHistory pair =>
    simp only [Resource.files, actionOn]
    cases q.range with
    | ok range => rfl
    | error refusal => rfl
  | harvest land =>
    simp only [Resource.files, actionOn]
    cases q.range with
    | ok range => rfl
    | error refusal => rfl

/-- What is asked for at the address of a request: its files, or, after the year 9999, nothing. -/
theorem action_eq (hm : q.method = Verb.get.word) (h : q.uri = r.fileAddress) : q.action =
    if 9999 < r.range.first.year then
      .error (refuseQuery (.value "start_date" (.calendar .invalid)))
    else if 9999 < r.range.last.year then
      .error (refuseQuery (.value "end_date" (.calendar .invalid)))
    else .ok (.fetchReport r) := by
  rw [action_of_address hm h, range, query_eq h, Form.range_parse_ofRange]
  split
  · rfl
  split
  · rfl
  · rfl

end Request

namespace App

variable {σ τ : Type}

theorem get_ne_head : Verb.get.word ≠ Verb.head.word := by decide

theorem handle_of_ok {app : App σ τ} {id : Uuid} {now : Timestamp} {q : Request} {s : AppState σ τ}
    {a : Action} (hm : q.method = Verb.get.word) (h : q.action = .ok a) :
    app.handle id now q s = app.perform id now a s := by
  rw [handle]
  simp only [h, hm, if_neg get_ne_head]

theorem handle_of_error {app : App σ τ} {id : Uuid} {now : Timestamp} {q : Request}
    {s : AppState σ τ} {refusal : Response} (hm : q.method = Verb.get.word)
    (h : q.action = .error refusal) : app.handle id now q s = (refusal, s) := by
  rw [handle]
  simp only [h, hm, if_neg get_ne_head]

/-- **The address in a ticket leads back to the request** that was accepted, whatever the base is:
who calls it gets the newest report of that request, and nothing changes. After the year 9999 the
address is refused. -/
theorem polling_address_leads_back (app : App σ τ) {r : ReportRequest} {broker broker' : τ}
    {ticket : ReportTicket} (h : app.dispatcher.request r broker = (.ok ticket, broker')) :
    ∃ address, ticket.downloadUrl =
        String.ofList (Text.dropEndWhile (· = '/') app.dispatcher.baseUrl.toList) ++ address ∧
      ∀ q : Request, q.method = Verb.get.word → q.uri = address →
        (r.range.last.year ≤ 9999 → q.action = .ok (.fetchReport r) ∧
          ∀ id now (s : AppState σ τ), app.handle id now q s = (fetch r s.reports, s)) ∧
        (9999 < r.range.last.year → ∃ name ∈ ["start_date", "end_date"],
          ∀ id now (s : AppState σ τ), app.handle id now q s =
            (Request.refuseQuery (.value name (.calendar .invalid)), s)) := by
  obtain ⟨hrange, rfl⟩ := app.dispatcher.request_ok h
  have hyears := Date.year_le hrange
  refine ⟨r.fileAddress, r.downloadUrl_eq _, fun q hm hu => ⟨fun hlast => ?_, fun hlast => ?_⟩⟩
  · have haction : q.action = .ok (.fetchReport r) := by
      rw [Request.action_eq hm hu, if_neg (by omega), if_neg (by omega)]
    refine ⟨haction, fun id now s => ?_⟩
    exact handle_of_ok hm haction
  · have haction := Request.action_eq hm hu
    by_cases hfirst : 9999 < r.range.first.year
    · rw [if_pos hfirst] at haction
      refine ⟨"start_date", by decide, fun id now s => ?_⟩
      exact handle_of_error hm haction
    · rw [if_neg hfirst, if_pos hlast] at haction
      refine ⟨"end_date", by decide, fun id now s => ?_⟩
      exact handle_of_error hm haction

namespace Sample

/-- A market whose tickets start with a base that ends in a slash. -/
def office : App Memory Outbox :=
  ⟨⟨Memory.cache, 300000, 600000⟩, Outbox.publisher, "reports", "http://localhost/"⟩

/-- A report that starts before the year zero, and ends with the last day that is not refused. -/
def early : ReportRequest :=
  ⟨.priceHistory ⟨⟨7⟩, ⟨8⟩⟩, ⟨-44, 3, 15, by decide⟩, ⟨9999, 12, 31, by decide⟩⟩

/-- A report of two days in the year 12000. -/
def late : ReportRequest :=
  ⟨.harvest ⟨9⟩, ⟨12000, 1, 1, by decide⟩, ⟨12000, 1, 2, by decide⟩⟩

/-- A call of an address. -/
def calling (address : String) : Request := ⟨"GET", address, none, []⟩

end Sample

open Sample in
/-- The ticket of a long range, and its address called. -/
theorem polling_address_leads_back_sample :
    ((office.dispatcher.request early .empty).1.toOption.map ReportTicket.downloadUrl) =
        some ("http://localhost" ++ "/api/prices/history/00000000-0000-0000-0000-000000000007/" ++
          "00000000-0000-0000-0000-000000000008/download/file?" ++
          "start_date=-0044-03-15&end_date=9999-12-31") ∧
      (calling ("/api/prices/history/00000000-0000-0000-0000-000000000007/" ++
          "00000000-0000-0000-0000-000000000008/download/file?" ++
          "start_date=-0044-03-15&end_date=9999-12-31")).action = .ok (.fetchReport early) := by
  have hurl : (ReportTicket.of early "http://localhost/").downloadUrl =
      "http://localhost" ++ ("/api/prices/history/00000000-0000-0000-0000-000000000007/" ++
        "00000000-0000-0000-0000-000000000008/download/file?" ++
        "start_date=-0044-03-15&end_date=9999-12-31") := by decide +kernel
  have hbase : String.ofList (Text.dropEndWhile (· = '/') office.dispatcher.baseUrl.toList) =
      "http://localhost" := by decide +kernel
  have hticket : office.dispatcher.request early .empty =
      (.ok (.of early "http://localhost/"), ⟨.accepting, [office.dispatcher.job early]⟩) := rfl
  obtain ⟨address, htail, hcall⟩ := office.polling_address_leads_back hticket
  rw [hurl, hbase, String.append_right_inj] at htail
  refine ⟨?_, ((hcall _ rfl htail).1 (by decide)).1⟩
  rw [hticket]
  exact congrArg some hurl

open Sample in
/-- The address of a report of the year 12000 is refused, so that the report is never found. -/
theorem late_polling_address_refused :
    ((office.dispatcher.request late .empty).1.toOption.map ReportTicket.downloadUrl) =
        some ("http://localhost" ++ "/api/land-commodities/" ++
          "00000000-0000-0000-0000-000000000009/harvests/download/file?" ++
          "start_date=+12000-01-01&end_date=+12000-01-02") ∧
      (calling ("/api/land-commodities/" ++
          "00000000-0000-0000-0000-000000000009/harvests/download/file?" ++
          "start_date=+12000-01-01&end_date=+12000-01-02")).action =
        .error (Request.refuseQuery (.value "start_date" (.calendar .invalid))) := by
  have haddress : late.fileAddress = "/api/land-commodities/" ++
      "00000000-0000-0000-0000-000000000009/harvests/download/file?" ++
      "start_date=+12000-01-01&end_date=+12000-01-02" := by decide +kernel
  refine ⟨by decide +kernel, ?_⟩
  rw [Request.action_eq (r := late) rfl haddress.symm, if_pos (by decide)]

end App

end Web

end CropLedger
