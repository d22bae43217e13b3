import CropLedger.Proofs.Market.Written
import CropLedger.Report.Request

/-!
# The message of a job is read as its request

The members of a job's message are looked at twice: first for the range, while everything else is
kept, and then for the target. So the order of the members does not matter, and of what stands
beside them only that it can be kept: a number must be that of a double, a text must not hold half
of a character, and containers must not be nested too deeply.

* `ReportTarget.ofMembers_spells`: a target is read from members that name it, whatever else there
  is;
* `ReportRequest.Carried`: an object carries the members of a message;
* `ReportRequest.Carried.reads`: which of these objects are read as the request;
* `ReportRequest.decode_jobBytes`: the bytes of a job are read as the request that they were made
  of;
* `ReportRequest.normalForm`: what was read from a payload, written again.
-/

namespace CropLedger

open Json Record

namespace Json

theorem Record.exists_of_fromMembers_field {α : Type} {name : String} {read : Reader α}
    {absent : Option α} {find : String → Option Scan} {a : α}
    (h : (field name read none absent).fromMembers find = .ok a) :
    ∃ t, find name = some t ∧ read t = .ok a := by
  cases ht : find name with
  | none =>
    simp only [field, ht] at h
    cases h
  | some t => exact ⟨t, rfl, (fromMembers_field ht).1 h⟩

end Json

/-! ### Ranges and targets -/

theorem DateRange.lawful : DateRange.record.Lawful :=
  ((lawful_field ..).map DateRange.mk).seq (lawful_field ..)

namespace ReportTarget

theorem lawful (k : ReportKind) : (record k).Lawful := by
  cases k with
  | priceHistory => exact Pair.lawful.map _
  | harvest => exact (lawful_field ..).map _

/-- A target is read from members that name its kind and hold its fields. -/
theorem ofMembers_spells {t : ReportTarget} {members : List (RawText × Scan)}
    {named : List (String × Scan)} (hs : Spells members named) (hn : (named.map Prod.fst).Nodup)
    (hkept : ∀ m ∈ named, Scan.buffer maxDepth m.2 = .ok ()) {kind : Scan}
    (hkind : named.lookup "kind" = some kind) (hreads : ReportKind.positionReader kind = .ok t.kind)
    (ht : (record t.kind).fromMembers (fun name => named.lookup name) = .ok t) :
    ofMembers ReportKind.positionReader none members = .ok t := by
  -- the kind is looked up as if it were a record of one field
  have hk : (field "kind" ReportKind.positionReader).fromMembers
      (fun name => named.lookup name) = .ok t.kind := (fromMembers_field hkind).2 hreads
  obtain ⟨known, hknown, hread⟩ :=
    collect_of_fromMembers (lawful_field ..) hs hn (fun m hm _ => hkept m hm) hk
  obtain ⟨tree, htree, hreads⟩ := exists_of_fromMembers_field hread
  have hskip : ∀ m ∈ named, Scan.skip m.2 = .ok () :=
    fun m hm => Scan.skip_of_buffer _ _ (hkept m hm)
  obtain ⟨fields, hfields, htarget⟩ :=
    collect_of_fromMembers (lawful t.kind) hs hn (fun m hm _ => hskip m hm) ht
  refine bind_eq_ok.2 ⟨known, hknown, ?_⟩
  simp only [htree]
  refine bind_eq_ok.2 ⟨t.kind, hreads, ?_⟩
  exact bind_eq_ok.2 ⟨fields, hfields, htarget⟩

end ReportTarget

/-! ### Requests -/

namespace ReportRequest

/-- The members of a job's message. -/
def jobMembers (r : ReportRequest) : List (String × Json) := r.target.members ++ r.range.members

theorem nodup_jobMembers (r : ReportRequest) : (r.jobMembers.map Prod.fst).Nodup := by
  obtain ⟨target, range⟩ := r
  cases target with
  | priceHistory pair =>
    show ["kind", "commodity_id", "location_id", "start_date", "end_date"].Nodup
    decide
  | harvest land =>
    show ["kind", "land_commodity_id", "start_date", "end_date"].Nodup
    decide

theorem exists_text_of_mem {r : ReportRequest} {m : String × Json} (hm : m ∈ r.jobMembers) :
    ∃ text, m.2 = .text text := by
  have hall : ∀ m ∈ r.jobMembers, ∃ text, m.2 = .text text := by
    obtain ⟨target, range⟩ := r
    cases target <;> simp [jobMembers, ReportTarget.members, DateRange.members]
  exact hall m hm

/-- **An object that carries the members of a job's message**: they stand in any order among any
others, their texts are spelled in any way, and no name stands for two members. -/
structure Carried (r : ReportRequest) (members : List (RawText × Scan))
    (named : List (String × Scan)) : Prop where
  spells : Spells members named
  distinct : (named.map Prod.fst).Nodup
  holds : ∀ name text, (name, Json.text text) ∈ r.jobMembers →
    ∃ content, (name, Scan.text content) ∈ named ∧ content.read = .ok text

/-- An object carries a message whose members it has as they are written. -/
theorem carried_of_subset {r : ReportRequest} {members : List (RawText × Scan)}
    {named : List (String × Scan)} (hs : Spells members named) (hn : (named.map Prod.fst).Nodup)
    (hm : namedTrees r.jobMembers ⊆ named) : r.Carried members named where
  spells := hs
  distinct := hn
  holds _ text ht := ⟨.of text, hm (List.mem_map.2 ⟨_, ht, rfl⟩), RawText.read_of text⟩

theorem carried_memberTrees (r : ReportRequest) :
    r.Carried (memberTrees r.jobMembers) (namedTrees r.jobMembers) := by
  refine carried_of_subset (spells_memberTrees _) ?_ (List.Subset.refl _)
  rw [map_fst_namedTrees]
  exact r.nodup_jobMembers

section Carried

variable {r : ReportRequest} {members : List (RawText × Scan)} {named : List (String × Scan)}

theorem Carried.lookup (h : r.Carried members named) {name text : String}
    (hm : (name, Json.text text) ∈ r.jobMembers) :
    ∃ content, named.lookup name = some (.text content) ∧ content.read = .ok text := by
  obtain ⟨content, hmem, hread⟩ := h.holds name text hm
  exact ⟨content, lookup_of_mem h.distinct hmem, hread⟩

/-- A member of the message can be kept for later. -/
theorem Carried.buffer_own (h : r.Carried members named) {m : String × Scan} (hm : m ∈ named)
    (hown : m.1 ∈ r.jobMembers.map Prod.fst) (depth : Nat) : Scan.buffer depth m.2 = .ok () := by
  obtain ⟨⟨name, j⟩, hmem, hname⟩ := List.mem_map.1 hown
  obtain ⟨text, rfl⟩ : ∃ text, j = .text text := exists_text_of_mem hmem
  obtain ⟨content, hlookup, hread⟩ := h.lookup hmem
  have hvalue := lookup_of_mem h.distinct hm
  rw [← hname, hlookup] at hvalue
  rw [← Option.some.inj hvalue]
  exact bind_eq_ok.2 ⟨text, hread, rfl⟩

/-- A field is put together from a member of the message, however it is spelled. -/
theorem Carried.field {α : Type} (h : r.Carried members named) {name text : String}
    (hm : (name, Json.text text) ∈ r.jobMembers) {wanted : Wanted}
    {read : String → Except Fault α} {a : α} (hread : read text = .ok a) :
    (Record.field name (Reader.readText wanted read)).fromMembers
      (fun name => named.lookup name) = .ok a := by
  obtain ⟨content, hlookup, hcontent⟩ := h.lookup hm
  refine (fromMembers_field hlookup).2 ?_
  rw [Reader.readText, hcontent]
  exact hread

theorem Carried.identifier (h : r.Carried members named) {name : String} {id : Uuid}
    (hm : (name, (id : Json)) ∈ r.jobMembers) :
    (Record.field name Reader.identifier).fromMembers (fun name => named.lookup name) = .ok id :=
  h.field hm (by rw [Uuid.read_toText])

theorem Carried.date (h : r.Carried members named) {name : String} {date : Date}
    (hm : (name, (date : Json)) ∈ r.jobMembers) :
    (Record.field name Reader.date).fromMembers (fun name => named.lookup name) = .ok date :=
  h.field hm (by rw [Date.read_toText])

theorem Carried.range (h : r.Carried members named) :
    DateRange.record.fromMembers (fun name => named.lookup name) = .ok r.range := by
  have hfirst : ("start_date", (r.range.first : Json)) ∈ r.jobMembers :=
    List.mem_append_right _ List.mem_cons_self
  have hlast : ("end_date", (r.range.last : Json)) ∈ r.jobMembers :=
    List.mem_append_right _ (List.mem_cons_of_mem _ List.mem_cons_self)
  exact fromMembers_seq.2 ⟨_, _, fromMembers_map.2 ⟨_, h.date hfirst, rfl⟩, h.date hlast, rfl⟩

theorem Carried.kind (h : r.Carried members named) :
    ∃ tree, named.lookup "kind" = some tree ∧
      ReportKind.positionReader tree = .ok r.target.kind := by
  have hkind : ("kind", Json.text r.target.kind.name) ∈ r.jobMembers := List.mem_cons_self
  obtain ⟨content, hlookup, hread⟩ := h.lookup hkind
  refine ⟨_, hlookup, ?_⟩
  show ReportKind.reader (.text content) = _
  simp only [ReportKind.reader, hread, ofStop, bind, Except.bind, ReportKind.ofName?_name]
  rfl

theorem Carried.target (h : r.Carried members named) :
    (ReportTarget.record r.target.kind).fromMembers (fun name => named.lookup name) =
      .ok r.target := by
  obtain ⟨target, range⟩ := r
  cases target with
  | priceHistory pair =>
    have hcommodity : ("commodity_id", (pair.commodity : Json)) ∈
        jobMembers ⟨.priceHistory pair, range⟩ := List.mem_cons_of_mem _ List.mem_cons_self
    have hlocation : ("location_id", (pair.location : Json)) ∈
        jobMembers ⟨.priceHistory pair, range⟩ :=
      List.mem_cons_of_mem _ (List.mem_cons_of_mem _ List.mem_cons_self)
    have hpair : Pair.record.fromMembers (fun name => named.lookup name) = .ok pair :=
      fromMembers_seq.2
        ⟨_, _, fromMembers_map.2 ⟨_, h.identifier hcommodity, rfl⟩, h.identifier hlocation, rfl⟩
    exact fromMembers_map.2 ⟨_, hpair, rfl⟩
  | harvest land =>
    have hland : ("land_commodity_id", (land : Json)) ∈ jobMembers ⟨.harvest land, range⟩ :=
      List.mem_cons_of_mem _ List.mem_cons_self
    exact fromMembers_map.2 ⟨_, h.identifier hland, rfl⟩

/-- The dates pass where they are met. -/
theorem Carried.checked (h : r.Carried members named) :
    ∀ m ∈ named, ∀ check, DateRange.record.checks.lookup m.1 = some check → check m.2 = .ok () :=
  fun _ hm _ hc => DateRange.lawful.checked h.range _ (mem_of_lookup_eq_some hc) _
    (lookup_of_mem h.distinct hm)

/-- Only members of the message have a check of their own. -/
theorem lookup_checks_of_further {name : String} (hn : name ∉ r.jobMembers.map Prod.fst) :
    DateRange.record.checks.lookup name = none := by
  refine List.lookup_eq_none_iff.2 fun c hc => bne_iff_ne.2 ?_
  rintro rfl
  refine hn (List.mem_map.2 ?_)
  have hc : c.1 = "start_date" ∨ c.1 = "end_date" := by
    rcases List.mem_cons.1 hc with rfl | hc
    · exact .inl rfl
    · exact .inr (congrArg Prod.fst (List.mem_singleton.1 hc))
  rcases hc with hc | hc
  · exact ⟨("start_date", r.range.first), List.mem_append_right _ List.mem_cons_self, hc.symm⟩
  · exact ⟨("end_date", r.range.last),
      List.mem_append_right _ (List.mem_cons_of_mem _ List.mem_cons_self), hc.symm⟩

/-- If all members can be kept for later, the job is read. -/
theorem Carried.reads_of_kept (h : r.Carried members named)
    (hkept : ∀ m ∈ named, Scan.buffer ReportTarget.maxDepth m.2 = .ok ()) :
    jobReader (.object members none) = .ok r := by
  obtain ⟨known, hknown, hrange⟩ :=
    collect_of_fromMembers DateRange.lawful h.spells h.distinct (fun m hm _ => hkept m hm) h.range
  obtain ⟨kind, hlookup, hkind⟩ := h.kind
  have htarget := ReportTarget.ofMembers_spells h.spells h.distinct hkept hlookup hkind h.target
  refine bind_eq_ok.2 ⟨known, hknown, bind_eq_ok.2 ⟨r.range, hrange, ?_⟩⟩
  exact bind_eq_ok.2 ⟨r.target, htarget, rfl⟩

/-- **A job is read from every object that carries its message**, exactly if each further member can
be kept for later; otherwise the fault is one of the text's shape. -/
theorem Carried.reads (h : r.Carried members named) :
    (jobReader (.object members none) = .ok r ↔
      ∀ m ∈ named, m.1 ∉ r.jobMembers.map Prod.fst →
        Scan.buffer ReportTarget.maxDepth m.2 = .ok ()) ∧
    (jobReader (.object members none) ≠ .ok r →
      ∃ stop, jobReader (.object members none) = .error (.stopped stop)) := by
  -- once the members have been looked at for the range, nothing can be wrong any more
  have hafter {known : List (String × Scan)} (hknown : Record.collect DateRange.record.checks
      (Scan.buffer ReportTarget.maxDepth) none [] members = .ok known) :
      ∀ m ∈ named, m.1 ∉ r.jobMembers.map Prod.fst →
        Scan.buffer ReportTarget.maxDepth m.2 = .ok () :=
    fun m hm hfurther => (passes_unchecked (lookup_checks_of_further hfurther)).1
      (passes_of_collect h.spells hknown m hm)
  have hread (hfurther : ∀ m ∈ named, m.1 ∉ r.jobMembers.map Prod.fst →
      Scan.buffer ReportTarget.maxDepth m.2 = .ok ()) :
      jobReader (.object members none) = .ok r := by
    refine h.reads_of_kept fun m hm => ?_
    by_cases hown : m.1 ∈ r.jobMembers.map Prod.fst
    · exact h.buffer_own hm hown _
    · exact hfurther m hm hown
  refine ⟨⟨fun hok => ?_, hread⟩, fun hne => ?_⟩
  · obtain ⟨known, hknown, -⟩ := bind_eq_ok.1 hok
    exact hafter hknown
  · cases hcollect : Record.collect DateRange.record.checks (Scan.buffer ReportTarget.maxDepth)
      none [] members with
    | ok known => exact absurd (hread (hafter hcollect)) hne
    | error fault =>
      obtain ⟨stop, rfl⟩ :=
        stopped_of_collect h.spells h.distinct h.checked (fun _ _ => rfl) hcollect
      exact ⟨stop, bind_eq_error.2 (.inl hcollect)⟩

end Carried

theorem restores_job (r : ReportRequest) : jobReader.Restores r.jobJson r := by
  refine r.carried_memberTrees.reads.1.2 fun m hm hfurther => absurd ?_ hfurther
  rw [← map_fst_namedTrees]
  exact List.mem_map_of_mem hm

/-- **The bytes of a job are read as the request that they were made of.** -/
theorem decode_jobBytes (r : ReportRequest) : Json.Reader.decode jobReader r.jobBytes = .ok r :=
  (Json.Reader.decode_encode jobReader r.jobJson).trans r.restores_job

/-- Requests with the same message are the same. -/
theorem jobBytes_injective {r r' : ReportRequest} (h : r'.jobBytes = r.jobBytes) : r' = r := by
  have hread := r'.decode_jobBytes
  rw [h, r.decode_jobBytes] at hread
  exact (Except.ok.inj hread).symm

/-- What was read from a payload, written again. -/
def normalForm (payload : Bytes) : Except Fault Bytes :=
  (Json.Reader.decode jobReader payload).map jobBytes

/-- Payloads share a normal form exactly if they are read as the same request. -/
theorem normalForm_eq_iff {payload payload' bytes : Bytes} (h : normalForm payload = .ok bytes) :
    normalForm payload' = .ok bytes ↔
      Json.Reader.decode jobReader payload' = Json.Reader.decode jobReader payload := by
  obtain ⟨r, hr, rfl⟩ := map_eq_ok.1 h
  rw [hr, normalForm, map_eq_ok]
  constructor
  · rintro ⟨r', hr', hbytes⟩
    rw [hr', jobBytes_injective hbytes]
  · exact fun h' => ⟨r, h', rfl⟩

theorem normalForm_normalForm {payload bytes : Bytes} (h : normalForm payload = .ok bytes) :
    normalForm bytes = .ok bytes := by
  obtain ⟨r, -, rfl⟩ := map_eq_ok.1 h
  exact map_eq_ok.2 ⟨r, r.decode_jobBytes, rfl⟩

/-- **The message of a job is lossless and tolerant**: its bytes are read as the request; so is
every object that carries its members, exactly if each further member can be kept for later, and
otherwise the fault is one of the text's shape; and what is read from a payload, written again, is a
normal form of all payloads that are read as the same request. -/
theorem job_message_lossless (r : ReportRequest) :
    Json.Reader.decode jobReader r.jobBytes = .ok r ∧
    (∀ {payload : Bytes} {members : List (RawText × Scan)} {named : List (String × Scan)},
      Scan.ofBytes payload = (.object members none, false) → r.Carried members named →
      (Json.Reader.decode jobReader payload = .ok r ↔
        ∀ m ∈ named, m.1 ∉ r.jobMembers.map Prod.fst →
          Scan.buffer ReportTarget.maxDepth m.2 = .ok ()) ∧
      (Json.Reader.decode jobReader payload ≠ .ok r →
        ∃ stop, Json.Reader.decode jobReader payload = .error (.stopped stop))) ∧
    ∀ {payload bytes : Bytes}, normalForm payload = .ok bytes →
      normalForm bytes = .ok bytes ∧
      ∀ payload', normalForm payload' = .ok bytes ↔
        Json.Reader.decode jobReader payload' = Json.Reader.decode jobReader payload := by
  refine ⟨r.decode_jobBytes, fun hscan hcarried => ?_, fun h => ?_⟩
  · rw [Json.Reader.decode_of_ofBytes jobReader hscan]
    exact hcarried.reads
  · exact ⟨normalForm_normalForm h, fun payload' => normalForm_eq_iff h⟩

namespace Sample

/-- A report on the harvests of a January. -/
def january : ReportRequest :=
  ⟨.harvest ⟨9⟩, ⟨2021, 1, 1, by decide⟩, ⟨2021, 1, 31, by decide⟩⟩

/-- The members of its message in another order, after one more. -/
def membersAfter (further : Json) : List (String × Json) :=
  ("further", further) :: january.jobMembers.reverse

/-- A number beyond all doubles. -/
def oversized : Json := .number (Int.ofNat (Nat.pow 10 400))

/-- A list of a number and nothing. -/
def listed : Json := .array [.number 15, .null]

/-- The bytes of the object that has these members. -/
def payload (further : Json) : Bytes := Utf8.encode (Json.object (membersAfter further)).render

theorem ofBytes_payload (further : Json) :
    Scan.ofBytes (payload further) = (.object (memberTrees (membersAfter further)) none, false) :=
  Scan.ofBytes_encode_render _

theorem carried_membersAfter (further : Json) :
    january.Carried (memberTrees (membersAfter further)) (namedTrees (membersAfter further)) := by
  refine carried_of_subset (spells_memberTrees _) ?_ ?_
  · rw [map_fst_namedTrees]
    show ["further", "end_date", "start_date", "land_commodity_id", "kind"].Nodup
    decide
  · exact List.map_subset _ fun m hm => List.mem_cons_of_mem _ (List.mem_reverse.2 hm)

/-- Of the members only the further one is none of the message. -/
theorem buffer_membersAfter {further : Json}
    (h : Scan.buffer ReportTarget.maxDepth further.tree = .ok ()) :
    ∀ m ∈ namedTrees (membersAfter further), m.1 ∉ january.jobMembers.map Prod.fst →
      Scan.buffer ReportTarget.maxDepth m.2 = .ok () := by
  intro m hm hfurther
  obtain ⟨member, hmember, rfl⟩ := List.mem_map.1 hm
  rcases List.mem_cons.1 hmember with rfl | hown
  · exact h
  · exact absurd (List.mem_map_of_mem (List.mem_reverse.1 hown)) hfurther

end Sample

open Sample

/-- A list stands beside the members, which are in another order. -/
theorem job_message_lossless_sample :
    Scan.ofBytes (payload listed) = (.object (memberTrees (membersAfter listed)) none, false) ∧
      january.Carried (memberTrees (membersAfter listed)) (namedTrees (membersAfter listed)) ∧
      Json.Reader.decode jobReader (payload listed) = .ok january ∧
      normalForm (payload listed) = .ok january.jobBytes ∧
      normalForm january.jobBytes = .ok january.jobBytes := by
  obtain ⟨-, htolerant, hnormal⟩ := job_message_lossless january
  have hkept : Scan.buffer ReportTarget.maxDepth listed.tree = .ok () := by
    decide +kernel
  have hread := (htolerant (ofBytes_payload _) (carried_membersAfter _)).1.2
    (buffer_membersAfter hkept)
  have hform : normalForm (payload listed) = .ok january.jobBytes := map_eq_ok.2 ⟨_, hread, rfl⟩
  exact ⟨ofBytes_payload _, carried_membersAfter _, hread, hform, (hnormal hform).1⟩

/-- A number beyond all doubles stands in the way of a message, although it is not a part of it. -/
theorem oversized_member_refused :
    Scan.ofBytes (payload oversized) =
        (.object (memberTrees (membersAfter oversized)) none, false) ∧
      january.Carried (memberTrees (membersAfter oversized))
        (namedTrees (membersAfter oversized)) ∧
      ∃ stop, Json.Reader.decode jobReader (payload oversized) = .error (.stopped stop) := by
  refine ⟨ofBytes_payload _, carried_membersAfter _, ?_⟩
  rw [Json.Reader.decode_of_ofBytes jobReader (ofBytes_payload _)]
  obtain ⟨hkept, hstopped⟩ := (carried_membersAfter oversized).reads
  refine hstopped fun hread => ?_
  have hbuffer := hkept.1 hread ("further", oversized.tree) List.mem_cons_self (by decide)
  have hrefused : Scan.buffer ReportTarget.maxDepth oversized.tree ≠ .ok () := by
    decide +kernel
  exact hrefused hbuffer

end ReportRequest

end CropLedger
