import CropLedger.Cache.Observed
import CropLedger.Proofs.Json.Readers
import CropLedger.Proofs.Market.Writes
import CropLedger.Web.App

/-!
# What the answer tells about a write

A request on a write route is answered with success, or with the code of a failed clearing, if the
write behind it has happened, and in no other case. What is refused, by the web or by the market,
has not touched the tables and has not cleared the cache.

* `Response.TellsWrite`: the answers which tell that a write has happened;
* `Request.not_tellsWrite_of_action`: no request that is refused is answered in this way;
* `App.perform_write`: what is asked for is a write of the market, and its answer tells of it;
* `App.answer_tells_write`: the answer tells whether the tables have changed.
-/

namespace CropLedger.Web

variable {σ τ α : Type}

/-! ### Answers -/

namespace Response

/-- The code for programs in an answer that carries one. -/
def code? (r : Response) : Option String :=
  match r.content with
  | .json (.object members) =>
    match members.lookup "code" with
    | some (.text code) => some code
    | _ => none
  | _ => none

/-- An answer which tells that the write has happened: it is one of success, or its code tells that
only the clearing has failed. -/
def TellsWrite (r : Response) : Prop :=
  (200 ≤ r.status ∧ r.status < 300) ∨ r.code? = some "CACHE_INVALIDATION_FAILED"

instance (r : Response) : Decidable r.TellsWrite := inferInstanceAs (Decidable (_ ∨ _))

@[simp] theorem tellsWrite_empty {status : Nat} :
    (empty status).TellsWrite ↔ 200 ≤ status ∧ status < 300 := by
  simp [TellsWrite, empty, code?]

@[simp] theorem tellsWrite_text {status : Nat} {value : String} :
    (text status value).TellsWrite ↔ 200 ≤ status ∧ status < 300 := by
  simp [TellsWrite, text, empty, code?]

@[simp] theorem tellsWrite_notAllowed {methods : List String} :
    ¬(notAllowed methods).TellsWrite := by
  simp [TellsWrite, notAllowed, empty, code?]

theorem tellsWrite_of {status : Nat} {code error : String} :
    (ofRefusal (.of status code error)).TellsWrite ↔
      (200 ≤ status ∧ status < 300) ∨ code = "CACHE_INVALIDATION_FAILED" := by
  simp [TellsWrite, ofRefusal, Refusal.of, json, empty, code?, Envelope.json, List.lookup_cons]

@[simp] theorem tellsWrite_badRequest {reason : String} :
    ¬(ofRefusal (.badRequest reason)).TellsWrite := by
  rw [Refusal.badRequest, tellsWrite_of]
  decide

/-- The fault of an operation is answered by telling whether its write has happened. -/
theorem tellsWrite_ofService (fault : ServiceFault) :
    (ofService fault).TellsWrite ↔ fault.isCommitted = true := by
  cases fault <;>
    simp [ofService, Refusal.ofService?, Refusal.badRequest, Refusal.internal, tellsWrite_of,
      dropped, ServiceFault.isCommitted]

end Response

/-! ### Refused requests -/

namespace Request

variable {r : Request} {response : Response}

theorem not_tellsWrite_of_read {reader : Json.Reader α} (h : r.read reader = .error response) :
    ¬response.TellsWrite := by
  unfold read at h
  split at h
  · cases h
    simp
  · split at h
    · cases h
      simp
    · obtain ⟨fault, -, rfl⟩ := Json.mapError_eq_error.1 h
      cases fault <;> simp [refuseBody]

theorem not_tellsWrite_of_page (h : r.page = .error response) : ¬response.TellsWrite := by
  rcases Json.bind_eq_error.1 h with h | ⟨q, -, h⟩
  · obtain ⟨fault, -, rfl⟩ := Json.mapError_eq_error.1 h
    exact Response.tellsWrite_badRequest
  · obtain ⟨fault, -, rfl⟩ := Json.mapError_eq_error.1 h
    exact Response.tellsWrite_badRequest

theorem not_tellsWrite_of_range (h : r.range = .error response) : ¬response.TellsWrite := by
  obtain ⟨fault, -, rfl⟩ := Json.mapError_eq_error.1 h
  exact Response.tellsWrite_badRequest

theorem not_tellsWrite_of_actionOn {verb : Verb} {resource : Resource Uuid}
    (h : r.actionOn verb resource = .error response) : ¬response.TellsWrite := by
  cases resource with
  | prices =>
    simp only [actionOn] at h
    split at h
    · exact not_tellsWrite_of_read (Json.bind_pure_eq_error.1 h)
    · exact not_tellsWrite_of_page (Json.bind_pure_eq_error.1 h)
  | price id =>
    simp only [actionOn] at h
    split at h
    · exact not_tellsWrite_of_read (Json.bind_pure_eq_error.1 h)
    · split at h <;> cases h
  | newHarvests => exact not_tellsWrite_of_read (Json.bind_pure_eq_error.1 h)
  | harvests land => exact not_tellsWrite_of_page (Json.bind_pure_eq_error.1 h)
  | historyReport | historyFile | harvestReport | harvestFile =>
    exact not_tellsWrite_of_range (Json.bind_pure_eq_error.1 h)
  | restoration | history | harvest => cases h

/-- **No request that is refused is answered as if a write had happened.** -/
theorem not_tellsWrite_of_action (h : r.action = .error response) : ¬response.TellsWrite := by
  unfold action at h
  split at h
  · simp only at h
    split at h
    · split at h
      · cases h
        simp
      · rcases Json.bind_eq_error.1 h with h | ⟨resource, -, h⟩
        · obtain ⟨fault, -, rfl⟩ := Json.mapError_eq_error.1 h
          simp
        · exact not_tellsWrite_of_actionOn h
    · cases h
      simp
  · cases h
    simp

end Request

/-! ### Requests that ask for writes -/

/-- The kind of thing that is written if a verb is asked of a resource. -/
def Resource.written? (verb : Verb) : Resource α → Option Entity
  | .prices => if verb = .post then some .price else none
  | .price _ => if verb = .put ∨ verb = .delete then some .price else none
  | .restoration _ => if verb = .post then some .price else none
  | .newHarvests => if verb = .post then some .harvest else none
  | .harvest _ => if verb = .delete then some .harvest else none
  | _ => none

/-- The kind of thing that a request is to write, if its path and its verb are those of a write. -/
def Request.written? (r : Request) : Option Entity := do
  let resource ← Resource.ofPath? r.path
  let verb ← Verb.ofWord? r.method
  resource.written? verb

theorem Request.written?_eq_some {r : Request} {entity : Entity} :
    r.written? = some entity ↔
      ∃ resource, Resource.ofPath? r.path = some resource ∧
        ∃ verb, Verb.ofWord? r.method = some verb ∧ resource.written? verb = some entity := by
  simp only [written?, bind, Option.bind_eq_some_iff]

/-- The write behind what is asked for. -/
def Action.write? (id : Uuid) (now : Timestamp) : Action → Option Market.Write
  | .createPrice new => some (.createPrice new id now)
  | .revisePrice id revision => some (.revisePrice id revision.value now)
  | .deletePrice id => some (.deletePrice id now)
  | .restorePrice id => some (.restorePrice id now)
  | .createHarvest new => some (.createHarvest new id now)
  | .deleteHarvest id => some (.deleteHarvest id now)
  | _ => none

theorem Resource.written?_traverse {β ε : Type} {read : String → α → Except ε β} {verb : Verb}
    {resource : Resource α} {resource' : Resource β} (h : resource.traverse read = .ok resource') :
    resource'.written? verb = resource.written? verb := by
  cases resource with
  | prices | newHarvests =>
    cases h
    rfl
  | price | restoration | harvest | harvests | harvestReport | harvestFile =>
    obtain ⟨_, -, h⟩ := Json.bind_eq_ok.1 h
    cases h
    rfl
  | history | historyReport | historyFile =>
    obtain ⟨_, -, h⟩ := Json.bind_eq_ok.1 h
    obtain ⟨_, -, h⟩ := Json.bind_eq_ok.1 h
    cases h
    rfl

theorem Resource.written?_identify {verb : Verb} {resource : Resource String}
    {resource' : Resource Uuid} (h : resource.identify = .ok resource') :
    resource'.written? verb = resource.written? verb := by
  obtain ⟨texts, ht, h⟩ := Json.bind_eq_ok.1 h
  exact (written?_traverse h).trans (written?_traverse ht)

theorem Request.write?_of_actionOn {r : Request} {verb : Verb} {resource : Resource Uuid}
    {entity : Entity} {a : Action} (hw : resource.written? verb = some entity)
    (h : r.actionOn verb resource = .ok a) (id : Uuid) (now : Timestamp) :
    ∃ w, a.write? id now = some w ∧ w.entity = entity := by
  cases resource with
  | prices =>
    simp only [Resource.written?, Option.ite_none_right_eq_some] at hw
    obtain ⟨rfl, hw⟩ := hw
    obtain ⟨new, -, h⟩ := Json.bind_eq_ok.1 h
    cases hw
    cases h
    exact ⟨_, rfl, rfl⟩
  | price id' =>
    simp only [Resource.written?, Option.ite_none_right_eq_some] at hw
    obtain ⟨hverb, hw⟩ := hw
    cases hw
    rcases hverb with rfl | rfl
    · obtain ⟨revision, -, h⟩ := Json.bind_eq_ok.1 h
      cases h
      exact ⟨_, rfl, rfl⟩
    · cases h
      exact ⟨_, rfl, rfl⟩
  | newHarvests =>
    simp only [Resource.written?, Option.ite_none_right_eq_some] at hw
    obtain ⟨rfl, hw⟩ := hw
    obtain ⟨new, -, h⟩ := Json.bind_eq_ok.1 h
    cases hw
    cases h
    exact ⟨_, rfl, rfl⟩
  | restoration | harvest =>
    simp only [Resource.written?, Option.ite_none_right_eq_some] at hw
    obtain ⟨rfl, hw⟩ := hw
    cases hw
    cases h
    exact ⟨_, rfl, rfl⟩
  | history | historyReport | historyFile | harvests | harvestReport | harvestFile => cases hw

/-- What a request on a write route asks for is a write of its kind. -/
theorem Request.write?_of_action {r : Request} {entity : Entity} {a : Action}
    (hw : r.written? = some entity) (h : r.action = .ok a) (id : Uuid) (now : Timestamp) :
    ∃ w, a.write? id now = some w ∧ w.entity = entity := by
  obtain ⟨resource, hresource, verb, hverb, hw⟩ := written?_eq_some.1 hw
  simp only [action, hresource, hverb] at h
  split at h
  · cases h
  · obtain ⟨resource', hr, h⟩ := Json.bind_eq_ok.1 h
    refine write?_of_actionOn ?_ h id now
    exact (Resource.written?_identify (Json.mapError_eq_ok.1 hr)).trans hw

/-- A request on a write route does not ask for an answer without its content. -/
theorem Request.method_ne_head {r : Request} {entity : Entity} (hw : r.written? = some entity) :
    r.method ≠ Verb.head.word := by
  intro hm
  obtain ⟨resource, -, verb, hverb, hw⟩ := written?_eq_some.1 hw
  rw [hm] at hverb
  cases hverb
  cases resource <;> cases hw

/-! ### Answering requests -/

namespace App

theorem tellsWrite_answer {respond : α → Response}
    (h : ∀ a, 200 ≤ (respond a).status ∧ (respond a).status < 300)
    (result : Except ServiceFault α) :
    (answer respond result).TellsWrite ↔ Market.committed result = true := by
  cases result with
  | ok a => exact ⟨fun _ => rfl, fun _ => .inl (h a)⟩
  | error fault => exact Response.tellsWrite_ofService fault

theorem tellsWrite_run {respond : α → Response}
    (h : ∀ a, 200 ≤ (respond a).status ∧ (respond a).status < 300) (operation : Operation σ α)
    (s : AppState σ τ) :
    ((run operation respond s).1.TellsWrite ↔
      Market.committed (Market.unanswered operation s.market).1 = true) ∧
    (run operation respond s).2.market = (Market.unanswered operation s.market).2 := by
  refine ⟨(tellsWrite_answer h _).trans ?_, rfl⟩
  rw [Market.unanswered, Market.committed_map]

/-- **What is asked for is carried out as a write of the market**, and the answer tells of it. -/
theorem perform_write (app : App σ τ) {id : Uuid} {now : Timestamp} {a : Action} {w : Market.Write}
    (h : a.write? id now = some w) (s : AppState σ τ) :
    ((app.perform id now a s).1.TellsWrite ↔
      Market.committed (w.perform app.market s.market).1 = true) ∧
    (app.perform id now a s).2.market = (w.perform app.market s.market).2 := by
  cases a with
  | createPrice | revisePrice | deletePrice | restorePrice | createHarvest | deleteHarvest =>
    cases h
    exact tellsWrite_run (fun _ => by simp [Response.json, Response.empty]) _ s
  | listPrices | showPrice | showHistory | requestReport | fetchReport | listHarvests => cases h

theorem handle_eq (app : App σ τ) (id : Uuid) (now : Timestamp) {r : Request}
    (hm : r.method ≠ Verb.head.word) (s : AppState σ τ) :
    app.handle id now r s =
      match r.action with
      | .ok a => app.perform id now a s
      | .error refusal => (refusal, s) := by
  have hwhole (outcome : Response × AppState σ τ) :
      (if r.method = Verb.head.word then outcome.1.withoutContent else outcome.1, outcome.2) =
        outcome := by rw [if_neg hm]
  unfold handle
  cases r.action with
  | ok a => exact hwhole _
  | error refusal => exact hwhole (refusal, s)

/-- An app whose cache is observed. -/
def observed (app : App σ τ) : App (Observed σ) τ :=
  ⟨⟨Observed.cache app.market.cache, app.market.defaultTtl, app.market.historyTtl⟩, app.dispatcher⟩

/-- **The answer tells whether the write has happened.** Whatever a request on a write route holds,
and whichever statements the store refuses, the tables have changed if and only if the answer tells
so; the cache is then called once, to drop what it holds of the kind that was written, and otherwise
neither the tables nor the cache were touched. -/
theorem answer_tells_write (app : App σ τ) (id : Uuid) (now : Timestamp) {r : Request}
    {entity : Entity} (h : r.written? = some entity) (s : AppState (Observed σ) τ) :
    ((app.observed.handle id now r s).2.market.store.tables ≠ s.market.store.tables ↔
      (app.observed.handle id now r s).1.TellsWrite) ∧
    ((app.observed.handle id now r s).1.TellsWrite →
      ∃ count, (app.observed.handle id now r s).2.market.cache.calls =
        .delete entity.label count :: s.market.cache.calls) ∧
    (¬(app.observed.handle id now r s).1.TellsWrite →
      (app.observed.handle id now r s).2.market.store.tables = s.market.store.tables ∧
        (app.observed.handle id now r s).2.market.cache = s.market.cache) := by
  rw [handle_eq app.observed id now (Request.method_ne_head h)]
  cases ha : r.action with
  | error refusal =>
    have hr := Request.not_tellsWrite_of_action ha
    exact ⟨⟨fun hne => absurd rfl hne, fun ht => absurd ht hr⟩, fun ht => absurd ht hr,
      fun _ => ⟨rfl, rfl⟩⟩
  | ok a =>
    obtain ⟨w, hw, rfl⟩ := Request.write?_of_action h ha id now
    obtain ⟨htells, hmarket⟩ := app.observed.perform_write hw s
    simp only [htells, hmarket]
    rcases w.perform_cases app.observed.market s.market with hh | ⟨fault, hr⟩
    · have hc : Market.committed (w.perform app.observed.market s.market).1 = true :=
        (w.committed_iff_happened _ _).2 hh
      refine ⟨⟨fun _ => hc, fun _ => hh.turns.ne⟩, fun _ => ?_, fun hn => absurd hc hn⟩
      rw [hh.cache]
      exact ⟨_, rfl⟩
    · have hc : ¬Market.committed (w.perform app.observed.market s.market).1 = true := by
        rw [hr.answer]
        simp [Market.committed, hr.plain]
      exact ⟨⟨fun hne => absurd hr.tables hne, fun ht => absurd ht hc⟩, fun ht => absurd ht hc,
        fun _ => ⟨hr.tables, hr.cache⟩⟩

/-! ### A request -/

namespace Sample

open Market.Sample (time amount)

/-- The sample market, and a broker that collects jobs. -/
def app : App Memory Outbox :=
  ⟨Market.Sample.market, Outbox.publisher, "reports", "http://localhost"⟩

/-- A request that deletes a price. -/
def deletion : Request := ⟨"DELETE", "/api/prices/00000000-0000-0000-0000-000000000001", none, []⟩

/-- One price is stored, and the cache cannot be cleared. -/
def unclearable : AppState (Observed Memory) Outbox where
  market :=
    ⟨⟨{ Tables.empty with
          prices := [⟨⟨1⟩, Market.Sample.pair, amount 105, time 1, time 1, none⟩] },
        0, fun _ _ => false⟩,
      ⟨.empty 100, { CacheOutage.none with delete := some (.backend "down") }, []⟩⟩
  broker := .empty
  reports := .missing

/-- The state after the price was deleted. -/
def deleted : AppState (Observed Memory) Outbox :=
  (app.observed.handle ⟨9⟩ (time 2) deletion unclearable).2

end Sample

open Sample Market.Sample in
/-- The first deletion is told to have happened, but for the clearing; the second one finds no price
and has not touched anything. -/
theorem answer_tells_write_sample :
    deletion.written? = some .price ∧
      (app.observed.handle ⟨9⟩ (time 2) deletion unclearable).1.code? =
        some "CACHE_INVALIDATION_FAILED" ∧
      deleted.market.store.tables ≠ unclearable.market.store.tables ∧
      (∃ count, deleted.market.cache.calls = [.delete Entity.price.label count]) ∧
      (app.observed.handle ⟨9⟩ (time 3) deletion deleted).1.code? = some "NOT_FOUND" ∧
      (app.observed.handle ⟨9⟩ (time 3) deletion deleted).2.market.store.tables =
        deleted.market.store.tables := by
  have hw : deletion.written? = some .price := by decide +kernel
  have hfailed : (app.observed.handle ⟨9⟩ (time 2) deletion unclearable).1.code? =
      some "CACHE_INVALIDATION_FAILED" := by decide +kernel
  have hmissing : ¬(app.observed.handle ⟨9⟩ (time 3) deletion deleted).1.TellsWrite := by
    decide +kernel
  have hfirst := app.answer_tells_write ⟨9⟩ (time 2) hw unclearable
  have hsecond := app.answer_tells_write ⟨9⟩ (time 3) hw deleted
  exact ⟨hw, hfailed, hfirst.1.2 (.inr hfailed), hfirst.2.1 (.inr hfailed), by decide +kernel,
    (hsecond.2.2 hmissing).1⟩

end App

end CropLedger.Web
