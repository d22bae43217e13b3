import CropLedger.Cache.Held
import CropLedger.Proofs.Calendar.Written
import CropLedger.Proofs.Decimal.Written
import CropLedger.Proofs.Json.Records
import CropLedger.Proofs.Uuid

/-!
# Answers are read back from their written form

What clients see of prices, histories and harvests is read back from what is written of it, down to
the places of a decimal and the distance of a time from UTC. A page is read back unless one of its
numbers has more than 64 bits, and then it is not read at all.

* `HeldPrice.restores`, `HeldSnapshot.restores`, `HeldHarvest.restores`: what is read of rows that
  are held;
* `PriceView.restores`, `PriceSnapshot.restores`, `HarvestView.restores`: rows that clients see;
* `Page.reader_json`: pages.
-/

namespace CropLedger

open Json Record

/-! ### Fields -/

namespace Json.Reader

theorem restores_identifier (id : Uuid) : identifier.Restores (id : Json) id := by
  refine (readText_text .identifier _ id.toText).trans ?_
  rw [Uuid.read_toText]

theorem restores_date (date : Date) : Reader.date.Restores (date : Json) date := by
  refine (readText_text .date _ date.toText).trans ?_
  rw [Date.read_toText]

theorem restores_timestamp (time : Timestamp) : timestamp.Restores (time : Json) time := by
  refine (readText_text .timestamp _ time.toText).trans ?_
  rw [Timestamp.read_toText]

theorem restores_long (time : LongTimestamp) : timestamp.Restores (time : Json) time.told :=
  restores_timestamp time.told

theorem restores_signed (d : SignedDecimal) : decimal.Restores (d : Json) d.plain := by
  show decimal (.text (.of d.toText)) = .ok d.plain
  simp only [decimal, RawText.read_of, ofStop, bind, Except.bind, SignedDecimal.read?_toText]

end Json.Reader

open Json.Reader

theorem Pair.builds {pair : Pair} {members : List (String × Json)}
    (hc : members.lookup "commodity_id" = some (pair.commodity : Json))
    (hl : members.lookup "location_id" = some (pair.location : Json)) :
    Pair.record.Builds members pair :=
  ((builds_field hc (restores_identifier _)).map Pair.mk).seq
    (builds_field hl (restores_identifier _))

theorem Pair.lawful : Pair.record.Lawful :=
  ((lawful_field ..).map Pair.mk).seq (lawful_field ..)

/-! ### Rows that are held -/

theorem HeldPrice.restores (p : HeldPrice) : PriceView.reader.Restores p.json p.told := by
  refine Builds.restores ?_ (by simp) ?_ _
  · exact (((((lawful_field ..).map _).seq Pair.lawful).seq (lawful_field ..)).seq
      (lawful_field ..)).seq (lawful_field ..)
  · exact (((((builds_field rfl (restores_identifier _)).map PriceView.mk).seq
      (Pair.builds rfl rfl)).seq (builds_field rfl (restores_signed _))).seq
      (builds_field rfl (restores_long _))).seq (builds_field rfl (restores_long _))

theorem HeldSnapshot.restores (s : HeldSnapshot) : PriceSnapshot.reader.Restores s.json s.told := by
  refine Builds.restores ?_ (by simp) ?_ _
  · exact ((((((lawful_field ..).map _).seq Pair.lawful).seq (lawful_field ..)).seq
      (lawful_field ..)).seq (lawful_field ..)).seq (lawful_field ..)
  · exact ((((((builds_field rfl (restores_identifier _)).map PriceSnapshot.mk).seq
      (Pair.builds rfl rfl)).seq (builds_field rfl (restores_signed _))).seq
      (builds_field rfl (restores_long _))).seq
      (builds_field rfl (restores_long _))).seq (builds_field rfl (restores_boolean _))

theorem HarvestView.lawful : (HarvestView.mk <$> field "id" identifier
    <*> field "land_commodity_id" identifier <*> field "harvest_date" Reader.date
    <*> field "quantity" decimal <*> field "unit" text <*> optional "notes" text
    <*> field "created_at" timestamp <*> field "updated_at" timestamp : Record _).Lawful :=
  ((((((((lawful_field ..).map _).seq (lawful_field ..)).seq (lawful_field ..)).seq
    (lawful_field ..)).seq (lawful_field ..)).seq (lawful_field ..)).seq (lawful_field ..)).seq
    (lawful_field ..)

theorem HeldHarvest.restores (h : HeldHarvest) : HarvestView.reader.Restores h.json h.told := by
  obtain ⟨id, land, date, quantity, unit, notes, created, updated⟩ := h
  cases notes with
  | none =>
    refine Builds.restores HarvestView.lawful (by simp) ?_ _
    exact ((((((((builds_field rfl (restores_identifier _)).map HarvestView.mk).seq
      (builds_field rfl (restores_identifier _))).seq (builds_field rfl (restores_date _))).seq
      (builds_field rfl (restores_signed _))).seq (builds_field rfl (restores_text _))).seq
      (builds_missing rfl)).seq (builds_field rfl (restores_long _))).seq
      (builds_field rfl (restores_long _))
  | some notes =>
    refine Builds.restores HarvestView.lawful (by simp) ?_ _
    exact ((((((((builds_field rfl (restores_identifier _)).map HarvestView.mk).seq
      (builds_field rfl (restores_identifier _))).seq (builds_field rfl (restores_date _))).seq
      (builds_field rfl (restores_signed _))).seq (builds_field rfl (restores_text _))).seq
      (builds_field rfl (restores_nullable_text (restores_text notes)))).seq
      (builds_field rfl (restores_long _))).seq (builds_field rfl (restores_long _))

/-! ### Rows that clients see -/

theorem text_long (t : Timestamp) : (t.long : Json) = (t : Json) :=
  congrArg (fun t : Timestamp => Json.text t.toText) (LongTimestamp.told_long t)

theorem text_signed (d : Decimal) : (d.signed : Json) = (d : Json) :=
  congrArg Json.text (SignedDecimal.toText_signed d)

theorem PriceView.told_held (p : PriceView) : p.held.told = p := by
  simp only [held, HeldPrice.told, SignedDecimal.plain_signed, LongTimestamp.told_long]

theorem PriceView.json_held (p : PriceView) : p.held.json = p.json := by
  simp only [held, HeldPrice.json, json, text_signed, text_long]

theorem PriceView.restores (p : PriceView) : PriceView.reader.Restores p.json p := by
  have h := p.held.restores
  rwa [p.json_held, p.told_held] at h

theorem PriceSnapshot.told_held (s : PriceSnapshot) : s.held.told = s := by
  simp only [held, HeldSnapshot.told, SignedDecimal.plain_signed, LongTimestamp.told_long]

theorem PriceSnapshot.json_held (s : PriceSnapshot) : s.held.json = s.json := by
  simp only [held, HeldSnapshot.json, json, text_signed, text_long]

theorem PriceSnapshot.restores (s : PriceSnapshot) : PriceSnapshot.reader.Restores s.json s := by
  have h := s.held.restores
  rwa [s.json_held, s.told_held] at h

theorem HarvestView.told_held (h : HarvestView) : h.held.told = h := by
  simp only [held, HeldHarvest.told, SignedDecimal.plain_signed, LongTimestamp.told_long]

theorem HarvestView.json_held (h : HarvestView) : h.held.json = h.json := by
  simp only [held, HeldHarvest.json, json, text_signed, text_long]

theorem HarvestView.restores (h : HarvestView) : HarvestView.reader.Restores h.json h := by
  have hheld := h.held.restores
  rwa [h.json_held, h.told_held] at hheld

/-! ### Pages -/

/-- A page with its rows changed. -/
def Page.map {α β : Type} (f : α → β) (p : Page α) : Page β :=
  ⟨p.data.map f, p.page, p.limit, p.total⟩

@[simp] theorem Page.map_id {α : Type} (p : Page α) : p.map (fun a => a) = p := by
  simp only [map, List.map_id']

/-- A page is read, row by row, if its numbers have at most 64 bits, and is not read if one has
more. -/
theorem Page.reader_json {α β : Type} {item : Reader β} {json : α → Json} {told : α → β}
    {p : Page α} {q : Page β} (h : ∀ a ∈ p.data, item.Restores (json a) (told a)) (name : String) :
    Page.reader name item (p.json json).tree = .ok q ↔
      q = p.map told ∧ p.page < 2 ^ 64 ∧ p.limit < 2 ^ 64 ∧ p.total < 2 ^ 64 := by
  have hl : (Page.mk <$> field "data" (.sequence item) <*> field "page" unsigned
      <*> field "limit" unsigned <*> field "total" unsigned : Record (Page β)).Lawful :=
    ((((lawful_field ..).map _).seq (lawful_field ..)).seq (lawful_field ..)).seq (lawful_field ..)
  have hdata : sequence item (Json.array (p.data.map json)).tree = .ok (p.data.map told) :=
    sequence_array h
  refine (read_object hl (by simp) name).trans ?_
  constructor
  · intro hq
    obtain ⟨_, total, h₃, htotal, rfl⟩ := fromMembers_seq.1 hq
    obtain ⟨_, limit, h₂, hlimit, rfl⟩ := fromMembers_seq.1 h₃
    obtain ⟨_, page, h₁, hpage, rfl⟩ := fromMembers_seq.1 h₂
    obtain ⟨data, h₀, rfl⟩ := fromMembers_map.1 h₁
    have hread := (fromMembers_field rfl).1 h₀
    obtain ⟨btotal, rfl⟩ := unsigned_number.1 ((fromMembers_field rfl).1 htotal)
    obtain ⟨blimit, rfl⟩ := unsigned_number.1 ((fromMembers_field rfl).1 hlimit)
    obtain ⟨bpage, rfl⟩ := unsigned_number.1 ((fromMembers_field rfl).1 hpage)
    rw [hdata] at hread
    cases hread
    exact ⟨rfl, bpage, blimit, btotal⟩
  · rintro ⟨rfl, hpage, hlimit, htotal⟩
    exact ((((builds_field rfl hdata).map Page.mk).seq
      (builds_field rfl (unsigned_number.2 ⟨hpage, rfl⟩))).seq
      (builds_field rfl (unsigned_number.2 ⟨hlimit, rfl⟩))).seq
      (builds_field rfl (unsigned_number.2 ⟨htotal, rfl⟩))

/-! ### Nothing else is read -/

theorem PriceView.faithful : PriceView.reader.Faithful PriceView.json := fun p _ h => by
  rw [p.restores] at h
  exact (Except.ok.inj h).symm

theorem PriceSnapshot.faithful_list :
    PriceSnapshot.listReader.Faithful PriceSnapshot.listJson := fun points _ h => by
  have hpoints := sequence_array fun s (_ : s ∈ points) => s.restores
  rw [List.map_id'] at hpoints
  exact Except.ok.inj (h.symm.trans hpoints)

theorem PricePage.faithful : PricePage.reader.Faithful PricePage.json := fun p _ h =>
  ((Page.reader_json (fun p _ => p.restores) _).1 h).1.trans p.map_id

theorem HarvestPage.faithful : HarvestPage.reader.Faithful HarvestPage.json := fun p _ h =>
  ((Page.reader_json (fun p _ => p.restores) _).1 h).1.trans p.map_id

end CropLedger
