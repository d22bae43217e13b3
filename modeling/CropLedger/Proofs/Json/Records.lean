import CropLedger.Json.Record
import CropLedger.Proofs.Json.Readers

/-!
# Reading records that were written

A record looks at its fields alone, and each field that it is put together from has passed its own
check. So a written object is read as a record exactly if the record can be put together from the
trees of its members, in whatever order they stand and whatever stands beside them.

* `Record.Lawful`: the two laws, kept by fields and by sequences of them;
* `Scan.skip_tree`, `Scan.skip_of_buffer`: a written value can be passed over, and so can what is
  kept for later;
* `Record.Spells`: the members of any object, told by the names of their keys;
* `Record.collect_of_fromMembers`, `Record.fromMembers_of_collect`: what is collected for a record;
* `Record.read_object`: a written object read as a record;
* `Record.Builds`: how a record is put together, field by field.
-/

namespace CropLedger.Json

/-! ### Values that are passed over -/

namespace Scan

mutual

/-- A written value can be passed over. -/
theorem skip_tree : ∀ j : Json, skip j.tree = .ok ()
  | .null | .boolean _ | .number _ | .text _ => rfl
  | .array items => skipItems_trees items
  | .object members => skipMembers_trees members

theorem skipItems_trees : ∀ items : List Json, skipItems none (itemTrees items) = .ok ()
  | [] => rfl
  | item :: items => by
    rw [itemTrees, skipItems, skip_tree item]
    exact skipItems_trees items

theorem skipMembers_trees :
    ∀ members : List (String × Json), skipMembers none (memberTrees members) = .ok ()
  | [] => rfl
  | (key, value) :: members => by
    rw [memberTrees, skipMembers, skip_tree value]
    exact skipMembers_trees members

end

mutual

/-- What can be kept for later can be passed over. -/
theorem skip_of_buffer : ∀ (depth : Nat) (t : Scan), buffer depth t = .ok () → skip t = .ok ()
  | _, .null, _ | _, .boolean _, _ | _, .number _, _ => rfl
  | _, .cutNumeral, h | _, .broken _, h => nomatch h
  | depth, .text content, h => by
    obtain ⟨s, hs, -⟩ := bind_eq_ok.1 h
    rw [skip, RawText.stop_eq_none hs]
    rfl
  | depth, .array items stop, h => by
    rw [buffer] at h
    split at h
    · cases h
    · exact skipItems_of_buffer (depth - 1) stop items h
  | depth, .object members stop, h => by
    rw [buffer] at h
    split at h
    · cases h
    · exact skipMembers_of_buffer (depth - 1) stop members h

theorem skipItems_of_buffer : ∀ (depth : Nat) (stop : Option Stop) (items : List Scan),
    bufferItems depth stop items = .ok () → skipItems stop items = .ok ()
  | _, _, [], h => h
  | depth, stop, item :: items, h => by
    obtain ⟨_, hitem, hitems⟩ := bind_eq_ok.1 h
    exact bind_eq_ok.2 ⟨(), skip_of_buffer depth item hitem,
      skipItems_of_buffer depth stop items hitems⟩

theorem skipMembers_of_buffer : ∀ (depth : Nat) (stop : Option Stop)
    (members : List (RawText × Scan)), bufferMembers depth stop members = .ok () →
    skipMembers stop members = .ok ()
  | _, _, [], h => h
  | depth, stop, (key, value) :: members, h => by
    obtain ⟨_, hkey, h⟩ := bind_eq_ok.1 h
    obtain ⟨_, hvalue, hmembers⟩ := bind_eq_ok.1 h
    refine bind_eq_ok.2 ⟨(), ?_, bind_eq_ok.2 ⟨(), skip_of_buffer depth value hvalue,
      skipMembers_of_buffer depth stop members hmembers⟩⟩
    rw [RawText.stop_eq_none hkey]
    rfl

end

end Scan

namespace Record

variable {α β : Type}

/-! ### The laws of records -/

/-- **The laws of a record**: it is put together from the fields that it checks alone, and only
from fields that pass their checks. -/
structure Lawful (r : Record α) : Prop where
  looksUp : ∀ {find find' : String → Option Scan}, (∀ c ∈ r.checks, find c.1 = find' c.1) →
    r.fromMembers find = r.fromMembers find'
  checked : ∀ {find : String → Option Scan} {a : α}, r.fromMembers find = .ok a →
    ∀ c ∈ r.checks, ∀ t, find c.1 = some t → c.2 t = .ok ()

theorem lawful_pure (a : α) : (pure a : Record α).Lawful := ⟨fun _ => rfl, fun _ _ hc => nomatch hc⟩

theorem lawful_field (name : String) (read : Reader α) (missing absent : Option α) :
    (field name read missing absent).Lawful := by
  refine ⟨fun h => ?_, fun {find a} h c hc t ht => ?_⟩
  · have := h _ (List.mem_singleton_self _)
    simp only [field, this]
  · obtain rfl := List.mem_singleton.1 hc
    simp only [field, ht] at h ⊢
    rw [map_eq_ok]
    exact ⟨a, mapError_eq_ok.1 h, rfl⟩

theorem fromMembers_seq {f : Record (α → β)} {r : Record α} {find : String → Option Scan} {b : β} :
    (f <*> r).fromMembers find = .ok b ↔
      ∃ g a, f.fromMembers find = .ok g ∧ r.fromMembers find = .ok a ∧ g a = b := by
  show (do let g ← f.fromMembers find; return g (← r.fromMembers find)) = Except.ok b ↔ _
  rw [bind_eq_ok]
  constructor
  · rintro ⟨g, hg, h⟩
    obtain ⟨a, ha, h⟩ := bind_eq_ok.1 h
    cases h
    exact ⟨g, a, hg, ha, rfl⟩
  · rintro ⟨g, a, hg, ha, rfl⟩
    exact ⟨g, hg, bind_eq_ok.2 ⟨a, ha, rfl⟩⟩

theorem Lawful.seq {f : Record (α → β)} {r : Record α} (hf : f.Lawful) (hr : r.Lawful) :
    (f <*> r).Lawful := by
  refine ⟨fun {find find'} h => ?_, fun {find b} h c hc t ht => ?_⟩
  · have h₁ := hf.looksUp fun c hc => h c (List.mem_append_left _ hc)
    have h₂ := hr.looksUp fun c hc => h c (List.mem_append_right _ hc)
    show (do let g ← f.fromMembers find; return g (← r.fromMembers find)) = _
    rw [h₁, h₂]
    rfl
  · obtain ⟨g, a, hg, ha, -⟩ := fromMembers_seq.1 h
    rcases List.mem_append.1 hc with hc | hc
    · exact hf.checked hg c hc t ht
    · exact hr.checked ha c hc t ht

theorem Lawful.map {r : Record α} (g : α → β) (hr : r.Lawful) : (g <$> r).Lawful :=
  (lawful_pure g).seq hr

theorem fromMembers_map {g : α → β} {r : Record α} {find : String → Option Scan} {b : β} :
    (g <$> r).fromMembers find = .ok b ↔ ∃ a, r.fromMembers find = .ok a ∧ g a = b := by
  refine (fromMembers_seq (f := pure g)).trans ⟨?_, ?_⟩
  · rintro ⟨g', a, hg, ha, rfl⟩
    cases hg
    exact ⟨a, ha, rfl⟩
  · rintro ⟨a, ha, rfl⟩
    exact ⟨g, a, rfl, ha, rfl⟩

theorem fromMembers_field {name : String} {read : Reader α} {missing absent : Option α}
    {find : String → Option Scan} {t : Scan} {a : α} (h : find name = some t) :
    (field name read missing absent).fromMembers find = .ok a ↔ read t = .ok a := by
  simp only [field, h]
  exact mapError_eq_ok

theorem fromMembers_missing {name : String} {read : Reader α} {d a : α} {absent : Option α}
    {find : String → Option Scan} (h : find name = none) :
    (field name read (some d) absent).fromMembers find = .ok a ↔ d = a := by
  simp only [field, h]
  exact ⟨fun he => Except.ok.inj he, congrArg _⟩

/-! ### Objects and the names of their members -/

section Keys

variable {κ γ : Type} [BEq κ] [LawfulBEq κ] {l : List (κ × β)}

theorem mem_of_lookup_eq_some {key : κ} {b : β} (h : l.lookup key = some b) : (key, b) ∈ l := by
  obtain ⟨l₁, l₂, rfl, -⟩ := List.lookup_eq_some_iff.1 h
  exact List.mem_append_right _ List.mem_cons_self

theorem lookup_of_mem (hn : (l.map Prod.fst).Nodup) {m : κ × β} (hm : m ∈ l) :
    l.lookup m.1 = some m.2 := by
  obtain ⟨l₁, l₂, rfl⟩ := List.append_of_mem hm
  refine List.lookup_eq_some_iff.2 ⟨l₁, l₂, rfl, fun x hx => ?_⟩
  rw [List.map_append, List.nodup_append] at hn
  exact bne_iff_ne.2 fun he => hn.2.2 x.1 (List.mem_map_of_mem hx) m.1 List.mem_cons_self he.symm

omit [LawfulBEq κ] in
theorem lookup_map_values (f : β → γ) (key : κ) :
    (l.map fun m => (m.1, f m.2)).lookup key = (l.lookup key).map f := by
  induction l with
  | nil => rfl
  | cons m l ih =>
    rw [List.map_cons, List.lookup_cons, List.lookup_cons, ih]
    cases key == m.1 <;> rfl

end Keys

/-- The members of an object, told by the names that their keys are read as. -/
def Spells (members : List (RawText × Scan)) (named : List (String × Scan)) : Prop :=
  List.Forall₂ (fun m n => m.1.read = .ok n.1 ∧ m.2 = n.2) members named

section Collect

variable {checks : List (String × (Scan → Except Fault Unit))} {other : Scan → Except Stop Unit}
  {members : List (RawText × Scan)} {named : List (String × Scan)}

/-- A member passes its own check if it has one, and otherwise what looks at the rest. -/
def Passes (checks : List (String × (Scan → Except Fault Unit))) (other : Scan → Except Stop Unit)
    (m : String × Scan) : Prop :=
  match checks.lookup m.1 with
  | some check => check m.2 = .ok ()
  | none => other m.2 = .ok ()

theorem passes_checked {m : String × Scan} {check : Scan → Except Fault Unit}
    (hc : checks.lookup m.1 = some check) : Passes checks other m ↔ check m.2 = .ok () := by
  rw [Passes, hc]

theorem passes_unchecked {m : String × Scan} (hc : checks.lookup m.1 = none) :
    Passes checks other m ↔ other m.2 = .ok () := by
  rw [Passes, hc]

theorem collect_checked {key : RawText} {name : String} (hk : key.read = .ok name)
    {check : Scan → Except Fault Unit} (hc : checks.lookup name = some check) {t : Scan}
    {rest : List (RawText × Scan)} {known found : List (String × Scan)} :
    collect checks other none known ((key, t) :: rest) = .ok found ↔
      known.lookup name = none ∧ check t = .ok () ∧
        collect checks other none ((name, t) :: known) rest = .ok found := by
  rw [collect, hk]
  simp only [ofStop, bind, Except.bind, hc]
  cases known.lookup name with
  | some twice =>
    constructor
    · intro h
      cases h
    · rintro ⟨h, -⟩
      cases h
  | none =>
    cases check t with
    | ok u => simp [Except.mapError]
    | error fault => simp [Except.mapError]

theorem collect_unchecked {key : RawText} {name : String} (hk : key.read = .ok name)
    (hc : checks.lookup name = none) {t : Scan} {rest : List (RawText × Scan)}
    {known found : List (String × Scan)} :
    collect checks other none known ((key, t) :: rest) = .ok found ↔
      other t = .ok () ∧ collect checks other none known rest = .ok found := by
  rw [collect, hk]
  simp only [ofStop, bind, Except.bind, hc]
  cases other t with
  | ok u => simp
  | error stop => simp

/-- If all members have been looked at, each of them has passed. -/
theorem passes_of_collect (hs : Spells members named) {known found : List (String × Scan)}
    (h : collect checks other none known members = .ok found) :
    ∀ m ∈ named, Passes checks other m := by
  induction hs generalizing known with
  | nil => exact fun m hm => nomatch hm
  | @cons m n members named hm _ ih =>
    obtain ⟨key, t⟩ := m
    obtain ⟨name, _⟩ := n
    obtain ⟨hk, rfl⟩ : key.read = .ok name ∧ t = _ := hm
    rw [List.forall_mem_cons]
    cases hc : checks.lookup name with
    | some check =>
      obtain ⟨-, hpass, h⟩ := (collect_checked hk hc).1 h
      exact ⟨(passes_checked hc).2 hpass, ih h⟩
    | none =>
      obtain ⟨hpass, h⟩ := (collect_unchecked hk hc).1 h
      exact ⟨(passes_unchecked hc).2 hpass, ih h⟩

/-- Members of different names that all pass are collected, those that have a check are found. -/
theorem collect_of_passes (hs : Spells members named) (hn : (named.map Prod.fst).Nodup)
    (hp : ∀ m ∈ named, Passes checks other m) {known : List (String × Scan)}
    (hfresh : ∀ m ∈ named, known.lookup m.1 = none) :
    ∃ found, collect checks other none known members = .ok found ∧
      ∀ c ∈ checks, found.lookup c.1 = (known.lookup c.1).or (named.lookup c.1) := by
  induction hs generalizing known with
  | nil => exact ⟨known, rfl, fun c _ => (Option.or_none).symm⟩
  | @cons m n members named hm _ ih =>
    obtain ⟨key, t⟩ := m
    obtain ⟨name, _⟩ := n
    obtain ⟨hk, rfl⟩ : key.read = .ok name ∧ t = _ := hm
    -- names are distinct, so what is known never hides a member that is yet to come
    obtain ⟨hkey, hn⟩ := List.nodup_cons.1 hn
    obtain ⟨hpass, hp⟩ := List.forall_mem_cons.1 hp
    obtain ⟨hknown, hfresh⟩ := List.forall_mem_cons.1 hfresh
    have hne : ∀ n ∈ named, n.1 ≠ name := by
      rintro n hmem rfl
      exact hkey (show n.1 ∈ named.map Prod.fst from List.mem_map_of_mem hmem)
    cases hc : checks.lookup name with
    | some check =>
      have hfresh' : ∀ n ∈ named, List.lookup n.1 ((name, t) :: known) = none := by
        intro n hn
        rw [List.lookup_cons, beq_false_of_ne (hne n hn)]
        exact hfresh n hn
      obtain ⟨found, hf, hl⟩ := ih hn hp hfresh'
      refine ⟨found, (collect_checked hk hc).2 ⟨hknown, (passes_checked hc).1 hpass, hf⟩, ?_⟩
      intro c hc
      rw [hl c hc, List.lookup_cons, List.lookup_cons]
      by_cases he : c.1 = name
      · simp [he, hknown]
      · rw [beq_false_of_ne he]
    | none =>
      obtain ⟨found, hf, hl⟩ := ih hn hp hfresh
      have hother := (passes_unchecked hc).1 hpass
      refine ⟨found, (collect_unchecked hk hc).2 ⟨hother, hf⟩, fun c hm => ?_⟩
      have he : c.1 ≠ name := fun he => by simpa [he] using List.lookup_eq_none_iff.1 hc c hm
      rw [hl c hm, List.lookup_cons, beq_false_of_ne he]

/-- If the members that have a check pass it, the only fault left is one of the text's shape. -/
theorem stopped_of_collect (hs : Spells members named) (hn : (named.map Prod.fst).Nodup)
    (hp : ∀ m ∈ named, ∀ check, checks.lookup m.1 = some check → check m.2 = .ok ())
    {known : List (String × Scan)} (hfresh : ∀ m ∈ named, known.lookup m.1 = none) {fault : Fault}
    (h : collect checks other none known members = .error fault) :
    ∃ stop, fault = .stopped stop := by
  induction hs generalizing known with
  | nil => cases h
  | @cons m n members named hm _ ih =>
    obtain ⟨key, t⟩ := m
    obtain ⟨name, _⟩ := n
    obtain ⟨hk, rfl⟩ : key.read = .ok name ∧ t = _ := hm
    obtain ⟨hkey, hn⟩ := List.nodup_cons.1 hn
    obtain ⟨hpass, hp⟩ := List.forall_mem_cons.1 hp
    obtain ⟨hknown, hfresh⟩ := List.forall_mem_cons.1 hfresh
    rw [collect, hk] at h
    simp only [ofStop, bind, Except.bind] at h
    cases hc : checks.lookup name with
    | some check =>
      simp only [hc, hknown, hpass check hc, Option.isSome_none] at h
      refine ih hn hp (fun n hmem => ?_) h
      have hne : n.1 ≠ name := by
        rintro rfl
        exact hkey (show n.1 ∈ named.map Prod.fst from List.mem_map_of_mem hmem)
      rw [List.lookup_cons, beq_false_of_ne hne]
      exact hfresh n hmem
    | none =>
      cases ht : other t with
      | ok u =>
        simp only [hc, ht] at h
        exact ih hn hp hfresh h
      | error stop =>
        simp only [hc, ht] at h
        cases h
        exact ⟨stop, rfl⟩

/-- What has been collected for a record is as good as all members. -/
theorem fromMembers_of_collect {r : Record α} (hr : r.Lawful) (hs : Spells members named)
    (hn : (named.map Prod.fst).Nodup) {found : List (String × Scan)}
    (h : collect r.checks other none [] members = .ok found) :
    r.fromMembers (fun name => found.lookup name) =
      r.fromMembers fun name => named.lookup name := by
  have hnothing : ∀ m ∈ named, List.lookup m.1 ([] : List (String × Scan)) = none := fun _ _ => rfl
  obtain ⟨found', h', hl⟩ := collect_of_passes hs hn (passes_of_collect hs h) hnothing
  rw [h] at h'
  cases h'
  exact hr.looksUp fun c hc => hl c hc

/-- If a record can be put together from the members of an object, and what looks at the rest finds
no fault, the members are collected and the record is put together from them. -/
theorem collect_of_fromMembers {r : Record α} (hr : r.Lawful) (hs : Spells members named)
    (hn : (named.map Prod.fst).Nodup)
    (hother : ∀ m ∈ named, r.checks.lookup m.1 = none → other m.2 = .ok ()) {a : α}
    (ha : r.fromMembers (fun name => named.lookup name) = .ok a) :
    ∃ found, collect r.checks other none [] members = .ok found ∧
      r.fromMembers (fun name => found.lookup name) = .ok a := by
  have hp : ∀ m ∈ named, Passes r.checks other m := by
    intro m hm
    cases hc : r.checks.lookup m.1 with
    | some check =>
      exact (passes_checked hc).2
        (hr.checked ha _ (mem_of_lookup_eq_some hc) _ (lookup_of_mem hn hm))
    | none => exact (passes_unchecked hc).2 (hother m hm hc)
  have hnothing : ∀ m ∈ named, List.lookup m.1 ([] : List (String × Scan)) = none := fun _ _ => rfl
  obtain ⟨found, hf, -⟩ := collect_of_passes hs hn hp hnothing
  exact ⟨found, hf, (fromMembers_of_collect hr hs hn hf).trans ha⟩

end Collect

/-! ### Written objects -/

/-- The tree of a member of an object. -/
def memberTree? (members : List (String × Json)) (name : String) : Option Scan :=
  (members.lookup name).map tree

/-- The members of an object by name, each with its tree. -/
def namedTrees (members : List (String × Json)) : List (String × Scan) :=
  members.map fun m => (m.1, m.2.tree)

theorem lookup_namedTrees (members : List (String × Json)) (name : String) :
    (namedTrees members).lookup name = memberTree? members name := lookup_map_values tree name

theorem map_fst_namedTrees (members : List (String × Json)) :
    (namedTrees members).map Prod.fst = members.map Prod.fst := by
  rw [namedTrees, List.map_map]
  rfl

theorem spells_memberTrees (members : List (String × Json)) :
    Spells (memberTrees members) (namedTrees members) := by
  induction members with
  | nil => exact .nil
  | cons m members ih => exact .cons ⟨RawText.read_of m.1, rfl⟩ ih

/-- **A written object is read as a record exactly if the record can be put together from the trees
of its members.** -/
theorem read_object {r : Record α} (hr : r.Lawful) {members : List (String × Json)}
    (hn : (members.map Prod.fst).Nodup) (title : String) {a : α} :
    Record.read title r (Json.object members).tree = .ok a ↔
      r.fromMembers (fun name => memberTree? members name) = .ok a := by
  have hs := spells_memberTrees members
  have hn' : ((namedTrees members).map Prod.fst).Nodup := by rwa [map_fst_namedTrees]
  rw [tree, Record.read, bind_eq_ok]
  simp only [← lookup_namedTrees]
  constructor
  · rintro ⟨found, hf, ha⟩
    rwa [fromMembers_of_collect hr hs hn' hf] at ha
  · refine collect_of_fromMembers hr hs hn' fun m hm _ => ?_
    obtain ⟨member, -, rfl⟩ := List.mem_map.1 hm
    exact Scan.skip_tree member.2

/-! ### Putting records together -/

/-- A record is put together from members as a value. -/
def Builds (r : Record α) (members : List (String × Json)) (a : α) : Prop :=
  r.fromMembers (memberTree? members) = .ok a

section Builds

variable {members : List (String × Json)}

theorem Builds.map {r : Record α} {a : α} (h : r.Builds members a) (g : α → β) :
    (g <$> r).Builds members (g a) :=
  fromMembers_map.2 ⟨a, h, rfl⟩

theorem Builds.seq {f : Record (α → β)} {r : Record α} {g : α → β} {a : α}
    (hf : f.Builds members g) (hr : r.Builds members a) : (f <*> r).Builds members (g a) :=
  fromMembers_seq.2 ⟨g, a, hf, hr, rfl⟩

theorem builds_field {name : String} {read : Reader α} {missing absent : Option α} {j : Json}
    {a : α} (hm : members.lookup name = some j) (hr : read.Restores j a) :
    (field name read missing absent).Builds members a :=
  (fromMembers_field (by rw [memberTree?, hm]; rfl)).2 hr

theorem builds_missing {name : String} {read : Reader α} {d : α} {absent : Option α}
    (hm : members.lookup name = none) :
    (field name read (some d) absent).Builds members d :=
  (fromMembers_missing (by rw [memberTree?, hm]; rfl)).2 rfl

/-- A written object is read as the record that is put together from its members. -/
theorem Builds.restores {r : Record α} (hr : r.Lawful) (hn : (members.map Prod.fst).Nodup)
    {a : α} (h : r.Builds members a) (title : String) :
    (Record.read title r).Restores (.object members) a :=
  (read_object hr hn title).2 h

end Builds

end Record

end CropLedger.Json
