import CropLedger.Proofs.Report.NewestRendering

/-!
# What requests see of a directory

A request sees of the directory the names that match it and what they stand for. A name that is not
finished matches no request, whatever it starts with; so calls on unfinished files cannot be seen.

* `ReportRequest.Sees`: the names that a request can lead to;
* `ReportRequest.not_sees_unfinished`: unfinished names are not among them;
* `Directory.newest_congr`, `Directory.load_congr`: what decides the answers to clients;
* `Directory.Kept`: what is left alone between two moments, with a lemma for each call on a file.
-/

namespace CropLedger

/-- A request can lead to a name: it spells a text that matches the request. -/
def ReportRequest.Sees (r : ReportRequest) (n : Bytes) : Prop :=
  ∃ name, Utf8.decode? n = some name ∧ r.matchesName name = true

theorem ReportRequest.sees_encode {r : ReportRequest} {name : String} :
    r.Sees (Utf8.encode name) ↔ r.matchesName name = true := by
  constructor
  · rintro ⟨text, htext, hmatch⟩
    rw [Utf8.decode?_encode] at htext
    exact Option.some.inj htext ▸ hmatch
  · exact fun h => ⟨name, Utf8.decode?_encode name, h⟩

/-- **No request can lead to a file that is not finished.** -/
theorem ReportRequest.not_sees_unfinished (r : ReportRequest) (name : String) :
    ¬r.Sees (Directory.unfinished (Utf8.encode name)) := by
  rw [Directory.unfinished_encode, sees_encode, r.matchesName_part]
  exact Bool.false_ne_true

namespace Listing

theorem has_iff_find? {entries : Listing} {n : Bytes} :
    entries.Has n ↔ entries.find? n ≠ none := by
  simp [find?, Has, List.lookup_eq_none_iff, @eq_comm _ n]

theorem insert_insert (entries : Listing) (name : Bytes) (first second : Entry) :
    (entries.insert name first).insert name second = entries.insert name second := by
  simp [insert, erase, List.filter_filter]

theorem write_insert (entries : Listing) (name : Bytes) (first second : FileContent) :
    (entries.insert name (.file first)).write name second =
      .ok (entries.insert name (.file second)) := by
  rw [write, find?_insert_self]
  exact congrArg Except.ok (insert_insert entries name _ _)

/-- A folder is not written to; anything else gives way to the file. -/
theorem write_cases (entries : Listing) (name : Bytes) :
    (entries.find? name = some .folder ∧
      ∀ content, entries.write name content = .error .isDirectory) ∨
    (entries.find? name ≠ some .folder ∧
      ∀ content, entries.write name content = .ok (entries.insert name (.file content))) := by
  unfold write
  by_cases h : entries.find? name = some .folder
  · exact .inl ⟨h, fun _ => by rw [h]⟩
  · refine .inr ⟨h, fun content => ?_⟩
    split
    · rename_i hfind
      exact absurd hfind h
    · rfl

/-- A file that is renamed takes the place of what had its new name, which is no folder. -/
theorem rename_file {entries after : Listing} {old new : Bytes} {content : FileContent}
    (hfile : entries.find? old = some (.file content)) (h : entries.rename old new = .ok after) :
    entries.find? new ≠ some .folder ∧ after = (entries.erase old).insert new (.file content) := by
  unfold rename at h
  rw [hfile] at h
  split at h
  · rename_i hnone
    cases hnone
  · cases h
  · rename_i entry _ hentry hno
    cases hentry
    exact ⟨fun hfolder => hno content hfolder rfl, (Except.ok.inj h).symm⟩

end Listing

namespace Directory

/-! ### Names and what they stand for -/

/-- What a name stands for. -/
def find? (d : Directory) (n : Bytes) : Option Entry :=
  match d with
  | .listing entries => entries.find? n
  | .missing | .file => none

variable {d d' d'' : Directory} {r : ReportRequest}

/-- Which name is found is decided by which of the names that match are there. -/
theorem newestName?_congr {entries entries' : Listing}
    (h : ∀ n, r.Sees n → (entries.Has n ↔ entries'.Has n)) :
    newestName? r entries = newestName? r entries' := by
  have hnames (name : String) (hmatch : r.matchesName name = true) :
      name ∈ names entries ↔ name ∈ names entries' := by
    rw [mem_names, mem_names]
    exact exists_congr fun n => and_congr_left fun hn => h n ⟨name, hn, hmatch⟩
  rcases newestName?_cases r entries with ⟨name, hname, hmem, hmatch⟩ | ⟨hnone, hno⟩ <;>
    rcases newestName?_cases r entries' with ⟨name', hname', hmem', hmatch'⟩ | ⟨hnone', hno'⟩
  · have hge := not_newestName?_lt hname ((hnames name' hmatch').2 hmem') hmatch'
    have hle := not_newestName?_lt hname' ((hnames name hmatch).1 hmem) hmatch
    rw [hname, hname', String.le_antisymm (String.not_lt.1 hge) (String.not_lt.1 hle)]
  · rw [hno' name ((hnames name hmatch).1 hmem)] at hmatch
    cases hmatch
  · rw [hno name' ((hnames name' hmatch').2 hmem')] at hmatch'
    cases hmatch'
  · rw [hnone, hnone']

/-- **What is found for a request** is decided by what the names stand for that it sees. -/
theorem newest_congr (blocked : d' = .file ↔ d = .file)
    (h : ∀ n, r.Sees n → d'.find? n = d.find? n) : d'.newest r = d.newest r := by
  have hempty : ∀ entries : Listing, (∀ n, r.Sees n → entries.find? n = none) →
      (Directory.listing entries).newest r = .error .notReady := by
    intro entries hnone
    have hnames : newestName? r entries = newestName? r [] := newestName?_congr fun n hn => by
      rw [Listing.has_iff_find?, Listing.has_iff_find?, hnone n hn]
      exact Iff.rfl
    simp only [newest, hnames]
    rfl
  cases d with
  | file => rw [blocked.2 rfl]
  | missing =>
    cases d' with
    | file => cases blocked.1 rfl
    | missing => rfl
    | listing entries' => exact hempty entries' h
  | listing entries =>
    cases d' with
    | file => cases blocked.1 rfl
    | missing => exact (hempty entries fun n hn => (h n hn).symm).symm
    | listing entries' =>
      have hnames : newestName? r entries' = newestName? r entries :=
        newestName?_congr fun n hn => by
          have hfind : entries'.find? n = entries.find? n := h n hn
          rw [Listing.has_iff_find?, Listing.has_iff_find?, hfind]
      simp only [newest, hnames]

/-- What a file holds is decided by what its name stands for. -/
theorem load_congr {name : String} (blocked : d' = .file ↔ d = .file)
    (h : d'.find? (Utf8.encode name) = d.find? (Utf8.encode name)) :
    d'.load name = d.load name := by
  cases d with
  | file => rw [blocked.2 rfl]
  | missing =>
    cases d' with
    | file => cases blocked.1 rfl
    | missing => rfl
    | listing entries' =>
      have hnone : entries'.find? (Utf8.encode name) = none := h
      simp only [load, hnone]
  | listing entries =>
    cases d' with
    | file => cases blocked.1 rfl
    | missing =>
      have hnone : entries.find? (Utf8.encode name) = none := h.symm
      simp only [load, hnone]
    | listing entries' =>
      have hsame : entries'.find? (Utf8.encode name) = entries.find? (Utf8.encode name) := h
      simp only [load, hsame]

/-! ### Calls on files -/

/-- What a call on the files of the directory comes to. -/
def change (call : Listing → Except FileFault Listing) : Directory → Except FileFault Directory
  | .listing entries => (call entries).map .listing
  | .missing => .error .notFound
  | .file => .error .notDirectory

theorem change_ok {call : Listing → Except FileFault Listing} (h : d.change call = .ok d') :
    ∃ entries after, d = .listing entries ∧ call entries = .ok after ∧ d' = .listing after := by
  cases d with
  | missing => cases h
  | file => cases h
  | listing entries =>
    simp only [change] at h
    cases hc : call entries with
    | error fault =>
      rw [hc] at h
      cases h
    | ok after =>
      rw [hc] at h
      cases h
      exact ⟨entries, after, rfl, hc, rfl⟩

/-- Makes a name stand for something else, or for nothing, if there can be a directory. -/
def put (n : Bytes) (entry : Option Entry) (d : Directory) : Directory :=
  match d.prepare with
  | .error _ => d
  | .ok entries =>
    match entry with
    | some e => .listing (entries.insert n e)
    | none => .listing (entries.erase n)

/-- **What is left alone between two moments**: what names stand for that are neither those of
others nor one's own, which of one's own names stand for folders, and whether there can be a
directory. -/
structure Kept (others : List Bytes) (own : Bytes → Prop) (d d' : Directory) : Prop where
  blocked : d' = .file ↔ d = .file
  folders : ∀ n ∉ others, d'.find? n = some .folder ↔ d.find? n = some .folder
  entries : ∀ n ∉ others, ¬own n → d'.find? n = d.find? n

section Kept

variable {others : List Bytes} {own : Bytes → Prop}

theorem Kept.refl (d : Directory) : Kept others own d d :=
  ⟨Iff.rfl, fun _ _ => Iff.rfl, fun _ _ _ => rfl⟩

theorem Kept.trans (h : Kept others own d d') (h' : Kept [] own d' d'') :
    Kept others own d d'' where
  blocked := h'.blocked.trans h.blocked
  folders n hn := (h'.folders n List.not_mem_nil).trans (h.folders n hn)
  entries n hn hown := (h'.entries n List.not_mem_nil hown).trans (h.entries n hn hown)

theorem Kept.mono (h : Kept others own d d') {own' : Bytes → Prop} (hown : ∀ n, own n → own' n) :
    Kept others own' d d' :=
  ⟨h.blocked, h.folders, fun n hn hno => h.entries n hn (mt (hown n) hno)⟩

theorem kept_prepare (own : Bytes → Prop) {entries : Listing} (h : d.prepare = .ok entries) :
    Kept [] own d (.listing entries) := by
  cases d with
  | file => cases h
  | missing =>
    cases h
    exact ⟨by simp, fun _ _ => Iff.rfl, fun _ _ _ => rfl⟩
  | listing entries =>
    cases h
    exact .refl _

theorem kept_write (own : Bytes → Prop) {n : Bytes} {content : FileContent}
    (h : d.change (·.write n content) = .ok d') (hn : own n) :
    Kept [] own d d' ∧ d'.find? n = some (.file content) := by
  obtain ⟨entries, after, rfl, hwrite, rfl⟩ := change_ok h
  obtain ⟨-, hfails⟩ | ⟨hfolder, hwritten⟩ := entries.write_cases n
  · rw [hfails] at hwrite
    cases hwrite
  rw [hwritten] at hwrite
  cases hwrite
  refine ⟨⟨by simp, fun m _ => ?_, fun m _ hm => ?_⟩, Listing.find?_insert_self⟩
  · by_cases he : m = n
    · subst he
      simp only [find?, Listing.find?_insert_self]
      exact ⟨nofun, fun hf => absurd hf hfolder⟩
    · simp only [find?, Listing.find?_insert_of_ne he]
  · exact Listing.find?_insert_of_ne fun he => hm (he ▸ hn)

theorem kept_erase (own : Bytes → Prop) {n : Bytes}
    (h : d.change (fun entries => .ok (entries.erase n)) = .ok d')
    (hn : own n) (hfolder : d.find? n ≠ some .folder) : Kept [] own d d' := by
  obtain ⟨entries, after, rfl, herase, rfl⟩ := change_ok h
  cases herase
  refine ⟨by simp, fun m _ => ?_, fun m _ hm => ?_⟩
  · by_cases he : m = n
    · subst he
      simp only [find?, Listing.find?_erase_self]
      exact ⟨nofun, fun hf => absurd hf hfolder⟩
    · simp only [find?, Listing.find?_erase_of_ne he]
  · exact Listing.find?_erase_of_ne fun he => hm (he ▸ hn)

/-- A file that is renamed is found under its new name. -/
theorem kept_rename (own : Bytes → Prop) {old new : Bytes} {content : FileContent}
    (h : d.change (·.rename old new) = .ok d') (hold : own old) (hnew : own new) (hne : old ≠ new)
    (hfile : d.find? old = some (.file content)) :
    Kept [] own d d' ∧ d'.find? old = none ∧ d'.find? new = some (.file content) := by
  obtain ⟨entries, after, rfl, hrename, rfl⟩ := change_ok h
  have hfind : entries.find? old = some (.file content) := hfile
  obtain ⟨hfolder, rfl⟩ := Listing.rename_file hfind hrename
  have hgone : ((entries.erase old).insert new (.file content)).find? old = none := by
    rw [Listing.find?_insert_of_ne hne, Listing.find?_erase_self]
  have hother : ∀ m, m ≠ old → m ≠ new →
      ((entries.erase old).insert new (.file content)).find? m = entries.find? m := by
    intro m hmo hmn
    rw [Listing.find?_insert_of_ne hmn, Listing.find?_erase_of_ne hmo]
  refine ⟨⟨by simp, fun m _ => ?_, fun m _ hm => ?_⟩, hgone, Listing.find?_insert_self⟩
  · simp only [find?]
    by_cases hmn : m = new
    · subst hmn
      rw [Listing.find?_insert_self]
      exact ⟨nofun, fun hf => absurd hf hfolder⟩
    · by_cases hmo : m = old
      · subst hmo
        rw [hgone, hfind]
        exact ⟨nofun, nofun⟩
      · rw [hother m hmo hmn]
  · exact hother m (fun he => hm (he ▸ hold)) (fun he => hm (he ▸ hnew))

/-- What others change is theirs from then on. -/
theorem Kept.put (h : Kept others own d d') (n : Bytes) (entry : Option Entry) :
    Kept (n :: others) own d (d'.put n entry) ∧
      ∀ m, m ≠ n → (d'.put n entry).find? m = d'.find? m := by
  have hput : ((d'.put n entry) = .file ↔ d' = .file) ∧
      ∀ m, m ≠ n → (d'.put n entry).find? m = d'.find? m := by
    unfold Directory.put
    cases hprepare : d'.prepare with
    | error fault => exact ⟨Iff.rfl, fun _ _ => rfl⟩
    | ok entries =>
      have hkept := kept_prepare (fun _ => False) hprepare
      have hsame (m : Bytes) : entries.find? m = d'.find? m :=
        hkept.entries m List.not_mem_nil id
      have hfile : d' ≠ .file := fun hf => nomatch hkept.blocked.2 hf
      cases entry with
      | none =>
        exact ⟨by simp [hfile], fun m hm => (Listing.find?_erase_of_ne hm).trans (hsame m)⟩
      | some e =>
        exact ⟨by simp [hfile], fun m hm => (Listing.find?_insert_of_ne hm).trans (hsame m)⟩
  refine ⟨⟨hput.1.trans h.blocked, fun m hm => ?_, fun m hm hown => ?_⟩, hput.2⟩
  · rw [hput.2 m (List.ne_of_not_mem_cons hm)]
    exact h.folders m (List.not_mem_of_not_mem_cons hm)
  · rw [hput.2 m (List.ne_of_not_mem_cons hm)]
    exact h.entries m (List.not_mem_of_not_mem_cons hm) hown

end Kept

end Directory

end CropLedger
