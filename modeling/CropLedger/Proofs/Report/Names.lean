import Mathlib.Data.List.Basic
import CropLedger.Proofs.Calendar.Written
import CropLedger.Proofs.Uuid
import CropLedger.Report.Directory

/-!
# Names of report files

What a name starts with can be read as the kind, the identifiers and the range of one request only.
So a finished file matches the request that it was rendered for and no other, and a file that is not
finished matches none.

* `ReportRequest.stemChars_append_inj`: the stems of two requests never start the same name;
* `ReportRequest.matchesName_fileName`: which finished files match a request;
* `ReportRequest.matchesName_part`: files that are not finished match nothing.
-/

namespace CropLedger

namespace ReportRequest

/-! ### Stems -/

/-- What the name of a kind starts with. -/
def initial : ReportKind → Char
  | .priceHistory => 'p'
  | .harvest => 'h'

theorem head?_name (k : ReportKind) (rest : List Char) :
    (k.name.toList ++ rest).head? = some (initial k) := by
  cases k <;> simp [ReportKind.name, initial]

theorem kind_inj {k k' : ReportKind} {rest rest' : List Char}
    (h : k.name.toList ++ rest = k'.name.toList ++ rest') : k = k' := by
  have hh := congrArg List.head? h
  rw [head?_name, head?_name] at hh
  cases k <;> cases k' <;> first | rfl | exact absurd hh (by decide)

/-- Identifiers with something after each of them, in front of a text. -/
theorem identifiers_inj {ids ids' : List Uuid} (hlen : ids.length = ids'.length)
    {rest rest' : List Char}
    (h : (ids.flatMap fun id => id.chars ++ ['_']) ++ rest =
      (ids'.flatMap fun id => id.chars ++ ['_']) ++ rest') : ids = ids' ∧ rest = rest' := by
  induction ids generalizing ids' with
  | nil =>
    cases List.length_eq_zero_iff.1 hlen.symm
    exact ⟨rfl, h⟩
  | cons id ids ih =>
    obtain ⟨id', ids', rfl⟩ := List.exists_cons_of_length_eq_add_one hlen.symm
    simp only [List.flatMap_cons, List.append_assoc, List.cons_append, List.nil_append] at h
    obtain ⟨hid, htail⟩ := Uuid.append_inj h
    obtain ⟨hids, hrest⟩ := ih (Nat.succ.inj hlen) (List.cons.inj htail).2
    exact ⟨by rw [hid, hids], hrest⟩

theorem target_inj {t t' : ReportTarget} (hk : t.kind = t'.kind)
    (hi : t.identifiers = t'.identifiers) : t = t' := by
  cases t with
  | priceHistory pair =>
    cases t' with
    | priceHistory pair' =>
      obtain ⟨commodity, location⟩ := pair
      cases hi
      rfl
    | harvest land' => cases hk
  | harvest land =>
    cases t' with
    | priceHistory pair' => cases hk
    | harvest land' =>
      cases hi
      rfl

theorem length_identifiers {t t' : ReportTarget} (hk : t.kind = t'.kind) :
    t.identifiers.length = t'.identifiers.length := by
  cases t <;> cases t' <;> first | rfl | cases hk

/-- No stem is what a name starts with that has another stem. -/
theorem stemChars_append_inj {r r' : ReportRequest} {rest rest' : List Char}
    (h : r.stemChars ++ rest = r'.stemChars ++ rest') : r = r' ∧ rest = rest' := by
  obtain ⟨target, first, last⟩ := r
  obtain ⟨target', first', last'⟩ := r'
  simp only [stemChars, List.append_assoc, List.cons_append, List.nil_append] at h
  -- the kind tells how many identifiers there are, and an identifier where it ends
  have hk : target.kind = target'.kind := kind_inj h
  simp only [kind, hk] at h
  obtain ⟨hi, hdates⟩ := identifiers_inj (length_identifiers hk)
    (List.cons.inj (List.append_cancel_left h)).2
  obtain ⟨hfirst, hmore⟩ := Date.append_inj hdates
  obtain ⟨hlast, htail⟩ := Date.append_inj (List.cons.inj hmore).2
  rw [target_inj hk hi, hfirst, hlast]
  exact ⟨rfl, (List.cons.inj htail).2⟩

/-! ### Finished files -/

/-- The time in the name of a file has no underscore. -/
theorem underscore_not_mem_fileText (t : Timestamp) : '_' ∉ t.fileText := by
  have hdigits (ds : List Nat) (hd : ∀ d ∈ ds, d < 10) : '_' ∉ ds.map Digits.char := by
    intro h
    obtain ⟨d, hm, he⟩ := List.mem_map.1 h
    exact Digits.char_ne (hd d hm) rfl he
  have hfixed (width n : Nat) : '_' ∉ Digits.fixed 10 width n := by
    rw [Digits.fixed_eq_map]
    exact hdigits _ fun _ => Digits.lt_of_mem_fixedDigits (by decide)
  have hpadded (width n : Nat) : '_' ∉ Digits.padded width n := by
    rw [Digits.padded_eq_map]
    exact hdigits _ fun _ => Digits.lt_of_mem_paddedDigits
  have hyear (year : Int) : '_' ∉ Date.yearText year := by
    unfold Date.yearText
    split
    · simp [hpadded]
    · split <;> simp [hpadded]
  simp [Timestamp.fileText, hfixed, hyear]

theorem fileText_ne_nil (t : Timestamp) : t.fileText ≠ [] := by
  simp [Timestamp.fileText]

theorem toList_fileName (r : ReportRequest) (t : Timestamp) :
    (r.fileName t).toList = r.stemChars ++ (t.fileText ++ extension) := by
  rw [fileName, String.toList_ofList, List.append_assoc]

/-- The names that match a request. -/
theorem matchesName_iff {r : ReportRequest} {name : String} :
    r.matchesName name = true ↔
      ∃ time, name.toList = r.stemChars ++ (time ++ extension) ∧ time ≠ [] ∧ '_' ∉ time := by
  unfold matchesName
  constructor
  · intro h
    split at h
    · cases h
    · rename_i rest hrest
      split at h
      · cases h
      · rename_i time htime
        rw [List.isPrefixOf?_eq_some_iff_append_eq] at hrest
        rw [List.isSuffixOf?_eq_some_iff_append_eq] at htime
        refine ⟨time, ?_, by simpa using h⟩
        rw [← hrest, ← htime]
  · rintro ⟨time, hname, htime, hunder⟩
    have hstem : r.stemChars.isPrefixOf? name.toList = some (time ++ extension) :=
      List.isPrefixOf?_eq_some_iff_append_eq.2 hname.symm
    have hext : extension.isSuffixOf? (time ++ extension) = some time :=
      List.isSuffixOf?_eq_some_iff_append_eq.2 rfl
    simp [hstem, hext, htime, hunder]

/-- **A finished file matches the request that it was rendered for, and no other.** -/
theorem matchesName_fileName {r r' : ReportRequest} {t : Timestamp} :
    r.matchesName (r'.fileName t) = true ↔ r = r' := by
  rw [matchesName_iff, toList_fileName]
  constructor
  · rintro ⟨time, h, -⟩
    exact (stemChars_append_inj h).1.symm
  · rintro rfl
    exact ⟨t.fileText, rfl, fileText_ne_nil t, underscore_not_mem_fileText t⟩

/-- Files that are not finished match nothing. -/
theorem matchesName_part (r : ReportRequest) (name : String) :
    r.matchesName (name ++ ".part") = false := by
  rw [← Bool.not_eq_true, matchesName_iff]
  rintro ⟨time, h, -⟩
  have hlast := congrArg List.getLast? h
  simp [extension] at hlast

end ReportRequest

end CropLedger
