import CropLedger.Text.Split

/-!
# Parts are found again

* `Text.splitOn_join`: parts without separators are found again in what they are joined to;
* `Text.takeWhile_append_separator`, `Text.dropWhile_append_separator`: a text is cut at its first
  separator.
-/

namespace CropLedger.Text

variable {α : Type} [DecidableEq α] {separator : α}

theorem splitOn_of_not_mem {part : List α} (h : separator ∉ part) :
    splitOn separator part = [part] := by
  induction part with
  | nil => rfl
  | cons a part ih =>
    rw [List.mem_cons, not_or] at h
    obtain ⟨hne, hrest⟩ := h
    rw [splitOn, ih hrest]
    simp only
    rw [if_neg (Ne.symm hne)]

theorem splitOn_append {part : List α} (h : separator ∉ part) (rest : List α) :
    splitOn separator (part ++ separator :: rest) = part :: splitOn separator rest := by
  induction part with
  | nil =>
    obtain ⟨first, parts, hparts⟩ := List.exists_cons_of_ne_nil (splitOn_ne_nil separator rest)
    rw [List.nil_append, splitOn, hparts]
    exact if_pos rfl
  | cons a part ih =>
    rw [List.mem_cons, not_or] at h
    obtain ⟨hne, hrest⟩ := h
    rw [List.cons_append, splitOn, ih hrest]
    simp only
    rw [if_neg (Ne.symm hne)]

/-- **Parts without separators are found again.** -/
theorem splitOn_join {parts : List (List α)} (hne : parts ≠ [])
    (h : ∀ part ∈ parts, separator ∉ part) : splitOn separator (join separator parts) = parts := by
  induction parts with
  | nil => exact absurd rfl hne
  | cons part parts ih =>
    have hpart := h part List.mem_cons_self
    cases parts with
    | nil => exact splitOn_of_not_mem hpart
    | cons next parts =>
      rw [join, splitOn_append hpart, ih (List.cons_ne_nil _ _)]
      · exact fun p hp => h p (List.mem_cons_of_mem _ hp)
      · exact List.cons_ne_nil _ _

omit [DecidableEq α] in
theorem mem_join {a : α} {parts : List (List α)} (h : a ∈ join separator parts) :
    a = separator ∨ ∃ part ∈ parts, a ∈ part := by
  induction parts with
  | nil => exact absurd h List.not_mem_nil
  | cons part parts ih =>
    cases parts with
    | nil => exact .inr ⟨part, List.mem_cons_self, h⟩
    | cons next parts =>
      rw [join, List.mem_append, List.mem_cons] at h
      · rcases h with h | h | h
        · exact .inr ⟨part, List.mem_cons_self, h⟩
        · exact .inl h
        · rcases ih h with hsep | ⟨p, hp, ha⟩
          · exact .inl hsep
          · exact .inr ⟨p, List.mem_cons_of_mem _ hp, ha⟩
      · exact List.cons_ne_nil _ _

/-! ### The first separator -/

theorem ne_separator {part : List α} (h : separator ∉ part) :
    ∀ a ∈ part, decide (a ≠ separator) = true :=
  fun _ ha => decide_eq_true fun he => h (he ▸ ha)

theorem takeWhile_of_not_mem {part : List α} (h : separator ∉ part) :
    part.takeWhile (· ≠ separator) = part := by
  have htake : (part ++ []).takeWhile (· ≠ separator) = part ++ [].takeWhile (· ≠ separator) :=
    List.takeWhile_append_of_pos (ne_separator h)
  simpa using htake

theorem takeWhile_append_separator {part : List α} (h : separator ∉ part) (rest : List α) :
    (part ++ separator :: rest).takeWhile (· ≠ separator) = part := by
  rw [List.takeWhile_append_of_pos (ne_separator h), List.takeWhile_cons_of_neg (by simp),
    List.append_nil]

theorem dropWhile_append_separator {part : List α} (h : separator ∉ part) (rest : List α) :
    (part ++ separator :: rest).dropWhile (· ≠ separator) = separator :: rest := by
  rw [List.dropWhile_append_of_pos (ne_separator h), List.dropWhile_cons_of_neg (by simp)]

end CropLedger.Text
