/-!
# Splitting

A list in parts between separators. There is always one part more than there are separators.

* `Text.splitOn`: the parts of a list;
* `Text.join`: the parts put together again.
-/

namespace CropLedger.Text

variable {α : Type} [DecidableEq α]

/-- The parts of a list between separators. -/
def splitOn (separator : α) : List α → List (List α)
  | [] => [[]]
  | a :: rest =>
    match splitOn separator rest with
    | part :: parts => if a = separator then [] :: part :: parts else (a :: part) :: parts
    | [] => [[a]]

/-- Parts with a separator between them. -/
def join (separator : α) : List (List α) → List α
  | [] => []
  | [part] => part
  | part :: parts => part ++ separator :: join separator parts

theorem splitOn_ne_nil (separator : α) (text : List α) : splitOn separator text ≠ [] := by
  induction text with
  | nil => simp [splitOn]
  | cons a rest ih =>
    unfold splitOn
    split
    · split <;> simp
    · simp

end CropLedger.Text
