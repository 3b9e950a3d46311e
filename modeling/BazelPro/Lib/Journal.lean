import Mathlib.Data.List.Basic

/-!
# Journals of keyed cells

A journal lists the updates of a family of cells, oldest first: an update of cell `k` stores a
value or clears the cell. `current` is what a cell holds after the updates.
-/

namespace Journal

variable {κ α : Type*} [DecidableEq κ]

/-- The content of cell `k` after the updates of the journal. -/
def current (journal : List (κ × Option α)) (k : κ) : Option α :=
  (journal.reverse.find? fun e => e.1 = k).bind Prod.snd

@[simp] theorem current_nil (k : κ) : current ([] : List (κ × Option α)) k = none := rfl

/-- The last update of a cell is its content. -/
theorem current_concat_self (journal : List (κ × Option α)) (k : κ) (v : Option α) :
    current (journal ++ [(k, v)]) k = v := by
  simp [current]

/-- An update leaves the other cells alone. -/
theorem current_concat_ne (journal : List (κ × Option α)) {k k' : κ} (v : Option α)
    (h : k ≠ k') : current (journal ++ [(k, v)]) k' = current journal k' := by
  simp [current, h]

end Journal
