import Mathlib.Data.List.Basic

/-!
# Delimited fields

A field that a delimiter ends is read off whatever stands behind it, if the delimiter does not occur
in it (`append_cons_inj`). So lines that are written one behind the other can be told from the whole
text (`flatMap_concat_inj`).
-/

namespace Delimited

variable {α : Type*} {sep : α} {as as' rest rest' : List α}

/-- The first delimiter ends the field. -/
theorem append_cons_inj (h : sep ∉ as) (h' : sep ∉ as') :
    as ++ sep :: rest = as' ++ sep :: rest' ↔ as = as' ∧ rest = rest' := by
  refine ⟨fun heq => ?_, fun ⟨hfield, hrest⟩ => by rw [hfield, hrest]⟩
  induction as generalizing as' with
  | nil =>
      cases as' with
      | nil => exact ⟨rfl, List.tail_eq_of_cons_eq heq⟩
      | cons a as' => exact absurd (List.head_eq_of_cons_eq heq ▸ List.mem_cons_self) h'
  | cons a as ih =>
      rw [List.mem_cons, not_or] at h
      cases as' with
      | nil => exact absurd (List.head_eq_of_cons_eq heq).symm h.1
      | cons a' as' =>
          rw [List.mem_cons, not_or] at h'
          obtain ⟨rfl, htail⟩ := List.cons_eq_cons.mp heq
          obtain ⟨rfl, hrest⟩ := ih h.2 h'.2 htail
          exact ⟨rfl, hrest⟩

/-- Lines can be told from the text that they make. -/
theorem flatMap_concat_inj {lines lines' : List (List α)} (h : ∀ line ∈ lines, sep ∉ line)
    (h' : ∀ line ∈ lines', sep ∉ line) :
    lines.flatMap (· ++ [sep]) = lines'.flatMap (· ++ [sep]) ↔ lines = lines' := by
  refine ⟨fun heq => ?_, fun heq => heq ▸ rfl⟩
  induction lines generalizing lines' with
  | nil =>
      cases lines' with
      | nil => rfl
      | cons line' lines' => simp at heq
  | cons line lines ih =>
      cases lines' with
      | nil => simp at heq
      | cons line' lines' =>
          rw [List.forall_mem_cons] at h h'
          rw [List.flatMap_cons, List.flatMap_cons, List.append_assoc, List.append_assoc,
            List.singleton_append, List.singleton_append, append_cons_inj h.1 h'.1] at heq
          rw [heq.1, ih h.2 h'.2 heq.2]

end Delimited
