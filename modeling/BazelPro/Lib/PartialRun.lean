import Mathlib.Data.List.Induction

/-!
# Runs of partial steps

A step that is not possible in every state is a function to `Option`, and a run is its fold over
a list of actions. What all steps preserve, runs preserve (`PartialRun.invariant`).
-/

namespace PartialRun

variable {σ α : Type*} {step : σ → α → Option σ} {s t u : σ}

/-- An invariant of the steps holds wherever a run leads. -/
theorem invariant {P : σ → Prop} (hstep : ∀ s a s', P s → step s a = some s' → P s')
    {acts : List α} (h : P s) (hrun : acts.foldlM step s = some t) : P t := by
  induction acts generalizing s with
  | nil =>
      cases hrun
      exact h
  | cons a acts ih =>
      obtain ⟨s', hs', hrest⟩ := Option.bind_eq_some_iff.mp hrun
      exact ih (hstep s a s' h hs') hrest

/-- An invariant of the states and of the actions that have led there. -/
theorem history_invariant {P : List α → σ → Prop} {acts : List α} (hstart : P [] s)
    (hstep : ∀ before s a s', P before s → step s a = some s' → P (before ++ [a]) s')
    (hrun : acts.foldlM step s = some t) : P acts t := by
  induction acts using List.reverseRecOn generalizing t with
  | nil =>
      cases hrun
      exact hstart
  | append_singleton acts a ih =>
      rw [List.foldlM_append] at hrun
      obtain ⟨u, hu, hlast⟩ := Option.bind_eq_some_iff.mp hrun
      obtain ⟨t', ht', hnil⟩ := Option.bind_eq_some_iff.mp hlast
      cases hnil
      exact hstep acts u a t (ih hu) ht'

/-- What lowers a potential happens no more often than the potential, and what raises it, allow. -/
theorem countP_add_le {P : σ → Prop} {V : σ → ℕ} {lowers raises : α → Bool}
    (hP : ∀ s a s', P s → step s a = some s' → P s')
    (hV : ∀ s a s', P s → step s a = some s' →
      V s' + (if lowers a then 1 else 0) ≤ V s + (if raises a then 1 else 0))
    {acts : List α} (h : P s) (hrun : acts.foldlM step s = some t) :
    acts.countP lowers + V t ≤ V s + acts.countP raises := by
  induction acts generalizing s with
  | nil =>
      cases hrun
      simp
  | cons a acts ih =>
      obtain ⟨s', hs', hrest⟩ := Option.bind_eq_some_iff.mp hrun
      have hstep := hV s a s' h hs'
      have hacts := ih (hP s a s' h hs') hrest
      rw [List.countP_cons, List.countP_cons]
      omega

/-- A part of a run, from its beginning, is a run. -/
theorem exists_prefix {before after : List α} (hrun : (before ++ after).foldlM step s = some t) :
    ∃ u, before.foldlM step s = some u := by
  rw [List.foldlM_append] at hrun
  obtain ⟨u, hu, -⟩ := Option.bind_eq_some_iff.mp hrun
  exact ⟨u, hu⟩

/-- A run goes on where another one has led. -/
theorem append {acts acts' : List α} (h : acts.foldlM step s = some t)
    (h' : acts'.foldlM step t = some u) : (acts ++ acts').foldlM step s = some u := by
  rw [List.foldlM_append]
  exact Option.bind_eq_some_iff.mpr ⟨t, h, h'⟩

/-- The action that a count is about to count. -/
theorem exists_split_of_lt_countP {p : α → Bool} {acts : List α} {k : Nat}
    (h : k < acts.countP p) :
    ∃ before a after, acts = before ++ a :: after ∧ p a ∧ before.countP p = k := by
  induction acts generalizing k with
  | nil => cases h
  | cons a acts ih =>
      by_cases ha : p a
      · rw [List.countP_cons_of_pos ha] at h
        cases k with
        | zero => exact ⟨[], a, acts, rfl, ha, rfl⟩
        | succ k =>
            obtain ⟨before, b, after, rfl, hb, hcount⟩ := ih (Nat.succ_lt_succ_iff.mp h)
            exact ⟨a :: before, b, after, rfl, hb, by rw [List.countP_cons_of_pos ha, hcount]⟩
      · rw [List.countP_cons_of_neg ha] at h
        obtain ⟨before, b, after, rfl, hb, hcount⟩ := ih h
        exact ⟨a :: before, b, after, rfl, hb, by rw [List.countP_cons_of_neg ha, hcount]⟩

/-- A count goes up with the action that it counts. -/
theorem countP_lt_of_split {p : α → Bool} {before after : List α} {a : α} (ha : p a) :
    before.countP p < (before ++ a :: after).countP p := by
  rw [List.countP_append, List.countP_cons_of_pos ha]
  omega

end PartialRun
