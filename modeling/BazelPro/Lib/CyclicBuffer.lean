import Mathlib.Data.List.Basic
import Mathlib.Data.Nat.ModEq

/-!
# Cyclic buffers

A buffer of `N` cells that keeps the latest entries of an unbounded history. The entry number
`n`, counted from 1, goes to cell `n % N`; `Holds` says that the last `min n N` entries are all
in place, and `Holds.push` that writing one more entry into its cell keeps this true.
-/

namespace CyclicBuffer

variable {α : Type*} {N : Nat}

/-- Entries less than `N` apart are in different cells. -/
theorem cell_ne {n k : Nat} (hpos : 0 < k) (hk : k < N) : n % N ≠ (n + k) % N := by
  intro h
  have hdvd : N ∣ k := by
    have := (Nat.modEq_iff_dvd' (Nat.le_add_right n k)).mp h
    rwa [Nat.add_sub_cancel_left] at this
  exact absurd (Nat.le_of_dvd hpos hdvd) (by omega)

/-- The cell before that of entry `n + 1`, going down cyclically, is that of entry `n`. -/
theorem pred_cell (hN : 0 < N) (n : Nat) :
    (if (n + 1) % N = 0 then N - 1 else (n + 1) % N - 1) = n % N := by
  have hlt : n % N < N := Nat.mod_lt n hN
  have hkey : (n + 1) % N = (n % N + 1) % N := (Nat.mod_add_mod n N 1).symm
  rw [hkey]
  -- the cell after the last one is the first
  by_cases hwrap : n % N + 1 = N
  · rw [hwrap, Nat.mod_self, if_pos rfl]
    omega
  · rw [Nat.mod_eq_of_lt (by omega), if_neg (by omega)]
    omega

/-- The cells hold the last `min history.length N` entries of the history, oldest entry
first. -/
def Holds (N : Nat) (cell : Nat → Option α) (history : List α) : Prop :=
  ∀ k x, k < N → history.reverse[k]? = some x → cell ((history.length - k) % N) = some x

theorem holds_nil (cell : Nat → Option α) : Holds N cell [] := by
  intro k x _ hx
  simp at hx

/-- Writing the next entry into the next cell. -/
theorem Holds.push {cell cell' : Nat → Option α} {history : List α} {x : α}
    (h : Holds N cell history) (hnew : cell' ((history.length + 1) % N) = some x)
    (hframe : ∀ i, i < N → i ≠ (history.length + 1) % N → cell' i = cell i) :
    Holds N cell' (history ++ [x]) := by
  intro k y hk hy
  rw [List.reverse_append, List.reverse_singleton, List.singleton_append] at hy
  rw [List.length_append, List.length_singleton]
  cases k with
  | zero =>
      rw [List.getElem?_cons_zero, Option.some.injEq] at hy
      rw [Nat.sub_zero, hnew, hy]
  | succ k =>
      rw [List.getElem?_cons_succ] at hy
      have hlen : k < history.length := by
        have := (List.getElem?_eq_some_iff.mp hy).1
        simpa using this
      rw [Nat.add_sub_add_right, ← h k y (by omega) hy]
      refine hframe _ (Nat.mod_lt _ (by omega)) ?_
      have := cell_ne (n := history.length - k) (k := k + 1) (N := N) (by omega) hk
      rwa [show history.length - k + (k + 1) = history.length + 1 by omega] at this

end CyclicBuffer
