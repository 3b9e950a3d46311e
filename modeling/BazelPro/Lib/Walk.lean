import Mathlib.Data.List.Basic

/-!
# Walks along a list

The entries of a list from one position to another, in the order in which they are passed
(`walk`), and the steps between them (`steps`). A walk back passes the same entries in the
opposite order (`walk_reverse`).
-/

namespace Walk

variable {α : Type*} {xs : List α} {x y : α} {a b : Nat}

/-! ## The last position of an entry -/

/-- `a` is the last position of `x` in `xs`. -/
def IsLast (xs : List α) (x : α) (a : Nat) : Prop :=
  xs[a]? = some x ∧ ∀ j, a < j → xs[j]? ≠ some x

theorem isLast_cons_zero : IsLast (y :: xs) x 0 ↔ y = x ∧ x ∉ xs := by
  unfold IsLast
  rw [List.getElem?_cons_zero, Option.some.injEq, List.mem_iff_getElem?, not_exists]
  refine and_congr_right fun _ => ⟨fun h j => ?_, fun h j hj => ?_⟩
  · exact h (j + 1) (Nat.succ_pos j)
  · obtain ⟨j, rfl⟩ := Nat.exists_eq_succ_of_ne_zero (by omega : j ≠ 0)
    exact h j

theorem isLast_cons_succ : IsLast (y :: xs) x (a + 1) ↔ IsLast xs x a := by
  unfold IsLast
  rw [List.getElem?_cons_succ]
  refine and_congr_right fun _ => ⟨fun h j hj => ?_, fun h j hj => ?_⟩
  · exact h (j + 1) (by omega)
  · obtain ⟨j, rfl⟩ := Nat.exists_eq_succ_of_ne_zero (by omega : j ≠ 0)
    exact h j (by omega)

theorem IsLast.lt_length (h : IsLast xs x a) : a < xs.length :=
  (List.getElem?_eq_some_iff.mp h.1).1

theorem IsLast.mem (h : IsLast xs x a) : x ∈ xs := List.mem_of_getElem? h.1

theorem IsLast.unique (h : IsLast xs x a) (h' : IsLast xs x b) : a = b := by
  rcases Nat.lt_trichotomy a b with hlt | heq | hgt
  · exact absurd h'.1 (h.2 b hlt)
  · exact heq
  · exact absurd h.1 (h'.2 a hgt)

/-! ## Walks -/

/-- The entries from position `a` to position `b`, both included, in this order. -/
def walk (xs : List α) (a b : Nat) : List α :=
  if a ≤ b then (xs.drop a).take (b - a + 1) else ((xs.drop b).take (a - b + 1)).reverse

/-- The steps of a walk: its entries with their successors. -/
def steps (path : List α) : List (α × α) := path.zip path.tail

@[simp] theorem steps_singleton (x : α) : steps [x] = [] := rfl

@[simp] theorem steps_cons_cons (x y : α) (path : List α) :
    steps (x :: y :: path) = (x, y) :: steps (y :: path) := rfl

theorem length_steps (path : List α) : (steps path).length = path.length - 1 := by
  rw [steps, List.length_zip, List.length_tail]
  omega

theorem length_walk (ha : a < xs.length) (hb : b < xs.length) :
    (walk xs a b).length = (b - a) + (a - b) + 1 := by
  unfold walk
  split
  · rw [List.length_take, List.length_drop]
    omega
  · rw [List.length_reverse, List.length_take, List.length_drop]
    omega

theorem reverse_take_one (xs : List α) : (xs.take 1).reverse = xs.take 1 := by
  cases xs <;> rfl

theorem walk_self (h : xs[a]? = some x) : walk xs a a = [x] := by
  obtain ⟨ha, rfl⟩ := List.getElem?_eq_some_iff.mp h
  rw [walk, if_pos (Nat.le_refl a), Nat.sub_self, List.drop_eq_getElem_cons ha]
  rfl

/-- The first step forwards. -/
theorem walk_of_lt (h : xs[a]? = some x) (hlt : a < b) : walk xs a b = x :: walk xs (a + 1) b := by
  obtain ⟨ha, rfl⟩ := List.getElem?_eq_some_iff.mp h
  have hnext : a + 1 ≤ b := hlt
  rw [walk, walk, if_pos (Nat.le_of_lt hlt), if_pos hnext, List.drop_eq_getElem_cons ha,
    List.take_succ_cons, show b - a = b - (a + 1) + 1 by omega]

/-- The first step backwards. -/
theorem walk_of_gt (h : xs[a]? = some x) (hlt : b < a) : walk xs a b = x :: walk xs (a - 1) b := by
  obtain ⟨ha, rfl⟩ := List.getElem?_eq_some_iff.mp h
  have hlast : (xs.drop b)[a - b]? = some xs[a] := by
    rw [List.getElem?_drop, Nat.add_sub_cancel' (Nat.le_of_lt hlt), h]
  have htake : (xs.drop b).take (a - b + 1) = (xs.drop b).take (a - b) ++ [xs[a]] := by
    rw [List.take_add_one, hlast]
    rfl
  rw [walk, if_neg (by omega), htake, List.reverse_concat]
  refine congrArg _ ?_
  unfold walk
  split
  · obtain rfl : b = a - 1 := by omega
    rw [show a - (a - 1) = 1 by omega, Nat.sub_self]
    exact reverse_take_one _
  · rw [show a - 1 - b + 1 = a - b by omega]

theorem walk_eq_cons (h : xs[a]? = some x) (b : Nat) : ∃ path, walk xs a b = x :: path := by
  rcases Nat.lt_trichotomy a b with hlt | rfl | hgt
  · exact ⟨_, walk_of_lt h hlt⟩
  · exact ⟨_, walk_self h⟩
  · exact ⟨_, walk_of_gt h hgt⟩

/-- The first step of a walk in either direction, and the rest of it. -/
theorem steps_walk {n : Nat} (hnext : a < b ∧ n = a + 1 ∨ b < a ∧ n = a - 1) (hx : xs[a]? = some x)
    (hy : xs[n]? = some y) : steps (walk xs a b) = (x, y) :: steps (walk xs n b) := by
  obtain ⟨path, hpath⟩ := walk_eq_cons hy b
  have hwalk : walk xs a b = x :: walk xs n b := by
    rcases hnext with ⟨hlt, rfl⟩ | ⟨hgt, rfl⟩
    · exact walk_of_lt hx hlt
    · exact walk_of_gt hx hgt
  rw [hwalk, hpath, steps_cons_cons]

/-- A walk back passes the same entries in the opposite order. -/
theorem walk_reverse (xs : List α) (a b : Nat) : walk xs b a = (walk xs a b).reverse := by
  rcases Nat.lt_trichotomy a b with hlt | rfl | hgt
  · rw [walk, walk, if_neg (by omega), if_pos (by omega)]
  · rw [walk, if_pos (Nat.le_refl a), Nat.sub_self]
    exact (reverse_take_one _).symm
  · rw [walk, walk, if_pos (by omega), if_neg (by omega), List.reverse_reverse]

end Walk
