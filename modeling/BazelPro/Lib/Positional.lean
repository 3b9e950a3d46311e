import Mathlib.Data.Nat.Digits.Lemmas

/-!
# Positional numerals

The digits of a number, most significant first, as they are written: zero has one digit. Read
from left to right, they have the number as their value (`value_numeral`).
-/

namespace Positional

variable {b n : Nat}

/-- The digits of `n` in base `b` as they are written. -/
def numeral (b n : Nat) : List Nat := if n = 0 then [0] else (Nat.digits b n).reverse

theorem numeral_zero (b : Nat) : numeral b 0 = [0] := rfl

theorem numeral_of_ne_zero (h : n ≠ 0) : numeral b n = (Nat.digits b n).reverse := if_neg h

/-- The last digit is the remainder, and the digits before it are those of the quotient. -/
theorem numeral_eq_concat (hb : 1 < b) (n : Nat) :
    numeral b n = (Nat.digits b (n / b)).reverse ++ [n % b] := by
  by_cases hn : n = 0
  · subst hn
    simp [numeral_zero]
  · rw [numeral_of_ne_zero hn, Nat.digits_eq_cons_digits_div hb hn, List.reverse_cons]

theorem lt_of_mem_numeral (hb : 1 < b) {d : Nat} (hd : d ∈ numeral b n) : d < b := by
  rw [numeral_eq_concat hb, List.mem_append, List.mem_reverse, List.mem_singleton] at hd
  rcases hd with hd | rfl
  · exact Nat.digits_lt_base hb hd
  · exact Nat.mod_lt n (by omega)

/-- A number other than zero does not begin with a zero. -/
theorem numeral_eq_cons (hn : n ≠ 0) : ∃ d ds, numeral b n = d :: ds ∧ d ≠ 0 := by
  have hne : Nat.digits b n ≠ [] := Nat.digits_ne_nil_iff_ne_zero.mpr hn
  refine ⟨(Nat.digits b n).getLast hne, (Nat.digits b n).dropLast.reverse, ?_,
    Nat.getLast_digit_ne_zero b hn⟩
  rw [numeral_of_ne_zero hn, ← List.reverse_concat, List.dropLast_append_getLast]

theorem length_numeral_pos (b n : Nat) : 0 < (numeral b n).length := by
  by_cases hn : n = 0
  · subst hn
    exact Nat.one_pos
  · obtain ⟨d, ds, hds, -⟩ := @numeral_eq_cons b n hn
    rw [hds]
    exact Nat.succ_pos _

/-- Zero is written with a digit that its digits do not contain. -/
theorem length_numeral (b n : Nat) : (numeral b n).length = max (Nat.digits b n).length 1 := by
  by_cases hn : n = 0
  · subst hn
    simp [numeral_zero]
  · have hpos := length_numeral_pos b n
    rw [numeral_of_ne_zero hn, List.length_reverse] at hpos ⊢
    omega

/-- The numbers below `b ^ k` are those that are written with `k` digits at most. -/
theorem length_numeral_le_iff (hb : 1 < b) {k : Nat} (hk : 0 < k) :
    (numeral b n).length ≤ k ↔ n < b ^ k := by
  by_cases hn : n = 0
  · subst hn
    exact iff_of_true hk (Nat.pow_pos (Nat.zero_lt_of_lt hb))
  · rw [numeral_of_ne_zero hn, List.length_reverse, Nat.digits_length_le_iff hb]

theorem length_numeral_le (hb : 1 < b) {k : Nat} (hk : 0 < k) (h : n < b ^ k) :
    (numeral b n).length ≤ k :=
  (length_numeral_le_iff hb hk).mpr h

/-- The number that is read when the digits follow those of `n`. -/
def valueFrom (b n : Nat) (ds : List Nat) : Nat := ds.foldl (fun n d => n * b + d) n

/-- The number that some digits stand for. -/
def value (b : Nat) (ds : List Nat) : Nat := valueFrom b 0 ds

@[simp] theorem valueFrom_nil (b n : Nat) : valueFrom b n [] = n := rfl

theorem valueFrom_cons (b n d : Nat) (ds : List Nat) :
    valueFrom b n (d :: ds) = valueFrom b (n * b + d) ds := rfl

theorem value_reverse (b : Nat) (ds : List Nat) :
    value b ds.reverse = Nat.ofDigits b ds := by
  induction ds with
  | nil => rfl
  | cons d ds ih =>
      rw [List.reverse_cons, value, valueFrom, List.foldl_append]
      show value b ds.reverse * b + d = _
      rw [ih, Nat.ofDigits_cons, Nat.mul_comm, Nat.add_comm]

/-- The digits are read back as the number they were written for. -/
theorem value_numeral (b n : Nat) : value b (numeral b n) = n := by
  by_cases hn : n = 0
  · subst hn
    simp [numeral_zero, value, valueFrom_cons]
  · rw [numeral_of_ne_zero hn, value_reverse, Nat.ofDigits_digits]

/-- Zeros in front change nothing. -/
theorem value_append_of_zeros (b : Nat) {zs : List Nat} (h : ∀ z ∈ zs, z = 0) (ds : List Nat) :
    value b (zs ++ ds) = value b ds := by
  induction zs with
  | nil => rfl
  | cons z zs ih =>
      rw [List.forall_mem_cons] at h
      obtain ⟨rfl, hzs⟩ := h
      rw [← ih hzs, value, List.cons_append, valueFrom_cons, Nat.zero_mul]
      rfl

/-- A number does not get smaller with more digits. -/
theorem le_valueFrom (hb : 0 < b) (n : Nat) (ds : List Nat) : n ≤ valueFrom b n ds := by
  induction ds generalizing n with
  | nil => exact Nat.le_refl n
  | cons d ds ih =>
      have hmul : n ≤ n * b := Nat.le_mul_of_pos_right n hb
      have := ih (n * b + d)
      rw [valueFrom_cons]
      omega

end Positional
