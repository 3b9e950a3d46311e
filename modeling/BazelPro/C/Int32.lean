import Mathlib.Data.BitVec

/-!
# Counts in `int` objects

A count that fits an `int` has the value that the object shows, and the remainders that C gives it.
-/

namespace BazelPro.C

/-- The operator `++`, which wraps around with the count. -/
theorem ofNat_add_one (n : Nat) : BitVec.ofNat 32 n + 1 = BitVec.ofNat 32 (n + 1) :=
  (BitVec.ofNat_add ..).symm

theorem toNat_ofNat_of_lt {n : Nat} (h : n < 2 ^ 32) : (BitVec.ofNat 32 n).toNat = n := by
  rw [BitVec.toNat_ofNat, Nat.mod_eq_of_lt h]

theorem toInt_ofNat_of_lt {n : Nat} (h : n < 2 ^ 31) : (BitVec.ofNat 32 n).toInt = n := by
  rw [BitVec.toInt_eq_toNat_of_lt] <;> rw [toNat_ofNat_of_lt] <;> omega

/-- The operator `%` on a count. -/
theorem srem_ofNat {n k : Nat} (hn : n < 2 ^ 31) (hk : k < 2 ^ 31) :
    (BitVec.ofNat 32 n).srem (BitVec.ofNat 32 k) = BitVec.ofNat 32 (n % k) := by
  apply BitVec.eq_of_toInt_eq
  have hmod : n % k ≤ n := Nat.mod_le n k
  rw [BitVec.toInt_srem, toInt_ofNat_of_lt hn, toInt_ofNat_of_lt hk, toInt_ofNat_of_lt (by omega)]
  exact (Int.ofNat_tmod n k).symm

/-- A count is divisible by what leaves no remainder. -/
theorem srem_ofNat_eq_zero_iff {n k : Nat} (hn : n < 2 ^ 31) (hk : k < 2 ^ 31) :
    (BitVec.ofNat 32 n).srem (BitVec.ofNat 32 k) = 0 ↔ k ∣ n := by
  have hmod : n % k ≤ n := Nat.mod_le n k
  rw [srem_ofNat hn hk, Nat.dvd_iff_mod_eq_zero]
  constructor
  · intro h
    rw [← toNat_ofNat_of_lt (n := n % k) (by omega), h]
    rfl
  · intro h
    rw [h]
    rfl

end BazelPro.C
