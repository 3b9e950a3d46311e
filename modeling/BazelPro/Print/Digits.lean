import BazelPro.Print.Integer

/-!
# The number that `itoa` writes

Its digits, in the base and the case that the caller asks for, with zeros ahead of them up to the
precision (`Writes`). `itoa` writes them for every precision up to 35 but the lowest ones, with
which `prec--` runs below the least `int` (`itoa_writes_iff`).
-/

namespace BazelPro.Print

open C Positional

/-- `cs` are the digits of `num`, `max prec d 1` of them when the number itself has `d`. -/
def Writes (num base : Nat) (caps : Bool) (prec : Int) (cs : List Byte) : Prop :=
  ∃ ds, cs = ds.map (digitChar caps) ∧ (∀ d ∈ ds, d < base) ∧ value base ds = num ∧
    (ds.length : Int) = max prec (max (Nat.digits base num).length 1) ∧
    ∀ z ∈ ds.take (ds.length - (Nat.digits base num).length), z = 0

/-- The digits behind the zeros. -/
theorem writes_itoaChars (num : Nat) {base : Nat} (caps : Bool) (prec : Int) (hbase : 1 < base)
    (hbase16 : base ≤ 16) : Writes num base caps prec (itoaChars num base caps prec) := by
  have hlength := length_numeral base num
  refine ⟨List.replicate (prec - (numeral base num).length).toNat 0 ++ numeral base num,
    ?_, ?_, ?_, ?_, ?_⟩
  · rw [List.map_append, List.map_replicate, ← digitChars_numeral caps hbase hbase16]
    rfl
  · intro d hd
    rcases List.mem_append.mp hd with hd | hd
    · rw [List.eq_of_mem_replicate hd]
      omega
    · exact lt_of_mem_numeral hbase hd
  · rw [value_append_of_zeros base (fun z hz => List.eq_of_mem_replicate hz), value_numeral]
  · rw [List.length_append, List.length_replicate]
    omega
  · intro z hz
    by_cases hnum : num = 0
    · -- the only digit of zero is a zero as well
      subst hnum
      rcases List.mem_append.mp (List.mem_of_mem_take hz) with hz | hz
      · exact List.eq_of_mem_replicate hz
      · exact List.mem_singleton.mp hz
    · have hne : (Nat.digits base num).length ≠ 0 := by
        simpa using Nat.digits_ne_nil_iff_ne_zero.mpr hnum
      have hcount : (List.replicate (prec - (numeral base num).length).toNat 0 ++
          numeral base num).length - (Nat.digits base num).length =
          (List.replicate (prec - (numeral base num).length).toNat 0).length := by
        rw [List.length_append]
        omega
      rw [hcount, List.take_left] at hz
      exact List.eq_of_mem_replicate hz

/-- For every number, base, case and precision up to 35, with room in the buffer of the caller:
`itoa` stays in its array of 36 bytes and writes the number and a NUL, if and only if `prec--`, once
for each digit, stays an `int`. -/
theorem itoa_writes_iff (buf : List Byte) (num : BitVec 32) (base : Nat) (caps : Bool) (prec : Int)
    (hbase : 2 ≤ base ∧ base ≤ 16) (hprec : -2147483648 ≤ prec ∧ prec ≤ 35)
    (hbuf : buf.length + max prec (max (Nat.digits base num.toNat).length 1) < 36) :
    (∃ cs, itoa buf num base caps prec = .ok (buf ++ cs ++ [0]) ∧
        Writes num.toNat base caps prec cs) ↔
      -2147483648 + (max (Nat.digits base num.toNat).length 1 : Int) ≤ prec := by
  have hlength := length_numeral base num.toNat
  constructor
  · rintro ⟨cs, hcs, -⟩
    by_contra hmin
    rw [itoa_wrapped buf num caps prec hbase.1 hprec.1 (by omega)] at hcs
    cases hcs
  · intro hmin
    have hchars := length_itoaChars num.toNat base caps prec
    exact ⟨_, itoa_eq buf num caps prec hbase.1 hbase.2 (by omega) (by omega),
      writes_itoaChars num.toNat caps prec hbase.1 hbase.2⟩

/-- 35 binary digits of 5 into an empty buffer. -/
theorem itoa_writes_iff_binary :
    (∃ cs, itoa [] 5 2 false 35 = .ok ([] ++ cs ++ [0]) ∧
        Writes (5 : BitVec 32).toNat 2 false 35 cs) ↔
      -2147483648 + (max (Nat.digits 2 (5 : BitVec 32).toNat).length 1 : Int) ≤ 35 :=
  itoa_writes_iff [] 5 2 false 35 (by decide) (by decide) (by simp)

/-- With the least precision there are too many zeros for the array. -/
theorem itoa_least_precision :
    itoa [] 0 10 false (-2147483648) = .error .scratch ∧
      ¬ ∃ cs, itoa [] 0 10 false (-2147483648) = .ok ([] ++ cs ++ [0]) ∧
        Writes 0 10 false (-2147483648) cs := by
  have hscratch : itoa [] 0 10 false (-2147483648) = .error .scratch :=
    itoa_wrapped [] 0 false (-2147483648) (by decide) (by decide) (by decide)
  refine ⟨hscratch, ?_⟩
  rintro ⟨cs, hcs, -⟩
  rw [hscratch] at hcs
  cases hcs

end BazelPro.Print
