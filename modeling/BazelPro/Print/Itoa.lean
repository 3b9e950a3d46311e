import BazelPro.Lib.Positional
import BazelPro.Print.Formatter

/-!
# What `itoa` writes

The digits of the number behind as many zeros as the precision asks for, as long as `prec--` does
not pass the least `int` (`itoa_eq`), and nothing at all when it does (`itoa_wrapped`): the
precision is then a large positive number, and the zeros overrun `tmp`.
-/

namespace BazelPro.Print

open C Positional

/-- An `int` operation that does not overflow. -/
theorem int32_eq {x : Int} (hlow : -2147483648 ≤ x) (hhigh : x < 2147483648) : int32 x = x := by
  unfold int32
  rw [Int.bmod_eq_of_le_mul_two] <;> omega

theorem int32_int32 (x : Int) : int32 (int32 x) = int32 x := Int.bmod_bmod

theorem int32_int32_sub (x y : Int) : int32 (int32 x - y) = int32 (x - y) :=
  Int.bmod_sub_bmod

theorem int32_range (x : Int) : -2147483648 ≤ int32 x ∧ int32 x < 2147483648 := by
  unfold int32 Int.bmod
  dsimp only
  split <;> omega

/-- An `int` above the greatest one wraps. -/
theorem int32_overflow {x : Int} (hlow : 2147483648 ≤ x) (hhigh : x < 4294967296) :
    int32 x = x - 4294967296 := by
  have : int32 x = int32 (x - 4294967296) := (Int.sub_bmod_right ..).symm
  rw [this, int32_eq] <;> omega

/-- An `int` below the least one wraps. -/
theorem int32_underflow {x : Int} (hlow : -4294967296 ≤ x) (hhigh : x < -2147483648) :
    int32 x = x + 4294967296 := by
  have : int32 x = int32 (x + 4294967296) := (Int.add_bmod_right ..).symm
  rw [this, int32_eq] <;> omega

theorem VaArg.int_range (a : VaArg) : -2147483648 ≤ a.int ∧ a.int < 2147483648 := by
  have hlow := BitVec.le_toInt (a.word.setWidth 32)
  have hhigh := BitVec.toInt_lt (x := a.word.setWidth 32)
  unfold int
  omega

/-- The characters of some digits. -/
def digitChars (caps : Bool) (ds : List Nat) : List Byte := ds.map fun d => (digits caps).getD d 0

theorem digit_ne_zero (caps : Bool) {d : Nat} (h : d < 16) : (digits caps).getD d 0 ≠ 0 := by
  have : ∀ caps, ∀ d < 16, (digits caps).getD d 0 ≠ 0 := by decide
  exact this caps d h

/-- A digit is not the NUL. -/
theorem zero_not_mem_digitChars (caps : Bool) {ds : List Nat} (h : ∀ d ∈ ds, d < 16) :
    0 ∉ digitChars caps ds := by
  intro hmem
  obtain ⟨d, hd, hzero⟩ := List.mem_map.mp hmem
  exact digit_ne_zero caps (h d hd) hzero

/-- Behind the last digit, the first loop stores the digits of the number that is left. -/
theorem digitLoop_eq (caps : Bool) {base : Nat} (hbase : 1 < base) (room num : Nat) (prec : Int)
    (s : List Byte) (hroom : room < 35) (hlen : (Nat.digits base num).length ≤ room)
    (hint : int32 prec = prec) :
    digitLoop caps base room num prec s =
      .ok (room - (Nat.digits base num).length, int32 (prec - (Nat.digits base num).length),
        digitChars caps (Nat.digits base num).reverse ++ s) := by
  induction room generalizing num prec s with
  | zero =>
      have hzero : num = 0 := by
        by_contra hne
        have hlen : (Nat.digits base num).length = 0 := by omega
        exact Nat.digits_ne_nil_iff_ne_zero.mpr hne (List.eq_nil_of_length_eq_zero hlen)
      subst hzero
      simp [digitLoop, digitChars, hint]
  | succ room ih =>
      by_cases hzero : num = 0
      · subst hzero
        rw [digitLoop, if_neg (by omega)]
        simp [digitChars, hint]
      · rw [Nat.digits_eq_cons_digits_div hbase hzero] at hlen ⊢
        rw [List.length_cons] at hlen ⊢
        rw [digitLoop, if_pos (Or.inl hzero),
          ih (num / base) _ _ (by omega) (by omega) (int32_int32 _), int32_int32_sub]
        simp only [List.reverse_cons, digitChars, List.map_append, List.append_assoc,
          List.map_cons, List.map_nil, List.singleton_append, Except.ok.injEq, Prod.mk.injEq,
          and_true]
        exact ⟨by omega, congrArg int32 (by push_cast; omega)⟩

/-- The first loop stores the digits of the number, at least one. -/
theorem digitLoop_numeral (caps : Bool) {base : Nat} (hbase : 1 < base) (num : Nat) (prec : Int)
    (s : List Byte) (hlen : (numeral base num).length ≤ 35) :
    digitLoop caps base 35 num prec s =
      .ok (35 - (numeral base num).length, int32 (prec - (numeral base num).length),
        digitChars caps (numeral base num) ++ s) := by
  rw [numeral_eq_concat hbase, List.length_append, List.length_reverse, List.length_singleton]
    at hlen ⊢
  rw [digitLoop, if_pos (Or.inr rfl), digitLoop_eq caps hbase 34 (num / base) _ _ (by omega)
    (by omega) (int32_int32 _), int32_int32_sub]
  simp only [digitChars, List.map_append, List.append_assoc, List.map_cons, List.map_nil,
    List.singleton_append, Except.ok.injEq, Prod.mk.injEq, and_true]
  exact ⟨by omega, congrArg int32 (by push_cast; omega)⟩

/-- The second loop stores the zeros that the precision still asks for. -/
theorem zeroLoop_eq (room : Nat) (prec : Int) (s : List Byte) (h : prec.toNat ≤ room) :
    zeroLoop room prec s = .ok (List.replicate prec.toNat (chr '0') ++ s) := by
  induction room generalizing prec s with
  | zero =>
      have hprec : prec.toNat = 0 := by omega
      rw [zeroLoop, if_neg (by omega), hprec]
      rfl
  | succ room ih =>
      by_cases hpos : 0 < prec
      · rw [zeroLoop, if_pos hpos, ih (prec - 1) _ (by omega),
          show prec.toNat = (prec - 1).toNat + 1 by omega, List.replicate_succ']
        simp
      · have hprec : prec.toNat = 0 := by omega
        rw [zeroLoop, if_neg hpos, hprec]
        rfl

/-- Where there is no room for the zeros, the second loop leaves the array. -/
theorem zeroLoop_overrun (room : Nat) (prec : Int) (s : List Byte) (h : (room : Int) < prec) :
    zeroLoop room prec s = .error .scratch := by
  induction room generalizing prec s with
  | zero => rw [zeroLoop, if_pos (by omega)]
  | succ room ih => rw [zeroLoop, if_pos (by omega), ih _ _ (by omega)]

/-- A string that fits is copied with its NUL. -/
theorem copyOut_eq (tmp cs : List Byte) (hcs : 0 ∉ cs) (h : tmp.length + cs.length < 36) :
    copyOut tmp (cs ++ [0]) = .ok (tmp ++ cs ++ [0]) := by
  induction cs generalizing tmp with
  | nil =>
      have : tmp.length < 36 := by simpa using h
      simp [copyOut, push, this]
  | cons c cs ih =>
      rw [List.mem_cons, not_or] at hcs
      obtain ⟨hc, hcs⟩ := hcs
      rw [List.length_cons] at h
      have hpush : push tmp c = .ok (tmp ++ [c]) := if_pos (by omega)
      rw [List.cons_append, copyOut, hpush]
      show (if c ≠ 0 then _ else _) = _
      rw [if_pos (Ne.symm hc), ih (tmp ++ [c]) hcs (by simp; omega)]
      simp

/-- A string that does not fit is copied over the end. -/
theorem copyOut_overrun (tmp cs : List Byte) (hcs : 0 ∉ cs) (htmp : tmp.length ≤ 36)
    (h : 36 ≤ tmp.length + cs.length) : copyOut tmp (cs ++ [0]) = .error .scratch := by
  induction cs generalizing tmp with
  | nil =>
      have hfull : push tmp 0 = .error .scratch := if_neg (by simp at h; omega)
      rw [List.nil_append, copyOut, hfull]
      rfl
  | cons c cs ih =>
      rw [List.mem_cons, not_or] at hcs
      obtain ⟨hc, hcs⟩ := hcs
      rw [List.length_cons] at h
      rw [List.cons_append, copyOut]
      by_cases hroom : tmp.length < 36
      · have hpush : push tmp c = .ok (tmp ++ [c]) := if_pos hroom
        rw [hpush]
        show (if c ≠ 0 then _ else _) = _
        rw [if_pos (Ne.symm hc), ih (tmp ++ [c]) hcs (by simp; omega) (by simp; omega)]
      · have hpush : push tmp c = .error .scratch := if_neg hroom
        rw [hpush]
        rfl

/-- The characters that `itoa` writes. -/
def itoaChars (num base : Nat) (caps : Bool) (prec : Int) : List Byte :=
  List.replicate (prec - (numeral base num).length).toNat (chr '0') ++
    digitChars caps (numeral base num)

theorem length_itoaChars (num base : Nat) (caps : Bool) (prec : Int) :
    (itoaChars num base caps prec).length =
      (prec - (numeral base num).length).toNat + (numeral base num).length := by
  simp [itoaChars, digitChars]

theorem zero_not_mem_itoaChars (num : Nat) {base : Nat} (caps : Bool) (prec : Int)
    (hbase : 1 < base) (hbase16 : base ≤ 16) : 0 ∉ itoaChars num base caps prec := by
  intro hmem
  rcases List.mem_append.mp hmem with hmem | hmem
  · exact absurd (List.eq_of_mem_replicate hmem) (by decide)
  · refine zero_not_mem_digitChars caps (fun d hd => ?_) hmem
    exact (lt_of_mem_numeral hbase hd).trans_le hbase16

/-- What `itoa` writes where there is room for it and `prec--` does not overflow. -/
theorem itoa_eq (tmp : List Byte) (num : BitVec 32) {base : Nat} (caps : Bool) (prec : Int)
    (hbase : 1 < base) (hbase16 : base ≤ 16)
    (hprec : -2147483648 + ((numeral base num.toNat).length : Int) ≤ prec)
    (hroom : tmp.length + (itoaChars num.toNat base caps prec).length < 36) :
    itoa tmp num base caps prec = .ok (tmp ++ itoaChars num.toNat base caps prec ++ [0]) := by
  have hlen := length_itoaChars num.toNat base caps prec
  have hnul := zero_not_mem_itoaChars num.toNat caps prec hbase hbase16
  have hint : int32 (prec - (numeral base num.toNat).length) =
      prec - (numeral base num.toNat).length := int32_eq (by omega) (by omega)
  have hdigits := digitLoop_numeral caps hbase num.toNat prec [0] (by omega)
  have hzeros := zeroLoop_eq (35 - (numeral base num.toNat).length)
    (prec - (numeral base num.toNat).length) (digitChars caps (numeral base num.toNat) ++ [0])
    (by omega)
  have hcopy := copyOut_eq tmp (itoaChars num.toNat base caps prec) hnul hroom
  rw [itoaChars, List.append_assoc] at hcopy
  rw [itoa, hdigits, hint]
  show (zeroLoop _ _ _ >>= _) = _
  rw [hzeros]
  show copyOut _ _ = _
  rw [hcopy, itoaChars]

/-- Where `prec--` overflows, `itoa` leaves its array. -/
theorem itoa_wrapped (tmp : List Byte) (num : BitVec 32) {base : Nat} (caps : Bool) (prec : Int)
    (hbase : 1 < base) (hmin : -2147483648 ≤ prec)
    (hprec : prec < -2147483648 + ((numeral base num.toNat).length : Int)) :
    itoa tmp num base caps prec = .error .scratch := by
  have hlen : (numeral base num.toNat).length ≤ 32 :=
    length_numeral_le hbase (by omega) (num.isLt.trans_le (Nat.pow_le_pow_left hbase 32))
  -- the digits take `prec` below `INT_MIN`, from where it goes on at the top
  have hwrapped : 36 < int32 (prec - (numeral base num.toNat).length) := by
    rw [int32_underflow] <;> omega
  rw [itoa, digitLoop_numeral caps hbase num.toNat prec [0] (by omega)]
  show (zeroLoop _ _ _ >>= _) = _
  rw [zeroLoop_overrun _ _ _ (by omega)]
  rfl

/-- Base 8 takes the most digits. -/
theorem length_numeral_word (num : BitVec 32) {base : Nat} (hbase : 8 ≤ base) :
    (numeral base num.toNat).length ≤ 11 := by
  have hpow : 8 ^ 11 ≤ base ^ 11 := Nat.pow_le_pow_left hbase 11
  exact length_numeral_le (by omega) (by omega) (num.isLt.trans_le (by omega))

/-- Where there is no room for what `itoa` writes, it leaves its array or that of its caller. -/
theorem itoa_overrun (tmp : List Byte) (num : BitVec 32) {base : Nat} (caps : Bool) (prec : Int)
    (hbase : 8 ≤ base) (hbase16 : base ≤ 16) (htmp : tmp.length ≤ 2)
    (hrange : -2147483648 ≤ prec ∧ prec < 2147483648)
    (h : ¬ (-2147483648 + ((numeral base num.toNat).length : Int) ≤ prec ∧
      tmp.length + max prec (numeral base num.toNat).length ≤ 35)) :
    itoa tmp num base caps prec = .error .scratch := by
  have hdigits := length_numeral_word num hbase
  by_cases hkept : -2147483648 + ((numeral base num.toNat).length : Int) ≤ prec
  · -- with so few digits, it is the precision that asks for too much
    have hprec : 35 < tmp.length + prec := by
      have := not_and.mp h hkept
      omega
    have hint : int32 (prec - (numeral base num.toNat).length) =
        prec - (numeral base num.toNat).length := int32_eq (by omega) (by omega)
    rw [itoa, digitLoop_numeral caps (by omega) num.toNat prec [0] (by omega), hint]
    show (zeroLoop _ _ _ >>= _) = _
    by_cases hown : prec ≤ 35
    · have hlength := length_itoaChars num.toNat base caps prec
      have hcopy := copyOut_overrun tmp (itoaChars num.toNat base caps prec)
        (zero_not_mem_itoaChars num.toNat caps prec (by omega) hbase16) (by omega) (by omega)
      rw [itoaChars, List.append_assoc] at hcopy
      rw [zeroLoop_eq _ _ _ (by omega)]
      exact hcopy
    · rw [zeroLoop_overrun _ _ _ (by omega)]
      rfl
  · exact itoa_wrapped tmp num caps prec (by omega) hrange.1 (by omega)

end BazelPro.Print
