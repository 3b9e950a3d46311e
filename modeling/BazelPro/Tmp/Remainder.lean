import BazelPro.Lib.ShiftRegister
import BazelPro.Tmp.Crc32

/-!
# The checksum as a remainder

The register of `Hk_Shm::crc32` read backwards is a shift register for the generator with the
coefficients `0x04C11DB7`: a round of the inner loop is a clock of it (`reverse_crcBit`). After
each byte it holds, up to multiples of the generator, the message read so far times `x^32` and
the initial value shifted behind it (`reverse_foldl_crcByte`).
-/

namespace BazelPro.Tmp

open C Polynomial ShiftRegister

/-- The bits of a message: bytes in order, each with its least significant bit first. -/
def messageBits (data : List Byte) : List Bool :=
  data.flatMap fun b => (List.range 8).map b.getLsbD

/-- The coefficients of the generator below `x^32`. -/
def crcTaps : BitVec 32 := 0x04C11DB7

/-- The polynomial that is divided: the message times `x^32`, and 32 ones in front of it. -/
noncomputable def crcDividend (data : List Byte) : (ZMod 2)[X] :=
  ofBits (messageBits data) * X ^ 32 + (∑ i ∈ Finset.range 32, X ^ i) * X ^ (8 * data.length)

/-! ## One byte -/

theorem reverse_xor {w : Nat} (x y : BitVec w) :
    (x ^^^ y).reverse = x.reverse ^^^ y.reverse := by
  refine BitVec.eq_of_getLsbD_eq fun i hi => ?_
  simp only [BitVec.getLsbD_reverse, BitVec.getLsbD_xor, BitVec.getMsbD_xor]

theorem reverse_ushiftRight_one {w : Nat} (x : BitVec w) :
    (x >>> 1).reverse = x.reverse <<< 1 := by
  refine BitVec.eq_of_getLsbD_eq fun i hi => ?_
  rw [BitVec.getLsbD_reverse, BitVec.getMsbD_ushiftRight, BitVec.getLsbD_shiftLeft,
    BitVec.getLsbD_reverse]
  simp [hi]

/-- The constant of the code is the reverse of the generator's. -/
theorem reverse_0xEDB88320 : (0xEDB88320 : BitVec 32).reverse = crcTaps := by
  have hbits : ∀ i < 32, (0xEDB88320 : BitVec 32).getMsbD i = crcTaps.getLsbD i := by decide
  refine BitVec.eq_of_getLsbD_eq fun i hi => ?_
  rw [BitVec.getLsbD_reverse]
  exact hbits i hi

/-- A round of the inner loop is a clock of the register. -/
theorem reverse_crcBit (crc : BitVec 32) : (crcBit crc).reverse = step crcTaps crc.reverse := by
  rw [crcBit_eq, reverse_xor, reverse_ushiftRight_one, step, BitVec.msb_reverse]
  cases crc.getLsbD 0 with
  | false => exact congrArg _ (BitVec.reverse_eq_zero_iff.mpr rfl)
  | true => exact congrArg _ reverse_0xEDB88320

theorem reverse_iterate_crcBit (n : Nat) (crc : BitVec 32) :
    (crcBit^[n] crc).reverse = (step crcTaps)^[n] crc.reverse := by
  induction n with
  | zero => rfl
  | succ n ih =>
      rw [Function.iterate_succ_apply', Function.iterate_succ_apply', reverse_crcBit, ih]

/-- The byte that is added to the register stands at its upper end. -/
theorem poly_reverse_setWidth (b : Byte) :
    poly (b.setWidth 32).reverse = ofBits ((List.range 8).map b.getLsbD) * X ^ 24 := by
  ext k
  rw [coeff_poly, BitVec.getLsbD_reverse, BitVec.getMsbD_eq_getLsbD, BitVec.getLsbD_setWidth,
    coeff_mul_X_pow', coeff_ofBits]
  by_cases hlow : 24 ≤ k
  · obtain ⟨j, rfl⟩ := Nat.exists_eq_add_of_le hlow
    rw [if_pos hlow, Nat.add_sub_cancel_left]
    by_cases hj : j < 8
    · have hindex : 31 - (24 + j) = 7 - j := by omega
      simp [hj, hindex, show 24 + j < 32 by omega, show 7 - j < 32 by omega]
    · simp [show ¬ 24 + j < 32 by omega, show 8 ≤ j by omega]
  · rw [if_neg hlow, BitVec.getLsbD_of_ge b (32 - 1 - k) (by omega)]
    simp [coefficient]

theorem reverse_crcByte (crc : BitVec 32) (b : Byte) :
    ∃ q, poly (crcByte crc b).reverse =
      X ^ 8 * poly crc.reverse + ofBits ((List.range 8).map b.getLsbD) * X ^ 32 +
        generator crcTaps * q := by
  obtain ⟨q, hq⟩ := poly_iterate_step (by decide) crcTaps (crc ^^^ b.setWidth 32).reverse 8
  refine ⟨q, ?_⟩
  rw [crcByte, reverse_iterate_crcBit, hq, reverse_xor, poly_xor, poly_reverse_setWidth]
  ring

/-- What the register holds after some bytes. -/
theorem reverse_foldl_crcByte (data : List Byte) (crc : BitVec 32) :
    ∃ q, poly (data.foldl crcByte crc).reverse =
      ofBits (messageBits data) * X ^ 32 + poly crc.reverse * X ^ (8 * data.length) +
        generator crcTaps * q := by
  induction data using List.reverseRecOn with
  | nil => exact ⟨0, by simp [messageBits, ofBits]⟩
  | append_singleton data b ih =>
      obtain ⟨q, hq⟩ := ih
      obtain ⟨q', hq'⟩ := reverse_crcByte (data.foldl crcByte crc) b
      have hbits : messageBits (data ++ [b]) =
          messageBits data ++ (List.range 8).map b.getLsbD := by
        simp [messageBits]
      refine ⟨X ^ 8 * q + q', ?_⟩
      rw [List.foldl_append, List.foldl_cons, List.foldl_nil, hq', hq, hbits, ofBits_append,
        List.length_map, List.length_range, List.length_append, List.length_singleton,
        Nat.mul_add, pow_add]
      ring

/-- The initial value of the register is its own reflection. -/
theorem poly_initial : poly (0xffffffff : BitVec 32).reverse = ∑ i ∈ Finset.range 32, X ^ i := by
  refine Finset.sum_congr rfl fun i hi => ?_
  have hbits : ∀ i < 32, (0xffffffff : BitVec 32).getMsbD i = true := by decide
  rw [BitVec.getLsbD_reverse, hbits i (Finset.mem_range.mp hi)]
  simp [coefficient]

/-- The checksum is the complement of the reflected remainder of the message, for every message. -/
theorem crc32_eq_remainder (data : List Byte) :
    crc32 data = ~~~ (word 32 (crcDividend data %ₘ generator crcTaps)).reverse := by
  obtain ⟨q, hq⟩ := reverse_foldl_crcByte data 0xffffffff
  rw [poly_initial] at hq
  rw [crcDividend, ← poly_eq_mod hq, word_poly, BitVec.reverse_reverse_eq]
  rfl

end BazelPro.Tmp
