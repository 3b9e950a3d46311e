import BazelPro.C.Memory
import Mathlib.Logic.Function.Iterate

/-!
# The checksum of the shared segment

After `Hk_Shm::crc32` in `src/tmp/tmp.cc`: a bitwise CRC with the reflected polynomial
`0xEDB88320`. Every step of the register can be undone, which is what makes a changed byte
show.
-/

namespace BazelPro.Tmp

open C

/-- One round of the inner loop. -/
def crcBit (crc : BitVec 32) : BitVec 32 :=
  if crc &&& 1 ≠ 0 then (crc >>> 1) ^^^ 0xEDB88320 else crc >>> 1

/-- One round of the outer loop. -/
def crcByte (crc : BitVec 32) (data : Byte) : BitVec 32 := crcBit^[8] (crc ^^^ data.setWidth 32)

/-- `Hk_Shm::crc32`. -/
def crc32 (data : List Byte) : BitVec 32 := ~~~ (data.foldl crcByte 0xffffffff)

/-- A round shifts right, and applies the polynomial if the bit shifted out was set. -/
theorem crcBit_eq (crc : BitVec 32) :
    crcBit crc = (crc >>> 1) ^^^ if crc.getLsbD 0 then 0xEDB88320 else 0 := by
  have hbit : (crc &&& 1 ≠ 0) ↔ crc.getLsbD 0 = true := by
    show (crc &&& 1#32 ≠ 0#32) ↔ _
    rw [BitVec.and_one_eq_setWidth_ofBool_getLsbD]
    cases crc.getLsbD 0 <;> decide
  unfold crcBit
  by_cases h : crc.getLsbD 0 = true
  · rw [if_pos (hbit.mpr h), if_pos h]
  · rw [if_neg (fun hne => h (hbit.mp hne)), if_neg h]
    exact BitVec.xor_zero.symm

/-- The top bit after a round is the bit that was shifted out. -/
theorem getLsbD_crcBit (crc : BitVec 32) : (crcBit crc).getLsbD 31 = crc.getLsbD 0 := by
  rw [crcBit_eq, BitVec.getLsbD_xor, BitVec.getLsbD_ushiftRight,
    BitVec.getLsbD_of_ge crc (1 + 31) (by omega)]
  cases crc.getLsbD 0 <;> decide

/-- No two register values lead to the same one. -/
theorem crcBit_injective : Function.Injective crcBit := by
  intro x y h
  have hlow : x.getLsbD 0 = y.getLsbD 0 := by
    rw [← getLsbD_crcBit, h, getLsbD_crcBit]
  -- the low bits agree, so the same polynomial was applied
  have hshift : x >>> 1 = y >>> 1 := by
    rw [crcBit_eq, crcBit_eq, hlow] at h
    exact (BitVec.xor_left_inj _).mp h
  refine BitVec.eq_of_getLsbD_eq fun i hi => ?_
  cases i with
  | zero => exact hlow
  | succ i =>
      have := congrArg (·.getLsbD i) hshift
      simpa [BitVec.getLsbD_ushiftRight, Nat.add_comm] using this

theorem crcByte_injective_left (data : Byte) : Function.Injective (crcByte · data) := by
  intro x y h
  exact (BitVec.xor_left_inj _).mp (crcBit_injective.iterate 8 h)

theorem crcByte_injective_right (crc : BitVec 32) : Function.Injective (crcByte crc) := by
  intro x y h
  have hxor := (BitVec.xor_right_inj _).mp (crcBit_injective.iterate 8 h)
  have := congrArg (BitVec.setWidth 8) hxor
  simpa using this

/-- What follows does not bring two different register values together again. -/
theorem foldl_crcByte_injective (data : List Byte) :
    Function.Injective fun crc => data.foldl crcByte crc := by
  induction data with
  | nil => exact Function.injective_id
  | cons b data ih => exact fun x y h => crcByte_injective_left b (ih h)

/-- Strings that differ in one byte have different checksums. -/
theorem crc32_ne_of_byte (front back : List Byte) {x y : Byte} (h : x ≠ y) :
    crc32 (front ++ x :: back) ≠ crc32 (front ++ y :: back) := by
  intro hcrc
  have hfold := BitVec.not_inj.mp hcrc
  rw [List.foldl_append, List.foldl_append, List.foldl_cons, List.foldl_cons] at hfold
  exact h (crcByte_injective_right _ (foldl_crcByte_injective back hfold))

end BazelPro.Tmp
