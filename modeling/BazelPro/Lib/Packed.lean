import BazelPro.Lib.Positional
import Mathlib.Data.BitVec

/-!
# Packed numbers

Numbers in network order, so many bytes each, one behind the other and nothing between them. Read
with the same sizes, the bytes give the numbers back, whatever stands behind them (`unpack_pack`).
-/

namespace Packed

open Positional

/-- The number that some bytes are, the most significant one first. -/
def number (bs : List (BitVec 8)) : Nat := value 256 (bs.map BitVec.toNat)

/-- A number in so many bytes, the most significant one first. -/
def bytes : Nat → Nat → List (BitVec 8)
  | 0, _ => []
  | size + 1, n => bytes size (n / 256) ++ [BitVec.ofNat 8 n]

/-- Sizes and numbers, one behind the other. -/
def pack (fields : List (Nat × Nat)) : List (BitVec 8) := fields.flatMap fun f => bytes f.1 f.2

/-- The numbers of these sizes at the beginning of some bytes. -/
def unpack : List Nat → List (BitVec 8) → List Nat
  | [], _ => []
  | size :: sizes, bs => number (bs.take size) :: unpack sizes (bs.drop size)

theorem number_concat (bs : List (BitVec 8)) (b : BitVec 8) :
    number (bs ++ [b]) = number bs * 256 + b.toNat := by
  rw [number, List.map_append, value, valueFrom, List.foldl_append]
  rfl

@[simp] theorem length_bytes (size n : Nat) : (bytes size n).length = size := by
  induction size generalizing n with
  | zero => rfl
  | succ size ih => rw [bytes, List.length_append, ih, List.length_singleton]

/-- What does not fit into the bytes is lost. -/
theorem number_bytes (size n : Nat) : number (bytes size n) = n % 256 ^ size := by
  induction size generalizing n with
  | zero => exact (Nat.mod_one n).symm
  | succ size ih =>
      have hpow : 256 ^ (size + 1) = 256 * 256 ^ size := Nat.pow_succ'
      rw [bytes, number_concat, ih, BitVec.toNat_ofNat, hpow, Nat.mod_mul]
      omega

theorem number_bytes_of_lt {size n : Nat} (h : n < 256 ^ size) : number (bytes size n) = n := by
  rw [number_bytes, Nat.mod_eq_of_lt h]

@[simp] theorem pack_nil : pack [] = [] := rfl

@[simp] theorem pack_cons (size n : Nat) (fields : List (Nat × Nat)) :
    pack ((size, n) :: fields) = bytes size n ++ pack fields := rfl

theorem length_pack (fields : List (Nat × Nat)) :
    (pack fields).length = (fields.map Prod.fst).sum := by
  induction fields with
  | nil => rfl
  | cons f fields ih =>
      rw [pack_cons, List.length_append, length_bytes, ih, List.map_cons, List.sum_cons]

/-- Numbers that fit into their bytes are read back. -/
theorem unpack_pack {fields : List (Nat × Nat)} (hfits : ∀ f ∈ fields, f.2 < 256 ^ f.1)
    (rest : List (BitVec 8)) :
    unpack (fields.map Prod.fst) (pack fields ++ rest) = fields.map Prod.snd := by
  induction fields with
  | nil => rfl
  | cons f fields ih =>
      obtain ⟨size, n⟩ := f
      rw [List.forall_mem_cons] at hfits
      have hlength := length_bytes size n
      rw [pack_cons, List.append_assoc, List.map_cons, unpack, List.take_left' hlength,
        List.drop_left' hlength, ih hfits.2, number_bytes_of_lt hfits.1, List.map_cons]

end Packed
