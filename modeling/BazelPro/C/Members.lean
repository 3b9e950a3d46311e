import BazelPro.C.Layout
import BazelPro.C.Memory
import BazelPro.Lib.Packed

/-!
# The members of an object

The scalars that an object consists of, where `Layout` places them, and their values, as a peer
reads them that copies an object from the wire and swaps its members (`CType.read`). When there is
no padding between the members, an object is its members one behind the other
(`CType.read_pack`).
-/

namespace BazelPro.C

open Packed

namespace CType

mutual
/-- The offsets and sizes of the scalars of an object that begins at `base`. -/
def scalars (base : Nat) : CType → List (Nat × Nat)
  | .scalar size => [(base, size)]
  | .array count elem =>
      (List.range count).flatMap fun i => scalars (base + i * sizeof elem) elem
  | .struct members => scalarsFrom base 0 members

/-- The scalars of the members that are placed from `offset` on. -/
def scalarsFrom (base offset : Nat) : List CType → List (Nat × Nat)
  | [] => []
  | t :: ts =>
      scalars (base + roundUp offset (align t)) t ++
        scalarsFrom base (roundUp offset (align t) + sizeof t) ts
end

/-- The scalars of an object, read in network order. -/
def read (t : CType) (m : Mem) (base : Nat) : List Nat :=
  (t.scalars base).map fun s => number (load m s.1 s.2)

/-- Scalars one behind the other, from an offset on. -/
def Gapless : Nat → List (Nat × Nat) → Prop
  | _, [] => True
  | offset, s :: ss => s.1 = offset ∧ Gapless (offset + s.2) ss

instance Gapless.decidable : ∀ offset ss, Decidable (Gapless offset ss)
  | _, [] => .isTrue trivial
  | offset, s :: ss =>
      have := Gapless.decidable (offset + s.2) ss
      inferInstanceAs (Decidable (s.1 = offset ∧ Gapless (offset + s.2) ss))

theorem map_number_load {offset : Nat} {ss : List (Nat × Nat)} (h : Gapless offset ss) (m : Mem) :
    ss.map (fun s => number (load m s.1 s.2)) =
      unpack (ss.map Prod.snd) (load m offset (ss.map Prod.snd).sum) := by
  induction ss generalizing offset with
  | nil => rfl
  | cons s ss ih =>
      obtain ⟨rfl, hrest⟩ := h
      rw [List.map_cons, List.map_cons, List.sum_cons, load_add, unpack,
        List.take_left' (length_load m s.1 s.2), List.drop_left' (length_load m s.1 s.2), ih hrest]

/-- An object without padding holds the numbers that were packed into it. -/
theorem read_pack {t : CType} {m : Mem} {base : Nat} {fields : List (Nat × Nat)}
    (hgapless : Gapless base (t.scalars base))
    (hsizes : (t.scalars base).map Prod.snd = fields.map Prod.fst)
    (hfits : ∀ f ∈ fields, f.2 < 256 ^ f.1)
    (hload : load m base (pack fields).length = pack fields) :
    t.read m base = fields.map Prod.snd := by
  rw [read, map_number_load hgapless, hsizes, ← length_pack, hload]
  have hunpack := unpack_pack hfits []
  rwa [List.append_nil] at hunpack

end CType

/-! ## Words -/

/-- A number, with one more byte behind it. -/
theorem toNat_append_byte {w : Nat} (x : BitVec w) (b : Byte) :
    (x ++ b).toNat = x.toNat * 256 + b.toNat := by
  rw [BitVec.toNat_append, ← Nat.shiftLeft_add_eq_or_of_lt b.isLt, Nat.shiftLeft_eq]

theorem number_load_one (m : Mem) (off : Nat) : number (load m off 1) = (m off).toNat := by
  simp [number, load, Positional.value, Positional.valueFrom]

theorem number_load_two (m : Mem) (off : Nat) : number (load m off 2) = (be16 m off).toNat := by
  rw [be16, toNat_append_byte]
  simp [number, load, List.range_succ, Positional.value, Positional.valueFrom]

theorem number_load_four (m : Mem) (off : Nat) : number (load m off 4) = (be32 m off).toNat := by
  rw [be32, toNat_append_byte, toNat_append_byte, toNat_append_byte]
  simp [number, load, List.range_succ, Positional.value, Positional.valueFrom]

/-- The bytes of a 16-bit number in network order. -/
theorem reverse_bytes16 (x : BitVec 16) : (bytes16 x).reverse = bytes 2 x.toNat := by
  have hlow : x.extractLsb' 0 8 = BitVec.ofNat 8 x.toNat :=
    BitVec.eq_of_toNat_eq (by simp)
  have hhigh : x.extractLsb' 8 8 = BitVec.ofNat 8 (x.toNat / 256) :=
    BitVec.eq_of_toNat_eq (by simp [Nat.shiftRight_eq_div_pow])
  simp [bytes16, bytes, hlow, hhigh]

/-- The bytes of a 32-bit number in network order. -/
theorem reverse_bytes32 (x : BitVec 32) : (bytes32 x).reverse = bytes 4 x.toNat := by
  have hbyte : ∀ k, x.extractLsb' k 8 = BitVec.ofNat 8 (x.toNat / 2 ^ k) := fun k =>
    BitVec.eq_of_toNat_eq (by simp [Nat.shiftRight_eq_div_pow])
  simp [bytes32, bytes, hbyte, Nat.div_div_eq_div_mul]

end BazelPro.C
