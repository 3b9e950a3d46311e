import BazelPro.C.Printf
import BazelPro.Lib.Padding

/-!
# Hexadecimal dumps

A byte as two digits, which is what `%02x` puts out for a value below 256, a column of such bytes,
and how it is read back (`readHex_hexColumn`).
-/

namespace BazelPro.C

open Positional Padding

/-- A byte as two hexadecimal digits. -/
def hexPair (b : Byte) : List Byte :=
  [digitChar false (b.toNat / 16), digitChar false (b.toNat % 16)]

/-- Bytes as digits, each with a space behind it. -/
def hexColumn (bytes : List Byte) : List Byte := bytes.flatMap fun b => hexPair b ++ [chr ' ']

@[simp] theorem length_hexPair (b : Byte) : (hexPair b).length = 2 := rfl

@[simp] theorem hexColumn_nil : hexColumn [] = [] := rfl

@[simp] theorem hexColumn_cons (b : Byte) (bytes : List Byte) :
    hexColumn (b :: bytes) = hexPair b ++ chr ' ' :: hexColumn bytes := by
  simp [hexColumn]

theorem hexColumn_append (bytes bytes' : List Byte) :
    hexColumn (bytes ++ bytes') = hexColumn bytes ++ hexColumn bytes' :=
  List.flatMap_append

theorem length_hexColumn (bytes : List Byte) : (hexColumn bytes).length = 3 * bytes.length := by
  induction bytes with
  | nil => rfl
  | cons b bytes ih =>
      rw [hexColumn_cons, List.length_append, length_hexPair, List.length_cons, ih,
        List.length_cons]
      omega

/-- The flag `0` alone. -/
def zeroFlag : FieldFlags := ⟨false, false, false, true, false⟩

theorem unsignedField_zeroFlag (width n : Nat) :
    unsignedField zeroFlag width none .x n =
      ((numeral 16 n).map (digitChar false)).leftpad width (chr '0') := by
  have hdigits : unsignedDigits zeroFlag none .x n = (numeral 16 n).map (digitChar false) := by
    have hpos : 1 ≤ ((numeral 16 n).map (digitChar false)).length := by
      rw [List.length_map]
      exact length_numeral_pos 16 n
    show (if n = 0 ∧ none = some 0 then [] else _) = _
    rw [if_neg (by simp)]
    exact leftpad_of_le _ hpos
  rw [unsignedField, hdigits]
  rfl

/-- The directive `%02x` puts out two digits for a byte. -/
theorem unsignedField_hexPair (b : Byte) :
    unsignedField zeroFlag 2 none .x b.toNat = hexPair b := by
  have hlt := b.isLt
  rw [unsignedField_zeroFlag, numeral_eq_concat (by decide), hexPair]
  by_cases hzero : b.toNat / 16 = 0
  · rw [hzero, Nat.digits_zero]
    rfl
  · rw [Nat.digits_of_lt 16 _ hzero (by omega)]
    rfl

/-- The digits of a number that fits are padded to the width. -/
theorem length_unsignedField_zeroFlag {n width : Nat} (hwidth : 0 < width)
    (h : n < 16 ^ width) : (unsignedField zeroFlag width none .x n).length = width := by
  have hle := length_numeral_le (by decide) hwidth h
  rw [unsignedField_zeroFlag, List.length_leftpad, List.length_map]
  omega

theorem digitChar_ne_zero {d : Nat} (h : d < 16) : digitChar false d ≠ 0 := by
  interval_cases d <;> decide

/-- Digits are no terminators. -/
theorem zero_not_mem_unsignedField (width n : Nat) :
    0 ∉ unsignedField zeroFlag width none .x n := by
  rw [unsignedField_zeroFlag, List.leftpad, List.mem_append, not_or]
  constructor
  · intro h
    exact absurd (List.eq_of_mem_replicate h) (by decide)
  · intro h
    obtain ⟨d, hd, hzero⟩ := List.mem_map.mp h
    exact digitChar_ne_zero (lt_of_mem_numeral (by decide) hd) hzero

theorem zero_not_mem_hexColumn (bytes : List Byte) : 0 ∉ hexColumn bytes := by
  intro h
  obtain ⟨b, -, hb⟩ := List.mem_flatMap.mp h
  rw [← unsignedField_hexPair, List.mem_append, List.mem_singleton] at hb
  rcases hb with hb | hb
  · exact zero_not_mem_unsignedField _ _ hb
  · exact absurd hb (by decide)

/-! ## Reading -/

/-- The value of a hexadecimal digit. -/
def digitValue (c : Byte) : Option Nat :=
  if 48 ≤ c.toNat ∧ c.toNat < 58 then some (c.toNat - 48)
  else if 97 ≤ c.toNat ∧ c.toNat < 103 then some (c.toNat - 87)
  else none

theorem digitValue_digitChar {d : Nat} (h : d < 16) : digitValue (digitChar false d) = some d := by
  interval_cases d <;> rfl

/-- Reads at most `n` bytes of a column, and returns what is behind them. -/
def readHex : Nat → List Byte → List Byte × List Byte
  | n + 1, c :: d :: s :: rest =>
      match digitValue c, digitValue d with
      | some x, some y =>
          let (bytes, rest) := readHex n rest
          (BitVec.ofNat 8 (16 * x + y) :: bytes, rest)
      | _, _ => ([], c :: d :: s :: rest)
  | _, text => ([], text)

theorem readHex_zero (text : List Byte) : readHex 0 text = ([], text) := by
  unfold readHex
  rfl

/-- Nothing is read from what does not begin with a digit. -/
theorem readHex_of_not_digit {c : Byte} (h : digitValue c = none) (n : Nat) (text : List Byte) :
    readHex n (c :: text) = ([], c :: text) := by
  unfold readHex
  split <;> simp_all

theorem readHex_hexPair (n : Nat) (b : Byte) (rest : List Byte) :
    readHex (n + 1) (hexPair b ++ chr ' ' :: rest) =
      (b :: (readHex n rest).1, (readHex n rest).2) := by
  have hlt := b.isLt
  have hb : BitVec.ofNat 8 (16 * (b.toNat / 16) + b.toNat % 16) = b := by
    rw [Nat.div_add_mod, BitVec.ofNat_toNat, BitVec.setWidth_eq]
  simp only [hexPair, List.cons_append, List.nil_append, readHex,
    digitValue_digitChar (show b.toNat / 16 < 16 by omega),
    digitValue_digitChar (show b.toNat % 16 < 16 by omega), hb]

/-- A column is read back, if nothing follows it that could belong to it. -/
theorem readHex_hexColumn {n : Nat} {bytes rest : List Byte} (hlen : bytes.length ≤ n)
    (hrest : bytes.length = n ∨ ∃ c text, rest = c :: text ∧ digitValue c = none) :
    readHex n (hexColumn bytes ++ rest) = (bytes, rest) := by
  induction bytes generalizing n with
  | nil =>
      rcases hrest with rfl | ⟨c, text, rfl, hc⟩
      · exact readHex_zero rest
      · exact readHex_of_not_digit hc n text
  | cons b bytes ih =>
      obtain ⟨n, rfl⟩ := Nat.exists_eq_succ_of_ne_zero (n := n) (by simp at hlen; omega)
      rw [hexColumn_cons, List.append_assoc, List.cons_append, readHex_hexPair,
        ih (by simpa using hlen) (hrest.imp_left (by simp))]

end BazelPro.C
