import BazelPro.C.Memory
import Mathlib.Data.List.TakeWhile

/-!
# Strings in arrays

An array holds a string when its first NUL is where the string ends (`HoldsString`). A reader that
goes on to the first NUL stays in the array if and only if there is one in it
(`holdsString_takeWhile_iff`).
-/

namespace BazelPro.C

/-- The array `bs` begins with the characters `s`, none of which is a NUL, and a NUL. -/
def HoldsString (bs s : List Byte) : Prop := 0 ∉ s ∧ s ++ [0] <+: bs

theorem zero_not_mem_takeWhile (bs : List Byte) : 0 ∉ bs.takeWhile (· ≠ 0) := by
  intro h
  simpa using List.mem_takeWhile_imp h

theorem takeWhile_eq_self_of_zero_not_mem {s : List Byte} (h : 0 ∉ s) :
    s.takeWhile (· ≠ 0) = s :=
  List.takeWhile_eq_self_iff.mpr fun c hc => by
    simpa using fun hzero : c = 0 => h (hzero ▸ hc)

/-- Zeros behind a string change nothing. -/
theorem takeWhile_append_zeros (cs : List Byte) (n : Nat) :
    (cs ++ List.replicate n 0).takeWhile (· ≠ 0) = cs.takeWhile (· ≠ 0) := by
  induction cs with
  | nil => cases n <;> rfl
  | cons c cs ih =>
      rw [List.cons_append, List.takeWhile_cons, List.takeWhile_cons, ih]

/-- The characters before the first NUL of an array that is followed by something else. -/
theorem holdsString_takeWhile_iff (bs beyond : List Byte) :
    HoldsString bs ((bs ++ beyond).takeWhile (· ≠ 0)) ↔ 0 ∈ bs := by
  unfold HoldsString
  rw [and_iff_right (zero_not_mem_takeWhile _)]
  induction bs with
  | nil => simp
  | cons b bs ih =>
      by_cases hb : b = 0
      · subst hb
        simp
      · rw [List.cons_append, List.takeWhile_cons_of_pos (by simpa using hb), List.cons_append,
          List.cons_prefix_cons, and_iff_right rfl, ih, List.mem_cons,
          or_iff_right (fun h => hb h.symm)]

/-- An array holds one string at most, which is what is before its first NUL. -/
theorem HoldsString.eq_takeWhile {bs s : List Byte} (h : HoldsString bs s) (beyond : List Byte) :
    (bs ++ beyond).takeWhile (· ≠ 0) = s := by
  obtain ⟨hnul, rest, rfl⟩ := h
  have hall := List.takeWhile_eq_self_iff.mp (takeWhile_eq_self_of_zero_not_mem hnul)
  rw [List.append_assoc, List.append_assoc, List.takeWhile_append_of_pos hall]
  simp

/-- What is behind the first NUL does not matter. -/
theorem takeWhile_append_of_zero_mem {bs : List Byte} (h : 0 ∈ bs) (beyond : List Byte) :
    (bs ++ beyond).takeWhile (· ≠ 0) = bs.takeWhile (· ≠ 0) := by
  have hends := ((holdsString_takeWhile_iff bs beyond).mpr h).eq_takeWhile []
  rw [← hends, List.append_nil]

theorem HoldsString.zero_mem {bs s : List Byte} (h : HoldsString bs s) : 0 ∈ bs := by
  obtain ⟨-, rest, rfl⟩ := h
  simp

/-! ## Copies -/

/-- What `strncpy(dst, src, n)` writes: `n` characters of the string at `src`, with zeros for those
it does not have. -/
def strncpyChars (src : List Byte) (n : Nat) : List Byte :=
  (src.takeWhile (· ≠ 0) ++ List.replicate n 0).take n

/-- `strncpy(dst, src, n)`. -/
def strncpy (dst : Mem) (src : List Byte) (n : Nat) : Mem := storeAt dst 0 (strncpyChars src n)

theorem length_strncpyChars (src : List Byte) (n : Nat) : (strncpyChars src n).length = n := by
  simp [strncpyChars]

/-- A copy is read back. -/
theorem load_strncpy (dst : Mem) (src : List Byte) (n : Nat) :
    load (strncpy dst src n) 0 n = strncpyChars src n := by
  have hload := load_storeAt dst 0 (strncpyChars src n)
  rwa [length_strncpyChars] at hload

/-- The characters that a copy writes. -/
theorem strncpy_eq (dst : Mem) {s : List Byte} (hnul : 0 ∉ s) (n : Nat) :
    strncpy dst s n = storeAt dst 0 (s.take n ++ List.replicate (n - s.length) 0) := by
  rw [strncpy, strncpyChars, takeWhile_eq_self_of_zero_not_mem hnul, List.take_append,
    List.take_replicate]
  congr 3
  omega

theorem holdsString_replicate {s : List Byte} (hnul : 0 ∉ s) (k : Nat) (bs : List Byte) :
    HoldsString (s ++ List.replicate k 0 ++ bs) s ↔ 0 < k ∨ bs.head? = some 0 := by
  unfold HoldsString
  rw [and_iff_right hnul, List.append_assoc, List.prefix_append_right_inj]
  cases k with
  | zero =>
      rw [List.replicate_zero, List.nil_append, or_iff_right (Nat.lt_irrefl 0)]
      cases bs with
      | nil => simp
      | cons b bs => rw [List.cons_prefix_cons, List.head?_cons, Option.some.injEq,
          and_iff_left List.nil_prefix, eq_comm]
  | succ k =>
      rw [List.replicate_succ, List.cons_append, List.cons_prefix_cons]
      exact iff_of_true ⟨rfl, List.nil_prefix⟩ (Or.inl (Nat.succ_pos k))

/-- A copy of `n` characters is a string in an array of `n + 1` if there was a NUL to copy, or one
was behind the copy before. -/
theorem holdsString_strncpy_iff (dst : Mem) {s : List Byte} (hnul : 0 ∉ s) (n : Nat) :
    HoldsString (load (strncpy dst s n) 0 (n + 1)) (s.take n) ↔ s.length < n ∨ dst n = 0 := by
  have hwritten : (s.take n ++ List.replicate (n - s.length) 0).length = n := by
    simp
    omega
  have hload := load_storeAt dst 0 (s.take n ++ List.replicate (n - s.length) 0)
  have hbehind : load (strncpy dst s n) n 1 = [dst n] := by
    rw [strncpy_eq dst hnul, load_congr fun i hi _ => storeAt_outside dst 0 _ i (Or.inr (by omega))]
    rfl
  rw [hwritten, ← strncpy_eq dst hnul] at hload
  rw [load_add, hload, Nat.zero_add, hbehind,
    holdsString_replicate (fun h => hnul (List.mem_of_mem_take h))]
  simp

/-- A copy with a NUL stored behind it. -/
theorem holdsString_strncpy_concat (dst : Mem) {s : List Byte} (hnul : 0 ∉ s) (n : Nat) :
    HoldsString (load (storeAt (strncpy dst s n) n [0]) 0 (n + 1)) (s.take n) := by
  have hwritten : (s.take n ++ List.replicate (n - s.length) 0).length = n := by
    simp
    omega
  have hstore := storeAt_append dst 0 (s.take n ++ List.replicate (n - s.length) 0) [0]
  have hload := load_storeAt dst 0 (s.take n ++ List.replicate (n - s.length) 0 ++ [0])
  rw [Nat.zero_add, hwritten, ← strncpy_eq dst hnul] at hstore
  rw [List.length_append, hwritten, List.length_singleton, ← hstore] at hload
  rw [hload, holdsString_replicate (fun h => hnul (List.mem_of_mem_take h))]
  exact Or.inr rfl

end BazelPro.C
