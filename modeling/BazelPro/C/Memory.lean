import Mathlib.Data.BitVec
import Mathlib.Data.List.Basic
import Mathlib.Tactic.IntervalCases

/-!
# Byte memory and little-endian words

A byte memory is a function from offsets to bytes, and `storeAt` is what a `memcpy` into it
does. Words are split into bytes in the order of a little-endian host: `bytes16` and `bytes32`
are the object representations that `memcpy` copies, `word16` and `word32` read them back.

The store algebra is small: what a store writes (`load_storeAt`), what it leaves alone
(`storeAt_outside`), and that two adjacent stores are one store (`storeAt_append`).
-/

namespace BazelPro.C

/-- The values of a C `char` object, without a commitment to its signedness. -/
abbrev Byte := BitVec 8

/-- A byte-addressed memory, or the contents of one array, by offset. -/
abbrev Mem := Nat → Byte

/-- The character constant `c` as a byte. -/
def chr (c : Char) : Byte := BitVec.ofNat 8 c.toNat

/-! ## Stores and loads -/

/-- The memory after `memcpy(&m[off], bs, bs.length)`. -/
def storeAt (m : Mem) (off : Nat) (bs : List Byte) : Mem :=
  fun i => if off ≤ i then (bs[i - off]?).getD (m i) else m i

/-- The `n` bytes at `off`. -/
def load (m : Mem) (off n : Nat) : List Byte := (List.range n).map fun i => m (off + i)

@[simp] theorem length_load (m : Mem) (off n : Nat) : (load m off n).length = n := by
  simp [load]

theorem load_ne_nil (m : Mem) (off : Nat) {n : Nat} (h : 0 < n) : load m off n ≠ [] :=
  List.length_pos_iff.mp (by rwa [length_load])

theorem getElem?_load (m : Mem) (off n i : Nat) (h : i < n) :
    (load m off n)[i]? = some (m (off + i)) := by
  simp [load, h]

theorem load_add (m : Mem) (off n k : Nat) :
    load m off (n + k) = load m off n ++ load m (off + n) k := by
  rw [load, load, load, List.range_add, List.map_append, List.map_map]
  congr 1
  exact List.map_congr_left fun i _ => congrArg m (Nat.add_assoc off n i).symm

theorem load_split (m : Mem) (off : Nat) {i n : Nat} (h : i ≤ n) :
    load m off n = load m off i ++ load m (off + i) (n - i) := by
  rw [← load_add, Nat.add_sub_cancel' h]

@[simp] theorem storeAt_nil (m : Mem) (off : Nat) : storeAt m off [] = m := by
  funext i
  simp [storeAt]

/-- A byte outside the written range is untouched. -/
theorem storeAt_outside (m : Mem) (off : Nat) (bs : List Byte) (i : Nat)
    (h : i < off ∨ off + bs.length ≤ i) : storeAt m off bs i = m i := by
  unfold storeAt
  split
  · rw [List.getElem?_eq_none (by omega)]
    rfl
  · rfl

/-- A byte inside the written range is the one that was written. -/
theorem storeAt_inside (m : Mem) (off : Nat) (bs : List Byte) (i : Nat) (h : i < bs.length) :
    storeAt m off bs (off + i) = bs[i] := by
  simp [storeAt, h]

/-- Where two memories agree, they agree after a store. -/
theorem storeAt_congr {m m' : Mem} {i : Nat} (h : m i = m' i) (off : Nat) (bs : List Byte) :
    storeAt m off bs i = storeAt m' off bs i := by
  rw [storeAt, storeAt, h]

/-- Storing a byte that is there already changes nothing. -/
theorem storeAt_self {m : Mem} {i : Nat} {b : Byte} (h : m i = b) : storeAt m i [b] = m := by
  funext j
  by_cases hj : j = i
  · subst hj
    exact (storeAt_inside m j [b] 0 Nat.one_pos).trans h.symm
  · exact storeAt_outside m i [b] j (by simp; omega)

/-- A store at the start of the memory, byte by byte. -/
theorem storeAt_zero (m : Mem) (bs : List Byte) (i : Nat) :
    storeAt m 0 bs i = (bs[i]?).getD (m i) := by
  simp [storeAt]

/-- Storing at the end of what was just stored is storing the concatenation. -/
theorem storeAt_append (m : Mem) (off : Nat) (bs cs : List Byte) :
    storeAt (storeAt m off bs) (off + bs.length) cs = storeAt m off (bs ++ cs) := by
  funext i
  -- below the second store, only the first one counts
  by_cases hlow : i < off + bs.length
  · rw [storeAt_outside _ _ _ _ (Or.inl hlow)]
    by_cases hoff : off ≤ i
    · obtain ⟨j, rfl⟩ := Nat.exists_eq_add_of_le hoff
      have hj : j < bs.length := by omega
      rw [storeAt_inside _ _ _ _ hj, storeAt_inside _ _ _ _ (by simp; omega),
        List.getElem_append_left hj]
    · rw [storeAt_outside _ _ _ _ (by omega), storeAt_outside _ _ _ _ (by omega)]
  · obtain ⟨j, rfl⟩ := Nat.exists_eq_add_of_le (Nat.le_of_not_lt hlow)
    by_cases hj : j < cs.length
    · rw [storeAt_inside _ _ _ _ hj, show off + bs.length + j = off + (bs.length + j) by omega,
        storeAt_inside _ _ _ _ (by simp; omega), List.getElem_append_right (by omega)]
      simp
    · rw [storeAt_outside _ _ _ _ (by omega), storeAt_outside _ _ _ _ (by omega),
        storeAt_outside _ _ _ _ (by simp; omega)]

/-- A later store over the end of an earlier one. -/
theorem storeAt_over (m : Mem) (off : Nat) (bs cs ds : List Byte) (h : cs.length ≤ ds.length) :
    storeAt (storeAt m off (bs ++ cs)) (off + bs.length) ds = storeAt m off (bs ++ ds) := by
  rw [← storeAt_append m off bs cs, ← storeAt_append m off bs ds]
  funext i
  by_cases hin : off + bs.length ≤ i ∧ i < off + bs.length + ds.length
  · obtain ⟨j, rfl⟩ := Nat.exists_eq_add_of_le hin.1
    have hj : j < ds.length := by omega
    rw [storeAt_inside _ _ _ _ hj, storeAt_inside _ _ _ _ hj]
  · rw [storeAt_outside _ _ ds _ (by omega), storeAt_outside _ _ ds _ (by omega),
      storeAt_outside _ _ cs _ (by omega)]

/-- Reading back what was stored. -/
theorem load_storeAt (m : Mem) (off : Nat) (bs : List Byte) :
    load (storeAt m off bs) off bs.length = bs := by
  apply List.ext_getElem?
  intro i
  by_cases hi : i < bs.length
  · rw [getElem?_load _ _ _ _ hi, storeAt_inside _ _ _ _ hi, List.getElem?_eq_getElem hi]
  · rw [List.getElem?_eq_none (by simpa using hi), List.getElem?_eq_none (by omega)]

/-- What is behind a store into cleared memory is zero. -/
theorem load_storeAt_zero (bs : List Byte) (n : Nat) (h : bs.length ≤ n) :
    load (storeAt (fun _ => 0) 0 bs) 0 n = bs ++ List.replicate (n - bs.length) 0 := by
  refine List.ext_getElem (by simp; omega) fun i hi _ => ?_
  have hin : i < n := by simpa using hi
  by_cases hlow : i < bs.length
  · simp [load, storeAt_zero, hlow]
  · simp [load, storeAt_zero, List.getElem_append_right (Nat.le_of_not_lt hlow),
      List.getElem?_eq_none (Nat.le_of_not_lt hlow)]

/-- A load depends only on the bytes it reads. -/
theorem load_congr {m m' : Mem} {off n : Nat} (h : ∀ i, off ≤ i → i < off + n → m i = m' i) :
    load m off n = load m' off n :=
  List.map_congr_left fun i hi => h (off + i) (by omega) (by simp at hi; omega)

/-- Reading part of what was stored. -/
theorem load_storeAt_sub (m : Mem) (off : Nat) (bs : List Byte) (i n : Nat)
    (h : i + n ≤ bs.length) :
    load (storeAt m off bs) (off + i) n = (bs.drop i).take n := by
  apply List.ext_getElem?
  intro j
  by_cases hj : j < n
  · rw [getElem?_load _ _ _ _ hj, Nat.add_assoc, storeAt_inside _ _ _ _ (by omega)]
    simp [hj, List.getElem?_drop, show i + j < bs.length by omega]
  · rw [List.getElem?_eq_none (by simpa using hj), List.getElem?_eq_none (by simp; omega)]

/-! ## Words -/

/-- The bytes of a 16-bit object, lowest address first. -/
def bytes16 (x : BitVec 16) : List Byte := [x.extractLsb' 0 8, x.extractLsb' 8 8]

/-- The bytes of a 32-bit object, lowest address first. -/
def bytes32 (x : BitVec 32) : List Byte :=
  [x.extractLsb' 0 8, x.extractLsb' 8 8, x.extractLsb' 16 8, x.extractLsb' 24 8]

/-- The 16-bit object at `off`. -/
def word16 (m : Mem) (off : Nat) : BitVec 16 := m (off + 1) ++ m off

/-- The 32-bit object at `off`. -/
def word32 (m : Mem) (off : Nat) : BitVec 32 :=
  (m (off + 3) ++ m (off + 2) ++ m (off + 1) ++ m off : BitVec (8 + 8 + 8 + 8))

/-- The 16-bit field at `off` in network order. -/
def be16 (m : Mem) (off : Nat) : BitVec 16 := m off ++ m (off + 1)

/-- The 32-bit field at `off` in network order. -/
def be32 (m : Mem) (off : Nat) : BitVec 32 :=
  (m off ++ m (off + 1) ++ m (off + 2) ++ m (off + 3) : BitVec (8 + 8 + 8 + 8))

@[simp] theorem length_bytes16 (x : BitVec 16) : (bytes16 x).length = 2 := rfl

@[simp] theorem length_bytes32 (x : BitVec 32) : (bytes32 x).length = 4 := rfl

/-- The bytes of a word that was put together from four bytes. -/
theorem bytes32_append (a b c d : Byte) :
    bytes32 (a ++ b ++ c ++ d : BitVec (8 + 8 + 8 + 8)) = [d, c, b, a] := by
  have hd : (a ++ b ++ c ++ d).extractLsb' 0 8 = d := BitVec.extractLsb'_append_eq_right
  have hc : (a ++ b ++ c ++ d).extractLsb' 8 8 = c := by
    rw [BitVec.extractLsb'_append_eq_of_le (by omega)]
    exact BitVec.extractLsb'_append_eq_right
  have hb : (a ++ b ++ c ++ d).extractLsb' 16 8 = b := by
    rw [BitVec.extractLsb'_append_eq_of_le (by omega),
      BitVec.extractLsb'_append_eq_of_le (by omega)]
    exact BitVec.extractLsb'_append_eq_right
  have ha : (a ++ b ++ c ++ d).extractLsb' 24 8 = a := by
    rw [BitVec.extractLsb'_append_eq_of_le (by omega),
      BitVec.extractLsb'_append_eq_of_le (by omega)]
    exact BitVec.extractLsb'_append_eq_left
  exact congrArg₂ List.cons hd (congrArg₂ List.cons hc (congrArg₂ List.cons hb
    (congrArg (fun x => [x]) ha)))

/-- Copying four bytes out and back in again changes none of them. -/
theorem bytes32_word32 (m : Mem) (off : Nat) : bytes32 (word32 m off) = load m off 4 := by
  simp [word32, bytes32_append, load, List.range_succ]

theorem bytes32_be32 (m : Mem) (off : Nat) : bytes32 (be32 m off) = (load m off 4).reverse := by
  simp [be32, bytes32_append, load, List.range_succ]

/-- A word is known by its bytes. -/
theorem bytes32_injective : Function.Injective bytes32 := by
  intro x y h
  simp only [bytes32, List.cons.injEq, and_true] at h
  obtain ⟨h0, h1, h2, h3⟩ := h
  have hbyte : ∀ k, k = 0 ∨ k = 8 ∨ k = 16 ∨ k = 24 → x.extractLsb' k 8 = y.extractLsb' k 8 := by
    rintro k (rfl | rfl | rfl | rfl) <;> assumption
  refine BitVec.eq_of_getLsbD_eq fun i hi => ?_
  have := congrArg (·.getLsbD (i % 8)) (hbyte (i / 8 * 8) (by omega))
  have hlt : i % 8 < 8 := Nat.mod_lt i (by decide)
  simpa [BitVec.getLsbD_extractLsb', hlt, Nat.div_add_mod'] using this

/-- Reading back a word that was stored among other bytes. -/
theorem word32_storeAt (m : Mem) (bs cs : List Byte) (x : BitVec 32) :
    word32 (storeAt m 0 (bs ++ bytes32 x ++ cs)) bs.length = x := by
  refine bytes32_injective ?_
  have hload := load_storeAt_sub m 0 (bs ++ (bytes32 x ++ cs)) bs.length 4 (by simp)
  rw [Nat.zero_add, List.drop_left] at hload
  rw [bytes32_word32, List.append_assoc, hload]
  exact List.take_left' (length_bytes32 x)

end BazelPro.C
