import BazelPro.Utils.DumpText

/-!
# Reading a dump back

The text of a dump determines its bytes (`readDump_dumpText`). The reader skips the offset of a
row and reads its hex column. The width of the column of characters behind it is known by then, as
it is printed up to the first zero byte; whatever these characters are, the reader does not look
at them.
-/

namespace BazelPro.Utils

open C

/-- Reads the hex columns of at most `n` rows. -/
def readRows : Nat → List Byte → List Byte
  | 0, _ => []
  | n + 1, text =>
      let (bytes, rest) := readHex 16 (text.drop 10)
      if bytes.length < 16 then bytes
      else bytes ++ readRows n (rest.drop (2 + (bytes.takeWhile (· ≠ 0)).length + 2))

/-- The bytes of a dump. -/
def readDump (text : List Byte) : List Byte := readRows text.length text

variable {j : Nat} {bytes : List Byte}

theorem readRows_nil (n : Nat) : readRows n [] = [] := by
  cases n <;> rfl

/-- What is behind the hex column of a row begins with a space. -/
theorem rowText_eq (j : Nat) (bytes : List Byte) :
    ∃ text, rowText j bytes = unsignedField zeroFlag 8 none .x j ++ [chr ' ', chr ' '] ++
        (hexColumn bytes ++ chr ' ' :: (text ++ [chr '\n'])) ∧
      (bytes.length = 16 → text = [chr '|'] ++ bytes.takeWhile (· ≠ 0) ++ [chr '|']) := by
  have hascii : bytes.length = 16 → rowAscii j bytes = bytes.takeWhile (· ≠ 0) := fun h => by
    rw [rowAscii, h, Nat.sub_self, List.replicate_zero, ite_self, List.append_nil]
  have hhex : ∃ k, rowHex j bytes = hexColumn bytes ++ List.replicate k (chr ' ') ∧
      (bytes.length = 16 → k = 0) := by
    rw [rowHex]
    split
    · exact ⟨0, rfl, fun _ => rfl⟩
    · exact ⟨_, rfl, fun h => by rw [h]⟩
  obtain ⟨k, hhex, hk⟩ := hhex
  rw [rowText, hhex]
  cases k with
  | zero =>
      refine ⟨[chr '|'] ++ rowAscii j bytes ++ [chr '|'], ?_, fun h => by rw [hascii h]⟩
      simp
  | succ k =>
      refine ⟨List.replicate k (chr ' ') ++ ([chr ' ', chr '|'] ++ rowAscii j bytes ++ [chr '|']),
        ?_, fun h => absurd (hk h) (Nat.succ_ne_zero k)⟩
      simp [List.replicate_succ]

/-- The hex column of a row is read. -/
theorem readHex_row (hj : j < 16 ^ 8) (hlen : bytes.length ≤ 16) (text : List Byte) :
    readHex 16 ((unsignedField zeroFlag 8 none .x j ++ [chr ' ', chr ' '] ++
      (hexColumn bytes ++ chr ' ' :: text)).drop 10) = (bytes, chr ' ' :: text) := by
  have hoffset := length_unsignedField_zeroFlag (by decide) hj
  rw [List.drop_left' (by rw [List.length_append, hoffset]; rfl)]
  exact readHex_hexColumn hlen (Or.inr ⟨_, text, rfl, by decide⟩)

/-- A full row is read, and the reader stands behind it. -/
theorem readRows_full (n : Nat) (hj : j < 16 ^ 8) (hlen : bytes.length = 16) (text : List Byte) :
    readRows (n + 1) (rowText j bytes ++ text) = bytes ++ readRows n text := by
  obtain ⟨tail, htext, htail⟩ := rowText_eq j bytes
  have hread := readHex_row hj hlen.le (tail ++ [chr '\n'] ++ text)
  have hrow : rowText j bytes ++ text = unsignedField zeroFlag 8 none .x j ++ [chr ' ', chr ' '] ++
      (hexColumn bytes ++ chr ' ' :: (tail ++ [chr '\n'] ++ text)) := by
    rw [htext]
    simp
  have hskip : (chr ' ' :: (tail ++ [chr '\n'])).length =
      2 + (bytes.takeWhile (· ≠ 0)).length + 2 := by
    rw [htail hlen]
    simp only [List.length_cons, List.length_append, List.length_nil]
    omega
  rw [readRows, hrow, hread]
  refine (if_neg (by omega)).trans ?_
  rw [← List.cons_append, List.drop_left' hskip]

/-- The last row is read, without its line break. -/
theorem readRows_last (n : Nat) (hj : j < 16 ^ 8) (hlen : bytes.length ≤ 16) :
    readRows (n + 1) (rowText j bytes).dropLast = bytes := by
  obtain ⟨tail, htext, htail⟩ := rowText_eq j bytes
  have hread := readHex_row hj hlen tail
  have hrow : (rowText j bytes).dropLast = unsignedField zeroFlag 8 none .x j ++
      [chr ' ', chr ' '] ++ (hexColumn bytes ++ chr ' ' :: tail) := by
    rw [htext, ← List.cons_append, ← List.append_assoc (hexColumn bytes), ← List.append_assoc,
      List.dropLast_concat]
  rw [readRows, hrow, hread]
  rcases hlen.lt_or_eq with hlt | heq
  · exact if_pos hlt
  · have hskip : (chr ' ' :: tail).length ≤ 2 + (bytes.takeWhile (· ≠ 0)).length + 2 := by
      rw [htail heq]
      simp only [List.length_cons, List.length_append, List.length_nil]
      omega
    refine (if_neg (by omega)).trans ?_
    rw [List.drop_of_length_le hskip, readRows_nil, List.append_nil]

theorem rowBytes_append_drop (data : List Byte) (j : Nat) :
    rowBytes data j ++ data.drop (16 * (j + 1)) = data.drop (16 * j) := by
  rw [rowBytes, Nat.mul_succ, ← List.drop_drop, List.take_append_drop]

theorem rowsText_ne_nil (data : List Byte) (j k : Nat) : rowsText data j (k + 1) ≠ [] := by
  rw [rowsText_succ, rowText]
  simp

/-- The rows from one on are read. -/
theorem readRows_rowsText {data : List Byte} {n k : Nat} (hk : 0 < k)
    (hend : j + k = rowCount data.length) (hn : k ≤ n) (hsize : rowCount data.length ≤ 16 ^ 8) :
    readRows n (rowsText data j k).dropLast = data.drop (16 * j) := by
  rw [rowCount] at hend hsize
  induction k generalizing j n with
  | zero => exact absurd hk (Nat.lt_irrefl 0)
  | succ k ih =>
      obtain ⟨n, rfl⟩ := Nat.exists_eq_succ_of_ne_zero (n := n) (by omega)
      have hsplit := rowBytes_append_drop data j
      rw [rowsText_succ]
      cases k with
      | zero =>
          have hrest : data.drop (16 * (j + 1)) = [] := List.drop_of_length_le (by omega)
          rw [hrest, List.append_nil] at hsplit
          rw [← hsplit]
          refine (congrArg (readRows (n + 1)) ?_).trans
            (readRows_last n (j := j) (by omega) (length_rowBytes_le data j))
          exact congrArg List.dropLast (List.append_nil _)
      | succ k =>
          have hfull : (rowBytes data j).length = 16 := by
            rw [rowBytes, List.length_take, List.length_drop]
            omega
          rw [List.dropLast_append_of_ne_nil (rowsText_ne_nil data (j + 1) k),
            readRows_full n (by omega) hfull, ih (Nat.succ_pos k) (by omega) (by omega), hsplit]

theorem le_length_rowsText (data : List Byte) (j k : Nat) :
    2 * k ≤ (rowsText data j k).length := by
  induction k generalizing j with
  | zero => exact Nat.zero_le _
  | succ k ih =>
      have := ih (j + 1)
      rw [rowsText_succ, List.length_append, rowText]
      simp only [List.length_append, List.length_cons]
      omega

/-- The reader is a left inverse of the dump. -/
theorem readDump_dumpText {data : List Byte} (hdata : data ≠ [])
    (hsize : rowCount data.length ≤ 16 ^ 8) : readDump (dumpText data) = data := by
  have hpos := rowCount_pos (List.length_pos_iff.mpr hdata)
  have hfuel := le_length_rowsText data 0 (rowCount data.length)
  rw [rowsText_eq_dumpText hdata, List.length_append, List.length_singleton] at hfuel
  exact readRows_rowsText hpos (Nat.zero_add _) (by omega) hsize

/-- The block of a call that returned one. -/
theorem eq_dumpBlock {calloc : Nat → Bool} {myStr : Mem} {len : Nat} {size : Int} {line : Block}
    (hlen : 0 < len) (hsize : rowCount len * 128 < 2 ^ 31)
    (h : _hexdump calloc (some myStr) (BitVec.ofNat 64 len) = some (some (size, line))) :
    line = dumpBlock (load myStr 0 len) := by
  rw [hexdump_eq calloc myStr hlen hsize] at h
  split at h
  · exact (congrArg Prod.snd (Option.some.inj (Option.some.inj h))).symm
  · exact nomatch Option.some.inj h

/-- `_hexdump` stores inside its block, which it leaves as one string, and the string is the dump
of no other bytes. -/
theorem hexdump_readback (calloc : Nat → Bool) (myStr : Mem) (len : Nat) (hlen : 0 < len)
    (hsize : rowCount len * 128 < 2 ^ 31) :
    (calloc (rowCount len * 128) = false →
      _hexdump calloc (some myStr) (BitVec.ofNat 64 len) = some none) ∧
    (calloc (rowCount len * 128) = true → ∃ line text,
      _hexdump calloc (some myStr) (BitVec.ofNat 64 len) =
        some (some ((rowCount len : Int) * 128, line)) ∧
      line.size = rowCount len * 128 ∧
      0 ∉ text ∧ text.length < line.size ∧ line.bytes = storeAt (fun _ => 0) 0 text ∧
      line.string = some text ∧ readDump text = load myStr 0 len ∧
      ∀ calloc' myStr' len' size' line', 0 < len' → rowCount len' * 128 < 2 ^ 31 →
        _hexdump calloc' (some myStr') (BitVec.ofNat 64 len') = some (some (size', line')) →
        line'.string = line.string → load myStr' 0 len' = load myStr 0 len) := by
  have hdata := load_ne_nil myStr 0 hlen
  have hrows : rowCount (load myStr 0 len).length * 128 < 2 ^ 31 := by rwa [length_load]
  have heq := hexdump_eq calloc myStr hlen hsize
  refine ⟨fun hfail => heq.trans (if_neg (by simp [hfail])), fun halloc => ?_⟩
  refine ⟨dumpBlock (load myStr 0 len), dumpText (load myStr 0 len), heq.trans (if_pos halloc), ?_,
    zero_not_mem_dumpText _, length_dumpText_lt hdata hrows, rfl, string_dumpBlock hdata hrows,
    readDump_dumpText hdata (by omega), ?_⟩
  · rw [dumpBlock, length_load, lineSize]
  · intro calloc' myStr' len' size' line' hlen' hsize' hline' hstring
    have hdata' := load_ne_nil myStr' 0 hlen'
    have hrows' : rowCount (load myStr' 0 len').length * 128 < 2 ^ 31 := by rwa [length_load]
    rw [eq_dumpBlock hlen' hsize' hline', string_dumpBlock hdata' hrows',
      string_dumpBlock hdata hrows] at hstring
    rw [← readDump_dumpText hdata' (by omega), Option.some.inj hstring,
      readDump_dumpText hdata (by omega)]

theorem hexdump_readback_two_rows :
    ∃ line text,
      _hexdump (fun _ => true) (some fun i => BitVec.ofNat 8 (i + 240)) (BitVec.ofNat 64 18) =
        some (some (256, line)) ∧
      line.string = some text ∧
      readDump text = load (fun i => BitVec.ofNat 8 (i + 240)) 0 18 := by
  obtain ⟨line, text, heq, -, -, -, -, hstring, hread, -⟩ :=
    (hexdump_readback (fun _ => true) (fun i => BitVec.ofNat 8 (i + 240)) 18 (by decide)
      (by decide)).2 rfl
  exact ⟨line, text, heq, hstring, hread⟩

end BazelPro.Utils
