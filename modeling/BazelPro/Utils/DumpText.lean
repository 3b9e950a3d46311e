import BazelPro.C.Int32
import BazelPro.C.Strings
import BazelPro.Utils.Dump

/-!
# The text of a dump

What `_hexdump` prints into its block (`hexdump_eq`): one row of text for each 16 bytes, with the
last line break replaced by the terminator. A row is at most 78 characters long, so that the rows
never fill their 128 bytes.
-/

namespace BazelPro.Utils

open C

/-- The number of rows for `len` bytes. -/
def rowCount (len : Nat) : Nat := (len + 15) / 16

/-- The bytes of the row `j`. -/
def rowBytes (data : List Byte) (j : Nat) : List Byte := (data.drop (16 * j)).take 16

/-- The hex column of a row. A row that is not the first one is filled up with spaces. -/
def rowHex (j : Nat) (bytes : List Byte) : List Byte :=
  hexColumn bytes ++
    if j = 0 then [] else List.replicate (3 * (16 - bytes.length)) (chr ' ')

/-- The characters of a row: its bytes up to the first zero, filled up with spaces likewise. -/
def rowAscii (j : Nat) (bytes : List Byte) : List Byte :=
  (bytes ++ if j = 0 then [] else List.replicate (16 - bytes.length) (chr ' ')).takeWhile (· ≠ 0)

/-- The text of a row. -/
def rowText (j : Nat) (bytes : List Byte) : List Byte :=
  unsignedField zeroFlag 8 none .x j ++ [chr ' ', chr ' '] ++ rowHex j bytes ++
    ([chr ' ', chr '|'] ++ rowAscii j bytes ++ [chr '|', chr '\n'])

/-- The text of `k` rows, from the row `j` on. -/
def rowsText (data : List Byte) (j k : Nat) : List Byte :=
  (List.range' j k).flatMap fun j => rowText j (rowBytes data j)

/-- The text of the dump. -/
def dumpText (data : List Byte) : List Byte :=
  (rowsText data 0 (rowCount data.length)).dropLast

/-! ## Lengths -/

theorem length_rowBytes_le (data : List Byte) (j : Nat) : (rowBytes data j).length ≤ 16 :=
  List.length_take_le _ _

theorem length_rowHex_le (j : Nat) {bytes : List Byte} (h : bytes.length ≤ 16) :
    (rowHex j bytes).length ≤ 48 := by
  rw [rowHex, List.length_append, length_hexColumn]
  split
  · rw [List.length_nil]
    omega
  · rw [List.length_replicate]
    omega

theorem length_rowAscii_le (j : Nat) {bytes : List Byte} (h : bytes.length ≤ 16) :
    (rowAscii j bytes).length ≤ 16 := by
  refine ((List.takeWhile_sublist _).length_le).trans ?_
  rw [List.length_append]
  split
  · exact h
  · rw [List.length_replicate]
    omega

theorem length_rowText_le {j : Nat} (hj : j < 16 ^ 8) {bytes : List Byte}
    (h : bytes.length ≤ 16) : (rowText j bytes).length ≤ 78 := by
  have hhex := length_rowHex_le j h
  have hascii := length_rowAscii_le j h
  have hoffset := length_unsignedField_zeroFlag (by decide) hj
  simp only [rowText, List.length_append, hoffset, List.length_cons, List.length_nil]
  omega

theorem rowsText_succ (data : List Byte) (j k : Nat) :
    rowsText data j (k + 1) = rowText j (rowBytes data j) ++ rowsText data (j + 1) k := rfl

theorem rowsText_concat (data : List Byte) (k : Nat) :
    rowsText data 0 (k + 1) = rowsText data 0 k ++ rowText k (rowBytes data k) := by
  rw [rowsText, List.range'_1_concat, List.flatMap_append, Nat.zero_add]
  simp [rowsText]

theorem length_rowsText_le (data : List Byte) {k : Nat} (hk : k ≤ 16 ^ 8) :
    (rowsText data 0 k).length ≤ 78 * k := by
  induction k with
  | zero => exact Nat.le_refl 0
  | succ k ih =>
      have hrow := length_rowText_le (j := k) hk (length_rowBytes_le data k)
      have := ih (Nat.le_of_succ_le hk)
      rw [rowsText_concat, List.length_append]
      omega

/-! ## The rows -/

/-- The loops after they have printed `text` into a cleared block. -/
def written (size : Nat) (text : List Byte) (buf : Mem) : Dump :=
  ⟨⟨size, storeAt (fun _ => 0) 0 text⟩, text.length, buf⟩

/-- A terminator changes nothing in a cleared block. -/
theorem storeAt_concat_zero (text : List Byte) :
    storeAt (fun _ => 0) 0 (text ++ [0]) = storeAt (fun _ => 0) 0 text := by
  funext i
  rw [storeAt_zero, storeAt_zero, List.getElem?_append]
  split
  · rfl
  · next hge =>
    rw [List.getElem?_eq_none (l := text) (Nat.le_of_not_lt hge), List.getElem?_singleton]
    split <;> rfl

theorem print_written {size : Nat} {text more : List Byte} (buf : Mem)
    (hsize : text.length + more.length < size) (hint : size ≤ 2 ^ 31) :
    (written size text buf).print more = some (written size (text ++ more) buf) := by
  have hstore : (written size text buf).line.store text.length (more ++ [0]) =
      some ⟨size, storeAt (fun _ => 0) 0 (text ++ more)⟩ := by
    have hfit : text.length + (more ++ [0]).length ≤ size := by
      rw [List.length_append]
      exact hsize
    have hbytes := storeAt_append (fun _ => 0) 0 text (more ++ [0])
    rw [Nat.zero_add, ← List.append_assoc, storeAt_concat_zero] at hbytes
    rw [Block.store, written, if_pos hfit]
    exact congrArg (fun bytes => some (Block.mk size bytes)) hbytes
  have hlt : (written size text buf).lineIte + more.length < 2 ^ 31 := by
    show text.length + more.length < 2 ^ 31
    omega
  rw [Dump.print, if_pos hlt]
  refine Option.bind_eq_some_iff.mpr ⟨_, hstore, ?_⟩
  rw [written, written, List.length_append]
  rfl

/-- The hex column after `i` rounds of the inner loop. -/
def hexTo (j : Nat) (bytes : List Byte) (i : Nat) : List Byte :=
  hexColumn (bytes.take i) ++
    if j = 0 then [] else List.replicate (3 * (i - bytes.length)) (chr ' ')

/-- The row buffer after `i` rounds of the inner loop. -/
def asciiTo (j : Nat) (bytes : List Byte) (i : Nat) : List Byte :=
  bytes.take i ++ if j = 0 then [] else List.replicate (i - bytes.length) (chr ' ')

variable {j i : Nat} {bytes : List Byte}

theorem length_hexTo_le (j : Nat) (bytes : List Byte) (i : Nat) :
    (hexTo j bytes i).length ≤ 3 * i := by
  rw [hexTo, List.length_append, length_hexColumn, List.length_take]
  split
  · rw [List.length_nil]
    omega
  · rw [List.length_replicate]
    omega

theorem length_asciiTo_le (j : Nat) (h : bytes.length ≤ 16) :
    (asciiTo j bytes 16).length ≤ 16 := by
  rw [asciiTo, List.length_append, List.length_take]
  split
  · rw [List.length_nil]
    omega
  · rw [List.length_replicate]
    omega

theorem hexTo_succ_of_lt (h : i < bytes.length) :
    hexTo j bytes (i + 1) = hexTo j bytes i ++ (hexPair bytes[i] ++ [chr ' ']) := by
  have hcount : i + 1 - bytes.length = 0 ∧ i - bytes.length = 0 := by omega
  rw [hexTo, hexTo, List.take_succ_eq_append_getElem h, hexColumn_append, hcount.1, hcount.2]
  simp [hexColumn]

theorem hexTo_succ_of_ge (h : bytes.length ≤ i) (hj : j ≠ 0) :
    hexTo j bytes (i + 1) = hexTo j bytes i ++ [chr ' ', chr ' ', chr ' '] := by
  have hcount : 3 * (i + 1 - bytes.length) = 3 * (i - bytes.length) + 3 := by omega
  rw [hexTo, hexTo, if_neg hj, if_neg hj, hcount, List.replicate_add, List.append_assoc,
    List.take_of_length_le h, List.take_of_length_le (h.trans (Nat.le_succ i))]
  rfl

theorem asciiTo_succ_of_lt (h : i < bytes.length) :
    asciiTo j bytes (i + 1) = asciiTo j bytes i ++ [bytes[i]] ∧
      (asciiTo j bytes i).length = i := by
  have hcount : i + 1 - bytes.length = 0 ∧ i - bytes.length = 0 := by omega
  rw [asciiTo, asciiTo, List.take_succ_eq_append_getElem h, hcount.1, hcount.2]
  simp [Nat.le_of_lt h]

theorem asciiTo_succ_of_ge (h : bytes.length ≤ i) (hj : j ≠ 0) :
    asciiTo j bytes (i + 1) = asciiTo j bytes i ++ [chr ' '] ∧
      (asciiTo j bytes i).length = i := by
  have hcount : i + 1 - bytes.length = i - bytes.length + 1 := by omega
  rw [asciiTo, asciiTo, if_neg hj, if_neg hj, hcount, List.replicate_add, ← List.append_assoc,
    List.take_of_length_le h, List.take_of_length_le (h.trans (Nat.le_succ i))]
  simp [h]

/-- The first row is not filled up. -/
theorem hexTo_zero_succ (h : bytes.length ≤ i) :
    hexTo 0 bytes (i + 1) = hexTo 0 bytes i ∧ asciiTo 0 bytes (i + 1) = asciiTo 0 bytes i := by
  rw [hexTo, hexTo, asciiTo, asciiTo, List.take_of_length_le h,
    List.take_of_length_le (h.trans (Nat.le_succ i))]
  exact ⟨rfl, rfl⟩

variable {myStr : Mem} {len size : Nat} {text : List Byte} {buf : Mem}

theorem getElem?_rowBytes (h : i < 16) :
    (rowBytes (load myStr 0 len) j)[i]? =
      if i + 16 * j < len then some (myStr (i + 16 * j)) else none := by
  rw [rowBytes, List.getElem?_take_of_lt h, List.getElem?_drop, Nat.add_comm]
  split
  · next hlt => rw [getElem?_load _ _ _ _ hlt, Nat.zero_add]
  · next hge => exact List.getElem?_eq_none (by simpa using hge)

/-- Each round prints three characters. -/
theorem print_hexTo (hi : i < 16) (hroom : text.length + 48 < size) (hint : size ≤ 2 ^ 31)
    {more : List Byte} (hmore : more.length = 3) :
    (written size (text ++ hexTo j bytes i) buf).print more =
      some (written size (text ++ (hexTo j bytes i ++ more)) buf) := by
  have hhex := length_hexTo_le j bytes i
  rw [← List.append_assoc]
  refine print_written buf ?_ hint
  rw [List.length_append, hmore]
  omega

/-- Each round stores one character. -/
theorem storeAt_asciiTo (buf : Mem) (hlen : (asciiTo j bytes i).length = i) (c : Byte) :
    storeAt (storeAt buf 0 (asciiTo j bytes i)) i [c] =
      storeAt buf 0 (asciiTo j bytes i ++ [c]) := by
  have := storeAt_append buf 0 (asciiTo j bytes i) [c]
  rwa [Nat.zero_add, hlen] at this

/-- One round of the inner loop. -/
theorem column_written (hi : i < 16) (hroom : text.length + 48 < size) (hint : size ≤ 2 ^ 31)
    (hbytes : rowBytes (load myStr 0 len) j = bytes) :
    (written size (text ++ hexTo j bytes i) (storeAt buf 0 (asciiTo j bytes i))).column
        myStr len j (16 * j) i =
      some (written size (text ++ hexTo j bytes (i + 1))
        (storeAt buf 0 (asciiTo j bytes (i + 1)))) := by
  have hlook := @getElem?_rowBytes j i myStr len hi
  rw [hbytes] at hlook
  by_cases hin : i + 16 * j < len
  · rw [if_pos hin] at hlook
    obtain ⟨hlt, hget⟩ := List.getElem?_eq_some_iff.mp hlook
    obtain ⟨hascii, hlen⟩ := asciiTo_succ_of_lt (j := j) hlt
    rw [Dump.column, if_pos hin, ← hget, unsignedField_hexPair, print_hexTo hi hroom hint rfl,
      hexTo_succ_of_lt hlt, hascii, ← storeAt_asciiTo buf hlen]
    rfl
  · rw [if_neg hin] at hlook
    have hge := List.getElem?_eq_none_iff.mp hlook
    by_cases hj : j = 0
    · subst hj
      obtain ⟨hhexTo, hascii⟩ := hexTo_zero_succ hge
      rw [Dump.column, if_neg hin, if_neg (by simp), hhexTo, hascii]
    · obtain ⟨hascii, hlen⟩ := asciiTo_succ_of_ge hge hj
      rw [Dump.column, if_neg hin, if_pos hj, print_hexTo hi hroom hint rfl,
        hexTo_succ_of_ge hge hj, hascii, ← storeAt_asciiTo buf hlen]
      rfl

/-- The inner loop. -/
theorem columns_written (hroom : text.length + 48 < size) (hint : size ≤ 2 ^ 31)
    (hbytes : rowBytes (load myStr 0 len) j = bytes) :
    (List.range 16).foldlM (Dump.column myStr len j (16 * j)) (written size text buf) =
      some (written size (text ++ rowHex j bytes) (storeAt buf 0 (asciiTo j bytes 16))) := by
  have hrun : ∀ n ≤ 16, (List.range n).foldlM (Dump.column myStr len j (16 * j))
      (written size text buf) =
        some (written size (text ++ hexTo j bytes n) (storeAt buf 0 (asciiTo j bytes n))) := by
    intro n hn
    induction n with
    | zero => simp [hexTo, asciiTo]
    | succ n ih =>
        rw [List.range_succ, List.foldlM_append, ih (Nat.le_of_succ_le hn)]
        refine Option.bind_eq_some_iff.mpr ⟨_, rfl, ?_⟩
        refine Option.bind_eq_some_iff.mpr ⟨_, column_written hn hroom hint hbytes, rfl⟩
  have hlen : bytes.length ≤ 16 := hbytes ▸ length_rowBytes_le _ j
  rw [hrun 16 (Nat.le_refl 16), hexTo, List.take_of_length_le hlen]
  rfl

/-- What `%s` prints of the row buffer. -/
theorem takeWhile_load_buf (hlen : bytes.length ≤ 16) (hfirst : j = 0 → buf = fun _ => 0)
    (hlast : buf 16 = 0) :
    (load (storeAt buf 0 (asciiTo j bytes 16)) 0 17).takeWhile (· ≠ 0) = rowAscii j bytes := by
  have hascii : asciiTo j bytes 16 =
      bytes ++ if j = 0 then [] else List.replicate (16 - bytes.length) (chr ' ') := by
    rw [asciiTo, List.take_of_length_le hlen]
  rw [rowAscii, ← hascii]
  by_cases hj : j = 0
  · rw [hfirst hj, load_storeAt_zero, takeWhile_append_zeros]
    rw [hascii, if_pos hj, List.append_nil]
    omega
  · have hfull : (asciiTo j bytes 16).length = 16 := by
      rw [hascii, if_neg hj, List.length_append, List.length_replicate]
      omega
    have hfront := load_storeAt buf 0 (asciiTo j bytes 16)
    rw [hfull] at hfront
    have hback : load (storeAt buf 0 (asciiTo j bytes 16)) 16 1 = [0] := by
      rw [load_congr fun i hi _ => storeAt_outside buf 0 _ i (Or.inr (by omega))]
      exact congrArg (fun c => [c]) hlast
    rw [load_add _ 0 16 1, hfront, hback]
    exact takeWhile_append_zeros _ 1

/-- One round of the outer loop. -/
theorem row_written (myStr : Mem) (len : Nat) (hj : j < 16 ^ 8)
    (hroom : text.length + 78 < size) (hint : size ≤ 2 ^ 31)
    (hfirst : j = 0 → buf = fun _ => 0) (hlast : buf 16 = 0) :
    ∃ buf', buf' 16 = 0 ∧ (written size text buf).row myStr len j =
      some (written size (text ++ rowText j (rowBytes (load myStr 0 len) j)) buf') := by
  have hlen := length_rowBytes_le (load myStr 0 len) j
  generalize hbytes : rowBytes (load myStr 0 len) j = bytes at hlen
  have hoffset := length_unsignedField_zeroFlag (by decide) hj
  have hhex := length_rowHex_le j hlen
  have hascii := length_rowAscii_le j hlen
  refine ⟨storeAt buf 0 (asciiTo j bytes 16), ?_, ?_⟩
  · have hfit := length_asciiTo_le j hlen
    rw [storeAt_outside buf 0 _ 16 (Or.inr (by omega)), hlast]
  · refine Option.bind_eq_some_iff.mpr ⟨_, print_written buf ?_ hint,
      Option.bind_eq_some_iff.mpr ⟨_, columns_written ?_ hint hbytes, ?_⟩⟩
    · rw [List.length_append, hoffset, List.length_cons, List.length_cons, List.length_nil]
      omega
    · rw [List.length_append, List.length_append, hoffset, List.length_cons, List.length_cons,
        List.length_nil]
      omega
    · show (written size _ (storeAt buf 0 (asciiTo j bytes 16))).print (_ ++
        (load (storeAt buf 0 (asciiTo j bytes 16)) 0 17).takeWhile (· ≠ 0) ++ _) = _
      rw [takeWhile_load_buf hlen hfirst hlast, print_written _ ?_ hint]
      · simp only [rowText, List.append_assoc]
      · simp only [List.length_append, hoffset, List.length_cons, List.length_nil]
        omega

/-- The outer loop. -/
theorem rows_written (myStr : Mem) (len : Nat) {n k : Nat} (hn : n * 128 ≤ 2 ^ 31) (hk : k ≤ n) :
    ∃ buf, buf 16 = 0 ∧ (k = 0 → buf = fun _ => 0) ∧
      (List.range k).foldlM (Dump.row myStr len) (written (n * 128) [] fun _ => 0) =
        some (written (n * 128) (rowsText (load myStr 0 len) 0 k) buf) := by
  induction k with
  | zero => exact ⟨fun _ => 0, rfl, fun _ => rfl, rfl⟩
  | succ k ih =>
      obtain ⟨buf, hlast, hfirst, hrun⟩ := ih (Nat.le_of_succ_le hk)
      have hlen := length_rowsText_le (load myStr 0 len) (k := k) (by omega)
      obtain ⟨buf', hlast', hrow⟩ := row_written myStr len (j := k) (by omega)
        (show (rowsText (load myStr 0 len) 0 k).length + 78 < n * 128 by omega) hn hfirst hlast
      refine ⟨buf', hlast', fun h => absurd h (Nat.succ_ne_zero k), ?_⟩
      rw [List.range_succ, List.foldlM_append, hrun, rowsText_concat]
      exact Option.bind_eq_some_iff.mpr ⟨_, rfl, Option.bind_eq_some_iff.mpr ⟨_, hrow, rfl⟩⟩

/-! ## The whole dump -/

/-- The last character of a row is a line break, which the terminator replaces. -/
theorem rowsText_eq_dumpText {data : List Byte} (hlen : data ≠ []) :
    rowsText data 0 (rowCount data.length) = dumpText data ++ [chr '\n'] := by
  have hpos := List.length_pos_iff.mpr hlen
  obtain ⟨k, hk⟩ := Nat.exists_eq_succ_of_ne_zero (n := rowCount data.length)
    (by rw [rowCount]; omega)
  rw [dumpText, hk, rowsText_concat, rowText, ← List.append_assoc, ← List.append_assoc,
    List.append_cons _ (chr '|'), ← List.append_assoc, List.dropLast_concat]

theorem le_mul_rowCount (len : Nat) : len ≤ 16 * rowCount len := by
  rw [rowCount]
  omega

theorem rowCount_pos {len : Nat} (h : 0 < len) : 0 < rowCount len := by
  rw [rowCount]
  omega

/-- The number of lines is the number of rows, unless it does not fit into an `int`. -/
theorem lineNbr_ofNat {len : Nat} (h : rowCount len < 2 ^ 31) :
    lineNbr (BitVec.ofNat 64 len) = BitVec.ofNat 32 (rowCount len) := by
  have hle := le_mul_rowCount len
  have hlen : (BitVec.ofNat 64 len).toNat = len := by
    rw [BitVec.toNat_ofNat]
    omega
  apply BitVec.eq_of_toNat_eq
  rw [lineNbr, BitVec.toNat_ofNat, Nat.mod_eq_of_lt (by omega : rowCount len < 2 ^ 32)]
  have hmod : BitVec.ofNat 64 len % 16 = 0 ↔ len % 16 = 0 := by
    rw [← BitVec.toNat_inj, BitVec.toNat_umod, hlen]
    rfl
  have hdiv : (BitVec.ofNat 64 len / 16).toNat = len / 16 := by
    rw [BitVec.toNat_udiv, hlen]
    rfl
  rw [rowCount] at h ⊢
  split
  · next hzero =>
    have := hmod.mp hzero
    rw [BitVec.toNat_setWidth, hdiv]
    omega
  · next hne =>
    have := mt hmod.mpr hne
    rw [BitVec.toNat_setWidth, BitVec.toNat_add, hdiv, show (1 : BitVec 64).toNat = 1 from rfl]
    omega

theorem toNat_signExtend_of_lt {n : Nat} (h : n < 2 ^ 31) :
    ((BitVec.ofNat 32 n).signExtend 64).toNat = n := by
  have hint : ((BitVec.ofNat 32 n).signExtend 64).toInt = n := by
    rw [BitVec.toInt_signExtend_of_le (by decide), toInt_ofNat_of_lt h]
  rw [BitVec.toInt_eq_toNat_cond] at hint
  split at hint <;> omega

/-- The last store of `_hexdump`. -/
theorem store_last {size : Nat} {text : List Byte} {c : Byte} (buf : Mem)
    (hfit : text.length + 1 ≤ size) :
    (written size (text ++ [c]) buf).line.store ((written size (text ++ [c]) buf).lineIte - 1) [0] =
      some ⟨size, storeAt (fun _ => 0) 0 text⟩ := by
  have hover := storeAt_over (fun _ => 0) 0 text [c] [0] (Nat.le_refl 1)
  rw [Nat.zero_add, storeAt_concat_zero] at hover
  have hite : (written size (text ++ [c]) buf).lineIte - 1 = text.length := by
    show (text ++ [c]).length - 1 = _
    rw [List.length_append, List.length_singleton, Nat.add_sub_cancel]
  rw [hite, Block.store]
  refine (if_pos hfit).trans ?_
  rw [written, hover]

/-- The block with the dump of `data`. -/
def dumpBlock (data : List Byte) : Block :=
  ⟨rowCount data.length * lineSize, storeAt (fun _ => 0) 0 (dumpText data)⟩

/-- The dump fits. -/
theorem length_dumpText_lt {data : List Byte} (hdata : data ≠ [])
    (hsize : rowCount data.length * 128 < 2 ^ 31) :
    (dumpText data).length + 1 ≤ rowCount data.length * 128 := by
  have hle := length_rowsText_le data (k := rowCount data.length) (by omega)
  rw [rowsText_eq_dumpText hdata, List.length_append, List.length_singleton] at hle
  omega

/-- What `_hexdump` returns for every length whose block has an `int` size. -/
theorem hexdump_eq (calloc : Nat → Bool) {len : Nat} (myStr : Mem) (hlen : 0 < len)
    (hsize : rowCount len * 128 < 2 ^ 31) :
    _hexdump calloc (some myStr) (BitVec.ofNat 64 len) =
      if calloc (rowCount len * 128) then
        some (some ((rowCount len : Int) * 128, dumpBlock (load myStr 0 len)))
      else some none := by
  have hle := le_mul_rowCount len
  have hwidth : (BitVec.ofNat 64 len).toNat = len := by
    rw [BitVec.toNat_ofNat]
    omega
  have hzero : BitVec.ofNat 64 len ≠ 0 := fun h => by
    have := congrArg BitVec.toNat h
    rw [hwidth] at this
    exact absurd this (Nat.ne_of_gt hlen)
  have hrows : rowCount len < 2 ^ 31 := by omega
  have hdata := load_ne_nil myStr 0 hlen
  have htext := rowsText_eq_dumpText hdata
  have hfit := length_dumpText_lt hdata (by rwa [length_load])
  rw [length_load] at htext hfit
  simp only [_hexdump, if_neg hzero, lineNbr_ofNat hrows, toNat_signExtend_of_lt hrows,
    toInt_ofNat_of_lt hrows, Int.toNat_natCast, hwidth, lineSize]
  cases calloc (rowCount len * 128) with
  | false => rw [if_neg (by simp), if_neg (by simp)]
  | true =>
      obtain ⟨buf, -, -, hrun⟩ := rows_written myStr len hsize.le (Nat.le_refl (rowCount len))
      rw [htext] at hrun
      rw [if_pos ⟨by omega, rfl⟩, if_pos rfl]
      refine Option.bind_eq_some_iff.mpr ⟨_, hrun, ?_⟩
      have hite : 1 ≤ (written (rowCount len * 128) (dumpText (load myStr 0 len) ++ [chr '\n'])
          buf).lineIte := by
        show 1 ≤ (dumpText (load myStr 0 len) ++ [chr '\n']).length
        rw [List.length_append]
        exact Nat.le_add_left _ _
      refine (if_pos hite).trans (Option.bind_eq_some_iff.mpr ⟨_, store_last buf hfit, ?_⟩)
      rw [if_pos (by omega), dumpBlock, length_load]
      rfl

/-! ## The string -/

/-- Behind the first zero of a row buffer nothing is printed, and so the text has no zeros. -/
theorem zero_not_mem_rowText (j : Nat) (bytes : List Byte) : 0 ∉ rowText j bytes := by
  have hascii : 0 ∉ rowAscii j bytes := zero_not_mem_takeWhile _
  have hhex : 0 ∉ rowHex j bytes := by
    rw [rowHex, List.mem_append, not_or]
    refine ⟨zero_not_mem_hexColumn bytes, ?_⟩
    split
    · exact List.not_mem_nil
    · exact fun h => absurd (List.eq_of_mem_replicate h) (by decide)
  simp only [rowText, List.mem_append, not_or]
  exact ⟨⟨⟨zero_not_mem_unsignedField 8 j, by decide⟩, hhex⟩, ⟨by decide, hascii⟩, by decide⟩

theorem zero_not_mem_dumpText (data : List Byte) : 0 ∉ dumpText data := by
  intro h
  obtain ⟨j, -, hj⟩ := List.mem_flatMap.mp (List.mem_of_mem_dropLast h)
  exact zero_not_mem_rowText j _ hj

/-- The string in the block is the text. -/
theorem string_dumpBlock {data : List Byte} (hdata : data ≠ [])
    (hsize : rowCount data.length * 128 < 2 ^ 31) :
    (dumpBlock data).string = some (dumpText data) := by
  have hfit := length_dumpText_lt hdata hsize
  have hload : load (dumpBlock data).bytes 0 (dumpBlock data).size = dumpText data ++
      List.replicate (rowCount data.length * 128 - (dumpText data).length) 0 :=
    load_storeAt_zero _ _ (Nat.le_of_succ_le hfit)
  rw [Block.string, hload, takeWhile_append_zeros,
    takeWhile_eq_self_of_zero_not_mem (zero_not_mem_dumpText data), if_pos]
  rw [List.contains_iff_mem, List.mem_append, List.mem_replicate]
  exact Or.inr ⟨by omega, rfl⟩

end BazelPro.Utils
