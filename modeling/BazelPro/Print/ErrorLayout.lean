import BazelPro.Print.ErrorRows

/-!
# The layout of an error record

The rows of a hex dump, as they are meant (`LaidOut`), and when `hexdump_formatter` prints such
rows (`laidOut_iff`). A byte from `0x80` on takes six digits too many, so that the visible
characters of the text are more than those of any layout.
-/

namespace BazelPro.Print

open C Positional

/-! ## The layout -/

/-- A row: up to 16 bytes in hex, a gap, one visible character for each of the bytes, and a line
break. -/
structure DumpRow where
  bytes : List Byte
  gap : Nat
  ascii : List Byte
  lineEnd : List Byte
  few : 0 < bytes.length ∧ bytes.length ≤ 16
  visible : ascii.length = bytes.length ∧ ∀ c ∈ ascii, isgraph c
  breaks : lineEnd = [chr '\n'] ∨ lineEnd = [chr '\n', chr '\t']

/-- The text of a row. -/
def DumpRow.text (r : DumpRow) : List Byte :=
  hexColumn r.bytes ++ (List.replicate r.gap (chr ' ') ++ (r.ascii ++ r.lineEnd))

/-- Where the characters of a row start. -/
def DumpRow.column (r : DumpRow) : Nat := (hexColumn r.bytes).length + r.gap

/-- The text is the heading and rows with the bytes of `data`, whose characters start in one
column. -/
def LaidOut (data text : List Byte) : Prop :=
  ∃ (column : Nat) (rows : List DumpRow), text = headFormat.chars ++ rows.flatMap DumpRow.text ∧
    rows.flatMap DumpRow.bytes = data ∧ ∀ r ∈ rows, r.column = column

/-! ## Visible characters -/

/-- The number of visible characters. -/
def visibles (text : List Byte) : Nat := text.countP isgraph

theorem visibles_append (text text' : List Byte) :
    visibles (text ++ text') = visibles text + visibles text' :=
  List.countP_append

theorem visibles_of_all {text : List Byte} (h : ∀ c ∈ text, isgraph c) :
    visibles text = text.length :=
  List.countP_eq_length.mpr h

theorem isgraph_digitChar {d : Nat} (h : d < 16) : isgraph (digitChar false d) := by
  interval_cases d <;> rfl

theorem isgraph_asciiChar (c : Byte) : isgraph (asciiChar c) := by
  unfold asciiChar
  split
  · assumption
  · rfl

theorem visibles_ascii (bytes : List Byte) : visibles (bytes.map asciiChar) = bytes.length := by
  rw [visibles_of_all, List.length_map]
  intro c hc
  obtain ⟨b, -, rfl⟩ := List.mem_map.mp hc
  exact isgraph_asciiChar b

theorem visibles_blanks (n : Nat) : visibles (List.replicate n (chr ' ')) = 0 := by
  refine List.countP_eq_zero.mpr fun c hc => ?_
  rw [List.eq_of_mem_replicate hc]
  decide

/-- All digits are visible. -/
theorem visibles_byteText (b : Byte) :
    visibles (byteText b) = max 2 (numeral 16 (b.signExtend 32).toNat).length := by
  have hdigits : ∀ c ∈ unsignedField zeroFlag 2 none .x (b.signExtend 32).toNat, isgraph c := by
    rw [unsignedField_zeroFlag]
    intro c hc
    rcases List.mem_append.mp hc with hc | hc
    · rw [List.eq_of_mem_replicate hc]
      rfl
    · obtain ⟨d, hd, rfl⟩ := List.mem_map.mp hc
      exact isgraph_digitChar (lt_of_mem_numeral (by decide) hd)
  rw [byteText, visibles_append, visibles_of_all hdigits, unsignedField_zeroFlag,
    List.length_leftpad, List.length_map]
  rfl

/-- The `int` that a signed `char` is promoted to, as an `unsigned int`. -/
theorem toNat_promoted (b : Byte) :
    (b.signExtend 32).toNat = if b.toNat < 128 then b.toNat else b.toNat + (2 ^ 32 - 2 ^ 8) := by
  have hlt := b.isLt
  rw [BitVec.toNat_signExtend, BitVec.toNat_setWidth, BitVec.msb_eq_decide]
  by_cases h : b.toNat < 128
  · rw [if_pos h, if_neg (by simp; omega)]
    omega
  · rw [if_neg h, if_pos (by simp; omega)]
    omega

/-- Two digits are printed exactly for the bytes that are not negative. -/
theorem visibles_byteText_spec (b : Byte) :
    2 ≤ visibles (byteText b) ∧ (visibles (byteText b) = 2 ↔ b.toNat < 128) := by
  have hlt := b.isLt
  have htwo : (numeral 16 (b.signExtend 32).toNat).length ≤ 2 ↔ (b.signExtend 32).toNat < 16 ^ 2 :=
    length_numeral_le_iff (by decide) (by decide)
  have hvalue := toNat_promoted b
  rw [visibles_byteText]
  refine ⟨Nat.le_max_left _ _, ?_⟩
  split at hvalue <;> omega

theorem visibles_hexPair (b : Byte) : visibles (hexPair b) = 2 := by
  have hlt := b.isLt
  refine visibles_of_all ?_
  rw [hexPair, List.forall_mem_cons, List.forall_mem_singleton]
  exact ⟨isgraph_digitChar (by omega), isgraph_digitChar (by omega)⟩

theorem visibles_hexColumn (bytes : List Byte) :
    visibles (hexColumn bytes) = 2 * bytes.length := by
  induction bytes with
  | nil => rfl
  | cons b bytes ih =>
      have hblank : visibles (chr ' ' :: hexColumn bytes) = visibles (hexColumn bytes) := rfl
      rw [hexColumn_cons, visibles_append, visibles_hexPair, hblank, ih, List.length_cons]
      omega

/-- What the rows have to show: two digits and one character for each byte. -/
theorem visibles_row (r : DumpRow) : visibles r.text = 3 * r.bytes.length := by
  have hend : visibles r.lineEnd = 0 := by
    rcases r.breaks with h | h <;> rw [h] <;> rfl
  rw [DumpRow.text, visibles_append, visibles_append, visibles_append, visibles_blanks,
    visibles_hexColumn, hend, visibles_of_all r.visible.2, r.visible.1]
  omega

theorem LaidOut.visibles_eq {data text : List Byte} (h : LaidOut data text) :
    visibles text = visibles headFormat.chars + 3 * data.length := by
  obtain ⟨column, rows, rfl, rfl, -⟩ := h
  have hrows : visibles (rows.flatMap DumpRow.text) = 3 * (rows.flatMap DumpRow.bytes).length := by
    induction rows with
    | nil => rfl
    | cons r rows ih =>
        rw [List.flatMap_cons, visibles_append, visibles_row, ih, List.flatMap_cons,
          List.length_append]
        omega
  rw [visibles_append, hrows]

/-- What the formatter shows for some bytes. -/
def shownFor (bytes : List Byte) : Nat := visibles (bytes.flatMap byteText) + bytes.length

theorem shownFor_append (bytes bytes' : List Byte) :
    shownFor (bytes ++ bytes') = shownFor bytes + shownFor bytes' := by
  rw [shownFor, shownFor, shownFor, List.flatMap_append, visibles_append, List.length_append]
  omega

/-- Three characters for each byte exactly if none is negative. -/
theorem shownFor_spec (bytes : List Byte) : 3 * bytes.length ≤ shownFor bytes ∧
    (shownFor bytes = 3 * bytes.length ↔ ∀ b ∈ bytes, b.toNat < 128) := by
  induction bytes with
  | nil => exact ⟨Nat.le_refl 0, iff_of_true rfl (List.forall_mem_nil _)⟩
  | cons b bytes ih =>
      obtain ⟨hle, hiff⟩ := visibles_byteText_spec b
      have hcons : shownFor (b :: bytes) = visibles (byteText b) + 1 + shownFor bytes := by
        rw [shownFor, shownFor, List.flatMap_cons, visibles_append, List.length_cons]
        omega
      rw [List.forall_mem_cons, ← hiff, ← ih.2, hcons, List.length_cons]
      omega

variable {data : Mem} {datalen : Nat}

theorem visibles_textAfter (data : Mem) (q i : Nat) :
    visibles (textAfter data q i) =
      visibles headFormat.chars + shownFor (load data 0 (16 * q)) +
        visibles (bytesText data (16 * q) i) := by
  have hrows : visibles ((List.range q).flatMap (fullRow data)) =
      shownFor (load data 0 (16 * q)) := by
    induction q with
    | zero => rfl
    | succ q ih =>
        have hrow : visibles (fullRow data q) = shownFor (load data (16 * q) 16) := by
          rw [fullRow, visibles_append, visibles_append, visibles_append, visibles_ascii, shownFor,
            bytesText]
          have hblank : visibles [chr ' ', chr ' '] = 0 := rfl
          have hend : visibles [chr '\n', chr '\t'] = 0 := rfl
          omega
        rw [List.range_succ, List.flatMap_append, visibles_append, ih, List.flatMap_singleton, hrow,
          Nat.mul_succ, load_add, shownFor_append, Nat.zero_add]
  rw [textAfter, visibles_append, visibles_append, hrows]

theorem visibles_errorText (data : Mem) (datalen : Nat) :
    visibles (errorText data datalen) =
      visibles headFormat.chars + shownFor (load data 0 datalen) := by
  have hsplit : load data 0 datalen =
      load data 0 (16 * (datalen / 16)) ++ load data (16 * (datalen / 16)) (datalen % 16) := by
    have := load_add data 0 (16 * (datalen / 16)) (datalen % 16)
    rwa [Nat.div_add_mod, Nat.zero_add] at this
  have hlast : visibles (lastRow data (datalen / 16) (datalen % 16)) = datalen % 16 := by
    rw [lastRow]
    split
    · rw [visibles_append, visibles_append, visibles_append, visibles_blanks, visibles_ascii,
        length_load]
      have hblank : visibles [chr ' '] = 0 := rfl
      have hend : visibles [chr '\n'] = 0 := rfl
      omega
    · next h => exact (Nat.eq_zero_of_not_pos h).symm
  have hpart : shownFor (load data (16 * (datalen / 16)) (datalen % 16)) =
      visibles (bytesText data (16 * (datalen / 16)) (datalen % 16)) + datalen % 16 := by
    rw [shownFor, length_load, bytesText]
  rw [errorText, visibles_append, visibles_textAfter, hsplit, shownFor_append, hlast, hpart]
  omega

/-! ## The rows -/

/-- A byte that is not negative is printed as its two digits. -/
theorem byteText_eq {b : Byte} (h : b.toNat < 128) : byteText b = hexPair b ++ [chr ' '] := by
  rw [byteText, toNat_promoted, if_pos h, unsignedField_hexPair]

theorem bytesText_eq {off len : Nat} (h : ∀ b ∈ load data off len, b.toNat < 128) :
    bytesText data off len = hexColumn (load data off len) :=
  List.flatMap_congr fun b hb => byteText_eq (h b hb)

/-- A row as the formatter prints it, with the gap that makes its characters start at 50. -/
def printedRow (data : Mem) (off len : Nat) (h : 0 < len ∧ len ≤ 16) (lineEnd : List Byte)
    (breaks : lineEnd = [chr '\n'] ∨ lineEnd = [chr '\n', chr '\t']) : DumpRow where
  bytes := load data off len
  gap := 50 - 3 * len
  ascii := (load data off len).map asciiChar
  lineEnd := lineEnd
  few := by rwa [length_load]
  visible := ⟨List.length_map _, fun c hc => by
    obtain ⟨b, -, rfl⟩ := List.mem_map.mp hc
    exact isgraph_asciiChar b⟩
  breaks := breaks

theorem column_printedRow (off len : Nat) (h : 0 < len ∧ len ≤ 16) (lineEnd : List Byte)
    (breaks : lineEnd = [chr '\n'] ∨ lineEnd = [chr '\n', chr '\t']) :
    (printedRow data off len h lineEnd breaks).column = 50 := by
  show (hexColumn (load data off len)).length + (50 - 3 * len) = 50
  rw [length_hexColumn, length_load]
  omega

/-- Rows that are laid out, with their bytes. -/
def RowsOf (bytes text : List Byte) : Prop :=
  ∃ rows : List DumpRow, text = rows.flatMap DumpRow.text ∧ rows.flatMap DumpRow.bytes = bytes ∧
    ∀ r ∈ rows, r.column = 50

theorem RowsOf.concat {bytes text : List Byte} (h : RowsOf bytes text) (data : Mem) (off : Nat)
    {len : Nat} (hlen : 0 < len ∧ len ≤ 16) (lineEnd : List Byte)
    (breaks : lineEnd = [chr '\n'] ∨ lineEnd = [chr '\n', chr '\t']) :
    RowsOf (bytes ++ load data off len)
      (text ++ (printedRow data off len hlen lineEnd breaks).text) := by
  obtain ⟨rows, rfl, rfl, hcolumn⟩ := h
  refine ⟨rows ++ [printedRow data off len hlen lineEnd breaks], ?_, ?_, ?_⟩
  · rw [List.flatMap_append, List.flatMap_singleton]
  · rw [List.flatMap_append, List.flatMap_singleton]
    rfl
  · rw [List.forall_mem_append, List.forall_mem_singleton]
    exact ⟨hcolumn, column_printedRow off len hlen lineEnd breaks⟩

/-- The full rows. -/
theorem rowsOf_fullRows {q : Nat} (h : ∀ b ∈ load data 0 (16 * q), b.toNat < 128) :
    RowsOf (load data 0 (16 * q)) ((List.range q).flatMap (fullRow data)) := by
  induction q with
  | zero => exact ⟨[], rfl, rfl, List.forall_mem_nil _⟩
  | succ q ih =>
      rw [Nat.mul_succ, load_add, List.forall_mem_append, Nat.zero_add] at h
      have hsixteen : 0 < 16 ∧ 16 ≤ 16 := by decide
      have hrow := (ih h.1).concat data (16 * q) hsixteen [chr '\n', chr '\t'] (Or.inr rfl)
      have htext : (printedRow data (16 * q) 16 hsixteen [chr '\n', chr '\t'] (Or.inr rfl)).text =
          fullRow data q := by
        rw [fullRow, bytesText_eq h.2]
        rfl
      rw [htext] at hrow
      rw [Nat.mul_succ, load_add, Nat.zero_add, List.range_succ, List.flatMap_append,
        List.flatMap_singleton]
      exact hrow

/-- The last row. -/
theorem rowsOf_lastRow {q i : Nat} (hi : i < 16)
    (h : ∀ b ∈ load data (16 * q) i, b.toNat < 128) {bytes text : List Byte}
    (hrows : RowsOf bytes text) :
    RowsOf (bytes ++ load data (16 * q) i)
      (text ++ (bytesText data (16 * q) i ++ lastRow data q i)) := by
  by_cases hpos : 0 < i
  · have hrow := hrows.concat data (16 * q) ⟨hpos, hi.le⟩ [chr '\n'] (Or.inl rfl)
    have htext : (printedRow data (16 * q) i ⟨hpos, hi.le⟩ [chr '\n'] (Or.inl rfl)).text =
        bytesText data (16 * q) i ++ lastRow data q i := by
      have hgap : 50 - 3 * i = 49 - i * 3 + 1 := by omega
      rw [bytesText_eq h, lastRow, if_pos hpos, DumpRow.text]
      show _ ++ (List.replicate (50 - 3 * i) (chr ' ') ++ _) = _
      rw [hgap, List.replicate_add, List.append_assoc]
      rfl
    rwa [htext] at hrow
  · obtain rfl := Nat.eq_zero_of_not_pos hpos
    have hbytes : load data (16 * q) 0 = [] := rfl
    rw [bytesText, lastRow, hbytes, if_neg (Nat.lt_irrefl 0), List.append_nil, List.flatMap_nil,
      List.append_nil, List.append_nil]
    exact hrows

/-- Without negative bytes, the text is laid out. -/
theorem laidOut_of_lt (h : ∀ b ∈ load data 0 datalen, b.toNat < 128) :
    LaidOut (load data 0 datalen) (errorText data datalen) := by
  have hsplit := load_split data 0 (Nat.mul_div_le datalen 16)
  have hmod : datalen - 16 * (datalen / 16) = datalen % 16 := by omega
  rw [hmod, Nat.zero_add] at hsplit
  rw [hsplit, List.forall_mem_append] at h
  obtain ⟨rows, htext, hbytes, hcolumn⟩ :=
    rowsOf_lastRow (Nat.mod_lt datalen (by decide)) h.2 (rowsOf_fullRows h.1)
  refine ⟨50, rows, ?_, hbytes.trans hsplit.symm, hcolumn⟩
  rw [← htext, errorText, textAfter, List.append_assoc, List.append_assoc]

/-- The text is laid out exactly if no byte is negative. -/
theorem laidOut_iff :
    LaidOut (load data 0 datalen) (errorText data datalen) ↔
      ∀ b ∈ load data 0 datalen, b.toNat < 128 := by
  constructor
  · intro h
    have hshown := h.visibles_eq
    rw [visibles_errorText] at hshown
    exact (shownFor_spec _).2.mp (Nat.add_left_cancel hshown)
  · exact laidOut_of_lt

/-- Only bytes of the array are read exactly if the last row is full. -/
theorem reads_inside_iff (asciiBuf data : Mem) (datalen : Nat) :
    (∀ off ∈ (hexdumpFormatter asciiBuf data datalen).reads, off < datalen) ↔ 16 ∣ datalen := by
  have hreads := mem_reads_iff asciiBuf data datalen
  constructor
  · intro h
    by_contra hdvd
    have hlast := h datalen ((hreads datalen).mpr (by omega))
    exact Nat.lt_irrefl _ hlast
  · intro h off hoff
    have := (hreads off).mp hoff
    omega

/-! ## The law -/

/-- The text of the calls is the one that is printed. -/
theorem Emitted.flatMap_text {calls : List Call} {texts : List Byte} (h : Emitted calls texts)
    (text : CStr → VaList → List Byte) : calls.flatMap (Call.text text) = texts := by
  induction h with
  | nil => rfl
  | concat h hcall ih =>
      rw [List.flatMap_append, ih, List.flatMap_singleton]
      cases hcall
      rfl

section Law

variable (vsnprintf : StringFormatter) (asciiBuf data : Mem) (datalen : Nat) {ram : Ram}
  {output size : Nat} {texts : List Byte} {start : Buffer × Ram}

/-- The buffer gets rows that are laid out exactly if no byte is negative. -/
theorem laidOut_run_iff (hstart : Filled ram output size texts start)
    (hroom : (texts ++ errorText data datalen).length < size) :
    (∃ s, runCalls vsnprintf (hexdumpFormatter asciiBuf data datalen).calls start = .ok s ∧
      LaidOut (load data 0 datalen) (load s.2.bytes start.1.data (s.1.data - start.1.data))) ↔
      ∀ i < datalen, (data i).toNat < 0x80 := by
  obtain ⟨s, hruns, hs⟩ := (hexdumpFormatter_text asciiBuf data datalen).filled vsnprintf
    (Nat.zero_lt_of_lt hroom) hstart
  have hbytes : (∀ i < datalen, (data i).toNat < 0x80) ↔
      ∀ b ∈ load data 0 datalen, b.toNat < 128 := by
    simp [load]
  rw [hbytes, ← laidOut_iff, ← hstart.load_appended hs hroom]
  constructor
  · intro hrun
    obtain ⟨s', hruns', h⟩ := hrun
    rw [hruns] at hruns'
    cases hruns'
    exact h
  · intro h
    exact ⟨s, hruns, h⟩

end Law

/-- With room in the buffer, the formatter reads only the array and prints rows that are laid out
exactly if the length is a multiple of 16 and no byte is negative. It never calls `vsnprintf`,
which would print `text`. -/
theorem hexdump_formatter_iff (vsnprintf : StringFormatter) (text : CStr → VaList → List Byte)
    (asciiBuf data : Mem) (datalen : Nat) (ram : Ram) (output size : Nat) (texts : List Byte)
    (start : Buffer × Ram) (hstart : Filled ram output size texts start)
    (hroom : (texts ++ (hexdumpFormatter asciiBuf data datalen).calls.flatMap
      (Call.text text)).length < size) :
    ((∀ off ∈ (hexdumpFormatter asciiBuf data datalen).reads, off < datalen) ∧
      ∃ s, runCalls vsnprintf (hexdumpFormatter asciiBuf data datalen).calls start = .ok s ∧
        LaidOut (load data 0 datalen)
          (load s.2.bytes start.1.data (s.1.data - start.1.data))) ↔
      16 ∣ datalen ∧ ∀ i < datalen, (data i).toNat < 0x80 := by
  rw [(hexdumpFormatter_text asciiBuf data datalen).flatMap_text] at hroom
  exact and_congr (reads_inside_iff asciiBuf data datalen)
    (laidOut_run_iff vsnprintf asciiBuf data datalen hstart hroom)

theorem length_bytesText_le (data : Mem) (off len : Nat) :
    (bytesText data off len).length ≤ 9 * len := by
  induction len with
  | zero => exact Nat.le_refl 0
  | succ len ih =>
      have := length_byteText_le (data (off + len))
      rw [bytesText_succ, List.length_append]
      omega

/-- Sixteen letters. -/
theorem hexdump_formatter_letters :
    ∃ s, runCalls (textVsnprintf fun _ _ => [])
        (hexdumpFormatter (fun _ => 0) (fun _ => chr 'A') 16).calls
        (bufinit ⟨fun _ => 0, []⟩ 100 200) = .ok s ∧
      LaidOut (load (fun _ => chr 'A') 0 16) (load s.2.bytes 100 (s.1.data - 100)) := by
  have htext :=
    (hexdumpFormatter_text (fun _ => 0) (fun _ => chr 'A') 16).flatMap_text fun _ _ => []
  have hlength := length_bytesText_le (fun _ => chr 'A') (16 * 0) 16
  have hroom : ([] ++ (hexdumpFormatter (fun _ => 0) (fun _ => chr 'A') 16).calls.flatMap
      (Call.text fun _ _ => [])).length < 200 := by
    have herror : errorText (fun _ => chr 'A') 16 =
        headFormat.chars ++ (fullRow (fun _ => chr 'A') 0 ++ []) ++ [] ++ [] := rfl
    rw [htext, herror, fullRow]
    simp only [List.length_append, List.length_map, length_load, List.length_cons,
      List.length_nil]
    have hhead : headFormat.chars.length = 20 := rfl
    omega
  exact ((hexdump_formatter_iff (textVsnprintf fun _ _ => []) (fun _ _ => []) (fun _ => 0)
    (fun _ => chr 'A') 16 _ 100 200 [] _
    (filled_bufinit ⟨fun _ => 0, []⟩ 100 (by decide : 0 < (200 : BitVec 64).toNat))
    hroom).mpr ⟨by decide, fun _ _ => by decide⟩).2

/-- One byte `0x80`: 15 more are read, and eight digits are printed. -/
theorem hexdump_formatter_negative :
    ¬ (∀ off ∈ (hexdumpFormatter (fun _ => 0) (fun _ => 0x80) 1).reads, off < 1) ∧
    ¬ ∃ s, runCalls (textVsnprintf fun _ _ => [])
        (hexdumpFormatter (fun _ => 0) (fun _ => 0x80) 1).calls
        (bufinit ⟨fun _ => 0, []⟩ 100 200) = .ok s ∧
      LaidOut (load (fun _ => 0x80) 0 1) (load s.2.bytes 100 (s.1.data - 100)) := by
  have hlength := length_bytesText_le (fun _ => 0x80) 0 1
  have hroom : ([] ++ errorText (fun _ => 0x80) 1).length < 200 := by
    have herror : errorText (fun _ => 0x80) 1 = headFormat.chars ++ [] ++
        bytesText (fun _ => 0x80) 0 1 ++ lastRow (fun _ => 0x80) 0 1 := rfl
    have hlast : (lastRow (fun _ => 0x80) 0 1).length = 49 := rfl
    have hhead : headFormat.chars.length = 20 := rfl
    rw [herror]
    simp only [List.length_append, List.length_nil]
    omega
  refine ⟨?_, ?_⟩
  · rw [reads_inside_iff]
    decide
  · intro h
    have hempty := filled_bufinit ⟨fun _ => 0, []⟩ 100 (by decide : 0 < (200 : BitVec 64).toNat)
    have hlt := (laidOut_run_iff (textVsnprintf fun _ _ => []) (fun _ => 0) (fun _ => 0x80) 1 hempty
      hroom).mp h 0 Nat.one_pos
    exact absurd hlt (by decide)

end BazelPro.Print
