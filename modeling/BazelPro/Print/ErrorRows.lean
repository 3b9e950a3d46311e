import BazelPro.Print.ErrorDump

/-!
# The rows of an error record

What `hexdump_formatter` has printed and read after each byte (`AfterBytes`), and in the end
(`Printed`). It reads 16 bytes for each row, also for the last one, which leaves its array unless
the length is a multiple of 16; and a byte from `0x80` on is promoted to a negative `int`, of which
eight digits are printed.
-/

namespace BazelPro.Print

open C Positional

/-- The character for a byte. -/
def asciiChar (c : Byte) : Byte := if isgraph c then c else chr '.'

/-- The characters are no terminators. -/
theorem zero_not_mem_ascii (bytes : List Byte) : 0 ∉ bytes.map asciiChar := by
  intro h
  obtain ⟨c, -, hc⟩ := List.mem_map.mp h
  rw [asciiChar] at hc
  split at hc
  · next hgraph =>
    rw [hc] at hgraph
    exact absurd hgraph (by decide)
  · exact absurd hc (by decide)

theorem translateToAscii_eq (data : Mem) (off len : Nat) :
    translateToAscii data off len = (load data off len).map asciiChar := by
  induction len generalizing off with
  | zero => rfl
  | succ len ih =>
      rw [translateToAscii, ih, Nat.add_comm len 1, load_add, List.map_append]
      rfl

/-- What is printed for the bytes of a row. -/
def bytesText (data : Mem) (off len : Nat) : List Byte := (load data off len).flatMap byteText

/-- What is printed for 16 bytes. -/
def fullRow (data : Mem) (k : Nat) : List Byte :=
  bytesText data (16 * k) 16 ++
    ([chr ' ', chr ' '] ++ ((load data (16 * k) 16).map asciiChar ++ [chr '\n', chr '\t']))

/-! ## The calls -/

/-- A call that is meant, and its text. -/
inductive Appends : Call → List Byte → Prop where
  | mk {format : CStr} {args : VaList} (hadmissible : format.Admissible args)
      (hkept : format.PrecisionsKept args) (hcounts : format.counted args = [])
      (hint : (fullText format args).length < 2 ^ 31) :
      Appends (.bufprintfAsyncsignalsafe format args) (fullText format args)

/-- Calls that are meant, and all their texts. -/
inductive Emitted : List Call → List Byte → Prop where
  | nil : Emitted [] []
  | concat {calls : List Call} {texts : List Byte} {call : Call} {text : List Byte}
      (h : Emitted calls texts) (hcall : Appends call text) :
      Emitted (calls ++ [call]) (texts ++ text)

/-- What the buffer holds after the calls. -/
theorem Emitted.filled {calls : List Call} {text texts : List Byte} (h : Emitted calls text)
    (vsnprintf : StringFormatter) {ram : Ram} {output size : Nat} (hsize : 0 < size)
    {start : Buffer × Ram} (hstart : Filled ram output size texts start) :
    ∃ s, runCalls vsnprintf calls start = .ok s ∧
      Filled ram output size (texts ++ text) s := by
  induction h with
  | nil => exact ⟨start, rfl, by rwa [List.append_nil]⟩
  | @concat calls text call more h hcall ih =>
      obtain ⟨s, hruns, hs⟩ := ih
      cases hcall with
      | @mk format args hadmissible hkept hcounts hint =>
          have hmeant : (Call.bufprintfAsyncsignalsafe format args).Admissible fun _ _ => [] :=
            ⟨hint, hadmissible⟩
          obtain ⟨s', ret, hrun, hs', -⟩ :=
            hs.run (conforms_textVsnprintf fun _ _ => []) hsize hmeant hkept
              (Call.countsNothing_asyncsignalsafe hcounts)
          refine ⟨s', ?_, List.append_assoc texts text _ ▸ hs'⟩
          -- the call does not use `vsnprintf`
          have hcall :
              (Call.bufprintfAsyncsignalsafe format args).run vsnprintf s = .ok (s', ret) :=
            hrun
          rw [runCalls, List.foldlM_append]
          show (runCalls vsnprintf calls start >>= _) = _
          rw [hruns]
          show ((Call.run vsnprintf _ s >>= _) >>= _) = _
          rw [hcall]
          rfl

theorem appends_of_text {format : CStr} {args : VaList} {text : List Byte}
    (h : ∀ d ∈ format.directives args, (d.conv ≠ chr 'f' ∧ d.conv ≠ chr 'n') ∧ d.spec.prec = 0)
    (htext : fullText format args = text) (hint : text.length < 2 ^ 31) :
    Appends (.bufprintfAsyncsignalsafe format args) text := by
  obtain ⟨hadmissible, hkept, hcounts⟩ := admissible_of_directives format args h
  subst htext
  exact .mk hadmissible hkept hcounts hint

theorem appends_head :
    Appends (.bufprintfAsyncsignalsafe headFormat (words [])) headFormat.chars := by
  have hdirectives : headFormat.directives (words []) = [] := rfl
  have hprints : Prints (words []) headFormat.chars 0 headFormat.chars 0 :=
    prints_literal (words []) 0 (by decide)
  refine appends_of_text ?_ hprints.fullText_eq (by decide)
  rw [hdirectives]
  exact List.forall_mem_nil _

theorem length_byteText_le (b : Byte) : (byteText b).length ≤ 9 := by
  have hlength := length_numeral_le (by decide : 1 < 16) (by decide : 0 < 8) (b.signExtend 32).isLt
  rw [byteText, unsignedField_zeroFlag, List.length_append, List.length_leftpad, List.length_map,
    List.length_singleton]
  omega

theorem appends_byte (b : Byte) :
    Appends (.bufprintfAsyncsignalsafe byteFormat (words [b.signExtend 64])) (byteText b) := by
  have hdirectives : byteFormat.directives (words [b.signExtend 64]) =
      [hexByte.directive (words [b.signExtend 64]) 0] := rfl
  have hlength := length_byteText_le b
  refine appends_of_text ?_ (fullText_byteFormat b) (by omega)
  rw [hdirectives, List.forall_mem_singleton]
  exact ⟨(by decide : chr 'x' ≠ chr 'f' ∧ chr 'x' ≠ chr 'n'), rfl⟩

theorem appends_row (ascii : CStr) (hlength : ascii.chars.length ≤ 17) :
    Appends (.bufprintfAsyncsignalsafe rowFormat (strings [ascii]))
      ([chr ' ', chr ' '] ++ (ascii.chars ++ [chr '\n', chr '\t'])) := by
  have hdirectives : rowFormat.directives (strings [ascii]) =
      [plainString.directive (strings [ascii]) 0] := rfl
  refine appends_of_text ?_ (fullText_rowFormat ascii (by omega)) ?_
  · rw [hdirectives, List.forall_mem_singleton]
    exact ⟨(by decide : chr 's' ≠ chr 'f' ∧ chr 's' ≠ chr 'n'), rfl⟩
  · simp only [List.length_append, List.length_cons, List.length_nil]
    omega

theorem appends_last (padding ascii : CStr) (hpadding : padding.chars.length ≤ 50)
    (hlength : ascii.chars.length ≤ 17) :
    Appends (.bufprintfAsyncsignalsafe lastFormat (strings [padding, ascii]))
      (padding.chars ++ ([chr ' '] ++ (ascii.chars ++ [chr '\n']))) := by
  have hdirectives : lastFormat.directives (strings [padding, ascii]) =
      [plainString.directive (strings [padding, ascii]) 0,
        plainString.directive (strings [padding, ascii]) 1] := rfl
  refine appends_of_text ?_ (fullText_lastFormat padding ascii (by omega) (by omega)) ?_
  · rw [hdirectives, List.forall_mem_cons, List.forall_mem_singleton]
    have hconv : chr 's' ≠ chr 'f' ∧ chr 's' ≠ chr 'n' := by decide
    exact ⟨⟨hconv, rfl⟩, ⟨hconv, rfl⟩⟩
  · simp only [List.length_append, List.length_cons, List.length_nil]
    omega

/-! ## After each byte -/

/-- A row has been begun: 16 bytes were read and translated. -/
structure InRow (data : Mem) (q : Nat) (d : ErrorDump) : Prop where
  ascii : load d.asciiBuf 0 16 = (load data (16 * q) 16).map asciiChar
  nul : d.asciiBuf 16 = 0
  reads : ∀ off, off ∈ d.reads ↔ off < 16 * (q + 1)

/-- The text of the full rows and of `i` bytes behind them. -/
def textAfter (data : Mem) (q i : Nat) : List Byte :=
  headFormat.chars ++ (List.range q).flatMap (fullRow data) ++ bytesText data (16 * q) i

/-- `q` rows are full, and `i` bytes of the next one were printed. -/
structure AfterBytes (data : Mem) (q i : Nat) (d : ErrorDump) : Prop where
  index : d.i = i
  between : i = 0 → d.asciiBuf 16 = 0 ∧ ∀ off, off ∈ d.reads ↔ off < 16 * q
  within : i ≠ 0 → InRow data q d
  text : Emitted d.calls (textAfter data q i)

variable {data : Mem} {q i : Nat} {d : ErrorDump}

theorem AfterBytes.inRow (h : AfterBytes data q i d) :
    InRow data q (d.translate data (16 * q + i)) := by
  unfold ErrorDump.translate
  by_cases hi : i = 0
  · obtain ⟨hnul, hreads⟩ := h.between hi
    rw [if_pos (h.index.trans hi), hi, Nat.add_zero]
    refine ⟨?_, ?_, ?_⟩
    · have hload := load_storeAt d.asciiBuf 0 (translateToAscii data (16 * q) 16)
      rw [translateToAscii_eq, List.length_map, length_load] at hload
      rw [translateToAscii_eq]
      exact hload
    · show storeAt d.asciiBuf 0 (translateToAscii data (16 * q) 16) 16 = 0
      rw [storeAt_outside _ _ _ _ (Or.inr ?_), hnul]
      rw [translateToAscii_eq, List.length_map, length_load]
    · intro off
      show off ∈ d.reads ++ List.range' (16 * q) 16 ↔ _
      rw [List.mem_append, hreads, List.mem_range'_1]
      omega
  · rw [if_neg (h.index.symm ▸ hi)]
    exact h.within hi

/-- The string in `ascii_buf`. -/
theorem InRow.stringAt_eq (h : InRow data q d) :
    (stringAt d.asciiBuf 17).chars = (load data (16 * q) 16).map asciiChar := by
  have hload : load d.asciiBuf 0 17 = (load data (16 * q) 16).map asciiChar ++ [0] := by
    rw [load_add _ 0 16 1, h.ascii]
    exact congrArg (fun c => _ ++ [c]) h.nul
  show cString (load d.asciiBuf 0 17) = _
  rw [hload, cString_concat (zero_not_mem_ascii _)]

theorem bytesText_succ (data : Mem) (off len : Nat) :
    bytesText data off (len + 1) = bytesText data off len ++ byteText (data (off + len)) := by
  rw [bytesText, load_add, List.flatMap_append]
  exact congrArg (_ ++ ·) (List.append_nil _)

/-- A row with `i` bytes that were printed. -/
structure InLine (data : Mem) (q i : Nat) (d : ErrorDump) : Prop extends InRow data q d where
  index : d.i = i
  text : Emitted d.calls (textAfter data q i)

theorem AfterBytes.translate (h : AfterBytes data q i d) :
    InLine data q i (d.translate data (16 * q + i)) := by
  refine ⟨h.inRow, ?_, ?_⟩
  · rw [← h.index, ErrorDump.translate]
    split <;> rfl
  · have hcalls : (d.translate data (16 * q + i)).calls = d.calls := by
      rw [ErrorDump.translate]
      split <;> rfl
    rw [hcalls]
    exact h.text

theorem InLine.printByte (h : InLine data q i d) (hi : i < 16) :
    InLine data q (i + 1) (d.printByte data (16 * q + i)) := by
  refine ⟨⟨h.ascii, h.nul, ?_⟩, congrArg (· + 1) h.index, ?_⟩
  · intro off
    show off ∈ d.reads ++ [16 * q + i] ↔ _
    rw [List.mem_append, h.reads, List.mem_singleton]
    omega
  · have htext : textAfter data q (i + 1) =
        textAfter data q i ++ byteText (data (16 * q + i)) := by
      rw [textAfter, bytesText_succ, ← List.append_assoc]
      rfl
    rw [htext]
    exact h.text.concat (appends_byte _)

theorem InLine.endLine (h : InLine data q 16 d) : AfterBytes data (q + 1) 0 d.endLine := by
  have hlength : (stringAt d.asciiBuf 17).chars.length ≤ 17 := by
    rw [h.stringAt_eq, List.length_map, length_load]
    decide
  have hrow := appends_row (stringAt d.asciiBuf 17) hlength
  have htext : textAfter data (q + 1) 0 = textAfter data q 16 ++ ([chr ' ', chr ' '] ++
      ((load data (16 * q) 16).map asciiChar ++ [chr '\n', chr '\t'])) := by
    rw [textAfter, textAfter, List.range_succ, List.flatMap_append]
    simp [fullRow, bytesText, load]
  rw [h.stringAt_eq] at hrow
  rw [ErrorDump.endLine, if_pos (Nat.le_of_eq h.index.symm)]
  refine ⟨rfl, fun _ => ⟨h.nul, h.reads⟩, fun hne => absurd rfl hne, ?_⟩
  rw [htext]
  exact h.text.concat hrow

/-- The loop for one byte. -/
theorem AfterBytes.byte (h : AfterBytes data q i d) (hi : i < 16) :
    if i + 1 = 16 then AfterBytes data (q + 1) 0 (d.byte data (16 * q + i))
    else AfterBytes data q (i + 1) (d.byte data (16 * q + i)) := by
  have hprinted := h.translate.printByte hi
  unfold ErrorDump.byte
  split
  · next hfull =>
    rw [hfull] at hprinted
    exact hprinted.endLine
  · next hpart =>
    rw [ErrorDump.endLine, if_neg (by rw [hprinted.index]; omega)]
    exact ⟨hprinted.index, fun hzero => absurd hzero (Nat.succ_ne_zero i),
      fun _ => hprinted.toInRow, hprinted.text⟩

/-- The whole loop. -/
theorem afterBytes (asciiBuf data : Mem) (n : Nat) :
    AfterBytes data (n / 16) (n % 16)
      ((List.range n).foldl (ErrorDump.byte data) (ErrorDump.start asciiBuf)) := by
  induction n with
  | zero =>
      refine ⟨rfl, fun _ => ⟨storeAt_inside asciiBuf 16 [0] 0 Nat.one_pos, ?_⟩,
        fun hne => absurd rfl hne, ?_⟩
      · intro off
        exact iff_of_false List.not_mem_nil (Nat.not_lt_zero off)
      · have htext : textAfter data (0 / 16) (0 % 16) = [] ++ headFormat.chars := by
          simp [textAfter, bytesText, load]
        rw [htext]
        exact Emitted.nil.concat appends_head
  | succ n ih =>
      have hstep := ih.byte (Nat.mod_lt n (by decide))
      rw [Nat.div_add_mod] at hstep
      rw [List.range_succ, List.foldl_append]
      split at hstep
      · next hfull =>
        have hq : (n + 1) / 16 = n / 16 + 1 := by omega
        have hi : (n + 1) % 16 = 0 := by omega
        rw [hq, hi]
        exact hstep
      · next hpart =>
        have hq : (n + 1) / 16 = n / 16 := by omega
        have hi : (n + 1) % 16 = n % 16 + 1 := by omega
        rw [hq, hi]
        exact hstep

/-! ## The last row -/

/-- A string that is cut ends there. -/
theorem stringAt_cut {m : Mem} {k size : Nat} (hk : k < size) (h : 0 ∉ load m 0 k) :
    (stringAt (storeAt m k [0]) size).chars = load m 0 k := by
  have hone : 1 ≤ size - k := by omega
  have hfront : load (storeAt m k [0]) 0 k = load m 0 k :=
    load_congr fun j _ hj => storeAt_outside m k [0] j (Or.inl (by omega))
  have hcut : load (storeAt m k [0]) (0 + k) 1 = [0] := by
    rw [Nat.zero_add]
    exact load_storeAt m k [0]
  show cString (load (storeAt m k [0]) 0 size) = _
  rw [load_split _ _ hk.le, load_split _ _ hone, hfront, hcut]
  exact cString_append h _

theorem InRow.load_asciiBuf (h : InRow data q d) (hi : i ≤ 16) :
    load d.asciiBuf 0 i = (load data (16 * q) i).map asciiChar := by
  have hload := h.ascii
  rw [load_split _ _ hi, load_split data _ hi, List.map_append] at hload
  exact (List.append_inj hload (by simp)).1

/-- What is printed for a last row of `i` bytes, behind the bytes themselves. -/
def lastRow (data : Mem) (q i : Nat) : List Byte :=
  if 0 < i then
    List.replicate (49 - i * 3) (chr ' ') ++
      ([chr ' '] ++ ((load data (16 * q) i).map asciiChar ++ [chr '\n']))
  else []

theorem load_const (c : Byte) (n : Nat) : load (fun _ => c) 0 n = List.replicate n c := by
  simp [load]

/-- What is left to print behind the loop. -/
theorem AfterBytes.lastLine (h : AfterBytes data q i d) (hi : i < 16) :
    Emitted d.lastLine.calls (textAfter data q i ++ lastRow data q i) := by
  have hindex := h.index
  unfold ErrorDump.lastLine lastRow
  by_cases hpos : 0 < i
  · have hascii := (h.within (Nat.ne_of_gt hpos)).load_asciiBuf (Nat.le_of_lt hi)
    have hstring : (stringAt (storeAt d.asciiBuf d.i [0]) 17).chars =
        (load data (16 * q) i).map asciiChar := by
      have hclean : 0 ∉ load d.asciiBuf 0 i := hascii ▸ zero_not_mem_ascii _
      rw [hindex, stringAt_cut (by omega) hclean, hascii]
    have hpadding : (stringAt (storeAt (fun _ => chr ' ') (49 - d.i * 3) [0]) 50).chars =
        List.replicate (49 - i * 3) (chr ' ') := by
      have hclean : 0 ∉ load (fun _ => chr ' ') 0 (49 - i * 3) := by
        rw [load_const]
        exact fun hmem => absurd (List.eq_of_mem_replicate hmem) (by decide)
      rw [hindex, stringAt_cut (by omega) hclean, load_const]
    have hlast := appends_last (stringAt (storeAt (fun _ => chr ' ') (49 - d.i * 3) [0]) 50)
      (stringAt (storeAt d.asciiBuf d.i [0]) 17)
      (by rw [hpadding, List.length_replicate]; omega)
      (by rw [hstring, List.length_map, length_load]; omega)
    rw [hpadding, hstring] at hlast
    rw [if_pos (hindex.symm ▸ hpos), if_pos hpos]
    exact h.text.concat hlast
  · rw [if_neg (hindex.symm ▸ hpos), if_neg hpos, List.append_nil]
    exact h.text

/-- All that is printed. -/
def errorText (data : Mem) (datalen : Nat) : List Byte :=
  textAfter data (datalen / 16) (datalen % 16) ++ lastRow data (datalen / 16) (datalen % 16)

theorem hexdumpFormatter_text (asciiBuf data : Mem) (datalen : Nat) :
    Emitted (hexdumpFormatter asciiBuf data datalen).calls (errorText data datalen) :=
  (afterBytes asciiBuf data datalen).lastLine (Nat.mod_lt _ (by decide))

/-- All that is read. -/
theorem mem_reads_iff (asciiBuf data : Mem) (datalen off : Nat) :
    off ∈ (hexdumpFormatter asciiBuf data datalen).reads ↔ off < 16 * ((datalen + 15) / 16) := by
  have hafter := afterBytes asciiBuf data datalen
  have hreads : (hexdumpFormatter asciiBuf data datalen).reads =
      ((List.range datalen).foldl (ErrorDump.byte data) (ErrorDump.start asciiBuf)).reads := by
    unfold hexdumpFormatter ErrorDump.lastLine
    split <;> rfl
  rw [hreads]
  by_cases hi : datalen % 16 = 0
  · rw [(hafter.between hi).2]
    omega
  · rw [(hafter.within hi).reads]
    omega

end BazelPro.Print
