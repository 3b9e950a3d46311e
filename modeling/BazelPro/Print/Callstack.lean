import BazelPro.Print.BufferLaw
import BazelPro.Print.Long

/-!
# The two call-stack printers

After `src/lib/prettyprint_ucontext.cc` and `print_callstack` of `src/lib/zerror.cc`. Both print a
line for each return address that `backtrace` has stored, from one format: the first with the
async-signal-safe formatter, the second with libc. The lines are the same exactly for the
addresses below `2 ^ 32` (`long_iff`).
-/

namespace BazelPro.Print

open C Positional

/-! ## The printers -/

/-- `MAX_CALLSTACK_DEPTH`. -/
abbrev maxCallstackDepth : Nat := 30

/-- What `backtrace` has stored into `buffer`. -/
structure Backtrace where
  buffer : List (BitVec 64)
  depth : buffer.length ≤ maxCallstackDepth

/-- `"  ip[%02d]      : 0x%08lx\n"`. -/
def frameFormat : CStr :=
  cstr [' ', ' ', 'i', 'p', '[', '%', '0', '2', 'd', ']', ' ', ' ', ' ', ' ', ' ', ' ', ':', ' ',
    '0', 'x', '%', '0', '8', 'l', 'x', '\n'] (by decide)

/-- The arguments of a line. -/
def frameArgs (j : Nat) (address : BitVec 64) : VaList := words [BitVec.ofNat 64 j, address]

/-- The calls of `prettyprint_ucontext`. -/
def prettyprintUcontext (trace : Backtrace) : List Call :=
  trace.buffer.mapIdx fun j address =>
    .bufprintfAsyncsignalsafe frameFormat (frameArgs j address)

/-- The calls of `print_callstack`. -/
def printCallstack (trace : Backtrace) (skipCount : Nat) : List Call :=
  .bufprintf (cstr ['\n', 'C', 'a', 'l', 'l', ' ', 's', 't', 'a', 'c', 'k', ' ', ':', '\n']
      (by decide)) (words []) ::
    ((trace.buffer.mapIdx fun j address =>
        .bufprintf frameFormat (frameArgs j address)).drop skipCount ++
      [.bufprintf (cstr ['\n'] (by decide)) (words [])])

/-- The call number `i` appends `line` to the buffer. -/
def AppendsLine (vsnprintf : StringFormatter) (calls : List Call) (start : Buffer × Ram) (i : Nat)
    (line : List Byte) : Prop :=
  ∃ call s s' ret, calls[i]? = some call ∧ runCalls vsnprintf (calls.take i) start = .ok s ∧
    call.run vsnprintf s = .ok (s', ret) ∧
    load s'.2.bytes s.1.data (s'.1.data - s.1.data) = line

/-! ## The line -/

/-- `%02d`. -/
def frameNumber : Source where
  flags := [.zero]
  width := .ofDigit 2 (by decide)
  prec := .none
  length := []
  chain := chain_nil
  conv := chr 'd'
  conversion := d_mem_conversions

/-- `%08lx`. -/
def returnAddress : Source where
  flags := [.zero]
  width := eight
  prec := .none
  length := [.l]
  chain := chain_l
  conv := chr 'x'
  conversion := x_mem_conversions

/-- What stands before the index of the frame. -/
def lineHead : List Byte := [' ', ' ', 'i', 'p', '['].map chr

/-- What stands between the index and the address. -/
def lineMiddle : List Byte := [']', ' ', ' ', ' ', ' ', ' ', ' ', ':', ' ', '0', 'x'].map chr

/-- The line that the standard prescribes for a frame. -/
def frameLine (j : Int) (address : Nat) : List Byte :=
  lineHead ++ (signedField frameNumber.flagSet 2 none j ++
    (lineMiddle ++ (unsignedField returnAddress.flagSet 8 none .x address ++ [chr '\n'])))

theorem frameFormat_chars : frameFormat.chars =
    lineHead ++ (chr '%' :: frameNumber.render ++
      (lineMiddle ++ (chr '%' :: returnAddress.render ++ [chr '\n']))) := by
  decide

theorem frameNumber_plain : frameNumber.Plain := ⟨Width.noConfusion, trivial, Or.inl rfl⟩

theorem returnAddress_long : returnAddress.Long := ⟨Width.noConfusion, trivial, Or.inl rfl⟩

section Line

variable (ap : VaList)

/-- The index of the frame is printed as the standard says. -/
theorem frameNumber_emits :
    frameNumber.Emits ap 0 (signedField frameNumber.flagSet 2 none (ap 0).int) := by
  obtain ⟨-, -, hvalue, hne, -⟩ :=
    Source.directive_eq frameNumber_plain.width frameNumber_plain.prec ap 0
  have hstandard : signedText (frameNumber.directive ap 0).spec ((ap 0).signed []) =
      signedField frameNumber.flagSet 2 none (ap 0).int := by
    refine (signedText_eq_iff _ hvalue hne ((ap 0).natAbs_signed [])).mpr ⟨?_, ?_⟩
    · intro _ hplus
      cases hplus
    · intro _ _ hgiven
      exact absurd rfl hgiven
  rw [← hstandard]
  exact frameNumber_plain.emits_signed (Or.inl rfl) ap 0

/-- The address is printed as the standard says for the lower half of it. -/
theorem returnAddress_emits :
    returnAddress.Emits ap 1
      (unsignedField returnAddress.flagSet 8 none .x ((ap 1).word.toNat % 2 ^ 32)) := by
  obtain ⟨-, hwidth, hvalue, hne, hprec⟩ :=
    Source.directive_eq returnAddress_long.width returnAddress_long.prec ap 1
  have hemits := @emits_unsigned returnAddress ap 1 .x rfl hwidth hprec
  rw [returnAddress_long.unsigned_eq, unsignedText, ← Nat.mod_mod] at hemits
  have hstandard := (unsignedText_eq_unsignedField_iff hvalue hne Bool.false_ne_true .x
    ((ap 1).word.toNat % 2 ^ 32)).mpr (Nat.mod_lt _ (by decide))
  rw [unsignedText] at hstandard
  rwa [hstandard] at hemits

/-- The line of the async-signal-safe formatter. -/
theorem fullText_frameFormat :
    fullText frameFormat ap = frameLine (ap 0).int ((ap 1).word.toNat % 2 ^ 32) := by
  have hhead : Prints ap lineHead 0 lineHead 0 := prints_literal ap 0 (by decide)
  have hmiddle : Prints ap lineMiddle 1 lineMiddle 1 := prints_literal ap 1 (by decide)
  have hend : Prints ap [chr '\n'] 2 [chr '\n'] 2 := prints_literal ap 2 (by decide)
  have hline := hhead.append ((frameNumber_emits ap).prints.append
    (hmiddle.append ((returnAddress_emits ap).prints.append hend)))
  rw [← frameFormat_chars] at hline
  exact hline.fullText_eq

end Line

/-- Lines of different addresses differ. -/
theorem frameLine_inj {j : Int} {address address' : Nat} :
    frameLine j address = frameLine j address' ↔ address = address' := by
  have hread : ∀ n, readNumber 16 (unsignedField returnAddress.flagSet 8 none .x n) = n := by
    obtain ⟨-, -, hvalue, hne, -⟩ :=
      Source.directive_eq returnAddress_long.width returnAddress_long.prec (words []) 0
    exact readNumber_unsignedField hvalue hne Bool.false_ne_true .x
  rw [frameLine, frameLine, List.append_cancel_left_eq, List.append_cancel_left_eq,
    List.append_cancel_left_eq, List.append_cancel_right_eq]
  constructor
  · intro heq
    rw [← hread address, heq, hread]
  · rintro rfl
    rfl

theorem length_numericField_le (fl : FieldFlags) (width : Nat) (prec : Option Nat)
    (lead digits : List Byte) : (numericField fl width prec lead digits).length ≤
      width + lead.length + digits.length := by
  unfold numericField
  split
  · rw [List.length_rightpad, List.length_append]
    omega
  split
  · rw [List.length_append, List.length_leftpad]
    omega
  · rw [List.length_leftpad, List.length_append]
    omega

/-- Whatever the index and the address, a line is short. -/
theorem length_frameLine_le (ap : VaList) {address : Nat} (haddress : address < 2 ^ 64) :
    (frameLine (ap 0).int address).length ≤ 55 := by
  have hnumber : (signedField frameNumber.flagSet 2 none (ap 0).int).length ≤ 2 + 1 + 11 := by
    have hrange := (ap 0).int_range
    have hdigits : (numeral 10 (ap 0).int.natAbs).length ≤ 11 :=
      length_numeral_le (by decide) (by decide) (by omega)
    have hsign : (sign frameNumber.flagSet (ap 0).int).length ≤ 1 := by
      rw [length_sign]
      split <;> decide
    refine (length_numericField_le _ _ _ _ _).trans ?_
    rw [length_digitString false 10 (Option.some_ne_none 0).symm]
    show 2 + _ + max 0 _ ≤ _
    omega
  have hfield : (unsignedField returnAddress.flagSet 8 none .x address).length ≤ 8 + 0 + 16 := by
    have hdigits : (numeral UnsignedConv.x.base address).length ≤ 16 :=
      length_numeral_le (by decide) (by decide) haddress
    refine (length_numericField_le _ _ _ _ _).trans ?_
    rw [unsignedDigits_of_not_alt Bool.false_ne_true (Option.some_ne_none 0).symm,
      List.length_leftpad, length_digits]
    show 8 + 0 + max 0 _ ≤ _
    omega
  have hlengths : lineHead.length = 5 ∧ lineMiddle.length = 11 := ⟨rfl, rfl⟩
  simp only [frameLine, List.length_append, List.length_singleton]
  omega

/-! ## The calls -/

/-- Directives without a precision, other than `%f` and `%n`, are admissible. -/
theorem admissible_of_directives (fmt : CStr) (ap : VaList)
    (h : ∀ d ∈ fmt.directives ap, (d.conv ≠ chr 'f' ∧ d.conv ≠ chr 'n') ∧ d.spec.prec = 0) :
    fmt.Admissible ap ∧ fmt.PrecisionsKept ap ∧ fmt.counted ap = [] := by
  refine ⟨fun d hd => ⟨(h d hd).1.1, fun _ => ?_⟩, fun d hd q hq => ?_,
    CStr.counted_eq_nil fun d hd => (h d hd).1.2⟩
  · rw [(h d hd).2]
    decide
  · exact (fits_of_prec hq (by rw [(h d hd).2]; decide)).1

/-- The format is admissible, whatever the arguments. -/
theorem frameFormat_admissible (ap : VaList) : frameFormat.Admissible ap ∧
    frameFormat.PrecisionsKept ap ∧ frameFormat.counted ap = [] := by
  have hdirectives : frameFormat.directives ap =
      [frameNumber.directive ap 0, returnAddress.directive ap 1] := rfl
  refine admissible_of_directives frameFormat ap ?_
  rw [hdirectives, List.forall_mem_cons, List.forall_mem_singleton]
  exact ⟨⟨(by decide : chr 'd' ≠ chr 'f' ∧ chr 'd' ≠ chr 'n'), rfl⟩,
    ⟨(by decide : chr 'x' ≠ chr 'f' ∧ chr 'x' ≠ chr 'n'), rfl⟩⟩

section Appends

variable {vsnprintf : StringFormatter} {text : CStr → VaList → List Byte} {ram : Ram}
  {output size : Nat} {texts : List Byte} {start : Buffer × Ram}

/-- The bytes that a call has appended, where there was enough room for them. -/
theorem Filled.load_appended {line : List Byte} {s s' : Buffer × Ram}
    (h : Filled ram output size texts s) (h' : Filled ram output size (texts ++ line) s')
    (hroom : (texts ++ line).length < size) :
    load s'.2.bytes s.1.data (s'.1.data - s.1.data) = line := by
  rw [List.length_append] at hroom
  have hdata : s.1.data = output + texts.length := by
    rw [h.data]
    omega
  have hdata' : s'.1.data = output + texts.length + line.length := by
    rw [h'.data, List.length_append]
    omega
  have hload := h'.wrote.load_take
  have hmin : min (texts ++ line).length (size - 1) = texts.length + line.length := by
    rw [List.length_append]
    omega
  have htake : (texts ++ line).take (size - 1) = texts ++ line := by
    refine List.take_of_length_le ?_
    rw [List.length_append]
    omega
  rw [hmin, htake, load_add] at hload
  have hline := (List.append_inj hload (length_load _ _ _)).2
  rw [hdata', hdata, Nat.add_sub_cancel_left]
  exact hline

/-- With enough room, each call of a sequence appends its text. -/
theorem Filled.appendsLine (hconforms : Conforms vsnprintf text)
    (h : Filled ram output size texts start) {calls : List Call}
    (hadmissible : ∀ call ∈ calls, call.Admissible text)
    (hkept : ∀ call ∈ calls, call.PrecisionsKept)
    (hcounts : ∀ call ∈ calls, call.CountsNothing)
    (hroom : (texts ++ calls.flatMap (Call.text text)).length < size) {i : Nat} {call : Call}
    (hcall : calls[i]? = some call) :
    AppendsLine vsnprintf calls start i (call.text text) := by
  have hsize : 0 < size := by omega
  have hmem : call ∈ calls := List.mem_of_getElem? hcall
  obtain ⟨s, hruns, hs⟩ := h.runCalls hconforms hsize (calls.take i)
    (fun c hc => hadmissible c (List.mem_of_mem_take hc))
    (fun c hc => hkept c (List.mem_of_mem_take hc))
    (fun c hc => hcounts c (List.mem_of_mem_take hc))
  obtain ⟨s', ret, hrun, hs', -⟩ := hs.run hconforms hsize (hadmissible call hmem)
    (hkept call hmem) (hcounts call hmem)
  refine ⟨call, s, s', ret, hcall, hruns, hrun, hs.load_appended hs' (Nat.lt_of_le_of_lt ?_ hroom)⟩
  -- the calls up to this one are a part of all
  obtain ⟨hlt, hget⟩ := List.getElem?_eq_some_iff.mp hcall
  have hsplit : calls = calls.take i ++ call :: calls.drop (i + 1) := by
    rw [← hget, ← List.drop_eq_getElem_cons hlt, List.take_append_drop]
  have htexts : calls.flatMap (Call.text text) = (calls.take i).flatMap (Call.text text) ++
      (call.text text ++ (calls.drop (i + 1)).flatMap (Call.text text)) := by
    conv_lhs => rw [hsplit]
    rw [List.flatMap_append, List.flatMap_cons]
  rw [htexts]
  simp only [List.length_append]
  omega

end Appends

/-- What the standard says of the formats of `print_callstack`: without a directive, a format is
printed as it is. -/
structure Standard (text : CStr → VaList → List Byte) : Prop where
  literal : ∀ fmt ap, chr '%' ∉ fmt.chars → text fmt ap = fmt.chars
  frame : ∀ ap, text frameFormat ap = frameLine (ap 0).int (ap 1).word.toNat

section Printers

variable {text : CStr → VaList → List Byte}

theorem prettyprintUcontext_admissible (text : CStr → VaList → List Byte) (trace : Backtrace) :
    ∀ call ∈ prettyprintUcontext trace,
      call.Admissible text ∧ call.PrecisionsKept ∧ call.CountsNothing := by
  intro call hcall
  obtain ⟨j, hj, rfl⟩ := List.mem_mapIdx.mp hcall
  obtain ⟨hadmissible, hkept, hcounts⟩ := frameFormat_admissible (frameArgs j trace.buffer[j])
  refine ⟨⟨?_, hadmissible⟩, hkept, Call.countsNothing_asyncsignalsafe hcounts⟩
  have hlength := length_frameLine_le (frameArgs j trace.buffer[j])
    ((Nat.mod_lt trace.buffer[j].toNat (by decide : 0 < 2 ^ 32)).trans (by decide))
  show (fullText frameFormat (frameArgs j trace.buffer[j])).length < _
  rw [fullText_frameFormat]
  exact Nat.lt_of_le_of_lt hlength (by decide)

theorem printCallstack_admissible (hstandard : Standard text) (trace : Backtrace)
    (skipCount : Nat) :
    ∀ call ∈ printCallstack trace skipCount,
      call.Admissible text ∧ call.PrecisionsKept ∧ call.CountsNothing := by
  intro call hcall
  rw [printCallstack, List.mem_cons, List.mem_append, List.mem_singleton] at hcall
  rcases hcall with rfl | hframe | rfl
  · refine ⟨⟨?_, trivial⟩, trivial, Call.countsNothing_bufprintf (by decide) _⟩
    show (text _ _).length < _
    rw [hstandard.literal _ _ (by decide)]
    decide
  · obtain ⟨j, hj, rfl⟩ := List.mem_mapIdx.mp (List.mem_of_mem_drop hframe)
    refine ⟨⟨?_, trivial⟩, trivial, Call.countsNothing_bufprintf (by decide) _⟩
    have hlength := length_frameLine_le (frameArgs j trace.buffer[j]) trace.buffer[j].isLt
    show (text frameFormat (frameArgs j trace.buffer[j])).length < _
    rw [hstandard.frame]
    exact Nat.lt_of_le_of_lt hlength (by decide)
  · refine ⟨⟨?_, trivial⟩, trivial, Call.countsNothing_bufprintf (by decide) _⟩
    show (text _ _).length < _
    rw [hstandard.literal _ _ (by decide)]
    decide

/-- The line of a frame is the same from both printers exactly if the address fits an
`unsigned int`. -/
theorem callstack_line_iff {vsnprintf : StringFormatter} (hconforms : Conforms vsnprintf text)
    (hstandard : Standard text) (trace : Backtrace) {skipCount j : Nat} {address : BitVec 64}
    (haddress : trace.buffer[j]? = some address) (hskip : skipCount ≤ j)
    {ram ram' : Ram} {output output' size size' : Nat} {texts texts' : List Byte}
    {start start' : Buffer × Ram} (hstart : Filled ram output size texts start)
    (hstart' : Filled ram' output' size' texts' start')
    (hroom : (texts ++ (prettyprintUcontext trace).flatMap (Call.text text)).length < size)
    (hroom' :
      (texts' ++ (printCallstack trace skipCount).flatMap (Call.text text)).length < size') :
    ∃ line line', AppendsLine vsnprintf (prettyprintUcontext trace) start j line ∧
      AppendsLine vsnprintf (printCallstack trace skipCount) start' (j - skipCount + 1) line' ∧
      (line = line' ↔ address.toNat < 2 ^ 32) := by
  have hcall : (prettyprintUcontext trace)[j]? =
      some (.bufprintfAsyncsignalsafe frameFormat (frameArgs j address)) := by
    rw [prettyprintUcontext, List.getElem?_mapIdx, haddress]
    rfl
  have hcall' : (printCallstack trace skipCount)[j - skipCount + 1]? =
      some (.bufprintf frameFormat (frameArgs j address)) := by
    have hj : skipCount + (j - skipCount) = j := by omega
    have hframe : ((trace.buffer.mapIdx fun j address =>
        Call.bufprintf frameFormat (frameArgs j address)).drop skipCount)[j - skipCount]? =
          some (.bufprintf frameFormat (frameArgs j address)) := by
      rw [List.getElem?_drop, hj, List.getElem?_mapIdx, haddress]
      rfl
    rw [printCallstack, List.getElem?_cons_succ, List.getElem?_append_left, hframe]
    exact (List.getElem?_eq_some_iff.mp hframe).1
  have hadmissible := prettyprintUcontext_admissible text trace
  have hadmissible' := printCallstack_admissible hstandard trace skipCount
  have hline := hstart.appendsLine hconforms (fun c hc => (hadmissible c hc).1)
    (fun c hc => (hadmissible c hc).2.1) (fun c hc => (hadmissible c hc).2.2) hroom hcall
  have hline' := hstart'.appendsLine hconforms (fun c hc => (hadmissible' c hc).1)
    (fun c hc => (hadmissible' c hc).2.1) (fun c hc => (hadmissible' c hc).2.2) hroom' hcall'
  refine ⟨_, _, hline, hline', ?_⟩
  show fullText frameFormat (frameArgs j address) = text frameFormat (frameArgs j address) ↔ _
  rw [fullText_frameFormat, hstandard.frame, frameLine_inj]
  show address.toNat % 2 ^ 32 = address.toNat ↔ _
  omega

end Printers

/-! ## The law -/

/-- The digits that are put out for a `long` or a `long long` are read back as its value if and
only if the magnitude fits an `unsigned int`; and for the addresses that do, and no others, the two
printers append the same line to their buffers, if there is enough room. -/
theorem long_iff (vsnprintf : StringFormatter) (text : CStr → VaList → List Byte)
    (hconforms : Conforms vsnprintf text) (hstandard : Standard text) :
    (∀ (src : Source) (conv : UnsignedConv), src.Long → src.conv = conv.char →
      ∀ (ap : VaList) (arg : Nat), ∃ digits, src.Emits ap arg digits ∧
        (readNumber conv.base digits = (ap arg).word.toNat ↔ (ap arg).word.toNat < 2 ^ 32)) ∧
    (∀ src : Source, src.Long → src.conv = chr 'd' ∨ src.conv = chr 'i' →
      ∀ (ap : VaList) (arg : Nat), ∃ digits, src.Emits ap arg digits ∧
        (readSigned digits = (ap arg).word.toInt ↔ (ap arg).word.toInt.natAbs < 2 ^ 32)) ∧
    (∀ (trace : Backtrace) (skipCount j : Nat) (address : BitVec 64),
      trace.buffer[j]? = some address → skipCount ≤ j →
      ∀ (ram ram' : Ram) (output output' size size' : Nat) (texts texts' : List Byte)
        (start start' : Buffer × Ram),
      Filled ram output size texts start → Filled ram' output' size' texts' start' →
      (texts ++ (prettyprintUcontext trace).flatMap (Call.text text)).length < size →
      (texts' ++ (printCallstack trace skipCount).flatMap (Call.text text)).length < size' →
      ∃ line line', AppendsLine vsnprintf (prettyprintUcontext trace) start j line ∧
        AppendsLine vsnprintf (printCallstack trace skipCount) start' (j - skipCount + 1) line' ∧
        (line = line' ↔ address.toNat < 2 ^ 32)) := by
  refine ⟨fun src conv hlong hconv ap arg => ?_, fun src hlong hconv ap arg => ?_, ?_⟩
  · obtain ⟨digits, hemits, hread⟩ := emits_unsignedLong hlong ap arg hconv
    refine ⟨digits, hemits, ?_⟩
    rw [hread]
    omega
  · obtain ⟨digits, hemits, hread⟩ := emits_signedLong hlong ap arg hconv
    refine ⟨digits, hemits, ?_⟩
    rw [hread]
    split <;> omega
  · intro trace skipCount j address haddress hskip ram ram'
      output output' size size' texts texts' start start' hstart hstart' hroom hroom'
    exact callstack_line_iff hconforms hstandard trace haddress hskip hstart hstart' hroom hroom'

/-- The directive `%lx`. -/
def longHex : Source where
  flags := []
  width := .none
  prec := .none
  length := [.l]
  chain := chain_l
  conv := chr 'x'
  conversion := x_mem_conversions

/-- The directive `%ld`. -/
def longDecimal : Source where
  flags := []
  width := .none
  prec := .none
  length := [.l]
  chain := chain_l
  conv := chr 'd'
  conversion := d_mem_conversions

theorem longHex_long : longHex.Long := ⟨Width.noConfusion, trivial, Or.inl rfl⟩

theorem longDecimal_long : longDecimal.Long := ⟨Width.noConfusion, trivial, Or.inl rfl⟩

/-- What libc prints for the formats of `print_callstack`. -/
def standardText (format : CStr) (args : VaList) : List Byte :=
  if format.chars = frameFormat.chars then frameLine (args 0).int (args 1).word.toNat
  else format.chars

theorem standard_standardText : Standard standardText := by
  refine ⟨fun fmt ap hplain => if_neg ?_, fun ap => if_pos rfl⟩
  intro heq
  rw [heq] at hplain
  exact absurd hplain (by decide)

/-- A call stack with one return address. -/
def oneFrame : Backtrace := ⟨[0x400123], by decide⟩

/-- Two numbers that fit an `unsigned int`, and a call stack. -/
theorem long_iff_values :
    (∃ text, longHex.Emits (argsOfWord 0xdeadbeef) 0 text ∧ readNumber 16 text = 0xdeadbeef) ∧
    (∃ text, longDecimal.Emits (argsOfWord (-5)) 0 text ∧ readSigned text = -5) ∧
    (∃ line, AppendsLine (textVsnprintf standardText) (prettyprintUcontext oneFrame)
        (bufinit ⟨fun _ => 0, []⟩ 100 200) 0 line ∧
      AppendsLine (textVsnprintf standardText) (printCallstack oneFrame 0)
        (bufinit ⟨fun _ => 0, []⟩ 100 200) 1 line) := by
  have hroom : ([] ++ (prettyprintUcontext oneFrame).flatMap (Call.text standardText)).length <
      200 := by
    have hlength := length_frameLine_le (frameArgs 0 0x400123) (by decide : 0x400123 < 2 ^ 64)
    show (fullText frameFormat (frameArgs 0 0x400123) ++ []).length < 200
    rw [List.append_nil, fullText_frameFormat]
    exact Nat.lt_of_le_of_lt hlength (by decide)
  have hroom' : ([] ++ (printCallstack oneFrame 0).flatMap (Call.text standardText)).length <
      200 := by
    have hlength := length_frameLine_le (frameArgs 0 0x400123) (by decide : 0x400123 < 2 ^ 64)
    show (_ ++ (frameLine (frameArgs 0 0x400123 0).int 0x400123 ++ _)).length < 200
    rw [List.length_append, List.length_append]
    show 14 + (_ + 1) < 200
    omega
  obtain ⟨hunsigned, hsigned, hlines⟩ :=
    long_iff (textVsnprintf standardText) standardText (conforms_textVsnprintf _)
      standard_standardText
  obtain ⟨text, hemits, hread⟩ := hunsigned longHex .x longHex_long rfl (argsOfWord 0xdeadbeef) 0
  obtain ⟨text', hemits', hread'⟩ :=
    hsigned longDecimal longDecimal_long (Or.inl rfl) (argsOfWord (-5)) 0
  have hempty := filled_bufinit ⟨fun _ => 0, []⟩ 100 (by decide : 0 < (200 : BitVec 64).toNat)
  obtain ⟨line, line', hline, hline', heq⟩ := hlines oneFrame 0 0 0x400123 rfl (Nat.le_refl _)
    _ _ _ _ _ _ _ _ _ _ hempty hempty hroom hroom'
  have hsame := heq.mpr (by decide)
  subst hsame
  exact ⟨⟨text, hemits, hread.mpr (by decide)⟩, ⟨text', hemits', hread'.mpr (by decide)⟩,
    ⟨line, hline, hline'⟩⟩

/-- `2 ^ 32` is not read back from `%lx`. -/
theorem longHex_overflow :
    ¬ ∃ text, longHex.Emits (argsOfWord 0x100000000) 0 text ∧
      readNumber 16 text = 0x100000000 := by
  rintro ⟨text, hemits, hread⟩
  obtain ⟨text', hemits', hread'⟩ :=
    @emits_unsignedLong _ longHex_long (argsOfWord 0x100000000) 0 .x rfl
  rw [hemits.unique hemits'] at hread
  have : (0x100000000 : Nat) = 0x100000000 % 2 ^ 32 := hread.symm.trans hread'
  omega

end BazelPro.Print
