import BazelPro.Lib.Delimited
import BazelPro.Print.Template

/-!
# How a signal is printed

After `src/lib/prettyprint_siginfo.cc`. The text of a `siginfo_t` is the list of its lines, and it
tells two of them apart exactly if they differ in a member that is printed, of which the wide ones
count modulo `2 ^ 32` (`siginfo_text_iff`). The numbers of signals and codes are those of Linux.
-/

namespace BazelPro.Print

open C Positional

/-! ## The printer -/

/-- The members of a `siginfo_t` that are printed. They share their memory in part, so that not all
combinations occur. -/
structure Siginfo where
  siSigno : BitVec 32
  siErrno : BitVec 32
  siCode : BitVec 32
  siAddr : BitVec 64
  siStatus : BitVec 32
  siUtime : BitVec 64
  siStime : BitVec 64
  siFd : BitVec 32
  siPid : BitVec 32
  siUid : BitVec 32
  siInt : BitVec 32
  siPtr : BitVec 64

/-- `SI_USER`. -/
abbrev siUser : Int := 0

/-- `SI_QUEUE`. -/
abbrev siQueue : Int := -1

/-- `SIGCHLD`. -/
abbrev sigchld : Int := 17

/-- `strcode`: the codes that all signals share, `SIGILL`, `SIGFPE`, `SIGSEGV`, `SIGBUS`, `SIGTRAP`,
`SIGCHLD` and `SIGIO`. -/
def strcode (signo code : Int) : String :=
  match code with
  | 0 => "kill or raise"
  | 128 => "kernel"
  | -1 => "sigqueue"
  | -2 => "POSIX timer expired"
  | -3 => "POSIX message queue state changed"
  | -4 => "AIO completed"
  | -6 => "tkill or tgkill"
  | _ =>
    match signo, code with
    | 4, 1 => "illegal opcode"
    | 4, 2 => "illegal operand"
    | 4, 3 => "illegal addressing mode"
    | 4, 4 => "illegal trap"
    | 4, 5 => "privileged opcode"
    | 4, 6 => "privileged register"
    | 4, 7 => "coprocessor error"
    | 4, 8 => "internal stack error"
    | 8, 1 => "integer divide by zero"
    | 8, 2 => "integer overflow"
    | 8, 3 => "floating-point divide by zero"
    | 8, 4 => "floating-point overflow"
    | 8, 5 => "floating-point underflow"
    | 8, 6 => "floating-point inexact result"
    | 8, 7 => "floating-point invalid operation"
    | 8, 8 => "subscript out of range"
    | 11, 1 => "address not mapped to object"
    | 11, 2 => "invalid permissions for mapped object"
    | 7, 1 => "invalid address alignment"
    | 7, 2 => "nonexistent physical address"
    | 7, 3 => "object-specific hardware error"
    | 5, 1 => "process breakpoint"
    | 5, 2 => "process trace trap"
    | 17, 1 => "child has exited"
    | 17, 2 => "child was killed"
    | 17, 3 => "child terminated abnormally"
    | 17, 4 => "traced child has trapped"
    | 17, 5 => "child has stopped"
    | 17, 6 => "stopped child has continued"
    | 29, 1 => "data input available"
    | 29, 2 => "output buffers available"
    | 29, 3 => "input message available"
    | 29, 4 => "I/O error"
    | 29, 5 => "high priority input available"
    | 29, 6 => "device disconnected"
    | _, _ => ""

/-- A call of `bufprintf_asyncsignalsafe`. -/
def print (format : String) (args : List VaArg) : Call :=
  .bufprintfAsyncsignalsafe (CStr.ofString format) (vaList args)

/-- `strsignal` and `strerror` of libc. -/
structure Messages where
  strsignal : BitVec 32 → CStr
  strerror : BitVec 32 → CStr

/-- The `switch` of `prettyprint_siginfo`: `SIGILL`, `SIGFPE`, `SIGSEGV`, `SIGBUS` and `SIGTRAP`,
then `SIGCHLD`, then `SIGIO`. -/
def bySigno (si : Siginfo) : List Call :=
  if si.siSigno.toInt ∈ [4, 8, 11, 7, 5] then
    if si.siCode.toInt ≠ siUser then [print "- addr = 0x%lx\n" [.ofWord si.siAddr]] else []
  else if si.siSigno.toInt = sigchld then
    [print "- status = %d\n" [.ofInt si.siStatus],
      print "- utime = %lu\n" [.ofWord si.siUtime],
      print "- stime = %lu\n" [.ofWord si.siStime]]
  else if si.siSigno.toInt = 29 then [print "- fd = %d\n" [.ofInt si.siFd]]
  else []

/-- Who has sent the signal. A `pid_t` is signed, a `uid_t` is not. -/
def sender (si : Siginfo) : List Call :=
  if si.siSigno.toInt = sigchld ∨ si.siCode.toInt = siQueue ∨ si.siCode.toInt = siUser then
    [print "- pid = %lu\n" [.ofInt si.siPid],
      print "- uid = %lu\n" [.ofWord (si.siUid.setWidth 64)]]
  else []

/-- What was sent with the signal. -/
def queued (si : Siginfo) : List Call :=
  if si.siCode.toInt = siQueue then
    [print "- int = %d\n" [.ofInt si.siInt], print "- ptr = 0x%lx\n" [.ofWord si.siPtr]]
  else []

/-- The calls of `prettyprint_siginfo`. -/
def prettyprintSiginfo (messages : Messages) (si : Siginfo) : List Call :=
  [print "- signo = %d (%s)\n" [.ofInt si.siSigno, .ofStr (messages.strsignal si.siSigno)],
    print "- errno = %d (%s)\n" [.ofInt si.siErrno, .ofStr (messages.strerror si.siErrno)],
    print "- code = %d (%s)\n" [.ofInt si.siCode,
      .ofStr (CStr.ofString (strcode si.siSigno.toInt si.siCode.toInt))]] ++
  (bySigno si ++ (sender si ++ queued si))

/-! ## Its text -/

/-- A line with a number and what it means. -/
def meaningLine (name : String) (v : Int) (meaning : List Byte) : List Byte :=
  ascii name ++ (signedField noFlag 0 none v ++ (ascii " (" ++ (meaning ++ ascii ")\n")))

/-- A line with an `int`, without its end. -/
def intLine (name : String) (n : BitVec 32) : List Byte :=
  ascii name ++ signedField noFlag 0 none n.toInt

/-- A line with a number that is fetched as 64 bits, without its end. -/
def longLine (name : String) (conv : UnsignedConv) (n : BitVec 64) : List Byte :=
  ascii name ++ unsignedField noFlag 0 none conv (n.toNat % 2 ^ 32)

/-- The lines of the `switch`. -/
def signoLines (si : Siginfo) : List (List Byte) :=
  if si.siSigno.toInt ∈ [4, 8, 11, 7, 5] then
    if si.siCode.toInt ≠ siUser then [longLine "- addr = 0x" .x si.siAddr] else []
  else if si.siSigno.toInt = sigchld then
    [intLine "- status = " si.siStatus, longLine "- utime = " .u si.siUtime,
      longLine "- stime = " .u si.siStime]
  else if si.siSigno.toInt = 29 then [intLine "- fd = " si.siFd]
  else []

/-- The lines about the sender. -/
def senderLines (si : Siginfo) : List (List Byte) :=
  if si.siSigno.toInt = sigchld ∨ si.siCode.toInt = siQueue ∨ si.siCode.toInt = siUser then
    [longLine "- pid = " .u (si.siPid.signExtend 64), longLine "- uid = " .u (si.siUid.setWidth 64)]
  else []

/-- The lines about what was sent. -/
def queuedLines (si : Siginfo) : List (List Byte) :=
  if si.siCode.toInt = siQueue then
    [intLine "- int = " si.siInt, longLine "- ptr = 0x" .x si.siPtr]
  else []

/-- The lines of the members that not all signals have. -/
def siginfoLines (si : Siginfo) : List (List Byte) :=
  signoLines si ++ (senderLines si ++ queuedLines si)

/-- What `prettyprint_siginfo` prints. -/
def siginfoText (messages : Messages) (si : Siginfo) : List Byte :=
  meaningLine "- signo = " si.siSigno.toInt (messages.strsignal si.siSigno).chars ++
  (meaningLine "- errno = " si.siErrno.toInt (messages.strerror si.siErrno).chars ++
  (meaningLine "- code = " si.siCode.toInt
      (ascii (strcode si.siSigno.toInt si.siCode.toInt)) ++
    (siginfoLines si).flatMap (· ++ [chr '\n'])))

theorem length_meaningLine_le (name : String) (n : BitVec 32) (meaning : List Byte) :
    (meaningLine name n.toInt meaning).length ≤ (ascii name).length + 16 + meaning.length := by
  have hnumber := length_signedField_le n
  have hparts : (ascii " (").length = 2 ∧ (ascii ")\n").length = 2 := ⟨rfl, rfl⟩
  simp only [meaningLine, List.length_append]
  omega

/-- The beginning of a line is short and printed as it is. -/
def ShortName (name : String) : Prop :=
  (∀ c ∈ ascii name, c ≠ 0 ∧ c ≠ chr '%') ∧ (ascii name).length ≤ 20

instance (name : String) : Decidable (ShortName name) := inferInstanceAs (Decidable (_ ∧ _))

section Lines

variable (text : CStr → VaList → List Byte)

/-- The format of a line with a number and what it means. -/
theorem meant_meaningLine (format name : String)
    (hformat : (CStr.ofString format).chars = ascii name ++ ascii "%d (%s)\n")
    (hname : ShortName name)
    (n : BitVec 32) {meaning : CStr} (hmeaning : meaning.chars.length < 2 ^ 30) :
    Meant text [print format [.ofInt n, .ofStr meaning]]
      (meaningLine name n.toInt meaning.chars) := by
  have hnumber := plainDecimal_emits (vaList [.ofInt n, .ofStr meaning]) 0
  have hstring := plainString_emits (vaList [.ofInt n, .ofStr meaning]) 1
    (hmeaning.trans (by decide))
  have hvalue : (vaList [.ofInt n, .ofStr meaning] 0).int = n.toInt := VaArg.int_ofInt n
  rw [hvalue] at hnumber
  have hlays := Lays.literal _ hname.1 (.item _ hnumber (by decide) rfl
    (fun hmem => absurd (mem_numberChars_of_mem_signedField hmem) (by decide))
    (.literal (ascii " (") (by decide) (.item _ hstring (by decide) rfl meaning.no_nul
      (.literal (ascii ")\n") (by decide) (.nil _)))))
  rw [List.append_nil] at hlays
  refine hlays.meant ?_ ?_ text
  · rw [hformat]
    rfl
  · have hline := length_meaningLine_le name n meaning.chars
    rw [meaningLine] at hline
    have hlength := hname.2
    exact Nat.lt_of_le_of_lt hline (by omega)

variable {format : String} (name : String)

/-- The format of a line with an `int`. -/
theorem meant_intLine (hformat : (CStr.ofString format).chars = ascii name ++ ascii "%d\n")
    (hname : ShortName name)
    (n : BitVec 32) : Meant text [print format [.ofInt n]] (intLine name n ++ [chr '\n']) := by
  have hnumber := plainDecimal_emits (vaList [.ofInt n]) 0
  have hvalue : (vaList [.ofInt n] 0).int = n.toInt := VaArg.int_ofInt n
  rw [hvalue] at hnumber
  have hlays := Lays.literal _ hname.1 (.item _ hnumber (by decide) rfl
    (fun hmem => absurd (mem_numberChars_of_mem_signedField hmem) (by decide))
    (.literal (ascii "\n") (by decide) (.nil _)))
  rw [List.append_nil, ← List.append_assoc] at hlays
  refine hlays.meant ?_ ?_ text
  · rw [hformat]
    rfl
  · have hlength := hname.2
    have hnumber := length_signedField_le n
    have hend : (ascii "\n").length = 1 := rfl
    simp only [List.length_append]
    omega

/-- The format of a line with a number that is fetched as 64 bits. -/
theorem meant_longLine {src : Source} {conv : UnsignedConv} {n : BitVec 64}
    (hemits : src.Emits (vaList [.ofWord n]) 0
      (unsignedField noFlag 0 none conv (n.toNat % 2 ^ 32)))
    (hformat : (CStr.ofString format).chars =
      ascii name ++ (chr '%' :: src.render ++ ascii "\n"))
    (hname : ShortName name)
    (hconv : src.conv ≠ chr 'f' ∧ src.conv ≠ chr 'n') (hprec : src.prec = .none) :
    Meant text [print format [.ofWord n]] (longLine name conv n ++ [chr '\n']) := by
  have hlays := Lays.literal _ hname.1 (.item _ hemits hconv hprec
    (fun hmem => absurd (unsignedField_noFlag conv _ ▸ hmem) ?_)
    (.literal (ascii "\n") (by decide) (.nil _)))
  · rw [List.append_nil, ← List.append_assoc] at hlays
    refine hlays.meant ?_ ?_ text
    · rw [hformat]
      simp [Part.chars]
    · have hlength := hname.2
      have hdigits : 2 ^ 32 ≤ conv.base ^ 32 := by cases conv <;> decide
      have hnumber := length_unsignedField_le conv (by decide : 0 < 32)
        ((Nat.mod_lt n.toNat (by decide : 0 < 2 ^ 32)).trans_le hdigits)
      have hend : (ascii "\n").length = 1 := rfl
      simp only [List.length_append]
      omega
  · exact fun hdigit => absurd (mem_numberChars_of_mem_digits hdigit) (by decide)

/-- `%lu`. -/
theorem meant_unsignedLine (hformat : (CStr.ofString format).chars = ascii name ++ ascii "%lu\n")
    (hname : ShortName name)
    (n : BitVec 64) :
    Meant text [print format [.ofWord n]] (longLine name .u n ++ [chr '\n']) :=
  meant_longLine text name (longUnsigned_emits (vaList [.ofWord n]) 0) hformat hname (by decide) rfl

/-- `%lx`. -/
theorem meant_hexLine (hformat : (CStr.ofString format).chars = ascii name ++ ascii "%lx\n")
    (hname : ShortName name)
    (n : BitVec 64) :
    Meant text [print format [.ofWord n]] (longLine name .x n ++ [chr '\n']) :=
  meant_longLine text name (longHex_emits (vaList [.ofWord n]) 0) hformat hname (by decide) rfl

end Lines

/-- The meanings of codes are short, and have no terminators. -/
theorem strcode_spec (signo code : Int) :
    0 ∉ ascii (strcode signo code) ∧ (ascii (strcode signo code)).length ≤ 37 := by
  unfold strcode
  split
  case h_8 => split <;> decide
  all_goals decide

theorem ofString_strcode (signo code : Int) :
    (CStr.ofString (strcode signo code)).chars = ascii (strcode signo code) :=
  takeWhile_eq_self_of_zero_not_mem (strcode_spec signo code).1

section Text

variable {messages : Messages} (text : CStr → VaList → List Byte) (si : Siginfo)

theorem bySigno_meant :
    Meant text (bySigno si) ((signoLines si).flatMap (· ++ [chr '\n'])) := by
  unfold bySigno signoLines
  split
  · split
    · exact .cons (meant_hexLine text "- addr = 0x" rfl (by decide) si.siAddr) .nil
    · exact .nil
  split
  · exact .cons (meant_intLine text "- status = " rfl (by decide) si.siStatus)
      (.cons (meant_unsignedLine text "- utime = " rfl (by decide) si.siUtime)
        (.cons (meant_unsignedLine text "- stime = " rfl (by decide) si.siStime) .nil))
  split
  · exact .cons (meant_intLine text "- fd = " rfl (by decide) si.siFd) .nil
  · exact .nil

theorem sender_meant : Meant text (sender si) ((senderLines si).flatMap (· ++ [chr '\n'])) := by
  unfold sender senderLines
  split
  · exact .cons (meant_unsignedLine text "- pid = " rfl (by decide) (si.siPid.signExtend 64))
      (.cons (meant_unsignedLine text "- uid = " rfl (by decide) (si.siUid.setWidth 64)) .nil)
  · exact .nil

theorem queued_meant : Meant text (queued si) ((queuedLines si).flatMap (· ++ [chr '\n'])) := by
  unfold queued queuedLines
  split
  · exact .cons (meant_intLine text "- int = " rfl (by decide) si.siInt)
      (.cons (meant_hexLine text "- ptr = 0x" rfl (by decide) si.siPtr) .nil)
  · exact .nil

/-- What `prettyprint_siginfo` prints, line by line. -/
theorem prettyprintSiginfo_meant
    (hsignal : (messages.strsignal si.siSigno).chars.length < 2 ^ 30)
    (herror : (messages.strerror si.siErrno).chars.length < 2 ^ 30) :
    Meant text (prettyprintSiginfo messages si) (siginfoText messages si) := by
  have hsigno := meant_meaningLine text "- signo = %d (%s)\n" "- signo = " rfl (by decide)
    si.siSigno hsignal
  have herrno := meant_meaningLine text "- errno = %d (%s)\n" "- errno = " rfl (by decide)
    si.siErrno herror
  have hshort := (strcode_spec si.siSigno.toInt si.siCode.toInt).2
  rw [← ofString_strcode] at hshort
  have hcode := meant_meaningLine text "- code = %d (%s)\n" "- code = " rfl (by decide) si.siCode
    (hshort.trans_lt (by decide))
  rw [ofString_strcode] at hcode
  have hlines :=
    (bySigno_meant text si).append ((sender_meant text si).append (queued_meant text si))
  rw [← List.flatMap_append, ← List.flatMap_append] at hlines
  exact hsigno.cons (herrno.cons (hcode.cons hlines))

end Text

section Length

theorem length_intLine_le (name : String) (n : BitVec 32) :
    (intLine name n).length ≤ (ascii name).length + 11 := by
  have hnumber := length_signedField_le n
  rw [intLine, List.length_append]
  omega

/-- As many digits as 32 bits can have. -/
theorem length_longLine_le (name : String) (conv : UnsignedConv) {k : Nat} (hk : 0 < k)
    (hfits : 2 ^ 32 ≤ conv.base ^ k) (n : BitVec 64) :
    (longLine name conv n).length ≤ (ascii name).length + k := by
  have hnumber := length_unsignedField_le conv hk
    ((Nat.mod_lt n.toNat (by decide : 0 < 2 ^ 32)).trans_le hfits)
  rw [longLine, List.length_append]
  omega

theorem length_unsignedLine_le (name : String) (n : BitVec 64) :
    (longLine name .u n).length ≤ (ascii name).length + 10 :=
  length_longLine_le name .u (by decide) (by decide) n

theorem length_hexLine_le (name : String) (n : BitVec 64) :
    (longLine name .x n).length ≤ (ascii name).length + 8 :=
  length_longLine_le name .x (by decide) (by decide) n

variable (si : Siginfo)

theorem length_signoLines_le : ((signoLines si).flatMap (· ++ [chr '\n'])).length ≤ 65 := by
  have haddr := length_hexLine_le "- addr = 0x" si.siAddr
  have hstatus := length_intLine_le "- status = " si.siStatus
  have hutime := length_unsignedLine_le "- utime = " si.siUtime
  have hstime := length_unsignedLine_le "- stime = " si.siStime
  have hfd := length_intLine_le "- fd = " si.siFd
  have hnames : (ascii "- addr = 0x").length = 11 ∧ (ascii "- status = ").length = 11 ∧
      (ascii "- utime = ").length = 10 ∧ (ascii "- stime = ").length = 10 ∧
      (ascii "- fd = ").length = 7 := by decide
  unfold signoLines
  split_ifs <;> simp only [List.flatMap_cons, List.flatMap_nil, List.length_append,
    List.length_singleton, List.length_nil] <;> omega

theorem length_senderLines_le : ((senderLines si).flatMap (· ++ [chr '\n'])).length ≤ 38 := by
  have hpid := length_unsignedLine_le "- pid = " (si.siPid.signExtend 64)
  have huid := length_unsignedLine_le "- uid = " (si.siUid.setWidth 64)
  have hnames : (ascii "- pid = ").length = 8 ∧ (ascii "- uid = ").length = 8 := by decide
  unfold senderLines
  split <;> simp only [List.flatMap_cons, List.flatMap_nil, List.length_append,
    List.length_singleton, List.length_nil] <;> omega

theorem length_queuedLines_le : ((queuedLines si).flatMap (· ++ [chr '\n'])).length ≤ 39 := by
  have hint := length_intLine_le "- int = " si.siInt
  have hptr := length_hexLine_le "- ptr = 0x" si.siPtr
  have hnames : (ascii "- int = ").length = 8 ∧ (ascii "- ptr = 0x").length = 10 := by decide
  unfold queuedLines
  split <;> simp only [List.flatMap_cons, List.flatMap_nil, List.length_append,
    List.length_singleton, List.length_nil] <;> omega

/-- The text is short, apart from the messages of libc. -/
theorem length_siginfoText_le (messages : Messages) : (siginfoText messages si).length ≤
    256 + (messages.strsignal si.siSigno).chars.length +
      (messages.strerror si.siErrno).chars.length := by
  have hsigno := length_meaningLine_le "- signo = " si.siSigno
    (messages.strsignal si.siSigno).chars
  have herrno := length_meaningLine_le "- errno = " si.siErrno
    (messages.strerror si.siErrno).chars
  have hcode := length_meaningLine_le "- code = " si.siCode
    (ascii (strcode si.siSigno.toInt si.siCode.toInt))
  have hmeaning := (strcode_spec si.siSigno.toInt si.siCode.toInt).2
  have hnames : (ascii "- signo = ").length = 10 ∧ (ascii "- errno = ").length = 10 ∧
      (ascii "- code = ").length = 9 := by decide
  have hlines := length_signoLines_le si
  have hsender := length_senderLines_le si
  have hqueued := length_queuedLines_le si
  simp only [siginfoText, siginfoLines, List.flatMap_append, List.length_append]
  omega

end Length

/-! ## What it tells -/

theorem intLine_inj {name : String} {n n' : BitVec 32} :
    intLine name n = intLine name n' ↔ n = n' := by
  rw [intLine, intLine, List.append_cancel_left_eq, signedField_inj, BitVec.toInt_inj]

theorem longLine_inj {name : String} {conv : UnsignedConv} {n n' : BitVec 64} :
    longLine name conv n = longLine name conv n' ↔ n.toNat % 2 ^ 32 = n'.toNat % 2 ^ 32 := by
  rw [longLine, longLine, List.append_cancel_left_eq, unsignedField_noFlag, unsignedField_noFlag,
    digits_inj]

/-- A number can be told from its line, whatever its meaning, and the meaning from the number. -/
theorem meaningLine_append_inj (name : String) (meaning : BitVec 32 → List Byte) {n n' : BitVec 32}
    {rest rest' : List Byte} :
    meaningLine name n.toInt (meaning n) ++ rest = meaningLine name n'.toInt (meaning n') ++ rest' ↔
      n = n' ∧ rest = rest' := by
  have hblank : ∀ v, chr ' ' ∉ signedField noFlag 0 none v :=
    fun v hmem => absurd (mem_numberChars_of_mem_signedField hmem) (by decide)
  have hsplit : ∀ (n : BitVec 32) (rest : List Byte),
      meaningLine name n.toInt (meaning n) ++ rest =
        ascii name ++ (signedField noFlag 0 none n.toInt ++
          chr ' ' :: (chr '(' :: (meaning n ++ (ascii ")\n" ++ rest)))) := by
    intro n rest
    rw [meaningLine, List.append_assoc, List.append_assoc, List.append_assoc, List.append_assoc]
    rfl
  rw [hsplit, hsplit, List.append_cancel_left_eq, Delimited.append_cons_inj (hblank _) (hblank _),
    signedField_inj, BitVec.toInt_inj]
  refine and_congr_right fun heq => ?_
  subst heq
  simp

/-- Lines have no line end in them. -/
theorem newline_not_mem_intLine {name : String} (hname : chr '\n' ∉ ascii name) (n : BitVec 32) :
    chr '\n' ∉ intLine name n := by
  rw [intLine, List.mem_append, not_or]
  exact ⟨hname, fun hmem => absurd (mem_numberChars_of_mem_signedField hmem) (by decide)⟩

theorem newline_not_mem_longLine {name : String} (hname : chr '\n' ∉ ascii name)
    (conv : UnsignedConv) (n : BitVec 64) : chr '\n' ∉ longLine name conv n := by
  rw [longLine, unsignedField_noFlag, List.mem_append, not_or]
  exact ⟨hname, fun hmem => absurd (mem_numberChars_of_mem_digits hmem) (by decide)⟩

theorem newline_not_mem_siginfoLines (si : Siginfo) :
    ∀ line ∈ siginfoLines si, chr '\n' ∉ line := by
  have hint := @newline_not_mem_intLine
  have hlong := @newline_not_mem_longLine
  rw [siginfoLines, List.forall_mem_append, List.forall_mem_append]
  refine ⟨?_, ?_, ?_⟩
  · unfold signoLines
    split
    · split
      · exact List.forall_mem_singleton.mpr (hlong (by decide) _ _)
      · exact List.forall_mem_nil _
    split
    · rw [List.forall_mem_cons, List.forall_mem_cons, List.forall_mem_singleton]
      exact ⟨hint (by decide) _, hlong (by decide) _ _, hlong (by decide) _ _⟩
    split
    · exact List.forall_mem_singleton.mpr (hint (by decide) _)
    · exact List.forall_mem_nil _
  · unfold senderLines
    split
    · rw [List.forall_mem_cons, List.forall_mem_singleton]
      exact ⟨hlong (by decide) _ _, hlong (by decide) _ _⟩
    · exact List.forall_mem_nil _
  · unfold queuedLines
    split
    · rw [List.forall_mem_cons, List.forall_mem_singleton]
      exact ⟨hint (by decide) _, hlong (by decide) _ _⟩
    · exact List.forall_mem_nil _

/-- The signals are the same in what is printed of them: a number of 64 bits counts modulo
`2 ^ 32`. -/
structure SameShown (si si' : Siginfo) : Prop where
  signo : si.siSigno = si'.siSigno
  errno : si.siErrno = si'.siErrno
  code : si.siCode = si'.siCode
  addr : si.siSigno.toInt ∈ [4, 8, 11, 7, 5] → si.siCode.toInt ≠ siUser →
    si.siAddr.toNat % 2 ^ 32 = si'.siAddr.toNat % 2 ^ 32
  child : si.siSigno.toInt = sigchld → si.siStatus = si'.siStatus ∧
    si.siUtime.toNat % 2 ^ 32 = si'.siUtime.toNat % 2 ^ 32 ∧
    si.siStime.toNat % 2 ^ 32 = si'.siStime.toNat % 2 ^ 32
  fd : si.siSigno.toInt = 29 → si.siFd = si'.siFd
  sender : si.siSigno.toInt = sigchld ∨ si.siCode.toInt = siQueue ∨ si.siCode.toInt = siUser →
    si.siPid = si'.siPid ∧ si.siUid = si'.siUid
  queued : si.siCode.toInt = siQueue →
    si.siInt = si'.siInt ∧ si.siPtr.toNat % 2 ^ 32 = si'.siPtr.toNat % 2 ^ 32

section Inj

variable {si si' : Siginfo} (hsigno : si.siSigno = si'.siSigno) (hcode : si.siCode = si'.siCode)
include hsigno hcode

theorem signoLines_inj : signoLines si = signoLines si' ↔
    (si.siSigno.toInt ∈ [4, 8, 11, 7, 5] → si.siCode.toInt ≠ siUser →
      si.siAddr.toNat % 2 ^ 32 = si'.siAddr.toNat % 2 ^ 32) ∧
    (si.siSigno.toInt = sigchld → si.siStatus = si'.siStatus ∧
      si.siUtime.toNat % 2 ^ 32 = si'.siUtime.toNat % 2 ^ 32 ∧
      si.siStime.toNat % 2 ^ 32 = si'.siStime.toNat % 2 ^ 32) ∧
    (si.siSigno.toInt = 29 → si.siFd = si'.siFd) := by
  rw [signoLines, signoLines, ← hsigno, ← hcode]
  by_cases haddr : si.siSigno.toInt ∈ [4, 8, 11, 7, 5]
  · have hother : si.siSigno.toInt ≠ sigchld ∧ si.siSigno.toInt ≠ 29 := by
      constructor <;> intro heq <;> rw [heq] at haddr <;> exact absurd haddr (by decide)
    simp only [haddr, if_true, hother.1, hother.2, forall_true_left, false_imp_iff, and_true]
    by_cases huser : si.siCode.toInt = siUser
    · simp [huser]
    · simp [huser, longLine_inj]
  rw [if_neg haddr, if_neg haddr, and_iff_right (absurd · haddr)]
  by_cases hchild : si.siSigno.toInt = sigchld
  · simp [hchild, intLine_inj, longLine_inj]
  · by_cases hfd : si.siSigno.toInt = 29
    · simp [hfd, intLine_inj]
    · simp [hchild, hfd]

theorem senderLines_inj : senderLines si = senderLines si' ↔
    (si.siSigno.toInt = sigchld ∨ si.siCode.toInt = siQueue ∨ si.siCode.toInt = siUser →
      si.siPid = si'.siPid ∧ si.siUid = si'.siUid) := by
  have hpid : ∀ p : BitVec 32, (p.signExtend 64).toNat % 2 ^ 32 = p.toNat := by
    intro p
    rw [← BitVec.toNat_setWidth, setWidth_signExtend]
  have huid : ∀ u : BitVec 32, (u.setWidth 64).toNat % 2 ^ 32 = u.toNat := by
    intro u
    rw [BitVec.toNat_setWidth]
    omega
  rw [senderLines, senderLines, ← hsigno, ← hcode]
  split
  · next hshown =>
    rw [forall_prop_of_true hshown, List.cons.injEq, List.singleton_inj, longLine_inj, longLine_inj,
      hpid, hpid, huid, huid, BitVec.toNat_inj, BitVec.toNat_inj]
  · next hhidden => exact iff_of_true rfl (absurd · hhidden)

omit hsigno in
theorem queuedLines_inj : queuedLines si = queuedLines si' ↔
    (si.siCode.toInt = siQueue →
      si.siInt = si'.siInt ∧ si.siPtr.toNat % 2 ^ 32 = si'.siPtr.toNat % 2 ^ 32) := by
  rw [queuedLines, queuedLines, ← hcode]
  split
  · next hshown =>
    rw [forall_prop_of_true hshown, List.cons.injEq, List.singleton_inj, intLine_inj, longLine_inj]
  · next hhidden => exact iff_of_true rfl (absurd · hhidden)

/-- The groups of lines are as long for the same signal and code. -/
theorem siginfoLines_inj : siginfoLines si = siginfoLines si' ↔
    signoLines si = signoLines si' ∧ senderLines si = senderLines si' ∧
      queuedLines si = queuedLines si' := by
  have hfirst : (signoLines si).length = (signoLines si').length := by
    rw [signoLines, signoLines, ← hsigno, ← hcode]
    split_ifs <;> simp only [List.length_cons, List.length_nil]
  have hsecond : (senderLines si).length = (senderLines si').length := by
    rw [senderLines, senderLines, ← hsigno, ← hcode]
    split <;> simp only [List.length_cons, List.length_nil]
  rw [siginfoLines, siginfoLines]
  constructor
  · intro heq
    obtain ⟨hsigno, hrest⟩ := List.append_inj heq hfirst
    exact ⟨hsigno, List.append_inj hrest hsecond⟩
  · rintro ⟨hsigno, hsender, hqueued⟩
    rw [hsigno, hsender, hqueued]

end Inj

theorem siginfoText_inj (messages : Messages) {si si' : Siginfo} :
    siginfoText messages si = siginfoText messages si' ↔ SameShown si si' := by
  have hlines : siginfoLines si = siginfoLines si' ↔
      (siginfoLines si).flatMap (· ++ [chr '\n']) = (siginfoLines si').flatMap (· ++ [chr '\n']) :=
    (Delimited.flatMap_concat_inj (newline_not_mem_siginfoLines si)
      (newline_not_mem_siginfoLines si')).symm
  rw [siginfoText, siginfoText,
    meaningLine_append_inj "- signo = " fun n => (messages.strsignal n).chars,
    meaningLine_append_inj "- errno = " fun n => (messages.strerror n).chars]
  constructor
  · rintro ⟨hsigno, herrno, hrest⟩
    rw [hsigno, meaningLine_append_inj "- code = "
      fun n => ascii (strcode si'.siSigno.toInt n.toInt), ← hlines] at hrest
    obtain ⟨hcode, hrest⟩ := hrest
    rw [siginfoLines_inj hsigno hcode, signoLines_inj hsigno hcode, senderLines_inj hsigno hcode,
      queuedLines_inj hcode] at hrest
    exact ⟨hsigno, herrno, hcode, hrest.1.1, hrest.1.2.1, hrest.1.2.2, hrest.2.1, hrest.2.2⟩
  · intro h
    refine ⟨h.signo, h.errno, ?_⟩
    rw [h.signo, meaningLine_append_inj "- code = "
      fun n => ascii (strcode si'.siSigno.toInt n.toInt), ← hlines,
      siginfoLines_inj h.signo h.code, signoLines_inj h.signo h.code,
      senderLines_inj h.signo h.code, queuedLines_inj h.code]
    exact ⟨h.code, ⟨h.addr, h.child, h.fd⟩, h.sender, h.queued⟩

/-- For any two signals and wherever they are printed, if there is room: the strings that
`prettyprint_siginfo` leaves are the same if and only if the signals agree in all that is printed of
them, whatever the messages of libc are. -/
theorem siginfo_text_iff (vsnprintf : StringFormatter) (text : CStr → VaList → List Byte)
    (hconforms : Conforms vsnprintf text) (messages : Messages)
    (hmessages : ∀ n, (messages.strsignal n).chars.length < 2 ^ 30 ∧
      (messages.strerror n).chars.length < 2 ^ 30)
    (si si' : Siginfo) (ram ram' : Ram) (output output' : Nat) (size size' : BitVec 64)
    (hroom : (siginfoText messages si).length < size.toNat)
    (hroom' : (siginfoText messages si').length < size'.toNat) :
    ∃ string string', printed vsnprintf ram output size (prettyprintSiginfo messages si) =
        .ok string ∧
      printed vsnprintf ram' output' size' (prettyprintSiginfo messages si') = .ok string' ∧
      (string = string' ↔ SameShown si si') := by
  have hprinted : ∀ (si : Siginfo) (ram : Ram) (output : Nat) (size : BitVec 64),
      (siginfoText messages si).length < size.toNat →
      printed vsnprintf ram output size (prettyprintSiginfo messages si) =
        .ok (siginfoText messages si) := by
    intro si ram output size hroom
    have hmeant := prettyprintSiginfo_meant text si (hmessages si.siSigno).1
      (hmessages si.siErrno).2
    rw [hmeant.printed_eq hconforms ram output (Nat.zero_lt_of_lt hroom),
      List.take_of_length_le (by omega)]
  exact ⟨_, _, hprinted si ram output size hroom, hprinted si' ram' output' size' hroom',
    siginfoText_inj messages⟩

/-- An access to an address that is not mapped. -/
def segfault (addr : BitVec 64) : Siginfo := ⟨11, 0, 1, addr, 0, 0, 0, 0, 0, 0, 0, 0⟩

/-- Two messages. -/
def someMessages : Messages :=
  ⟨fun _ => CStr.ofString "Segmentation fault", fun _ => CStr.ofString "Success"⟩

/-- Accesses to two addresses whose lower halves agree look the same. -/
theorem siginfo_text_iff_segfaults : ∃ string,
    printed plainVsnprintf ⟨fun _ => 0, []⟩ 100 2048
        (prettyprintSiginfo someMessages (segfault 0x10)) = .ok string ∧
      printed plainVsnprintf ⟨fun _ => 0, []⟩ 100 2048
        (prettyprintSiginfo someMessages (segfault 0x100000010)) = .ok string := by
  have hroom : ∀ addr, (siginfoText someMessages (segfault addr)).length < 2048 := by
    intro addr
    have hlength := length_siginfoText_le (segfault addr) someMessages
    have hmessages : (CStr.ofString "Segmentation fault").chars.length = 18 ∧
        (CStr.ofString "Success").chars.length = 7 := by decide
    simp only [someMessages] at hlength ⊢
    omega
  have hmessages : (CStr.ofString "Segmentation fault").chars.length < 2 ^ 30 ∧
      (CStr.ofString "Success").chars.length < 2 ^ 30 := by decide
  obtain ⟨string, string', hprinted, hprinted', hiff⟩ :=
    siginfo_text_iff plainVsnprintf _ conforms_plainVsnprintf someMessages (fun _ => hmessages)
      (segfault 0x10) (segfault 0x100000010) ⟨fun _ => 0, []⟩ ⟨fun _ => 0, []⟩ 100 100 2048
      2048 (hroom _) (hroom _)
  have hsame : string = string' := hiff.mpr
    ⟨rfl, rfl, rfl, fun _ _ => rfl, fun h => absurd h (by decide), fun _ => rfl,
      fun _ => ⟨rfl, rfl⟩, fun _ => ⟨rfl, rfl⟩⟩
  exact ⟨string, hprinted, hsame ▸ hprinted'⟩

end BazelPro.Print
