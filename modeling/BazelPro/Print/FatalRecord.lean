import BazelPro.Print.ErrorRecord

/-!
# The records of fatal signals

After the functions of `src/lib/zsignal.cc` that print a record about a signal, and
`print_error_asyncsignalsafe` in `src/lib/zlog.cc`. Where the messages of libc are not long, nothing
of such a record is cut. The results of the two calls of `write` are ignored, so the standard error
has the record from its first line to its last just where each call takes all that it is given
(`fatal_record_complete`).
-/

namespace BazelPro.Print

open C Positional

/-! ## The standard error -/

/-- The standard error: the bytes it has received, and how many times `write` was called on it. -/
structure Stderr where
  received : List Byte
  writes : Nat

/-- How many of its bytes the `k`-th call of `write` takes, or `none` where it fails: the kernel
decides. -/
abbrev WriteResults := Nat → List Byte → Option Nat

/-- `write(STDERR_FILENO, bytes, …)`, with its result. -/
def Stderr.write (results : WriteResults) (err : Stderr) (bytes : List Byte) : Stderr × Int :=
  match results err.writes bytes with
  | some n => (⟨err.received ++ bytes.take n, err.writes + 1⟩, min n bytes.length)
  | none => (⟨err.received, err.writes + 1⟩, -1)

/-- `print_error_asyncsignalsafe`. The length is an `int`, and the arrays have 2048 bytes. -/
def printErrorAsyncsignalsafe (results : WriteResults) (err : Stderr) (str : CStr) : Stderr :=
  -- both results are ignored
  let (err, _) := err.write results [chr '\n']
  let (err, _) := err.write results str.chars
  err

/-- The `k`-th call of `write` takes all that it is given. -/
def TakesAll (results : WriteResults) (k : Nat) (bytes : List Byte) : Prop :=
  ∃ n, results k bytes = some n ∧ bytes.length ≤ n

theorem Stderr.writes_write (results : WriteResults) (err : Stderr) (bytes : List Byte) :
    (err.write results bytes).1.writes = err.writes + 1 := by
  unfold Stderr.write
  split <;> rfl

/-- A call of `write` takes a beginning of what it is given: everything, or less. -/
theorem Stderr.received_write (results : WriteResults) (err : Stderr) {bytes : List Byte}
    (hbytes : bytes ≠ []) : ∃ k, (err.write results bytes).1.received =
      err.received ++ bytes.take k ∧ (bytes.length ≤ k ↔ TakesAll results err.writes bytes) := by
  unfold Stderr.write
  cases hresult : results err.writes bytes with
  | some n =>
      refine ⟨n, rfl, fun hle => ⟨n, hresult, hle⟩, fun htakes => ?_⟩
      obtain ⟨k, hk, hle⟩ := htakes
      rw [hresult, Option.some.injEq] at hk
      exact hk ▸ hle
  | none =>
      refine ⟨0, by simp, fun hle => ?_, fun htakes => ?_⟩
      · exact absurd (List.length_eq_zero_iff.mp (Nat.le_zero.mp hle)) hbytes
      · obtain ⟨k, hk, -⟩ := htakes
        rw [hresult] at hk
        cases hk

/-- A string reaches the standard error as a whole just where both calls of `write` take all that
they are given. -/
theorem received_printError_iff (results : WriteResults) (err : Stderr) {str : CStr}
    {bytes : List Byte} (hstr : str.chars = bytes) (hbytes : bytes ≠ []) :
    (printErrorAsyncsignalsafe results err str).received = err.received ++ chr '\n' :: bytes ↔
      TakesAll results err.writes [chr '\n'] ∧ TakesAll results (err.writes + 1) bytes := by
  subst hstr
  obtain ⟨i, hfirst, hi⟩ := Stderr.received_write results err (List.cons_ne_nil (chr '\n') [])
  obtain ⟨j, hsecond, hj⟩ := Stderr.received_write results (err.write results [chr '\n']).1 hbytes
  rw [Stderr.writes_write] at hj
  rw [← hi, ← hj]
  show ((err.write results [chr '\n']).1.write results str.chars).1.received = _ ↔ _
  rw [hsecond, hfirst, List.append_assoc, List.append_cancel_left_eq]
  constructor
  · intro heq
    have hlength := congrArg List.length heq
    simp only [List.length_append, List.length_take, List.length_cons, List.length_nil] at hlength ⊢
    omega
  · intro hle
    rw [List.take_of_length_le hle.1, List.take_of_length_le hle.2]
    rfl

/-! ## The formatters -/

/-- `prettyprint_siginfo_wrap`. -/
def prettyprintSiginfoWrap (messages : Messages) (si : Siginfo) : List Call :=
  print "\nThe following signal was received:\n" [] :: prettyprintSiginfo messages si

/-- `prettyprint_siginfo_and_ucontext`. -/
def prettyprintSiginfoAndUcontext (messages : Messages) (si : Siginfo) (trace : Backtrace) :
    List Call :=
  prettyprintSiginfoWrap messages si ++
    print "- Architecture specific information:\n" [] :: prettyprintUcontext trace

/-- A record about a signal is built in the array `error_record`, and printed. -/
def signalRecord (vsnprintf : StringFormatter) (results : WriteResults) (err : Stderr) (ram : Ram)
    (errorRecord : Nat) (seqNum : BitVec 32) (caller : Caller) (file : CStr) (line : BitVec 32)
    (asyncSignalSafe : Bool) (formatter : List Call) :
    Except Fault (Stderr × Ram × BitVec 32) := do
  let (ram, seqNum, _) ← errorCustom vsnprintf ram errorRecord seqNum caller
    (CStr.ofString "ysignal") file line asyncSignalSafe formatter
  let str : CStr := ⟨cString (load ram.bytes errorRecord errorMaxRecordSize.toNat),
    nul_not_mem_cString _⟩
  pure (printErrorAsyncsignalsafe results err str, ram, seqNum)

/-- `asyncsignalsafe_fatal_error_record`. -/
def asyncsignalsafeFatalErrorRecord (vsnprintf : StringFormatter) (results : WriteResults)
    (err : Stderr) (ram : Ram) (errorRecord : Nat) (seqNum : BitVec 32) (caller : Caller)
    (file : CStr) (line : BitVec 32) (messages : Messages) (si : Siginfo) :
    Except Fault (Stderr × Ram × BitVec 32) :=
  signalRecord vsnprintf results err ram errorRecord seqNum caller file line true
    (prettyprintSiginfoAndUcontext messages si caller.trace)

/-- `fatal_error_record`. -/
def fatalErrorRecord (vsnprintf : StringFormatter) (results : WriteResults) (err : Stderr)
    (ram : Ram) (errorRecord : Nat) (seqNum : BitVec 32) (caller : Caller) (file : CStr)
    (line : BitVec 32) (messages : Messages) (si : Siginfo) :
    Except Fault (Stderr × Ram × BitVec 32) :=
  signalRecord vsnprintf results err ram errorRecord seqNum caller file line false
    (prettyprintSiginfoWrap messages si)

/-! ## Their texts -/

/-- What `prettyprint_siginfo_wrap` prints. -/
def wrapText (messages : Messages) (si : Siginfo) : List Byte :=
  ascii "\nThe following signal was received:\n" ++ siginfoText messages si

/-- What `prettyprint_siginfo_and_ucontext` prints: of the return addresses, the lower halves. -/
def signalText (messages : Messages) (si : Siginfo) (trace : Backtrace) : List Byte :=
  wrapText messages si ++ (ascii "- Architecture specific information:\n" ++
    framesText (fun address => address.toNat % 2 ^ 32) trace)

/-- The messages about a signal, and the name of a file, are not long. -/
def NotLong (messages : Messages) (si : Siginfo) (file : CStr) : Prop :=
  (messages.strsignal si.siSigno).chars.length + (messages.strerror si.siErrno).chars.length +
    file.chars.length ≤ 400

section Texts

variable (text : CStr → VaList → List Byte) {messages : Messages} {si : Siginfo} {file : CStr}
  (hshort : NotLong messages si file)
include hshort

theorem prettyprintSiginfoWrap_meant :
    Meant text (prettyprintSiginfoWrap messages si) (wrapText messages si) := by
  unfold NotLong at hshort
  have hfirst := meant_literal text "\nThe following signal was received:\n" (by decide) (by decide)
    rfl
  exact hfirst.cons (prettyprintSiginfo_meant text si (by omega) (by omega))

theorem prettyprintSiginfoAndUcontext_meant (trace : Backtrace) :
    Meant text (prettyprintSiginfoAndUcontext messages si trace)
      (signalText messages si trace) :=
  (prettyprintSiginfoWrap_meant text hshort).append
    ((meant_literal text "- Architecture specific information:\n" (by decide) (by decide) rfl).cons
      (prettyprintUcontext_meant text trace))

end Texts

/-! ## Nothing is cut -/

/-- The arguments of the records. -/
def signalArgs (file : CStr) (line : BitVec 32) (asyncSignalSafe : Bool) : ErrorArgs :=
  ⟨0, CStr.ofString "ysignal", file, line, asyncSignalSafe⟩

theorem length_headLines_le (caller : Caller) (file : CStr) (line : BitVec 32)
    (asyncSignalSafe : Bool) :
    (headLines caller (signalArgs file line asyncSignalSafe)).length ≤ 123 + file.chars.length := by
  have hname := length_getSelfName_le caller.self
  have hthread := length_threadLine (getSelfNameAsyncSignalSafe caller.self).chars caller.threadId
  have hline := length_intLine_le "line number      : " line
  have hlengths : (ascii "user name        : ").length = 19 ∧
      (ascii "file name        : ").length = 19 ∧ (ascii "line number      : ").length = 19 ∧
      (CStr.ofString "ysignal").chars.length = 7 ∧ (ascii "\n").length = 1 := by decide
  have htype : ¬ (signalArgs file line asyncSignalSafe).type ≠ 0 := fun h => h rfl
  simp only [headLines, if_neg htype, stringLine, List.length_append, List.length_nil]
  simp only [signalArgs]
  omega

section Complete

variable {messages : Messages} {si : Siginfo} {file : CStr} (hshort : NotLong messages si file)
include hshort

theorem length_wrapText_le : (wrapText messages si).length + file.chars.length ≤ 692 := by
  have hsiginfo := length_siginfoText_le si messages
  have hfirst : (ascii "\nThe following signal was received:\n").length = 36 := by decide
  unfold NotLong at hshort
  rw [wrapText, List.length_append]
  omega

theorem length_signalText_le (trace : Backtrace) :
    (signalText messages si trace).length + file.chars.length ≤ 1539 := by
  have hwrap := length_wrapText_le hshort
  have hframes := length_framesText_le (f := fun a => a.toNat % 2 ^ 32) (k := 8) (le_refl 8)
    (fun a => Nat.mod_lt _ (by decide)) trace
  have hmiddle : (ascii "- Architecture specific information:\n").length = 37 := by decide
  rw [signalText, List.length_append, List.length_append]
  omega

/-- Both records fit. -/
theorem length_recordText_le (seqNum : BitVec 32) (caller : Caller) (line : BitVec 32) :
    (recordText seqNum caller (signalArgs file line true)
        (signalText messages si caller.trace)).length ≤ 2047 ∧
      (recordText seqNum caller (signalArgs file line false) (wrapText messages si)).length ≤
        2047 := by
  have hnumber := length_numberLines seqNum
  have hhead := length_headLines_le caller file line
  have hend : endLine.length = 41 := by decide
  have hstack : (callstackText caller.trace).length ≤ 1065 := by
    have hframes := length_framesText_le (k := 16) (by decide) BitVec.isLt caller.trace
    have hlengths : (ascii "\nCall stack :\n").length = 14 ∧ (ascii "\n").length = 1 := by decide
    rw [callstackText, List.length_append, List.length_append]
    omega
  constructor
  · have hdata := length_signalText_le hshort caller.trace
    have hsafe := hhead true
    simp only [recordText, List.length_append]
    show _ + (_ + (_ + (0 + _))) ≤ 2047
    omega
  · have hdata := length_wrapText_le hshort
    have hunsafe := hhead false
    simp only [recordText, List.length_append]
    show _ + (_ + (_ + ((callstackText caller.trace).length + _))) ≤ 2047
    omega

end Complete

/-- The last line is there in any case. -/
theorem le_length_recordText (seqNum : BitVec 32) (caller : Caller) (args : ErrorArgs)
    (data : List Byte) : 41 ≤ (recordText seqNum caller args data).length := by
  have hend : endLine.length = 41 := by decide
  simp only [recordText, List.length_append]
  omega

theorem recordText_ne_nil (seqNum : BitVec 32) (caller : Caller) (args : ErrorArgs)
    (data : List Byte) : recordText seqNum caller args data ≠ [] := by
  have hlast := le_length_recordText seqNum caller args data
  exact List.ne_nil_of_length_pos (by omega)

/-- How a record that is not cut comes about: it is in the array as a whole, and the standard error
has received it as a whole just where both calls of `write` take all that they are given. -/
def Recorded (results : WriteResults) (err : Stderr) (ram : Ram) (errorRecord : Nat)
    (seqNum : BitVec 32) (record : List Byte) (outcome : Except Fault (Stderr × Ram × BitVec 32)) :
    Prop :=
  ∃ err' ram', outcome = .ok (err', ram', seqNum + 1) ∧
    Wrote ram ram' errorRecord errorMaxRecordSize.toNat record ∧
    (err'.received = err.received ++ chr '\n' :: record ↔
      TakesAll results err.writes [chr '\n'] ∧ TakesAll results (err.writes + 1) record)

/-- A record about a signal that fits is not cut. -/
theorem signalRecord_recorded {vsnprintf : StringFormatter} {text : CStr → VaList → List Byte}
    (hconforms : Conforms vsnprintf text) (hstandard : Standard text) {formatter : List Call}
    {data : List Byte} (hformatter : Meant text formatter data) (results : WriteResults)
    (err : Stderr) (ram : Ram) (errorRecord : Nat) (seqNum : BitVec 32) (caller : Caller)
    {file : CStr} (hfile : file.chars.length < 2 ^ 30) (line : BitVec 32) (asyncSignalSafe : Bool)
    (hfits : (recordText seqNum caller (signalArgs file line asyncSignalSafe) data).length ≤ 2047) :
    Recorded results err ram errorRecord seqNum
      (recordText seqNum caller (signalArgs file line asyncSignalSafe) data)
      (signalRecord vsnprintf results err ram errorRecord seqNum caller file line asyncSignalSafe
        formatter) := by
  have happ : (CStr.ofString "ysignal").chars.length < 2 ^ 30 := by decide
  have hargs : (signalArgs file line asyncSignalSafe).Short := ⟨happ, hfile⟩
  obtain ⟨ram', hrecord, hwrote, hstring⟩ := error_record_law hstandard vsnprintf hconforms
    hformatter ram errorRecord seqNum caller hargs
  rw [List.take_of_length_le hfits] at hstring
  have hcustom : errorCustom vsnprintf ram errorRecord seqNum caller (CStr.ofString "ysignal") file
      line asyncSignalSafe formatter = .ok (ram', seqNum + 1, 0) := hrecord
  refine ⟨printErrorAsyncsignalsafe results err ⟨cString (load ram'.bytes errorRecord
    errorMaxRecordSize.toNat), nul_not_mem_cString _⟩, ram', ?_, hwrote, ?_⟩
  · simp only [signalRecord, hcustom, bind, Except.bind, pure, Except.pure]
  · refine received_printError_iff results err ?_ (recordText_ne_nil _ _ _ _)
    dsimp only
    exact hstring

/-- Where the messages of libc are not long, nothing is cut of the record of a fatal signal, and
nothing of that of a signal which is about to terminate the process: the number, the thread, the
signal, up to 30 frames, and the last line. The standard error has the record as a whole just where
both calls of `write` take all that they are given. -/
theorem fatal_record_complete (vsnprintf : StringFormatter) (text : CStr → VaList → List Byte)
    (hconforms : Conforms vsnprintf text) (hstandard : Standard text) (messages : Messages)
    (si : Siginfo) (file : CStr) (hshort : NotLong messages si file) (results : WriteResults)
    (err : Stderr) (ram : Ram) (errorRecord : Nat) (seqNum : BitVec 32) (caller : Caller)
    (line : BitVec 32) :
    Recorded results err ram errorRecord seqNum
        (recordText seqNum caller (signalArgs file line true)
          (signalText messages si caller.trace))
        (asyncsignalsafeFatalErrorRecord vsnprintf results err ram errorRecord seqNum caller file
          line messages si) ∧
      Recorded results err ram errorRecord seqNum
        (recordText seqNum caller (signalArgs file line false) (wrapText messages si))
        (fatalErrorRecord vsnprintf results err ram errorRecord seqNum caller file line messages
          si) := by
  obtain ⟨hsafe, hunsafe⟩ := length_recordText_le hshort seqNum caller line
  have hfile : file.chars.length < 2 ^ 30 := by
    unfold NotLong at hshort
    omega
  constructor
  · exact signalRecord_recorded hconforms hstandard
      (prettyprintSiginfoAndUcontext_meant text hshort caller.trace) results err ram errorRecord
      seqNum caller hfile line true hsafe
  · exact signalRecord_recorded hconforms hstandard (prettyprintSiginfoWrap_meant text hshort)
      results err ram errorRecord seqNum caller hfile line false hunsafe

/-- A segmentation fault in the thread `main`. The standard error is a terminal that takes
everything, or a pipe with room for one byte at a time. -/
theorem fatal_record_complete_segfault :
    let record := recordText 7 mainThread
      (signalArgs (CStr.ofString "src/lib/zsignal.cc") 119 true)
      (signalText someMessages (segfault 0x10) oneFrame)
    let run results := asyncsignalsafeFatalErrorRecord (textVsnprintf standardText) results ⟨[], 0⟩
      ⟨fun _ => 0, []⟩ 100 7 mainThread (CStr.ofString "src/lib/zsignal.cc") 119 someMessages
      (segfault 0x10)
    (∃ err ram, run (fun _ bytes => some bytes.length) = .ok (err, ram, 8) ∧
      err.received = chr '\n' :: record) ∧
    (∃ err ram, run (fun _ _ => some 1) = .ok (err, ram, 8) ∧
      err.received ≠ chr '\n' :: record) := by
  intro record run
  have hshort : NotLong someMessages (segfault 0x10) (CStr.ofString "src/lib/zsignal.cc") := by
    show (CStr.ofString "Segmentation fault").chars.length +
      (CStr.ofString "Success").chars.length + (CStr.ofString "src/lib/zsignal.cc").chars.length ≤ _
    decide
  have hlaw := fun results => (fatal_record_complete (textVsnprintf standardText) standardText
    (conforms_textVsnprintf _) standard_standardText someMessages (segfault 0x10) _ hshort results
    ⟨[], 0⟩ ⟨fun _ => 0, []⟩ 100 7 mainThread 119).1
  obtain ⟨err, ram, hrun, -, hall⟩ := hlaw fun _ bytes => some bytes.length
  obtain ⟨err', ram', hrun', -, hcut⟩ := hlaw fun _ _ => some 1
  refine ⟨⟨err, ram, hrun, hall.mpr ⟨⟨_, rfl, le_refl _⟩, ⟨_, rfl, le_refl _⟩⟩⟩, err', ram',
    hrun', ?_⟩
  intro hwhole
  obtain ⟨-, n, hn, hle⟩ := hcut.mp hwhole
  cases hn
  exact absurd ((le_length_recordText _ _ _ _).trans hle) (by decide)

end BazelPro.Print
