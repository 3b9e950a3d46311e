import BazelPro.Zlib.Delivery
import Mathlib.Logic.Function.Basic

/-!
# Signals and the process

After the handlers of `src/lib/zsignal.cc`, `zsignal_raise`, `zsignal_abort` and
`log_error_and_call_system_default_handler`, for a process of several threads under Linux. A thread
has a stack of handlers that are in progress; the signals of these are blocked in it, as `sa_mask`
is empty. What is pending and not blocked in a thread is delivered before the thread goes on.
`SA_RESETHAND` gives a fatal signal back its default action when its handler is entered. Signal
delivery (`State`) is a part of the process, and its steps are calls of the threads; each thread
has the event loop of its own number. A handler for signals that are not fatal is one step.
-/

namespace BazelPro.Zlib

/-! ## Threads -/

/-- What a signal leads to. -/
inductive Disposition where
  | sigDfl
  | fatalSignalHandler
  | nonfatalSignalHandler
  deriving DecidableEq

/-- Where `fatal_signal_handler` is. -/
inductive FatalPc where
  /-- the test of `signum` and `abort_expected` -/
  | test
  | record
  | raise
  | ret
  deriving DecidableEq

/-- Where `zsignal_abort` is, behind the store to `abort_expected`. -/
inductive AbortPc where
  | print
  | raise
  | exit
  deriving DecidableEq

/-- Where `log_error_and_call_system_default_handler` is. -/
inductive LogPc where
  | record
  | setDefault
  | raise
  | ret
  deriving DecidableEq

/-- A `fatal_signal_handler` in progress. -/
structure Handler where
  siginfo : Siginfo
  pc : FatalPc
  deriving DecidableEq

/-- What a thread does below its handlers: code of the application, or one of the two functions
that raise signals. -/
inductive Base where
  | application
  | zsignalAbort (pc : AbortPc)
  | logError (siginfo : Siginfo) (pc : LogPc)
  deriving DecidableEq

/-- A thread: the handlers in progress, the last one first, and the signals that are pending. -/
structure Thread where
  handlers : List Handler
  base : Base
  pending : List Siginfo

/-- A thread that has not got any signals. -/
def Thread.fresh : Thread := ⟨[], .application, []⟩

/-- The signals that are blocked. -/
def Thread.blocked (t : Thread) : List Int := t.handlers.map fun h => h.siginfo.siSigno

/-- Something is pending that is not blocked. -/
def Thread.Interrupted (t : Thread) : Prop := ∃ si ∈ t.pending, si.siSigno ∉ t.blocked

instance (t : Thread) : Decidable t.Interrupted :=
  inferInstanceAs (Decidable (∃ si ∈ t.pending, si.siSigno ∉ t.blocked))

/-- A signal becomes pending. The real-time signals, from 32 on, queue; of the others one of each
number is pending at most. -/
def Thread.addPending (t : Thread) (si : Siginfo) : Thread :=
  if si.siSigno < 32 ∧ si.siSigno ∈ t.pending.map Siginfo.siSigno then t
  else { t with pending := t.pending ++ [si] }

/-! ## The process -/

/-- How a process has ended. -/
inductive End where
  | killed (signo : Int)
  | exited
  deriving DecidableEq

/-- `SIGABRT`. -/
abbrev sigabrt : Int := 6

/-- The signals whose default action is not to terminate: `SIGCHLD`, `SIGCONT`, `SIGSTOP`,
`SIGTSTP`, `SIGTTIN`, `SIGTTOU`, `SIGURG` and `SIGWINCH`. -/
def harmless : List Int := [17, 18, 19, 20, 21, 22, 23, 28]

/-- The signals that no handler can be installed for: `SIGKILL` and `SIGSTOP`. -/
def uncatchable : List Int := [9, 19]

/-- The signals that an instruction can cause: `SIGILL`, `SIGTRAP`, `SIGBUS`, `SIGFPE`, `SIGSEGV`
and `SIGSYS`. -/
def synchronous : List Int := [4, 5, 7, 8, 11, 31]

/-- The process. `initThread` is the one that has called `zsignal_init`. The last three fields
record the run: the signals that an error record was written about, whether `zsignal_abort` has
printed its message, and the signals that `fatal_signal_handler` was entered for, with the
thread. -/
structure Process where
  initThread : Nat
  delivery : State
  disposition : Int → Disposition
  threads : Nat → Thread
  abortExpected : Bool
  ended : Option End
  records : List Siginfo
  announced : Bool
  handled : List (Nat × Siginfo)

/-- A step of a thread, or a signal. -/
inductive Move where
  /-- the application, in this thread, calls a function of signal delivery -/
  | call (t : Nat) (a : Act)
  /-- the application calls `zsignal_raise(signo)` -/
  | raise (t : Nat) (signo : Int)
  /-- the application calls `zsignal_abort` -/
  | abort (t : Nat)
  /-- the thread goes on with a handler, or with a function that raises signals -/
  | run (t : Nat)
  /-- a signal is sent to the thread -/
  | send (t : Nat) (si : Siginfo)
  /-- a signal that is pending is delivered -/
  | deliver (t : Nat) (i : Nat)
  /-- the thread itself causes a signal, as by an access to an address that is not mapped -/
  | fault (t : Nat) (si : Siginfo)

/-- The thread whose application makes this step. -/
def Move.caller : Move → Option Nat
  | .call t _ | .raise t _ | .abort t => some t
  | .run _ | .send _ _ | .deliver _ _ | .fault _ _ => none

namespace Process

/-- Behind `install_all_fatal_signal_handlers` in `zsignal_init`. -/
def start (initThread : Nat) : Process where
  initThread := initThread
  delivery := State.blank
  disposition := fun signo => if isFatal signo then .fatalSignalHandler else .sigDfl
  threads := fun _ => .fresh
  abortExpected := false
  ended := none
  records := []
  announced := false
  handled := []

/-- A thread has changed. -/
def setThread (p : Process) (t : Nat) (thread : Thread) : Process :=
  { p with threads := Function.update p.threads t thread }

/-- `sigaction`, or `signal`, without a look at the return value. -/
def setDisposition (p : Process) (signo : Int) (d : Disposition) : Process :=
  if signo ∈ uncatchable then p
  else { p with disposition := Function.update p.disposition signo d }

/-- A signal becomes pending in a thread. -/
def send (p : Process) (t : Nat) (si : Siginfo) : Process :=
  p.setThread t ((p.threads t).addPending si)

/-- `raise`, in the thread. The other members of its siginfo are left out. -/
def raise (p : Process) (t : Nat) (signo : Int) : Process := p.send t ⟨signo, []⟩

/-- `fatal_signal_handler` is entered, and `SA_RESETHAND` restores the default action. -/
def enter (p : Process) (t : Nat) (si : Siginfo) : Process :=
  { p.setThread t { p.threads t with handlers := ⟨si, .test⟩ :: (p.threads t).handlers } with
    disposition := Function.update p.disposition si.siSigno .sigDfl
    handled := p.handled ++ [(t, si)] }

/-- A signal that is not blocked is delivered. -/
def deliverTo (capacity : Nat) (p : Process) (t : Nat) (si : Siginfo) : Option Process :=
  match p.disposition si.siSigno with
  | .sigDfl =>
      if si.siSigno ∈ harmless then some p else some { p with ended := some (.killed si.siSigno) }
  | .fatalSignalHandler => some (p.enter t si)
  | .nonfatalSignalHandler =>
      (p.delivery.arrive capacity si).map fun delivery => { p with delivery := delivery }

/-- `fatal_signal_handler` goes on. -/
def runHandler (p : Process) (t : Nat) (h : Handler) (rest : List Handler) : Process :=
  let goTo (pc : FatalPc) : Process :=
    p.setThread t { p.threads t with handlers := { h with pc := pc } :: rest }
  match h.pc with
  | .test =>
      if h.siginfo.siSigno = sigabrt ∧ p.abortExpected = true then goTo .raise else goTo .record
  | .record => { goTo .raise with records := p.records ++ [h.siginfo] }
  | .raise => (goTo .ret).raise t h.siginfo.siSigno
  | .ret => p.setThread t { p.threads t with handlers := rest }

/-- `zsignal_abort` goes on. -/
def runAbort (p : Process) (t : Nat) (pc : AbortPc) : Process :=
  let goTo (pc : AbortPc) : Process :=
    p.setThread t { p.threads t with base := .zsignalAbort pc }
  match pc with
  | .print => { goTo .raise with announced := true }
  | .raise => (goTo .exit).raise t sigabrt
  | .exit => { p with ended := some .exited }

/-- `log_error_and_call_system_default_handler` goes on. -/
def runLogError (p : Process) (t : Nat) (si : Siginfo) (pc : LogPc) : Process :=
  let goTo (pc : LogPc) : Process :=
    p.setThread t { p.threads t with base := .logError si pc }
  match pc with
  | .record => { goTo .setDefault with records := p.records ++ [si] }
  | .setDefault => (goTo .raise).setDisposition si.siSigno .sigDfl
  | .raise => (goTo .ret).raise t si.siSigno
  | .ret => p.setThread t { p.threads t with base := .application }

/-- The thread goes on where it is. The application itself has no steps here. -/
def run (p : Process) (t : Nat) : Option Process :=
  match (p.threads t).handlers with
  | h :: rest => some (p.runHandler t h rest)
  | [] =>
      match (p.threads t).base with
      | .application => none
      | .zsignalAbort pc => some (p.runAbort t pc)
      | .logError si pc => some (p.runLogError t si pc)

/-- The thread goes on with code of the application. -/
def InApplication (p : Process) (t : Nat) : Prop :=
  (p.threads t).handlers = [] ∧ (p.threads t).base = .application ∧ ¬ (p.threads t).Interrupted

instance (p : Process) (t : Nat) : Decidable (p.InApplication t) :=
  inferInstanceAs (Decidable (_ ∧ _))

/-- `zsignal_raise`, which refuses the fatal signals. -/
def zsignalRaise (p : Process) (t : Nat) (signo : Int) : Process × Int :=
  if isFatal signo then (p, -1)
  -- `raise` refuses what is not a signal
  else if 0 < signo ∧ signo < nsig then (p.raise t signo, 0)
  else (p, -1)

/-- A call of signal delivery, in the thread of the event loop `t`. -/
def call (p : Process) (t : Nat) : Act → Option Process
  | .arrive _ => none
  | .register signo cb ctxt loop =>
      if loop = t then do
        let (delivery, ret) ← p.delivery.register signo cb ctxt loop
        let p := { p with delivery := delivery }
        pure (if ret = -1 then p else p.setDisposition signo .nonfatalSignalHandler)
      else none
  | .fire i => do
      let sigCtxt ← p.delivery.pending[i]?
      if sigCtxt.base = t then
        let delivery ← p.delivery.fire i
        let p := { p with delivery := delivery }
        pure (if sigCtxt.userCb = .logErrorAndCallSystemDefaultHandler then
          p.setThread t { p.threads t with base := .logError sigCtxt.record.siginfo .record }
        else p)
      else none
  | .deregister signo => do
      let (delivery, _) ← p.delivery.deregister signo
      pure { p with delivery := delivery }
  -- `selfpipe_cb` is in the loop of the thread that has called `zsignal_init`
  | .read =>
      if t = p.initThread then p.delivery.read.map fun delivery => { p with delivery := delivery }
      else none
  | .lookup =>
      if t = p.initThread then p.delivery.lookup.map fun delivery => { p with delivery := delivery }
      else none

/-- One step. Nothing happens behind the end of the process. -/
def step (capacity : Nat) (p : Process) (m : Move) : Option Process :=
  if p.ended = none then
    match m with
    | .call t a => if p.InApplication t then p.call t a else none
    | .raise t signo => if p.InApplication t then some (p.zsignalRaise t signo).1 else none
    | .abort t =>
        if p.InApplication t then
          some { p.setThread t { p.threads t with base := .zsignalAbort .print } with
            abortExpected := true }
        else none
    | .run t => if (p.threads t).Interrupted then none else p.run t
    | .send t si => if 0 < si.siSigno ∧ si.siSigno < nsig then some (p.send t si) else none
    | .deliver t i => do
        let si ← (p.threads t).pending[i]?
        if si.siSigno ∈ (p.threads t).blocked then none
        else
          let p := p.setThread t { p.threads t with pending := (p.threads t).pending.eraseIdx i }
          p.deliverTo capacity t si
    | .fault t si =>
        if si.siSigno ∉ synchronous ∨ (p.threads t).Interrupted then none
        -- a signal that is blocked cannot be held back here
        else if si.siSigno ∈ (p.threads t).blocked then
          some { p with ended := some (.killed si.siSigno) }
        else p.deliverTo capacity t si
  else none

/-- An interleaving. -/
def runAll (capacity : Nat) (p : Process) (moves : List Move) : Option Process :=
  moves.foldlM (step capacity) p

/-- The rest of `zsignal_init`, in the thread number `loop`. -/
def init (loop : Nat) : List Move := (installDefaults loop).map (.call loop)

end Process

end BazelPro.Zlib
