import BazelPro.C.Memory
import Mathlib.Data.List.Basic

/-!
# Signal delivery

After `src/lib/zsignal.cc`. A caught signal travels in two hops: the handler writes a record to
the self-pipe, and `selfpipe_cb` looks the user up in the table and adds a timer event that
carries the callback and its context to the user's thread, where `signal_cb` calls it. The
threads interleave freely: one step is one mutex section, one system call or one event. Mutex
operations, allocation and timer creation succeed. Signal numbers are those of Linux.
-/

namespace BazelPro.Zlib

open C

/-- `NSIG`. -/
abbrev nsig : Nat := 65

/-- A `signal_cb_t`: `NULL`, one of the functions of the file, or a user's. -/
inductive SignalCb where
  | null
  | doNothing
  | logErrorAndCallSystemDefaultHandler
  | user (n : Nat)
  deriving DecidableEq

/-- A `siginfo_t`: the signal number, and the bytes of its other members. -/
structure Siginfo where
  siSigno : Int
  rest : List Byte
  deriving DecidableEq

/-- `user_info_t`. The event loop and the context are pointers, 0 is `NULL`. -/
structure UserInfo where
  evbase : Nat
  cb : SignalCb
  ctxt : Nat
  deriving DecidableEq

/-- An empty entry of the table. -/
def UserInfo.empty : UserInfo := ⟨0, .null, 0⟩

/-- A record of the self-pipe. The number, which counts the records written, is not part of the
program. -/
structure Record where
  number : Nat
  siginfo : Siginfo
  deriving DecidableEq

/-- `signal_ctxt_t`, with the loop that its event belongs to. -/
structure SignalCtxt where
  record : Record
  userCb : SignalCb
  userCtxt : Nat
  base : Nat
  deriving DecidableEq

/-- `fatal_signals`: `SIGFPE`, `SIGILL`, `SIGSEGV`, `SIGBUS`, `SIGABRT`, `SIGSYS`. -/
def fatalSignals : List Int := [8, 4, 11, 7, 6, 31]

/-- `is_fatal`. -/
def isFatal (signo : Int) : Bool := fatalSignals.contains signo

/-! ## What a run leaves behind -/

/-- A change of the table: the signal number, and the user that was registered for it, or `none`
when its entry was cleared. -/
abbrev Op := Int × Option UserInfo

/-- A look at the table by `selfpipe_cb`: the record it had read, the user it found, and how many
changes of the table there were when it read the record and when it looked. -/
structure Lookup where
  record : Record
  found : Option UserInfo
  readTime : Nat
  time : Nat
  deriving DecidableEq

/-- The statics of the file, the self-pipe, the timer events and where `selfpipe_cb` is. The last
four fields record the run: the invocations, the changes of the table, the lookups, and the
records written. -/
structure State where
  users : Vector UserInfo nsig
  installed : List Int
  pipe : List Record
  reading : Option (Record × Nat)
  pending : List SignalCtxt
  invoked : List SignalCtxt
  history : List Op
  lookups : List Lookup
  written : List Siginfo

/-- A step of some thread. -/
inductive Act where
  /-- `zsignal_register(signo, cb, ctxt)` in a thread with this event loop -/
  | register (signo : Int) (cb : SignalCb) (ctxt loop : Nat)
  /-- `zsignal_deregister(signo)` -/
  | deregister (signo : Int)
  /-- `nonfatal_signal_handler` -/
  | arrive (siginfo : Siginfo)
  /-- the `read` of `selfpipe_cb` -/
  | read
  /-- the mutex section of `selfpipe_cb` -/
  | lookup
  /-- `signal_cb`, for one of the timer events -/
  | fire (i : Nat)

namespace State

/-- The state after `create_selfpipe` in `zsignal_init`. -/
def blank : State where
  users := Vector.replicate nsig .empty
  installed := []
  pipe := []
  reading := none
  pending := []
  invoked := []
  history := []
  lookups := []
  written := []

/-- `&users[signo]`, which is undefined outside the array. -/
def user (s : State) (signo : Int) : Option UserInfo :=
  if 0 ≤ signo then s.users[signo.toNat]? else none

/-- A store to `users[signo]`. -/
def setUser (s : State) (signo : Int) (u : UserInfo) : State :=
  { s with users := s.users.setIfInBounds signo.toNat u }

/-- `zsignal_register`, with its return value. -/
def register (s : State) (signo : Int) (cb : SignalCb) (ctxt loop : Nat) : Option (State × Int) :=
  if isFatal signo then some (s, -1)
  else do
    let user ← s.user signo
    if user.cb ≠ .null then pure (s, -1)
    else
      let user := ⟨loop, cb, ctxt⟩
      pure ({ s.setUser signo user with
        installed := signo :: s.installed
        history := s.history ++ [(signo, some user)] }, signo)

/-- `zsignal_deregister`, with its return value. -/
def deregister (s : State) (signo : Int) : Option (State × Int) := do
  let _ ← s.user signo
  pure ({ s.setUser signo .empty with history := s.history ++ [(signo, none)] }, 0)

/-- `nonfatal_signal_handler`, for a signal that it is installed for. The pipe holds `capacity`
records; the write to a full pipe fails. -/
def arrive (capacity : Nat) (s : State) (siginfo : Siginfo) : Option State :=
  if siginfo.siSigno ∈ s.installed then
    if s.pipe.length < capacity then
      some { s with
        pipe := s.pipe ++ [⟨s.written.length, siginfo⟩]
        written := s.written ++ [siginfo] }
    else some s
  else none

/-- `read(fd, &siginfo, sizeof(siginfo))` at the beginning of `selfpipe_cb`. -/
def read (s : State) : Option State :=
  match s.reading, s.pipe with
  | some _, _ => none
  | none, [] => some s
  | none, record :: pipe => some { s with pipe := pipe, reading := some (record, s.history.length) }

/-- The rest of `selfpipe_cb`: the range check, and the lookup under the mutex. -/
def lookup (s : State) : Option State :=
  match s.reading with
  | none => none
  | some (record, readTime) =>
      let signo := record.siginfo.siSigno
      let looked (found : Option UserInfo) : State := { s with
        reading := none
        lookups := s.lookups ++ [⟨record, found, readTime, s.history.length⟩] }
      -- the check comes before the mutex is taken
      if signo < 0 ∨ signo ≥ nsig then some (looked none)
      else do
        let user ← s.user signo
        -- `send_signal_event` copies the callback and the context
        if user.cb ≠ .null then
          pure { looked (some user) with
            pending := s.pending ++ [⟨record, user.cb, user.ctxt, user.evbase⟩] }
        else pure (looked none)

/-- `signal_cb`, for the pending event number `i`. -/
def fire (s : State) (i : Nat) : Option State :=
  s.pending[i]?.map fun sigCtxt =>
    { s with pending := s.pending.eraseIdx i, invoked := s.invoked ++ [sigCtxt] }

/-- One step. -/
def step (capacity : Nat) (s : State) : Act → Option State
  | .register signo cb ctxt loop => (s.register signo cb ctxt loop).map Prod.fst
  | .deregister signo => (s.deregister signo).map Prod.fst
  | .arrive siginfo => s.arrive capacity siginfo
  | .read => s.read
  | .lookup => s.lookup
  | .fire i => s.fire i

/-- An interleaving. -/
def run (capacity : Nat) (s : State) (acts : List Act) : Option State :=
  acts.foldlM (step capacity) s

end State

/-- `install_default_nonfatal_signals_handlers`: `SIGPIPE`, `SIGHUP`, `SIGTERM`, `SIGINT`,
`SIGQUIT`, `SIGTRAP`, `SIGIO`, `SIGALRM`, `SIGUSR1`, `SIGUSR2`. -/
def installDefaults (loop : Nat) : List Act :=
  .register 13 .doNothing 0 loop ::
    [1, 15, 2, 3, 5, 29, 14, 10, 12].map fun signo =>
      .register signo .logErrorAndCallSystemDefaultHandler 0 loop

end BazelPro.Zlib
