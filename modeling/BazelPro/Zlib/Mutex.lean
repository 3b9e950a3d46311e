import BazelPro.Zlib.Delivery
import Mathlib.Logic.Function.Basic

/-!
# Under the mutex

`zsignal_register`, `zsignal_deregister` and `selfpipe_cb` store by store and load by load, after
`src/lib/zsignal.cc` and `src/lib/zmutex.cc`. The threads interleave freely; a thread that calls
`zmutex_lock` goes on when the mutex is free. The handler and `signal_cb` take no mutex. The mutex
is recursive, but no thread that holds it asks for it. A call is logged, with what it returns, where
it takes effect.
-/

namespace BazelPro.Zlib

/-! ## Where a thread is -/

/-- A call of `zsignal_register` that has passed the check of `is_fatal`, with what `get_loop`
returns in its thread. -/
structure RegisterCall where
  signo : Int
  cb : SignalCb
  ctxt : Nat
  loop : Nat
  not_fatal : isFatal signo = false

/-- A record that has passed the range check of `selfpipe_cb`. -/
structure LookupCall where
  record : Record
  in_range : ¬ (record.siginfo.siSigno < 0 ∨ record.siginfo.siSigno ≥ nsig)

/-- The signal that the record is about. -/
def LookupCall.signo (l : LookupCall) : Int := l.record.siginfo.siSigno

/-- Where `zsignal_register` is. -/
inductive RegisterPc where
  | test
  | storeCb
  | storeCtxt
  | storeEvbase
  | install

/-- Where `zsignal_deregister` is. -/
inductive DeregisterPc where
  | storeEvbase
  | storeCb
  | storeCtxt

/-- Where `selfpipe_cb` is. The arguments of `send_signal_event` are loaded one by one. -/
inductive LookupPc where
  | test
  | loadEvbase
  | loadCb (evbase : Nat)
  | loadCtxt (evbase : Nat) (cb : SignalCb)
  | send (evbase : Nat) (cb : SignalCb) (ctxt : Nat)

/-- A section that needs the mutex. -/
inductive Section where
  | register (c : RegisterCall)
  | deregister (signo : Int)
  | lookup (l : LookupCall)

/-- Where a thread is. -/
inductive Pc where
  /-- in none of the three functions -/
  | outside
  /-- `selfpipe_cb` has read a record -/
  | range (record : Record)
  /-- at `zmutex_lock` -/
  | lock (s : Section)
  | register (c : RegisterCall) (pc : RegisterPc)
  | deregister (signo : Int) (pc : DeregisterPc)
  | lookup (l : LookupCall) (pc : LookupPc)
  /-- at `zmutex_unlock` -/
  | unlock

/-- Where a section begins. -/
def Section.begin : Section → Pc
  | .register c => .register c .test
  | .deregister signo => .deregister signo .storeEvbase
  | .lookup l => .lookup l .test

/-- The thread is in none of the three functions. -/
def Pc.isOutside : Pc → Bool
  | .outside => true
  | .range _ | .lock _ | .register .. | .deregister .. | .lookup .. | .unlock => false

/-- The thread holds the mutex. -/
def Pc.Inside : Pc → Prop
  | .outside | .range _ | .lock _ => False
  | .register .. | .deregister .. | .lookup .. | .unlock => True

/-- The record that was read, until it has been looked up. -/
def Pc.record : Pc → Option Record
  | .range record => some record
  | .lock (.lookup l) | .lookup l _ => some l.record
  | .outside | .lock _ | .register .. | .deregister .. | .unlock => none

/-! ## The machine -/

/-- The memory, the mutex and the threads. Of the memory, the table, the pipe, the timer events and
the installed handlers are used; `log` lists the calls in the order in which they take effect. -/
structure Machine where
  initThread : Nat
  memory : State
  owner : Option Nat
  pc : Nat → Pc
  log : List (Act × Int)

/-- A step of a thread, or of its handler. A thread has the event loop of its own number. -/
inductive Micro where
  /-- the thread calls `zsignal_register` -/
  | register (t : Nat) (signo : Int) (cb : SignalCb) (ctxt : Nat)
  /-- the thread calls `zsignal_deregister` -/
  | deregister (t : Nat) (signo : Int)
  /-- the event loop of the thread calls `selfpipe_cb` -/
  | read (t : Nat)
  /-- the event loop of the thread calls `signal_cb` -/
  | fire (t : Nat) (i : Nat)
  /-- `nonfatal_signal_handler`, wherever its thread is -/
  | arrive (siginfo : Siginfo)
  /-- the thread goes on -/
  | next (t : Nat)

namespace Machine

/-- Behind `create_selfpipe` in `zsignal_init`. -/
def start (initThread : Nat) : Machine := ⟨initThread, .blank, none, fun _ => .outside, []⟩

/-- A thread has gone on. -/
def goTo (m : Machine) (t : Nat) (pc : Pc) : Machine :=
  { m with pc := Function.update m.pc t pc }

/-- A call has taken effect. -/
def record (m : Machine) (a : Act) (ret : Int) : Machine := { m with log := m.log ++ [(a, ret)] }

/-- A store to a member of `users[signo]`. -/
def storeUser (m : Machine) (signo : Int) (f : UserInfo → UserInfo) : Option Machine :=
  (m.memory.user signo).map fun u => { m with memory := m.memory.setUser signo (f u) }

/-- `zsignal_register` goes on. -/
def nextRegister (m : Machine) (t : Nat) (c : RegisterCall) : RegisterPc → Option Machine
  | .test => do
      let user ← m.memory.user c.signo
      pure (if user.cb ≠ .null then
        (m.goTo t .unlock).record (.register c.signo c.cb c.ctxt c.loop) (-1)
      else m.goTo t (.register c .storeCb))
  | .storeCb => do
      let m ← m.storeUser c.signo fun u => { u with cb := c.cb }
      pure (m.goTo t (.register c .storeCtxt))
  | .storeCtxt => do
      let m ← m.storeUser c.signo fun u => { u with ctxt := c.ctxt }
      pure (m.goTo t (.register c .storeEvbase))
  | .storeEvbase => do
      let m ← m.storeUser c.signo fun u => { u with evbase := c.loop }
      pure (m.goTo t (.register c .install))
  | .install =>
      -- `sigaction`
      let m := { m with memory := { m.memory with installed := c.signo :: m.memory.installed } }
      some ((m.goTo t .unlock).record (.register c.signo c.cb c.ctxt c.loop) c.signo)

/-- `zsignal_deregister` goes on. -/
def nextDeregister (m : Machine) (t : Nat) (signo : Int) : DeregisterPc → Option Machine
  | .storeEvbase => do
      let m ← m.storeUser signo fun u => { u with evbase := 0 }
      pure (m.goTo t (.deregister signo .storeCb))
  | .storeCb => do
      let m ← m.storeUser signo fun u => { u with cb := .null }
      pure (m.goTo t (.deregister signo .storeCtxt))
  | .storeCtxt => do
      let m ← m.storeUser signo fun u => { u with ctxt := 0 }
      pure ((m.goTo t .unlock).record (.deregister signo) 0)

/-- `selfpipe_cb` goes on. -/
def nextLookup (m : Machine) (t : Nat) (l : LookupCall) : LookupPc → Option Machine
  | .test => do
      let user ← m.memory.user l.signo
      pure (if user.cb ≠ .null then m.goTo t (.lookup l .loadEvbase)
      else (m.goTo t .unlock).record .lookup 0)
  | .loadEvbase => do
      let user ← m.memory.user l.signo
      pure (m.goTo t (.lookup l (.loadCb user.evbase)))
  | .loadCb evbase => do
      let user ← m.memory.user l.signo
      pure (m.goTo t (.lookup l (.loadCtxt evbase user.cb)))
  | .loadCtxt evbase cb => do
      let user ← m.memory.user l.signo
      pure (m.goTo t (.lookup l (.send evbase cb user.ctxt)))
  | .send evbase cb ctxt =>
      let m := { m with memory := { m.memory with
        pending := m.memory.pending ++ [(⟨l.record, cb, ctxt, evbase⟩ : SignalCtxt)] } }
      some ((m.goTo t .unlock).record .lookup 0)

/-- A thread goes on where it is. -/
def next (m : Machine) (t : Nat) : Option Machine :=
  match m.pc t with
  | .outside => none
  | .range record =>
      if h : record.siginfo.siSigno < 0 ∨ record.siginfo.siSigno ≥ nsig then
        some ((m.goTo t .outside).record .lookup 0)
      else some (m.goTo t (.lock (.lookup ⟨record, h⟩)))
  | .lock s => if m.owner = none then some { m.goTo t s.begin with owner := some t } else none
  | .register c pc => m.nextRegister t c pc
  | .deregister signo pc => m.nextDeregister t signo pc
  | .lookup l pc => m.nextLookup t l pc
  | .unlock => some { m.goTo t .outside with owner := none }

/-- One step. -/
def step (capacity : Nat) (m : Machine) : Micro → Option Machine
  | .register t signo cb ctxt =>
      if (m.pc t).isOutside then
        if h : isFatal signo = true then some (m.record (.register signo cb ctxt t) (-1))
        else some (m.goTo t (.lock (.register ⟨signo, cb, ctxt, t, by simpa using h⟩)))
      else none
  | .deregister t signo =>
      if (m.pc t).isOutside then some (m.goTo t (.lock (.deregister signo))) else none
  | .read t =>
      if t = m.initThread ∧ (m.pc t).isOutside then
        match m.memory.pipe with
        | [] => some (m.record .read 0)
        | record :: pipe =>
            let m := { m with memory := { m.memory with pipe := pipe } }
            some ((m.goTo t (.range record)).record .read 0)
      else none
  | .fire t i => do
      let sigCtxt ← m.memory.pending[i]?
      if sigCtxt.base = t ∧ (m.pc t).isOutside then
        let memory ← m.memory.fire i
        pure ({ m with memory := memory }.record (.fire i) 0)
      else none
  | .arrive siginfo => do
      let memory ← m.memory.arrive capacity siginfo
      pure ({ m with memory := memory }.record (.arrive siginfo) 0)
  | .next t => m.next t

/-- An interleaving. -/
def run (capacity : Nat) (m : Machine) (micros : List Micro) : Option Machine :=
  micros.foldlM (step capacity) m

end Machine

namespace State

/-- A step of signal delivery, if it returns this. -/
def stepReturning (capacity : Nat) (s : State) : Act × Int → Option State
  | (.register signo cb ctxt loop, ret) => do
      let (s, r) ← s.register signo cb ctxt loop
      if r = ret then some s else none
  | (.deregister signo, ret) => do
      let (s, r) ← s.deregister signo
      if r = ret then some s else none
  | (a, _) => s.step capacity a

/-- The calls of a log, one after the other, with the results that they are said to return. -/
def replay (capacity : Nat) (s : State) (log : List (Act × Int)) : Option State :=
  log.foldlM (stepReturning capacity) s

end State

end BazelPro.Zlib
