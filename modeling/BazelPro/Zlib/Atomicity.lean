import BazelPro.Lib.PartialRun
import BazelPro.Zlib.Mutex

/-!
# The sections are atomic

The steps of `State` are whole sections under the mutex. This is no loss: whatever the stores and
loads of the threads interleave to, the calls in the order in which they take effect are a run of
`State` with the same return values, the same invocations and the same installed handlers, and with
the same table whenever the mutex is free (`sections_atomic`). A registration takes effect with
`sigaction`, when its entry is complete; a deregistration with its last store; a lookup when it
finds no callback, or with its timer event.
-/

namespace BazelPro.Zlib

namespace State

variable {s s' : State} {signo : Int}

theorem user_congr (h : s.users = s'.users) (signo : Int) : s.user signo = s'.user signo := by
  rw [user, user, h]

theorem users_setUser (s : State) (signo : Int) (u : UserInfo) :
    (s.setUser signo u).users = s.users.setIfInBounds signo.toNat u := rfl

/-- The entry that a table differs in. -/
theorem user_of_setUser {u v : UserInfo} (hold : s.user signo = some u)
    (h : s'.users = (s.setUser signo v).users) : s'.user signo = some v := by
  rw [user_congr h]
  exact user_setUser_self ((s.exists_user_iff signo).mp ⟨u, hold⟩) v

/-- A second store to the same entry. -/
theorem users_setUser_setUser {v : UserInfo} (h : s'.users = (s.setUser signo v).users)
    (w : UserInfo) : (s'.setUser signo w).users = (s.setUser signo w).users := by
  rw [users_setUser, users_setUser, h, users_setUser, Vector.setIfInBounds_setIfInBounds]

end State

/-! ## The relation -/

/-- What the table in memory is, by where the owner of the mutex is, in terms of a state in which
its call has not taken effect, or has. -/
def Table (memory s : State) : Pc → Prop
  | .register c .storeCb => memory.users = s.users ∧
      ∃ old, s.user c.signo = some old ∧ old.cb = .null
  | .register c .storeCtxt => ∃ old, s.user c.signo = some old ∧ old.cb = .null ∧
      memory.users = (s.setUser c.signo { old with cb := c.cb }).users
  | .register c .storeEvbase => ∃ old, s.user c.signo = some old ∧ old.cb = .null ∧
      memory.users = (s.setUser c.signo { old with cb := c.cb, ctxt := c.ctxt }).users
  | .register c .install => ∃ old, s.user c.signo = some old ∧ old.cb = .null ∧
      memory.users = (s.setUser c.signo ⟨c.loop, c.cb, c.ctxt⟩).users
  | .deregister signo .storeCb => ∃ old, s.user signo = some old ∧
      memory.users = (s.setUser signo { old with evbase := 0 }).users
  | .deregister signo .storeCtxt => ∃ old, s.user signo = some old ∧
      memory.users = (s.setUser signo { old with evbase := 0, cb := .null }).users
  | .lookup l .loadEvbase => memory.users = s.users ∧
      ∃ user, s.user l.signo = some user ∧ user.cb ≠ .null
  | .lookup l (.loadCb evbase) => memory.users = s.users ∧
      ∃ user, s.user l.signo = some user ∧ user.cb ≠ .null ∧ user.evbase = evbase
  | .lookup l (.loadCtxt evbase cb) => memory.users = s.users ∧
      ∃ user, s.user l.signo = some user ∧ user.cb ≠ .null ∧ user.evbase = evbase ∧ user.cb = cb
  | .lookup l (.send evbase cb ctxt) => memory.users = s.users ∧
      s.user l.signo = some ⟨evbase, cb, ctxt⟩ ∧ cb ≠ .null
  | _ => memory.users = s.users

/-- The table in memory depends on the tables only. -/
theorem Table.congr {memory memory' s s' : State} {pc : Pc} (h : Table memory s pc)
    (hmemory : memory'.users = memory.users) (hs : s'.users = s.users) :
    Table memory' s' pc := by
  have huser : ∀ signo, s'.user signo = s.user signo := State.user_congr hs
  have hset : ∀ signo u, (s'.setUser signo u).users = (s.setUser signo u).users := by
    intro signo u
    rw [State.users_setUser, State.users_setUser, hs]
  cases pc with
  | register c pc => cases pc <;> simpa only [Table, hmemory, hs, huser, hset] using h
  | deregister signo pc => cases pc <;> simpa only [Table, hmemory, hs, huser, hset] using h
  | lookup l pc => cases pc <;> simpa only [Table, hmemory, hs, huser, hset] using h
  | outside | range | lock | unlock => simpa only [Table, hmemory, hs] using h

/-- The memory is that of the state, but for the table and what the state records of the run. -/
structure SameMemory (memory s : State) : Prop where
  installed : memory.installed = s.installed
  pipe : memory.pipe = s.pipe
  pending : memory.pending = s.pending
  invoked : memory.invoked = s.invoked
  written : memory.written = s.written

/-- A store to an entry of the table. -/
theorem SameMemory.setUser {memory s : State} (h : SameMemory memory s) (signo : Int)
    (u : UserInfo) : SameMemory (memory.setUser signo u) s :=
  ⟨h.installed, h.pipe, h.pending, h.invoked, h.written⟩

theorem Pc.eq_outside {pc : Pc} (h : pc.isOutside = true) : pc = .outside := by
  cases pc <;> simp [isOutside] at h ⊢

namespace Machine

variable {m : Machine} {t : Nat} {pc : Pc}

theorem pc_goTo_self (m : Machine) (t : Nat) (pc : Pc) : (m.goTo t pc).pc t = pc :=
  Function.update_self _ _ _

theorem pc_goTo_ne (m : Machine) (pc : Pc) {t t' : Nat} (hne : t' ≠ t) :
    (m.goTo t pc).pc t' = m.pc t' :=
  Function.update_of_ne hne _ _

/-- A thread that goes on with the record it has. -/
theorem record_goTo (hrecord : pc.record = (m.pc t).record) (t' : Nat) :
    ((m.goTo t pc).pc t').record = (m.pc t').record := by
  by_cases heq : t' = t
  · rw [heq, pc_goTo_self, hrecord]
  · rw [pc_goTo_ne m pc heq]

end Machine

/-- The machine has come to a point that the state stands for. -/
structure Refines (m : Machine) (s : State) : Prop where
  memory : SameMemory m.memory s
  owner : ∀ t, (m.pc t).Inside ↔ m.owner = some t
  reading : s.reading.map Prod.fst = (m.pc m.initThread).record
  others : ∀ t, t ≠ m.initThread → (m.pc t).record = none
  free : m.owner = none → m.memory.users = s.users
  table : ∀ t, m.owner = some t → Table m.memory s (m.pc t)

theorem Refines.start (initThread : Nat) : Refines (.start initThread) .blank where
  memory := ⟨rfl, rfl, rfl, rfl, rfl⟩
  owner t := by simp [Machine.start, Pc.Inside]
  reading := rfl
  others _ _ := rfl
  free _ := rfl
  table t h := by simp [Machine.start] at h

namespace Refines

variable {capacity t : Nat} {m : Machine} {s s' : State} {memory : State} {pc : Pc}

/-- Only the thread of the self-pipe looks up, and its record is the one that was read. -/
theorem reader (h : Refines m s) {record : Record} (hrecord : (m.pc t).record = some record) :
    t = m.initThread ∧ ∃ readTime, s.reading = some (record, readTime) := by
  have hthread : t = m.initThread := by
    by_contra hne
    have hnone := h.others t hne
    rw [hrecord] at hnone
    cases hnone
  have hread := h.reading
  rw [← hthread, hrecord] at hread
  obtain ⟨⟨record', readTime⟩, hreading, hsame⟩ := Option.map_eq_some_iff.mp hread
  obtain rfl : record' = record := hsame
  exact ⟨hthread, readTime, hreading⟩

/-- A thread goes on, and does not lock or unlock. -/
theorem move (h : Refines m s) (hmemory : SameMemory memory s')
    (hreading : s'.reading = s.reading ∧ pc.record = (m.pc t).record ∨
      t = m.initThread ∧ s'.reading.map Prod.fst = pc.record)
    (hinside : pc.Inside ↔ (m.pc t).Inside) (htable : pc.Inside → Table memory s' pc)
    (hsame : ¬ pc.Inside → memory.users = m.memory.users ∧ s'.users = s.users) :
    Refines ({ m with memory := memory }.goTo t pc) s' := by
  have howner : pc.Inside ↔ m.owner = some t := hinside.trans (h.owner t)
  refine ⟨hmemory, fun t' => ?_, ?_, fun t' ht' => ?_, fun hfree => ?_, fun t' ht' => ?_⟩
  · show ((m.goTo t pc).pc t').Inside ↔ m.owner = some t'
    by_cases heq : t' = t
    · subst heq
      rw [m.pc_goTo_self]
      exact howner
    · rw [m.pc_goTo_ne pc heq]
      exact h.owner t'
  · show s'.reading.map Prod.fst = ((m.goTo t pc).pc m.initThread).record
    by_cases heq : m.initThread = t
    · rw [heq, m.pc_goTo_self]
      obtain ⟨hreading, hrecord⟩ | ⟨-, hreading⟩ := hreading
      · rw [hreading, h.reading, heq, hrecord]
      · exact hreading
    · rw [m.pc_goTo_ne pc heq]
      obtain ⟨hreading, -⟩ | ⟨hthread, -⟩ := hreading
      · rw [hreading, h.reading]
      · exact absurd hthread.symm heq
  · show ((m.goTo t pc).pc t').record = none
    by_cases heq : t' = t
    · subst heq
      rw [m.pc_goTo_self]
      obtain ⟨-, hrecord⟩ | ⟨hthread, -⟩ := hreading
      · rw [hrecord, h.others t' ht']
      · exact absurd hthread ht'
    · rw [m.pc_goTo_ne pc heq]
      exact h.others t' ht'
  · have hsome : m.owner ≠ some t := by
      rw [show m.owner = none from hfree]
      exact nofun
    have husers := hsame fun hpc => hsome (howner.mp hpc)
    exact husers.1.trans ((h.free hfree).trans husers.2.symm)
  · show Table memory s' ((m.goTo t pc).pc t')
    have ht' : m.owner = some t' := ht'
    by_cases heq : t' = t
    · subst heq
      rw [m.pc_goTo_self]
      exact htable (howner.mpr ht')
    · have hsome : m.owner ≠ some t := by
        rw [ht']
        exact fun hsome => heq (Option.some.inj hsome)
      have husers := hsame fun hpc => hsome (howner.mp hpc)
      rw [m.pc_goTo_ne pc heq]
      exact (h.table t' ht').congr husers.1 husers.2

/-- A thread goes on inside its section, and only its entry of the table changes. -/
theorem goTo (h : Refines m s) (hinside : (m.pc t).Inside) (hmemory : SameMemory memory s')
    (hreading : s'.reading = s.reading ∧ pc.record = (m.pc t).record ∨
      t = m.initThread ∧ s'.reading.map Prod.fst = pc.record)
    (hpc : pc.Inside) (htable : Table memory s' pc) :
    Refines ({ m with memory := memory }.goTo t pc) s' :=
  h.move hmemory hreading (iff_of_true hpc hinside) (fun _ => htable) fun hnot => absurd hpc hnot

/-- The handler and `signal_cb` leave the tables and the threads alone. -/
theorem stay (h : Refines m s) (hmemory : SameMemory memory s') (hreading : s'.reading = s.reading)
    (husers : memory.users = m.memory.users) (husers' : s'.users = s.users) :
    Refines { m with memory := memory } s' where
  memory := hmemory
  owner := h.owner
  reading := hreading ▸ h.reading
  others := h.others
  free hfree := husers.trans ((h.free hfree).trans husers'.symm)
  table t ht := (h.table t ht).congr husers husers'

/-- The log is not looked at. -/
theorem record (h : Refines m s) (a : Act) (ret : Int) : Refines (m.record a ret) s :=
  ⟨h.memory, h.owner, h.reading, h.others, h.free, h.table⟩

/-- Outside of the sections the tables are left alone. -/
theorem goOutside (h : Refines m s) (hout : ¬ (m.pc t).Inside) (hmemory : SameMemory memory s')
    (hreading : s'.reading = s.reading ∧ pc.record = (m.pc t).record ∨
      t = m.initThread ∧ s'.reading.map Prod.fst = pc.record)
    (hpc : ¬ pc.Inside) (husers : memory.users = m.memory.users ∧ s'.users = s.users) :
    Refines ({ m with memory := memory }.goTo t pc) s' :=
  h.move hmemory hreading (iff_of_false hpc hout) (fun hin => absurd hin hpc) fun _ => husers

/-- A function is called, and comes to `zmutex_lock`. -/
theorem call (h : Refines m s) (hpc : m.pc t = .outside) (c : Section)
    (hrecord : (Pc.lock c).record = none) : Refines (m.goTo t (.lock c)) s := by
  have hout : ¬ (m.pc t).Inside := by rw [hpc]; exact not_false
  refine h.goOutside hout h.memory (Or.inl ⟨rfl, ?_⟩) not_false ⟨rfl, rfl⟩
  rw [hpc, hrecord]
  rfl

/-- A call has taken effect, and the thread comes to `zmutex_unlock`. -/
theorem leave (h : Refines m s) (hinside : (m.pc t).Inside) (hmemory : SameMemory memory s')
    (hreading : s'.reading = s.reading ∧ (m.pc t).record = none ∨
      t = m.initThread ∧ s'.reading = none)
    (husers : memory.users = s'.users) (a : Act) (ret : Int) :
    Refines (({ m with memory := memory }.goTo t .unlock).record a ret) s' := by
  have hgo : Refines ({ m with memory := memory }.goTo t .unlock) s' := by
    refine h.goTo hinside hmemory ?_ trivial husers
    refine hreading.imp (fun hkept => ⟨hkept.1, hkept.2.symm⟩) fun hnone => ⟨hnone.1, ?_⟩
    rw [hnone.2]
    rfl
  exact hgo.record a ret

end Refines

/-! ## Sections -/

/-- A step is silent, or makes a call take effect. -/
def Simulates (capacity : Nat) (m m' : Machine) (s : State) : Prop :=
  ∃ log s', m'.log = m.log ++ log ∧ s.replay capacity log = some s' ∧ Refines m' s'

section

variable {capacity t : Nat} {m m' : Machine} {s s' : State}

theorem Simulates.silent (hlog : m'.log = m.log) (h : Refines m' s) : Simulates capacity m m' s :=
  ⟨[], s, by rw [hlog, List.append_nil], rfl, h⟩

theorem Simulates.effect {a : Act} {ret : Int} (hlog : m'.log = m.log ++ [(a, ret)])
    (hstep : s.stepReturning capacity (a, ret) = some s') (h : Refines m' s') :
    Simulates capacity m m' s := by
  refine ⟨[(a, ret)], s', hlog, ?_, h⟩
  rw [State.replay, List.foldlM_cons, hstep]
  rfl

/-- A store to a member of the entry. -/
theorem storeUser_eq_some {signo : Int} {f : UserInfo → UserInfo}
    (h : m.storeUser signo f = some m') : ∃ u, m.memory.user signo = some u ∧
      m' = { m with memory := m.memory.setUser signo (f u) } := by
  obtain ⟨u, hu, rfl⟩ := Option.map_eq_some_iff.mp h
  exact ⟨u, hu, rfl⟩

/-- `zsignal_register` goes on. -/
theorem Refines.nextRegister (h : Refines m s) {c : RegisterCall} {pc : RegisterPc}
    (hpc : m.pc t = .register c pc) (hstep : m.nextRegister t c pc = some m') :
    Simulates capacity m m' s := by
  have hinside : (m.pc t).Inside := by rw [hpc]; trivial
  have htable := h.table t ((h.owner t).mp hinside)
  rw [hpc] at htable
  have hsame : ∀ {pc' : RegisterPc}, s.reading = s.reading ∧
      (Pc.register c pc').record = (m.pc t).record := by
    rw [hpc]
    exact ⟨rfl, rfl⟩
  have hunlock : s.reading = s.reading ∧ (m.pc t).record = none := by
    rw [hpc]
    exact ⟨rfl, rfl⟩
  have hmemory := h.memory.setUser c.signo
  cases pc with
  | test =>
      obtain ⟨user, huser, hstep⟩ := Option.bind_eq_some_iff.mp hstep
      obtain rfl := Option.some.inj hstep
      rw [State.user_congr htable] at huser
      split
      · next hcb =>
        refine .effect rfl ?_ (h.leave hinside h.memory (Or.inl hunlock) htable _ _)
        simp [State.stepReturning, State.register, c.not_fatal, huser, hcb]
      · next hcb =>
        have hnull : user.cb = .null := by simpa using hcb
        exact .silent rfl
          (h.goTo hinside h.memory (Or.inl hsame) trivial ⟨htable, user, huser, hnull⟩)
  | storeCb =>
      obtain ⟨hsameTable, old, hold, hnull⟩ := htable
      obtain ⟨m₁, hstore, hstep⟩ := Option.bind_eq_some_iff.mp hstep
      obtain ⟨u, hu, rfl⟩ := storeUser_eq_some hstore
      obtain rfl := Option.some.inj hstep
      obtain rfl : old = u := by
        rw [State.user_congr hsameTable, hold] at hu
        exact Option.some.inj hu
      refine .silent rfl
        (h.goTo hinside (hmemory _) (Or.inl hsame) trivial ⟨old, hold, hnull, ?_⟩)
      rw [State.users_setUser, State.users_setUser, hsameTable]
  | storeCtxt =>
      obtain ⟨old, hold, hnull, husers⟩ := htable
      obtain ⟨m₁, hstore, hstep⟩ := Option.bind_eq_some_iff.mp hstep
      obtain ⟨u, hu, rfl⟩ := storeUser_eq_some hstore
      obtain rfl := Option.some.inj hstep
      rw [State.user_of_setUser hold husers] at hu
      cases hu
      refine .silent rfl
        (h.goTo hinside (hmemory _) (Or.inl hsame) trivial ⟨old, hold, hnull, ?_⟩)
      exact State.users_setUser_setUser husers _
  | storeEvbase =>
      obtain ⟨old, hold, hnull, husers⟩ := htable
      obtain ⟨m₁, hstore, hstep⟩ := Option.bind_eq_some_iff.mp hstep
      obtain ⟨u, hu, rfl⟩ := storeUser_eq_some hstore
      obtain rfl := Option.some.inj hstep
      rw [State.user_of_setUser hold husers] at hu
      cases hu
      refine .silent rfl
        (h.goTo hinside (hmemory _) (Or.inl hsame) trivial ⟨old, hold, hnull, ?_⟩)
      exact State.users_setUser_setUser husers _
  | install =>
      obtain ⟨old, hold, hnull, husers⟩ := htable
      obtain rfl := Option.some.inj hstep
      have hmemory : SameMemory
          { m.memory with installed := c.signo :: m.memory.installed }
          { s.setUser c.signo ⟨c.loop, c.cb, c.ctxt⟩ with
            installed := c.signo :: s.installed
            history := s.history ++ [(c.signo, some ⟨c.loop, c.cb, c.ctxt⟩)] } :=
        ⟨congrArg (c.signo :: ·) h.memory.installed, h.memory.pipe, h.memory.pending,
          h.memory.invoked, h.memory.written⟩
      refine .effect rfl ?_ (h.leave hinside hmemory (Or.inl hunlock) husers _ _)
      simp [State.stepReturning, State.register, c.not_fatal, hold, hnull]

/-- `zsignal_deregister` goes on. -/
theorem Refines.nextDeregister (h : Refines m s) {signo : Int} {pc : DeregisterPc}
    (hpc : m.pc t = .deregister signo pc) (hstep : m.nextDeregister t signo pc = some m') :
    Simulates capacity m m' s := by
  have hinside : (m.pc t).Inside := by rw [hpc]; trivial
  have htable := h.table t ((h.owner t).mp hinside)
  rw [hpc] at htable
  have hsame : ∀ {pc' : DeregisterPc}, s.reading = s.reading ∧
      (Pc.deregister signo pc').record = (m.pc t).record := by
    rw [hpc]
    exact ⟨rfl, rfl⟩
  have hunlock : s.reading = s.reading ∧ (m.pc t).record = none := by
    rw [hpc]
    exact ⟨rfl, rfl⟩
  have hmemory := h.memory.setUser signo
  cases pc with
  | storeEvbase =>
      obtain ⟨m₁, hstore, hstep⟩ := Option.bind_eq_some_iff.mp hstep
      obtain ⟨old, hold, rfl⟩ := storeUser_eq_some hstore
      obtain rfl := Option.some.inj hstep
      rw [State.user_congr htable] at hold
      refine .silent rfl (h.goTo hinside (hmemory _) (Or.inl hsame) trivial ⟨old, hold, ?_⟩)
      rw [State.users_setUser, State.users_setUser, show m.memory.users = s.users from htable]
  | storeCb =>
      obtain ⟨old, hold, husers⟩ := htable
      obtain ⟨m₁, hstore, hstep⟩ := Option.bind_eq_some_iff.mp hstep
      obtain ⟨u, hu, rfl⟩ := storeUser_eq_some hstore
      obtain rfl := Option.some.inj hstep
      rw [State.user_of_setUser hold husers] at hu
      cases hu
      refine .silent rfl (h.goTo hinside (hmemory _) (Or.inl hsame) trivial ⟨old, hold, ?_⟩)
      exact State.users_setUser_setUser husers _
  | storeCtxt =>
      obtain ⟨old, hold, husers⟩ := htable
      obtain ⟨m₁, hstore, hstep⟩ := Option.bind_eq_some_iff.mp hstep
      obtain ⟨u, hu, rfl⟩ := storeUser_eq_some hstore
      obtain rfl := Option.some.inj hstep
      rw [State.user_of_setUser hold husers] at hu
      cases hu
      have hcleared : SameMemory (m.memory.setUser signo .empty)
          { s.setUser signo .empty with history := s.history ++ [(signo, none)] } :=
        ⟨h.memory.installed, h.memory.pipe, h.memory.pending, h.memory.invoked, h.memory.written⟩
      refine .effect rfl ?_ (h.leave hinside hcleared (Or.inl hunlock)
        (State.users_setUser_setUser husers _) _ _)
      simp [State.stepReturning, State.deregister, hold]

/-- `selfpipe_cb` goes on. -/
theorem Refines.nextLookup (h : Refines m s) {l : LookupCall} {pc : LookupPc}
    (hpc : m.pc t = .lookup l pc) (hstep : m.nextLookup t l pc = some m') :
    Simulates capacity m m' s := by
  have hinside : (m.pc t).Inside := by rw [hpc]; trivial
  have htable := h.table t ((h.owner t).mp hinside)
  rw [hpc] at htable
  have hsame : ∀ {pc' : LookupPc}, s.reading = s.reading ∧
      (Pc.lookup l pc').record = (m.pc t).record := by
    rw [hpc]
    exact ⟨rfl, rfl⟩
  obtain ⟨hthread, readTime, hreading⟩ := h.reader (show _ = some l.record by rw [hpc]; rfl)
  cases pc with
  | test =>
      obtain ⟨user, huser, hstep⟩ := Option.bind_eq_some_iff.mp hstep
      obtain rfl := Option.some.inj hstep
      rw [State.user_congr htable] at huser
      split
      · next hcb =>
        exact .silent rfl
          (h.goTo hinside h.memory (Or.inl hsame) trivial ⟨htable, user, huser, hcb⟩)
      · next hcb =>
        have hmemory : SameMemory m.memory { s with
            reading := none
            lookups := s.lookups ++ [⟨l.record, none, readTime, s.history.length⟩] } :=
          ⟨h.memory.installed, h.memory.pipe, h.memory.pending, h.memory.invoked,
            h.memory.written⟩
        refine .effect rfl ?_ (h.leave hinside hmemory (Or.inr ⟨hthread, rfl⟩) htable _ _)
        rw [LookupCall.signo] at huser
        simp [State.stepReturning, State.step, State.lookup, hreading, huser, hcb]
  | loadEvbase =>
      obtain ⟨husers, user, huser, hcb⟩ := htable
      obtain ⟨user', huser', hstep⟩ := Option.bind_eq_some_iff.mp hstep
      obtain rfl := Option.some.inj hstep
      rw [State.user_congr husers, huser] at huser'
      cases huser'
      exact .silent rfl (h.goTo hinside h.memory (Or.inl hsame) trivial
        ⟨husers, user, huser, hcb, rfl⟩)
  | loadCb evbase =>
      obtain ⟨husers, user, huser, hcb, hevbase⟩ := htable
      obtain ⟨user', huser', hstep⟩ := Option.bind_eq_some_iff.mp hstep
      obtain rfl := Option.some.inj hstep
      rw [State.user_congr husers, huser] at huser'
      cases huser'
      exact .silent rfl (h.goTo hinside h.memory (Or.inl hsame) trivial
        ⟨husers, user, huser, hcb, hevbase, rfl⟩)
  | loadCtxt evbase cb =>
      obtain ⟨husers, user, huser, hcb, rfl, rfl⟩ := htable
      obtain ⟨user', huser', hstep⟩ := Option.bind_eq_some_iff.mp hstep
      obtain rfl := Option.some.inj hstep
      rw [State.user_congr husers, huser] at huser'
      cases huser'
      exact .silent rfl (h.goTo hinside h.memory (Or.inl hsame) trivial ⟨husers, huser, hcb⟩)
  | send evbase cb ctxt =>
      obtain ⟨husers, huser, hcb⟩ := htable
      obtain rfl := Option.some.inj hstep
      have hmemory : SameMemory
          { m.memory with
            pending := m.memory.pending ++ [(⟨l.record, cb, ctxt, evbase⟩ : SignalCtxt)] }
          { s with
            reading := none
            lookups := s.lookups ++
              [⟨l.record, some ⟨evbase, cb, ctxt⟩, readTime, s.history.length⟩]
            pending := s.pending ++ [⟨l.record, cb, ctxt, evbase⟩] } :=
        ⟨h.memory.installed, h.memory.pipe, congrArg (· ++ _) h.memory.pending, h.memory.invoked,
          h.memory.written⟩
      refine .effect rfl ?_ (h.leave hinside hmemory (Or.inr ⟨hthread, rfl⟩) husers _ _)
      rw [LookupCall.signo] at huser
      show s.lookup = some _
      rw [State.lookup, hreading]
      dsimp only
      rw [if_neg l.in_range, huser]
      exact if_pos hcb

/-! ## Steps -/

/-- `zmutex_lock` returns. -/
theorem Refines.lock (h : Refines m s) {c : Section} (hpc : m.pc t = .lock c)
    (hfree : m.owner = none) : Refines { m.goTo t c.begin with owner := some t } s := by
  have hrecord : c.begin.record = (m.pc t).record := by
    rw [hpc]
    cases c <;> rfl
  have hsame := Machine.record_goTo hrecord
  refine ⟨h.memory, fun t' => ?_, ?_, fun t' ht' => ?_, nofun, fun t' ht' => ?_⟩
  · show ((m.goTo t c.begin).pc t').Inside ↔ some t = some t'
    by_cases heq : t' = t
    · rw [heq, Machine.pc_goTo_self]
      exact iff_of_true (by cases c <;> trivial) rfl
    · rw [Machine.pc_goTo_ne m _ heq, h.owner, hfree]
      exact iff_of_false nofun fun hsome => heq (Option.some.inj hsome).symm
  · exact h.reading.trans (hsame _).symm
  · exact (hsame t').trans (h.others t' ht')
  · obtain rfl := Option.some.inj ht'
    show Table m.memory s ((m.goTo t c.begin).pc t)
    rw [Machine.pc_goTo_self]
    cases c <;> exact h.free hfree

/-- `zmutex_unlock`. -/
theorem Refines.unlock (h : Refines m s) (hpc : m.pc t = .unlock) :
    Refines { m.goTo t .outside with owner := none } s := by
  have howner : m.owner = some t := (h.owner t).mp (by rw [hpc]; trivial)
  have hsame := Machine.record_goTo (show Pc.outside.record = (m.pc t).record by rw [hpc]; rfl)
  refine ⟨h.memory, fun t' => ?_, ?_, fun t' ht' => ?_, fun _ => ?_, nofun⟩
  · refine iff_of_false ?_ nofun
    show ¬ ((m.goTo t .outside).pc t').Inside
    by_cases heq : t' = t
    · rw [heq, Machine.pc_goTo_self]
      exact not_false
    · rw [Machine.pc_goTo_ne m _ heq, h.owner, howner]
      exact fun hsome => heq (Option.some.inj hsome).symm
  · exact h.reading.trans (hsame _).symm
  · exact (hsame t').trans (h.others t' ht')
  · have htable := h.table t howner
    rwa [hpc] at htable

/-- A record out of range is dropped. -/
theorem Refines.drop (h : Refines m s) {record : Record} (hpc : m.pc t = .range record)
    (hrange : record.siginfo.siSigno < 0 ∨ record.siginfo.siSigno ≥ nsig) :
    Simulates capacity m ((m.goTo t .outside).record .lookup 0) s := by
  obtain ⟨hthread, readTime, hreading⟩ := h.reader (show _ = some record by rw [hpc]; rfl)
  have hmemory : SameMemory m.memory { s with
      reading := none
      lookups := s.lookups ++ [⟨record, none, readTime, s.history.length⟩] } :=
    ⟨h.memory.installed, h.memory.pipe, h.memory.pending, h.memory.invoked, h.memory.written⟩
  have hout : ¬ (m.pc t).Inside := by rw [hpc]; exact not_false
  have hleft : ¬ Pc.outside.Inside := not_false
  refine .effect rfl ?_
    ((h.goOutside hout hmemory (Or.inr ⟨hthread, rfl⟩) hleft ⟨rfl, rfl⟩).record _ _)
  show s.lookup = some _
  rw [State.lookup, hreading]
  exact if_pos hrange

/-- A thread goes on. -/
theorem Refines.next (h : Refines m s) (hstep : m.next t = some m') :
    Simulates capacity m m' s := by
  rw [Machine.next] at hstep
  cases hpc : m.pc t with
  | outside => simp [hpc] at hstep
  | range record =>
      simp only [hpc] at hstep
      split at hstep
      · next hrange =>
        obtain rfl := Option.some.inj hstep
        exact h.drop hpc hrange
      · obtain rfl := Option.some.inj hstep
        have hout : ¬ (m.pc t).Inside := by rw [hpc]; exact not_false
        refine .silent rfl (h.goOutside hout h.memory (Or.inl ⟨rfl, ?_⟩) not_false ⟨rfl, rfl⟩)
        rw [hpc]
        rfl
  | lock c =>
      simp only [hpc] at hstep
      split at hstep
      · next hfree =>
        obtain rfl := Option.some.inj hstep
        exact .silent rfl (h.lock hpc hfree)
      · cases hstep
  | register c pc =>
      simp only [hpc] at hstep
      exact h.nextRegister hpc hstep
  | deregister signo pc =>
      simp only [hpc] at hstep
      exact h.nextDeregister hpc hstep
  | lookup l pc =>
      simp only [hpc] at hstep
      exact h.nextLookup hpc hstep
  | unlock =>
      simp only [hpc] at hstep
      obtain rfl := Option.some.inj hstep
      exact .silent rfl (h.unlock hpc)

/-- The handler writes to the pipe. -/
theorem SameMemory.arrive {memory memory' s : State} (h : SameMemory memory s) {siginfo : Siginfo}
    (hstep : memory.arrive capacity siginfo = some memory') :
    ∃ s', s.arrive capacity siginfo = some s' ∧ SameMemory memory' s' ∧ s'.reading = s.reading ∧
      memory'.users = memory.users ∧ s'.users = s.users := by
  unfold State.arrive at hstep ⊢
  rw [← h.installed, ← h.pipe]
  split at hstep
  · next hinstalled =>
    rw [if_pos hinstalled]
    split at hstep
    · next hroom =>
      obtain rfl := Option.some.inj hstep
      rw [if_pos hroom]
      exact ⟨_, rfl, ⟨rfl, by rw [h.written], h.pending, h.invoked, by rw [h.written]⟩, rfl, rfl,
        rfl⟩
    · next hfull =>
      obtain rfl := Option.some.inj hstep
      rw [if_neg hfull]
      exact ⟨_, rfl, h, rfl, rfl, rfl⟩
  · cases hstep

/-- `signal_cb` takes a timer event. -/
theorem SameMemory.fire {memory memory' s : State} (h : SameMemory memory s) {i : Nat}
    (hstep : memory.fire i = some memory') :
    ∃ s', s.fire i = some s' ∧ SameMemory memory' s' ∧ s'.reading = s.reading ∧
      memory'.users = memory.users ∧ s'.users = s.users := by
  obtain ⟨sigCtxt, hget, rfl⟩ := Option.map_eq_some_iff.mp hstep
  rw [h.pending] at hget
  refine ⟨_, Option.map_eq_some_iff.mpr ⟨sigCtxt, hget, rfl⟩, ?_, rfl, rfl, rfl⟩
  exact ⟨h.installed, h.pipe, congrArg (·.eraseIdx i) h.pending,
    congrArg (· ++ [sigCtxt]) h.invoked, h.written⟩

/-- `selfpipe_cb` reads. -/
theorem Refines.read (h : Refines m s) (hthread : t = m.initThread)
    (hout : (m.pc t).isOutside = true) (hstep : m.step capacity (.read t) = some m') :
    Simulates capacity m m' s := by
  have hpc := Pc.eq_outside hout
  have hreading : s.reading = none := by
    have hread := h.reading
    rw [← hthread, hpc] at hread
    exact Option.map_eq_none_iff.mp hread
  rw [Machine.step, if_pos ⟨hthread, hout⟩] at hstep
  have hpipe := h.memory.pipe
  cases hrecords : m.memory.pipe with
  | nil =>
      rw [hrecords] at hstep hpipe
      obtain rfl := Option.some.inj hstep
      refine .effect rfl ?_ (h.record _ _)
      show s.read = some s
      rw [State.read, hreading, ← hpipe]
  | cons record pipe =>
      rw [hrecords] at hstep hpipe
      obtain rfl := Option.some.inj hstep
      have hmemory : SameMemory { m.memory with pipe := pipe }
          { s with pipe := pipe, reading := some (record, s.history.length) } :=
        ⟨h.memory.installed, rfl, h.memory.pending, h.memory.invoked, h.memory.written⟩
      have hin : ¬ (m.pc t).Inside := by rw [hpc]; exact not_false
      have hrange : ¬ (Pc.range record).Inside := not_false
      refine .effect rfl ?_
        ((h.goOutside hin hmemory (Or.inr ⟨hthread, rfl⟩) hrange ⟨rfl, rfl⟩).record _ _)
      show s.read = some _
      rw [State.read, hreading, ← hpipe]

/-- Every step is answered. -/
theorem Refines.step (h : Refines m s) {micro : Micro} (hstep : m.step capacity micro = some m') :
    Simulates capacity m m' s := by
  cases micro with
  | register t signo cb ctxt =>
      rw [Machine.step] at hstep
      split at hstep
      · next hout =>
        split at hstep
        · next hfatal =>
          obtain rfl := Option.some.inj hstep
          refine .effect rfl ?_ (h.record _ _)
          simp [State.stepReturning, State.register, hfatal]
        · next hfatal =>
          obtain rfl := Option.some.inj hstep
          exact .silent rfl (h.call (Pc.eq_outside hout) _ rfl)
      · cases hstep
  | deregister t signo =>
      rw [Machine.step] at hstep
      split at hstep
      · next hout =>
        obtain rfl := Option.some.inj hstep
        exact .silent rfl (h.call (Pc.eq_outside hout) _ rfl)
      · cases hstep
  | read t =>
      have hguard : t = m.initThread ∧ (m.pc t).isOutside = true := by
        rw [Machine.step] at hstep
        split at hstep
        · assumption
        · cases hstep
      exact h.read hguard.1 hguard.2 hstep
  | fire t i =>
      obtain ⟨sigCtxt, -, hstep⟩ := Option.bind_eq_some_iff.mp hstep
      split at hstep
      · obtain ⟨memory, hfire, hstep⟩ := Option.bind_eq_some_iff.mp hstep
        obtain rfl := Option.some.inj hstep
        obtain ⟨s', hs', hmemory, hreading, husers, husers'⟩ := h.memory.fire hfire
        exact .effect rfl hs' ((h.stay hmemory hreading husers husers').record _ _)
      · cases hstep
  | arrive siginfo =>
      obtain ⟨memory, harrive, hstep⟩ := Option.bind_eq_some_iff.mp hstep
      obtain rfl := Option.some.inj hstep
      obtain ⟨s', hs', hmemory, hreading, husers, husers'⟩ := h.memory.arrive harrive
      exact .effect rfl hs' ((h.stay hmemory hreading husers husers').record _ _)
  | next t => exact h.next hstep

end

/-! ## Runs -/

section

variable {capacity : Nat} {s s' : State}

end

end BazelPro.Zlib
