import BazelPro.Lib.Access
import BazelPro.Zlib.Delivery

/-!
# The range of the table

`selfpipe_cb` checks a signal number before it looks at the table; `zsignal_register`,
`zsignal_deregister` and `zsignal_reset_default` use the number of their caller as the index as it
is. Here their accesses to `users` are recorded, and the mutex may refuse the lock.
-/

namespace BazelPro.Zlib

open Accessing

/-- The indices of `users`, which are the signal numbers that `selfpipe_cb` accepts. -/
def InTable (signo : Int) : Prop := ¬ (signo < 0 ∨ signo ≥ nsig)

instance (signo : Int) : Decidable (InTable signo) := inferInstanceAs (Decidable (¬ _))

/-- The fatal signals have their places in the table. -/
theorem inTable_of_isFatal {signo : Int} (h : isFatal signo = true) : InTable signo := by
  have hfatal : ∀ n ∈ fatalSignals, InTable n := by decide
  exact hfatal signo (List.contains_iff_mem.mp h)

namespace State

variable {s : State} {signo : Int}

theorem exists_user_iff_inTable : (∃ u, s.user signo = some u) ↔ InTable signo := by
  rw [exists_user_iff, InTable]
  omega

/-! ## The entry points -/

/-- A load from `users[signo]`. -/
def loadUser (s : State) (signo : Int) : Accessing Int UserInfo := access signo (s.user signo)

/-- A store to `users[signo]`. -/
def storeUser (s : State) (signo : Int) (u : UserInfo) : Accessing Int State :=
  access signo ((s.user signo).map fun _ => s.setUser signo u)

/-- `zsignal_register`, where the lock may be refused. -/
def zsignalRegister (locked : Bool) (s : State) (signo : Int) (cb : SignalCb) (ctxt loop : Nat) :
    Accessing Int (State × Int) :=
  if isFatal signo then pure (s, -1)
  else if ¬ locked then pure (s, -1)
  else do
    let user ← s.loadUser signo
    if user.cb ≠ .null then pure (s, -1)
    else do
      let user : UserInfo := ⟨loop, cb, ctxt⟩
      let s ← s.storeUser signo user
      pure ({ s with
        installed := signo :: s.installed
        history := s.history ++ [(signo, some user)] }, signo)

/-- `zsignal_deregister`, where the lock may be refused. -/
def zsignalDeregister (locked : Bool) (s : State) (signo : Int) : Accessing Int (State × Int) :=
  if ¬ locked then pure (s, -1)
  else do
    let s ← s.storeUser signo .empty
    pure ({ s with history := s.history ++ [(signo, none)] }, 0)

/-- `zsignal_reset_default`: the two locks may be refused, and other threads do something between
them. -/
def zsignalResetDefault (first second : Bool) (between : State → State) (s : State) (signo : Int)
    (loop : Nat) : Accessing Int (State × Int) := do
  let (s, _) ← s.zsignalDeregister first signo
  let (s, _) ← (between s).zsignalRegister second signo .logErrorAndCallSystemDefaultHandler 0 loop
  pure (s, 0)

/-- With the lock, these are the functions that the other results are about. -/
theorem zsignalRegister_result (s : State) (signo : Int) (cb : SignalCb) (ctxt loop : Nat) :
    (s.zsignalRegister true signo cb ctxt loop).result = s.register signo cb ctxt loop := by
  unfold zsignalRegister register
  split
  · rfl
  rw [if_neg (by simp)]
  cases huser : s.user signo with
  | none => simp [loadUser, huser]
  | some user =>
      by_cases hnull : user.cb = .null
      · simp [loadUser, storeUser, setUser, huser, hnull]
      · simp [loadUser, huser, hnull]

theorem zsignalDeregister_result (s : State) (signo : Int) :
    (s.zsignalDeregister true signo).result = s.deregister signo := by
  unfold zsignalDeregister deregister
  cases huser : s.user signo <;> simp [storeUser, setUser, huser]

/-! ## The accesses -/

theorem within_loadUser : Within InTable (s.loadUser signo) ↔ InTable signo := within_access

theorem within_storeUser (u : UserInfo) : Within InTable (s.storeUser signo u) ↔ InTable signo :=
  within_access

theorem exact_loadUser : Exact InTable (s.loadUser signo) := exact_access exists_user_iff_inTable

theorem exact_storeUser (u : UserInfo) : Exact InTable (s.storeUser signo u) :=
  exact_access (by simp [exists_user_iff_inTable])

/-- A registration that gets as far as the table uses the number as it is. -/
theorem zsignalRegister_spec (locked : Bool) (cb : SignalCb) (ctxt loop : Nat) :
    Exact InTable (s.zsignalRegister locked signo cb ctxt loop) ∧
      (Within InTable (s.zsignalRegister locked signo cb ctxt loop) ↔
        (locked → InTable signo)) := by
  unfold zsignalRegister
  split
  · next hfatal =>
    exact ⟨exact_pure _, iff_of_true (within_pure _) fun _ => inTable_of_isFatal hfatal⟩
  split
  · next hlock => exact ⟨exact_pure _, iff_of_true (within_pure _) fun h => absurd h hlock⟩
  next hlock =>
  rw [within_bind, within_loadUser, imp_iff_right (not_not.mp hlock)]
  refine ⟨exact_loadUser.bind fun user _ => ?_, and_iff_left_of_imp fun htable user _ => ?_⟩
  · split
    · exact exact_pure _
    · exact (exact_storeUser _).bind fun _ _ => exact_pure _
  · split
    · exact within_pure _
    · exact within_bind.mpr ⟨(within_storeUser _).mpr htable, fun _ _ => within_pure _⟩

theorem zsignalDeregister_spec (locked : Bool) :
    Exact InTable (s.zsignalDeregister locked signo) ∧
      (Within InTable (s.zsignalDeregister locked signo) ↔ (locked → InTable signo)) := by
  unfold zsignalDeregister
  split
  · next hlock => exact ⟨exact_pure _, iff_of_true (within_pure _) fun h => absurd h hlock⟩
  next hlock =>
  rw [within_bind, within_storeUser, imp_iff_right (not_not.mp hlock)]
  exact ⟨(exact_storeUser _).bind fun _ _ => exact_pure _, and_iff_left fun _ _ => within_pure _⟩

/-- The reset ignores what its two parts return, and goes on. -/
theorem zsignalResetDefault_spec (first second : Bool) (between : State → State) (loop : Nat) :
    Exact InTable (s.zsignalResetDefault first second between signo loop) ∧
      (Within InTable (s.zsignalResetDefault first second between signo loop) ↔
        (first ∨ second → InTable signo)) := by
  obtain ⟨hderegister, hfirst⟩ := @zsignalDeregister_spec s signo first
  have hregister := fun t : State => @zsignalRegister_spec t signo second
    .logErrorAndCallSystemDefaultHandler 0 loop
  unfold zsignalResetDefault
  refine ⟨hderegister.bind fun r _ => (hregister _).1.bind fun _ _ => exact_pure _, ?_⟩
  rw [within_bind, hfirst, or_imp]
  refine and_congr_right fun hrange => ?_
  obtain ⟨r, hr⟩ := hderegister.mpr (hfirst.mpr hrange)
  rw [hr]
  simp only [Option.some.injEq, forall_eq']
  rw [within_bind, (hregister _).2]
  exact and_iff_left fun _ _ => within_pure _

end State

/-! ## Calls -/

open State

/-- A call of one of the three, with the locks that it gets. -/
inductive Call where
  | register (locked : Bool) (signo : Int) (cb : SignalCb) (ctxt loop : Nat)
  | deregister (locked : Bool) (signo : Int)
  | resetDefault (first second : Bool) (between : State → State) (signo : Int) (loop : Nat)

namespace Call

/-- The signal number of a call. -/
def signo : Call → Int
  | .register _ signo _ _ _ => signo
  | .deregister _ signo => signo
  | .resetDefault _ _ _ signo _ => signo

/-- The call gets a lock. -/
def Locks : Call → Prop
  | .register locked _ _ _ _ => locked
  | .deregister locked _ => locked
  | .resetDefault first second _ _ _ => first ∨ second

/-- The call in a state. -/
def exec (s : State) : Call → Accessing Int (State × Int)
  | .register locked signo cb ctxt loop => s.zsignalRegister locked signo cb ctxt loop
  | .deregister locked signo => s.zsignalDeregister locked signo
  | .resetDefault first second between signo loop =>
      s.zsignalResetDefault first second between signo loop

/-- The call returns -1 and leaves the table as it was. -/
def Refused (s : State) (call : Call) : Prop :=
  ∃ s', (call.exec s).result = some (s', -1) ∧ s'.users = s.users

/-- The call is refused, or it stays in the table. -/
def Safe (s : State) (call : Call) : Prop := call.Refused s ∨ Within InTable (call.exec s)

theorem exec_spec (s : State) (call : Call) :
    Exact InTable (call.exec s) ∧
      (Within InTable (call.exec s) ↔ (call.Locks → InTable call.signo)) := by
  cases call with
  | register locked signo cb ctxt loop => exact s.zsignalRegister_spec locked cb ctxt loop
  | deregister locked signo => exact s.zsignalDeregister_spec locked
  | resetDefault first second between signo loop =>
      exact s.zsignalResetDefault_spec first second between loop

/-- A call that leaves the table is not refused any more. -/
theorem safe_iff (s : State) (call : Call) :
    call.Safe s ↔ (call.Locks → InTable call.signo) := by
  obtain ⟨hexact, hwithin⟩ := exec_spec s call
  rw [← hwithin]
  constructor
  · rintro (⟨s', hresult, -⟩ | h)
    · exact hexact.mp ⟨_, hresult⟩
    · exact h
  · exact Or.inr

/-- Every call of a run is safe, as far as the run is defined. -/
def SafeRun : State → List Call → Prop
  | _, [] => True
  | s, call :: calls => call.Safe s ∧
      ∀ s' ret, (call.exec s).result = some (s', ret) → SafeRun s' calls

end Call

/-- In any state, for any run of the three functions and all signal numbers: every call is refused
with an unchanged table, or accesses it in its range only, if and only if each call that gets the
lock is given a number that `selfpipe_cb` would accept. -/
theorem safe_run_iff (s : State) (calls : List Call) :
    Call.SafeRun s calls ↔ ∀ call ∈ calls, call.Locks → InTable call.signo := by
  induction calls generalizing s with
  | nil => simp [Call.SafeRun]
  | cons call calls ih =>
      rw [Call.SafeRun, List.forall_mem_cons, Call.safe_iff]
      refine and_congr_right fun hcall => ?_
      obtain ⟨hexact, hwithin⟩ := call.exec_spec s
      obtain ⟨⟨s', ret⟩, hresult⟩ := hexact.mpr (hwithin.mpr hcall)
      rw [hresult]
      simp only [Option.some.injEq, Prod.mk.injEq]
      constructor
      · exact fun h => (ih s').mp (h s' ret ⟨rfl, rfl⟩)
      · rintro h _ _ ⟨rfl, rfl⟩
        exact (ih s').mpr h

/-- The number -1 is not refused. -/
theorem deregister_negative_unsafe : ¬ Call.SafeRun State.blank [.deregister true (-1)] := by
  intro h
  exact absurd ((Call.safe_iff _ _).mp h.1 rfl) (by decide)

end BazelPro.Zlib
