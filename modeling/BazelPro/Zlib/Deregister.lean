import BazelPro.Zlib.Delivery

/-!
# What a deregistration stops

`zsignal_deregister` clears the entry of the table and leaves the timer events alone, which carry
a callback and a context of their own. So an event that was pending then still fires; every other
invocation for the signal has a callback and a context registered after it.
-/

namespace BazelPro.Zlib

namespace State

variable {capacity : Nat} {signo : Int} {t s s' : State}

/-- What the invocations for `signo` may be in a state that comes after `t`: `ops` are the changes
of the table since `t`, and `fired` the invocations. -/
structure Since (signo : Int) (t s : State) (ops : List Op) (fired : List SignalCtxt) : Prop where
  history : s.history = t.history ++ ops
  invoked : s.invoked = t.invoked ++ fired
  /-- the entry was made after `t` -/
  entry : ∀ user, s.user signo = some user → user.cb ≠ .null → (signo, some user) ∈ ops
  /-- a timer event was pending in `t`, or its user was registered after `t` -/
  events : ∀ d ∈ s.pending ++ fired, d.record.siginfo.siSigno = signo →
    d ∈ t.pending ∨ ∃ user, (signo, some user) ∈ ops ∧ d.userCb = user.cb ∧ d.userCtxt = user.ctxt

/-- Right after the deregistration there is no entry, and nothing has fired. -/
theorem Since.refl {ret : Int} (h : t.deregister signo = some (s, ret)) :
    Since signo s s [] [] := by
  obtain ⟨old, hold, hpair⟩ := Option.bind_eq_some_iff.mp h
  cases hpair
  have hrange := (t.exists_user_iff signo).mp ⟨old, hold⟩
  refine ⟨(List.append_nil _).symm, (List.append_nil _).symm, fun user huser hcb => ?_,
    fun d hd _ => ?_⟩
  · have hempty : (t.setUser signo .empty).user signo = some user := huser
    rw [user_setUser_self hrange, Option.some.injEq] at hempty
    exact absurd (hempty ▸ rfl : user.cb = .null) hcb
  · exact Or.inl (List.append_nil t.pending ▸ hd)

/-- A change of the table, seen from `signo`. -/
theorem Since.change {ops : List Op} {fired : List SignalCtxt} (h : Since signo t s ops fired)
    {signo' : Int} (hrange : 0 ≤ signo' ∧ signo' < nsig) (v : Option UserInfo)
    (installed : List Int) :
    Since signo t { s.setUser signo' (v.getD .empty) with
      installed := installed
      history := s.history ++ [(signo', v)] } (ops ++ [(signo', v)]) fired := by
  refine ⟨?_, h.invoked, fun user huser hcb => ?_, fun d hd hsigno => ?_⟩
  · show s.history ++ _ = _
    rw [h.history, List.append_assoc]
  · change (s.setUser signo' (v.getD .empty)).user signo = some user at huser
    by_cases heq : signo' = signo
    · subst heq
      rw [user_setUser_self hrange, Option.some.injEq] at huser
      -- a cleared entry has no callback, so it is a registration that was made now
      cases v with
      | none => exact absurd (huser ▸ rfl : user.cb = .null) hcb
      | some new =>
          obtain rfl : new = user := huser
          exact List.mem_append_right _ (List.mem_singleton_self _)
    · rw [user_setUser_ne hrange.1 heq] at huser
      exact List.mem_append_left _ (h.entry user huser hcb)
  · rcases h.events d hd hsigno with hpending | ⟨user, hmem, hpair⟩
    · exact Or.inl hpending
    · exact Or.inr ⟨user, List.mem_append_left _ hmem, hpair⟩

/-- Every step keeps `Since`. -/
theorem Since.step {ops : List Op} {fired : List SignalCtxt} (h : Since signo t s ops fired)
    {a : Act} (hstep : s.step capacity a = some s') :
    ∃ ops' fired', Since signo t s' ops' fired' := by
  cases step_effect hstep with
  | idle => exact ⟨ops, fired, h⟩
  | registered signo' user old hfatal hold hnull =>
      exact ⟨_, _, h.change ((s.exists_user_iff _).mp ⟨old, hold⟩) (some user) _⟩
  | deregistered signo' old hold =>
      exact ⟨_, _, h.change ((s.exists_user_iff _).mp ⟨old, hold⟩) none _⟩
  | arrived siginfo => exact ⟨ops, fired, h.history, h.invoked, h.entry, h.events⟩
  | read record pipe hreading hpipe =>
      exact ⟨ops, fired, h.history, h.invoked, h.entry, h.events⟩
  | dropped record readTime hreading hfound =>
      exact ⟨ops, fired, h.history, h.invoked, h.entry, h.events⟩
  | sent record readTime user hreading hfound hcb =>
      refine ⟨ops, fired, h.history, h.invoked, h.entry, fun d hd hsigno => ?_⟩
      change d ∈ (s.pending ++ [_]) ++ fired at hd
      rw [List.append_assoc, List.mem_append, List.mem_append, List.mem_singleton] at hd
      rcases hd with hpending | rfl | hfired
      · exact h.events d (List.mem_append_left _ hpending) hsigno
      · have hsigno : record.siginfo.siSigno = signo := hsigno
        exact Or.inr ⟨user, h.entry user (hsigno ▸ hfound) hcb, rfl, rfl⟩
      · exact h.events d (List.mem_append_right _ hfired) hsigno
  | fired i sigCtxt hpending =>
      refine ⟨ops, fired ++ [sigCtxt], h.history, ?_, h.entry, fun d hd hsigno => ?_⟩
      · show s.invoked ++ _ = _
        rw [h.invoked, List.append_assoc]
      · change d ∈ s.pending.eraseIdx i ++ (fired ++ [sigCtxt]) at hd
        rw [List.mem_append, List.mem_append, List.mem_singleton] at hd
        rcases hd with herased | hfired | rfl
        · exact h.events d (List.mem_append_left _ (List.mem_of_mem_eraseIdx herased)) hsigno
        · exact h.events d (List.mem_append_right _ hfired) hsigno
        · exact h.events d (List.mem_append_left _ (List.mem_of_getElem? hpending)) hsigno

/-- `Since` holds in every state that an interleaving reaches. -/
theorem Since.run {ops : List Op} {fired : List SignalCtxt} (h : Since signo t s ops fired)
    {acts : List Act} (hrun : s.run capacity acts = some s') :
    ∃ ops' fired', Since signo t s' ops' fired' :=
  PartialRun.invariant (P := fun s => ∃ ops fired, Since signo t s ops fired)
    (fun _ _ _ ⟨_, _, h⟩ hstep => h.step hstep) ⟨ops, fired, h⟩ hrun

end State

/-- After `zsignal_deregister(signo)` has returned, in any state and with any steps following: an
invocation for `signo` comes from a timer event that was pending at the deregistration, or its
callback and context were registered for `signo`, together, after it. -/
theorem deregister_stops (capacity : Nat) (signo ret : Int) (before t s : State)
    (after : List Act) (hderegister : before.deregister signo = some (t, ret))
    (hrun : t.run capacity after = some s) :
    ∃ ops fired, s.history = t.history ++ ops ∧ s.invoked = t.invoked ++ fired ∧
      ∀ d ∈ fired, d.record.siginfo.siSigno = signo →
        d ∈ t.pending ∨
        ∃ user, (signo, some user) ∈ ops ∧ d.userCb = user.cb ∧ d.userCtxt = user.ctxt := by
  obtain ⟨ops, fired, h⟩ := (State.Since.refl hderegister).run hrun
  exact ⟨ops, fired, h.history, h.invoked, fun d hd => h.events d (List.mem_append_right _ hd)⟩

/-- The state after a signal has gone both hops but the last, with its event pending. -/
def pendingEvent : State :=
  ((State.blank.run 4 (installDefaults 1 ++
    [.register 23 (.user 1) 7 1, .arrive ⟨23, []⟩, .read, .lookup])).getD .blank)

/-- The deregistration with that event pending, a second registration, and a second signal. -/
theorem deregister_stops_pendingEvent :
    ∃ (t s : State) (ops : List Op) (fired : List SignalCtxt),
      pendingEvent.deregister 23 = some (t, 0) ∧
      s.history = t.history ++ ops ∧ s.invoked = t.invoked ++ fired ∧ fired.length = 2 ∧
      ∀ d ∈ fired, d.record.siginfo.siSigno = 23 →
        d ∈ t.pending ∨
        ∃ user, ((23 : Int), some user) ∈ ops ∧ d.userCb = user.cb ∧ d.userCtxt = user.ctxt := by
  obtain ⟨ops, fired, hhistory, hinvoked, hfired⟩ := deregister_stops 4 23 0 pendingEvent _ _
    [.register 23 (.user 2) 8 1, .fire 0, .arrive ⟨23, []⟩, .read, .lookup, .fire 0] rfl rfl
  refine ⟨_, _, ops, fired, rfl, hhistory, hinvoked, ?_, hfired⟩
  have hlength : 2 = 0 + fired.length := (congrArg List.length hinvoked).trans List.length_append
  omega

/-- A callback that was deregistered, and never registered again, is called after
`zsignal_deregister` has returned. -/
theorem deregistered_callback_invoked :
    ¬ ∀ (capacity loop : Nat) (signo : Int) (before after : List Act) (t s : State),
      State.blank.run capacity (installDefaults loop ++ before ++ [.deregister signo]) = some t →
      t.run capacity after = some s →
      ∀ d ∈ s.invoked.drop t.invoked.length, d.record.siginfo.siSigno = signo →
        ∃ user, (signo, some user) ∈ s.history.drop t.history.length ∧
          d.userCb = user.cb ∧ d.userCtxt = user.ctxt := by
  intro hall
  obtain ⟨user, hmem, -⟩ := hall 4 1 23
    [.register 23 (.user 1) 7 1, .arrive ⟨23, []⟩, .read, .lookup] [.fire 0] _ _ rfl rfl
    ⟨⟨0, ⟨23, []⟩⟩, .user 1, 7, 1⟩ (by decide) rfl
  exact absurd hmem List.not_mem_nil

end BazelPro.Zlib
