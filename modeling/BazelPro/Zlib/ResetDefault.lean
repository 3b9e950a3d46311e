import BazelPro.Zlib.Delivery

/-!
# What may happen during a reset

`zsignal_reset_default` is two mutex sections, and the steps of the other threads come between
them: `selfpipe_cb` finds the entry empty there, and another thread may register its own callback,
so that the registration of the default handler is refused, which the return value does not say.
The reset is atomic if and only if neither happens (`reset_default_iff`).
-/

namespace BazelPro.Zlib

/-- The signal whose entry a step may change. -/
def Act.entry : Act → Option Int
  | .register signo _ _ _ => some signo
  | .deregister signo => some signo
  | _ => none

namespace State

variable {capacity : Nat} {signo : Int} {s s' t : State}

/-- `zsignal_reset_default`, with the steps of other threads between its two mutex sections: its
return value, and the one of `zsignal_register`, which it ignores. -/
def resetDefault (capacity : Nat) (s : State) (signo : Int) (loop : Nat) (between : List Act) :
    Option (State × Int × Int) := do
  let (s, _) ← s.deregister signo
  let s ← s.run capacity between
  let (s, registered) ← s.register signo .logErrorAndCallSystemDefaultHandler 0 loop
  pure (s, 0, registered)

/-- The entry has no callback. -/
def Vacant (signo : Int) (s : State) : Prop := ∃ u, s.user signo = some u ∧ u.cb = .null

/-- The entry has a callback. -/
def Occupied (signo : Int) (s : State) : Prop := ∃ u, s.user signo = some u ∧ u.cb ≠ .null

/-- The step registers a callback for `signo`. -/
def Registers (signo : Int) (a : Act) : Prop :=
  ∃ cb ctxt loop, a = .register signo cb ctxt loop ∧ cb ≠ .null

/-- The step looks up a record of `signo`. -/
def LooksUp (signo : Int) (s : State) (a : Act) : Prop :=
  a = .lookup ∧ ∃ record readTime, s.reading = some (record, readTime) ∧
    record.siginfo.siSigno = signo

/-- Some step of a run looks up a record of `signo`. -/
def SomeLooksUp (capacity : Nat) (signo : Int) : State → List Act → Prop
  | _, [] => False
  | s, a :: acts => LooksUp signo s a ∨
      ∃ s', s.step capacity a = some s' ∧ SomeLooksUp capacity signo s' acts

theorem Vacant.not_occupied (h : Vacant signo s) : ¬ Occupied signo s := by
  obtain ⟨u, hu, hnull⟩ := h
  rintro ⟨u', hu', hcb⟩
  rw [hu, Option.some.injEq] at hu'
  exact hcb (hu' ▸ hnull)

/-! ## The entry -/

/-- A vacant entry takes a registration. -/
theorem Vacant.register (h : Vacant signo s) (hfatal : isFatal signo = false) (cb : SignalCb)
    (ctxt loop : Nat) :
    ∃ s', s.register signo cb ctxt loop = some (s', signo) ∧
      s'.user signo = some ⟨loop, cb, ctxt⟩ ∧ s'.lookups = s.lookups := by
  obtain ⟨u, hu, hnull⟩ := h
  have hrange := (s.exists_user_iff signo).mp ⟨u, hu⟩
  refine ⟨{ s.setUser signo ⟨loop, cb, ctxt⟩ with
    installed := signo :: s.installed
    history := s.history ++ [(signo, some ⟨loop, cb, ctxt⟩)] }, ?_,
    user_setUser_self hrange ⟨loop, cb, ctxt⟩, rfl⟩
  rw [State.register, if_neg (by simp [hfatal]), hu]
  exact if_neg (not_not_intro hnull)

/-- An occupied one refuses it. -/
theorem Occupied.register (h : Occupied signo s) {cb : SignalCb} {ctxt loop : Nat} {ret : Int}
    (hregister : s.register signo cb ctxt loop = some (s', ret)) : ret = -1 ∧ s' = s := by
  obtain hrefused | ⟨-, -, old, hold, hnull, -⟩ := register_cases hregister
  · exact hrefused
  · exact absurd h (Vacant.not_occupied ⟨old, hold, hnull⟩)

/-- A step leaves the other entries alone, and only a lookup adds to the lookups. -/
theorem step_frame (signo : Int) {a : Act} (h : s.step capacity a = some s') :
    (a.entry ≠ some signo → s'.user signo = s.user signo) ∧
      (a ≠ .lookup → s'.lookups = s.lookups) := by
  cases a with
  | register signo' cb ctxt loop =>
      obtain ⟨⟨t, ret⟩, hregister, rfl⟩ := Option.map_eq_some_iff.mp h
      obtain ⟨-, rfl⟩ | ⟨-, -, old, hold, -, rfl⟩ := register_cases hregister
      · exact ⟨fun _ => rfl, fun _ => rfl⟩
      · have hrange := (s.exists_user_iff signo').mp ⟨old, hold⟩
        exact ⟨fun hne => user_setUser_ne hrange.1 (fun heq => hne (congrArg some heq)) _,
          fun _ => rfl⟩
  | deregister signo' =>
      obtain ⟨⟨t, ret⟩, hderegister, rfl⟩ := Option.map_eq_some_iff.mp h
      obtain ⟨old, hold, hpair⟩ := Option.bind_eq_some_iff.mp hderegister
      cases hpair
      have hrange := (s.exists_user_iff signo').mp ⟨old, hold⟩
      exact ⟨fun hne => user_setUser_ne hrange.1 (fun heq => hne (congrArg some heq)) _,
        fun _ => rfl⟩
  | arrive siginfo =>
      simp only [step, arrive] at h
      split at h
      · split at h <;> cases h <;> exact ⟨fun _ => rfl, fun _ => rfl⟩
      · cases h
  | read =>
      simp only [step, read] at h
      split at h <;> cases h <;> exact ⟨fun _ => rfl, fun _ => rfl⟩
  | lookup =>
      refine ⟨fun _ => ?_, fun hne => absurd rfl hne⟩
      simp only [step, lookup] at h
      split at h
      · cases h
      split at h
      · cases h
        rfl
      obtain ⟨user, huser, h⟩ := Option.bind_eq_some_iff.mp h
      split at h <;> cases h <;> rfl
  | fire i =>
      obtain ⟨sigCtxt, -, rfl⟩ := Option.map_eq_some_iff.mp h
      exact ⟨fun _ => rfl, fun _ => rfl⟩

/-- A step that changes the entry registers a callback for the signal, or deregisters it. -/
theorem user_step {a : Act} (hstep : s.step capacity a = some s')
    (hderegister : a ≠ .deregister signo)
    (hregister : ¬ ∃ cb ctxt loop, a = .register signo cb ctxt loop) :
    s'.user signo = s.user signo := by
  refine (step_frame signo hstep).1 fun hentry => ?_
  cases a with
  | register signo' cb ctxt loop =>
      obtain rfl : signo' = signo := Option.some.inj hentry
      exact hregister ⟨cb, ctxt, loop, rfl⟩
  | deregister signo' =>
      obtain rfl : signo' = signo := Option.some.inj hentry
      exact hderegister rfl
  | arrive | read | lookup | fire => cases hentry

theorem Occupied.step (h : Occupied signo s) {a : Act} (hderegister : a ≠ .deregister signo)
    (hstep : s.step capacity a = some s') : Occupied signo s' := by
  by_cases hregister : ∃ cb ctxt loop, a = .register signo cb ctxt loop
  · obtain ⟨cb, ctxt, loop, rfl⟩ := hregister
    obtain ⟨⟨t, ret⟩, hrefused, rfl⟩ := Option.map_eq_some_iff.mp hstep
    obtain ⟨-, rfl⟩ := h.register hrefused
    exact h
  · have huser := user_step hstep hderegister hregister
    unfold Occupied
    rwa [huser]

/-- A vacant entry is occupied by a step that registers a callback, and by no other. -/
theorem Vacant.step (h : Vacant signo s) (hfatal : isFatal signo = false) {a : Act}
    (hderegister : a ≠ .deregister signo) (hstep : s.step capacity a = some s') :
    (Registers signo a → Occupied signo s') ∧ (¬ Registers signo a → Vacant signo s') := by
  by_cases hregister : ∃ cb ctxt loop, a = .register signo cb ctxt loop
  · obtain ⟨cb, ctxt, loop, rfl⟩ := hregister
    obtain ⟨t, hregister, huser, -⟩ := h.register hfatal cb ctxt loop
    have : s' = t := by
      change (s.register signo cb ctxt loop).map Prod.fst = some s' at hstep
      rw [hregister] at hstep
      exact (Option.some.inj hstep).symm
    subst this
    refine ⟨?_, fun hnot => ⟨_, huser, ?_⟩⟩
    · rintro ⟨cb', ctxt', loop', heq, hcb⟩
      cases heq
      exact ⟨_, huser, hcb⟩
    · by_contra hcb
      exact hnot ⟨cb, ctxt, loop, rfl, hcb⟩
  · have huser := user_step hstep hderegister hregister
    refine ⟨?_, fun _ => ?_⟩
    · rintro ⟨cb, ctxt, loop, heq, -⟩
      exact absurd ⟨cb, ctxt, loop, heq⟩ hregister
    · unfold Vacant
      rwa [huser]

theorem Occupied.run (h : Occupied signo s) {acts : List Act}
    (hderegister : ∀ a ∈ acts, a ≠ .deregister signo) (hrun : s.run capacity acts = some s') :
    Occupied signo s' := by
  induction acts generalizing s with
  | nil =>
      cases hrun
      exact h
  | cons a acts ih =>
      rw [List.forall_mem_cons] at hderegister
      obtain ⟨t, hstep, hrest⟩ := Option.bind_eq_some_iff.mp hrun
      exact ih (h.step hderegister.1 hstep) hderegister.2 hrest

/-- A vacant entry is occupied by a run that registers a callback, and by no other. -/
theorem Vacant.run (h : Vacant signo s) (hfatal : isFatal signo = false) {acts : List Act}
    (hderegister : ∀ a ∈ acts, a ≠ .deregister signo) (hrun : s.run capacity acts = some s') :
    ((∃ a ∈ acts, Registers signo a) → Occupied signo s') ∧
      ((¬ ∃ a ∈ acts, Registers signo a) → Vacant signo s') := by
  induction acts generalizing s with
  | nil =>
      cases hrun
      exact ⟨fun ⟨_, ha, _⟩ => absurd ha List.not_mem_nil, fun _ => h⟩
  | cons a acts ih =>
      rw [List.forall_mem_cons] at hderegister
      obtain ⟨t, hstep, hrest⟩ := Option.bind_eq_some_iff.mp hrun
      obtain ⟨hoccupied, hvacant⟩ := h.step hfatal hderegister.1 hstep
      rw [List.exists_mem_cons_iff]
      by_cases ha : Registers signo a
      · exact ⟨fun _ => (hoccupied ha).run hderegister.2 hrest,
          fun hnone => absurd (Or.inl ha) hnone⟩
      · rw [or_iff_right ha]
        exact ih (hvacant ha) hderegister.2 hrest

/-! ## The lookups -/

/-- `selfpipe_cb` looks at the table for the record it has read. -/
theorem lookup_cases (h : s.lookup = some s') :
    ∃ record readTime found, s.reading = some (record, readTime) ∧
      s'.lookups = s.lookups ++ [⟨record, found, readTime, s.history.length⟩] ∧
      (Vacant record.siginfo.siSigno s → found = none) := by
  simp only [lookup] at h
  split at h
  · cases h
  next record readTime hreading =>
  split at h
  · cases h
    exact ⟨record, readTime, none, hreading, rfl, fun _ => rfl⟩
  obtain ⟨user, huser, h⟩ := Option.bind_eq_some_iff.mp h
  split at h
  · next hcb =>
    cases h
    refine ⟨record, readTime, some user, hreading, rfl, fun hvacant => ?_⟩
    exact absurd ⟨user, huser, hcb⟩ hvacant.not_occupied
  · cases h
    exact ⟨record, readTime, none, hreading, rfl, fun _ => rfl⟩

/-- While the entry is vacant, a look at it drops the signal. -/
theorem Vacant.lookups_step (h : Vacant signo s) {a : Act}
    (hstep : s.step capacity a = some s') :
    ∃ new, s'.lookups = s.lookups ++ new ∧
      ((∃ l ∈ new, l.record.siginfo.siSigno = signo ∧ l.found = none) ↔ LooksUp signo s a) := by
  by_cases ha : a = .lookup
  · subst ha
    obtain ⟨record, readTime, found, hreading, hlookups, hfound⟩ := lookup_cases hstep
    refine ⟨_, hlookups, ?_⟩
    constructor
    · rintro ⟨l, hl, hsigno, -⟩
      rw [List.mem_singleton] at hl
      subst hl
      exact ⟨rfl, record, readTime, hreading, hsigno⟩
    · rintro ⟨-, record', readTime', hreading', hsigno⟩
      rw [hreading, Option.some.injEq, Prod.mk.injEq] at hreading'
      obtain ⟨rfl, rfl⟩ := hreading'
      exact ⟨_, List.mem_singleton_self _, hsigno, hfound (hsigno ▸ h)⟩
  · refine ⟨[], by rw [(step_frame signo hstep).2 ha, List.append_nil], ?_⟩
    constructor
    · rintro ⟨l, hl, -⟩
      exact absurd hl List.not_mem_nil
    · rintro ⟨hlookup, -⟩
      exact absurd hlookup ha

theorem Vacant.lookups_run (h : Vacant signo s) (hfatal : isFatal signo = false)
    {acts : List Act} (hderegister : ∀ a ∈ acts, a ≠ .deregister signo)
    (hregister : ¬ ∃ a ∈ acts, Registers signo a) (hrun : s.run capacity acts = some s') :
    ∃ new, s'.lookups = s.lookups ++ new ∧
      ((∃ l ∈ new, l.record.siginfo.siSigno = signo ∧ l.found = none) ↔
        SomeLooksUp capacity signo s acts) := by
  induction acts generalizing s with
  | nil =>
      cases hrun
      refine ⟨[], (List.append_nil _).symm, ?_⟩
      simp [SomeLooksUp]
  | cons a acts ih =>
      rw [List.forall_mem_cons] at hderegister
      rw [List.exists_mem_cons_iff, not_or] at hregister
      obtain ⟨t, hstep, hrest⟩ := Option.bind_eq_some_iff.mp hrun
      have ht := (h.step hfatal hderegister.1 hstep).2 hregister.1
      obtain ⟨now, hnow, hlooks⟩ := h.lookups_step hstep
      obtain ⟨later, hlater, hlook⟩ := ih ht hderegister.2 hregister.2 hrest
      refine ⟨now ++ later, by rw [hlater, hnow, List.append_assoc], ?_⟩
      simp only [SomeLooksUp, hstep, Option.some.injEq, exists_eq_left', ← hlooks, ← hlook,
        List.mem_append, or_and_right, exists_or]

/-- `zsignal_deregister` leaves a vacant entry. -/
theorem deregister_vacant {ret : Int} (h : s.deregister signo = some (s', ret)) :
    Vacant signo s' ∧ s'.lookups = s.lookups := by
  obtain ⟨old, hold, hpair⟩ := Option.bind_eq_some_iff.mp h
  cases hpair
  have hrange := (s.exists_user_iff signo).mp ⟨old, hold⟩
  exact ⟨⟨.empty, user_setUser_self hrange .empty, rfl⟩, rfl⟩

/-- The reset's own registration succeeds if and only if no other thread registered a callback
after the deregistration. -/
theorem Vacant.register_after (h : Vacant signo s) (hfatal : isFatal signo = false)
    {acts : List Act} (hderegister : ∀ a ∈ acts, a ≠ .deregister signo)
    (hrun : s.run capacity acts = some t) {cb : SignalCb} {ctxt loop : Nat} {ret : Int}
    (hregister : t.register signo cb ctxt loop = some (s', ret)) :
    ret = signo ↔ ¬ ∃ a ∈ acts, Registers signo a := by
  obtain ⟨hoccupied, hvacant⟩ := h.run hfatal hderegister hrun
  obtain ⟨u, hu, -⟩ := h
  have hrange := (s.exists_user_iff signo).mp ⟨u, hu⟩
  constructor
  · rintro rfl hsome
    have hrefused := ((hoccupied hsome).register hregister).1
    omega
  · intro hnone
    obtain ⟨s'', hregistered, -⟩ := (hvacant hnone).register hfatal cb ctxt loop
    rw [hregistered, Option.some.injEq, Prod.mk.injEq] at hregister
    exact hregister.2.symm

theorem register_lookups {cb : SignalCb} {ctxt loop : Nat} {ret : Int}
    (h : s.register signo cb ctxt loop = some (s', ret)) : s'.lookups = s.lookups := by
  obtain ⟨-, rfl⟩ | ⟨-, -, old, -, -, rfl⟩ := register_cases h <;> rfl

/-- The two mutex sections of the reset, and the steps between them. -/
theorem resetDefault_cases {loop : Nat} {between : List Act} {ret registered : Int}
    (h : s.resetDefault capacity signo loop between = some (s', ret, registered)) :
    ∃ cleared deregistered t, s.deregister signo = some (cleared, deregistered) ∧
      cleared.run capacity between = some t ∧
      t.register signo .logErrorAndCallSystemDefaultHandler 0 loop = some (s', registered) ∧
      ret = 0 := by
  obtain ⟨⟨cleared, deregistered⟩, hderegister, h⟩ := Option.bind_eq_some_iff.mp h
  obtain ⟨t, hrun, h⟩ := Option.bind_eq_some_iff.mp h
  obtain ⟨⟨s'', registered'⟩, hregister, h⟩ := Option.bind_eq_some_iff.mp h
  cases h
  exact ⟨cleared, deregistered, t, hderegister, hrun, hregister, rfl⟩

end State

open State

/-- In any state, with any steps of the other threads but another deregistration of the same
signal between the two mutex sections: the reset of a signal that is not fatal lets no signal
fall into the empty entry and has made its own registration when it returns 0, if and only if
no record of the signal is looked up in between and no callback is registered for it. -/
theorem reset_default_iff (capacity : Nat) (s s' cleared : State) (signo ret registered out : Int)
    (loop : Nat) (between : List Act) (hfatal : isFatal signo = false)
    (hderegister : ∀ a ∈ between, a ≠ .deregister signo)
    (hcleared : s.deregister signo = some (cleared, out))
    (hreset : s.resetDefault capacity signo loop between = some (s', ret, registered)) :
    ((∀ l ∈ s'.lookups.drop s.lookups.length,
        l.record.siginfo.siSigno = signo → l.found ≠ none) ∧
      (ret = 0 → registered = signo)) ↔
    (¬ SomeLooksUp capacity signo cleared between ∧ ¬ ∃ a ∈ between, Registers signo a) := by
  obtain ⟨cleared', out', t, hcleared', hrun, hregister, rfl⟩ := resetDefault_cases hreset
  rw [hcleared, Option.some.injEq, Prod.mk.injEq] at hcleared'
  obtain ⟨rfl, rfl⟩ := hcleared'
  obtain ⟨hvacant, hlookups⟩ := deregister_vacant hcleared
  rw [hvacant.register_after hfatal hderegister hrun hregister, register_lookups hregister,
    ← hlookups, imp_iff_right rfl]
  refine and_congr_left fun hnone => ?_
  obtain ⟨new, hnew, hlooks⟩ := hvacant.lookups_run hfatal hderegister hnone hrun
  rw [hnew, List.drop_left, ← hlooks]
  simp only [not_exists, not_and, ne_eq]

/-- A registration for `SIGUSR2`, and a `SIGUSR1` that arrives and is read. -/
def quietSteps : List Act :=
  [.deregister 12, .register 12 (.user 1) 7 1, .arrive ⟨10, []⟩, .read]

/-- A reset of `SIGUSR1` with these steps in between. -/
theorem reset_default_iff_quiet :
    ∃ s s' cleared : State, State.blank.run 4 (installDefaults 1) = some s ∧
      s.deregister 10 = some (cleared, 0) ∧
      s.resetDefault 4 10 1 quietSteps = some (s', 0, 10) ∧
      ∀ l ∈ s'.lookups.drop s.lookups.length,
        l.record.siginfo.siSigno = 10 → l.found ≠ none := by
  refine ⟨_, _, _, rfl, rfl, rfl, ?_⟩
  refine ((reset_default_iff 4 _ _ _ 10 0 10 0 1 quietSteps rfl (by simp [quietSteps]) rfl
    rfl).mpr ⟨?_, ?_⟩).1
  · simp [quietSteps, SomeLooksUp, LooksUp]
  · simp [quietSteps, Registers]

/-- A `SIGTERM` is in the pipe when the reset begins, and `selfpipe_cb` reads it and looks it up in
between: the signal is dropped. -/
theorem sigterm_dropped :
    ¬ ∀ (capacity loop : Nat) (signo : Int) (before between : List Act) (s s' : State)
      (ret registered : Int), isFatal signo = false →
      (∀ a ∈ between, a = .read ∨ a = .lookup ∨ ∃ cb ctxt loop, a = .register signo cb ctxt loop) →
      State.blank.run capacity (installDefaults loop ++ before) = some s →
      s.resetDefault capacity signo loop between = some (s', ret, registered) →
      (∀ l ∈ s'.lookups.drop s.lookups.length,
        l.record.siginfo.siSigno = signo → l.found ≠ none) ∧
      (ret = 0 → registered = signo) := by
  intro hall
  obtain ⟨hfound, -⟩ := hall 4 1 15 [.arrive ⟨15, []⟩] [.read, .lookup] _ _ 0 15 rfl
    (by simp) rfl rfl
  exact hfound ⟨⟨0, ⟨15, []⟩⟩, none, 11, 11⟩ (List.mem_singleton_self _) rfl rfl

end BazelPro.Zlib
