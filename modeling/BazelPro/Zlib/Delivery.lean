import BazelPro.Lib.Journal
import BazelPro.Lib.PartialRun
import BazelPro.Zlib.Signal
import Mathlib.Data.List.Perm.Basic

/-!
# No signal is lost, duplicated or mixed up

The invariant of signal delivery, in any interleaving: the table is what its history says, the
records go through the self-pipe in order, and the invocations made or still pending are exactly
those that the lookups of `selfpipe_cb` called for (`Inv`). Each step is first described by its
effect (`Effect`); the invariant is derived from that.
-/

namespace BazelPro.Zlib

namespace State

variable {capacity : Nat} {s s' : State}

/-! ## The table -/

theorem exists_user_iff (s : State) (signo : Int) :
    (∃ u, s.user signo = some u) ↔ 0 ≤ signo ∧ signo < nsig := by
  unfold user
  by_cases hpos : 0 ≤ signo
  · rw [if_pos hpos]
    constructor
    · rintro ⟨u, hu⟩
      have := (Vector.getElem?_eq_some_iff.mp hu).1
      omega
    · rintro ⟨-, hlt⟩
      have : signo.toNat < nsig := by omega
      exact ⟨_, Vector.getElem?_eq_getElem this⟩
  · simp [hpos]

theorem user_setUser_self {signo : Int} (h : 0 ≤ signo ∧ signo < nsig) (u : UserInfo) :
    (s.setUser signo u).user signo = some u := by
  unfold user setUser
  rw [if_pos h.1]
  exact Vector.getElem?_setIfInBounds_self_of_lt (by omega)

theorem user_setUser_ne {signo signo' : Int} (h : 0 ≤ signo) (hne : signo ≠ signo')
    (u : UserInfo) : (s.setUser signo u).user signo' = s.user signo' := by
  unfold user setUser
  split
  · exact Vector.getElem?_setIfInBounds_ne (by omega)
  · rfl

/-! ## Steps -/

/-- Everything a step can do: nothing (a refused registration, a full pipe, an empty pipe), or
one of the changes below. -/
inductive Effect (s : State) : State → Prop
  | idle : Effect s s
  | registered (signo : Int) (user old : UserInfo) (hfatal : isFatal signo = false)
      (hold : s.user signo = some old) (hnull : old.cb = .null) :
      Effect s { s.setUser signo user with
        installed := signo :: s.installed
        history := s.history ++ [(signo, some user)] }
  | deregistered (signo : Int) (old : UserInfo) (hold : s.user signo = some old) :
      Effect s { s.setUser signo .empty with history := s.history ++ [(signo, none)] }
  | arrived (siginfo : Siginfo) : Effect s { s with
      pipe := s.pipe ++ [⟨s.written.length, siginfo⟩]
      written := s.written ++ [siginfo] }
  | read (record : Record) (pipe : List Record) (hreading : s.reading = none)
      (hpipe : s.pipe = record :: pipe) :
      Effect s { s with pipe := pipe, reading := some (record, s.history.length) }
  | dropped (record : Record) (readTime : Nat) (hreading : s.reading = some (record, readTime))
      (hfound : ∀ user, s.user record.siginfo.siSigno = some user → user.cb = .null) :
      Effect s { s with
        reading := none
        lookups := s.lookups ++ [⟨record, none, readTime, s.history.length⟩] }
  | sent (record : Record) (readTime : Nat) (user : UserInfo)
      (hreading : s.reading = some (record, readTime))
      (hfound : s.user record.siginfo.siSigno = some user) (hcb : user.cb ≠ .null) :
      Effect s { s with
        reading := none
        lookups := s.lookups ++ [⟨record, some user, readTime, s.history.length⟩]
        pending := s.pending ++ [⟨record, user.cb, user.ctxt, user.evbase⟩] }
  | fired (i : Nat) (sigCtxt : SignalCtxt) (hpending : s.pending[i]? = some sigCtxt) :
      Effect s { s with
        pending := s.pending.eraseIdx i
        invoked := s.invoked ++ [sigCtxt] }

/-- A registration stores its user, or is refused and changes nothing. -/
theorem register_cases {signo : Int} {cb : SignalCb} {ctxt loop : Nat} {ret : Int}
    (h : s.register signo cb ctxt loop = some (s', ret)) :
    (ret = -1 ∧ s' = s) ∨ (ret = signo ∧ isFatal signo = false ∧
      ∃ old, s.user signo = some old ∧ old.cb = .null ∧
        s' = { s.setUser signo ⟨loop, cb, ctxt⟩ with
          installed := signo :: s.installed
          history := s.history ++ [(signo, some ⟨loop, cb, ctxt⟩)] }) := by
  unfold register at h
  split at h
  · cases h
    exact Or.inl ⟨rfl, rfl⟩
  · next hfatal =>
    obtain ⟨old, hold, h⟩ := Option.bind_eq_some_iff.mp h
    split at h
    · cases h
      exact Or.inl ⟨rfl, rfl⟩
    · next hnull =>
      cases h
      exact Or.inr ⟨rfl, by simpa using hfatal, old, hold, by simpa using hnull, rfl⟩

/-- A step has one of these effects. -/
theorem step_effect {a : Act} (h : s.step capacity a = some s') : Effect s s' := by
  cases a with
  | register signo cb ctxt loop =>
      obtain ⟨⟨t, ret⟩, hregister, rfl⟩ := Option.map_eq_some_iff.mp h
      obtain ⟨-, rfl⟩ | ⟨-, hfatal, old, hold, hnull, rfl⟩ := register_cases hregister
      · exact .idle
      · exact .registered signo _ old hfatal hold hnull
  | deregister signo =>
      obtain ⟨⟨t, ret⟩, hderegister, rfl⟩ := Option.map_eq_some_iff.mp h
      obtain ⟨old, hold, hpair⟩ := Option.bind_eq_some_iff.mp hderegister
      cases hpair
      exact .deregistered signo old hold
  | arrive siginfo =>
      simp only [step, arrive] at h
      split at h
      · split at h <;> cases h
        · exact .arrived siginfo
        · exact .idle
      · cases h
  | read =>
      simp only [step, read] at h
      split at h <;> cases h
      · exact .idle
      · next record pipe hreading hpipe => exact .read record pipe hreading hpipe
  | lookup =>
      simp only [step, lookup] at h
      split at h
      · cases h
      · next record readTime hreading =>
        split at h
        · next hrange =>
          cases h
          refine .dropped record readTime hreading fun user huser => ?_
          have := (s.exists_user_iff _).mp ⟨user, huser⟩
          omega
        · obtain ⟨user, huser, h⟩ := Option.bind_eq_some_iff.mp h
          split at h
          · next hcb =>
            cases h
            exact .sent record readTime user hreading huser hcb
          · next hcb =>
            cases h
            refine .dropped record readTime hreading fun user' huser' => ?_
            rw [huser, Option.some.injEq] at huser'
            subst huser'
            simpa using hcb
  | fire i =>
      obtain ⟨sigCtxt, hpending, rfl⟩ := Option.map_eq_some_iff.mp h
      exact .fired i sigCtxt hpending

/-! ## The invariant -/

/-- The records that were written, numbered. -/
def numbered (written : List Siginfo) : List Record := written.zipIdx.map fun p => ⟨p.2, p.1⟩

theorem numbered_concat (written : List Siginfo) (siginfo : Siginfo) :
    numbered (written ++ [siginfo]) = numbered written ++ [⟨written.length, siginfo⟩] := by
  simp [numbered, List.zipIdx_append]

/-- The user that was registered for `signo` after the first `time` changes of the table, unless
it has a null callback. -/
def registration (s : State) (time : Nat) (signo : Int) : Option UserInfo :=
  (Journal.current (s.history.take time) signo).filter fun user => user.cb ≠ .null

/-- The timer event that a lookup calls for. -/
def deliveryOf (l : Lookup) : Option SignalCtxt :=
  l.found.map fun user => ⟨l.record, user.cb, user.ctxt, user.evbase⟩

/-- The invariant of every interleaving. -/
structure Inv (s : State) : Prop where
  /-- the table is what the changes say -/
  table : ∀ signo : Int, 0 ≤ signo ∧ signo < nsig →
    s.user signo = some ((Journal.current s.history signo).getD .empty)
  outside : ∀ signo : Int, ¬ (0 ≤ signo ∧ signo < nsig) → Journal.current s.history signo = none
  fatal : ∀ signo : Int, isFatal signo = true → Journal.current s.history signo = none
  /-- the self-pipe and `selfpipe_cb` take the records in the order they were written -/
  fifo : s.lookups.map Lookup.record ++ (s.reading.map Prod.fst).toList ++ s.pipe =
    numbered s.written
  /-- a lookup finds the user that was registered then -/
  found : ∀ l ∈ s.lookups, l.time ≤ s.history.length ∧
    l.found = s.registration l.time l.record.siginfo.siSigno
  /-- every lookup of an entry leads to one timer event -/
  delivered : (s.pending ++ s.invoked).Perm (s.lookups.filterMap deliveryOf)

theorem Inv.blank : Inv blank := by
  refine ⟨fun signo h => ?_, fun _ _ => rfl, fun _ _ => rfl, rfl, by simp [State.blank], by rfl⟩
  rw [user, if_pos h.1]
  have : signo.toNat < nsig := by omega
  rw [Vector.getElem?_eq_getElem this]
  simp [State.blank]

/-- A new change of the table leaves the earlier registrations what they were. -/
theorem registration_concat (s : State) (op : Op) {time : Nat} (h : time ≤ s.history.length)
    (signo : Int) :
    ({ s with history := s.history ++ [op] } : State).registration time signo =
      s.registration time signo := by
  rw [registration, registration, List.take_append_of_le_length h]

theorem Inv.user_of_range (h : Inv s) {signo : Int} {u : UserInfo} (hu : s.user signo = some u) :
    (0 ≤ signo ∧ signo < nsig) ∧ u = (Journal.current s.history signo).getD .empty := by
  have hrange := (s.exists_user_iff signo).mp ⟨u, hu⟩
  rw [h.table signo hrange, Option.some.injEq] at hu
  exact ⟨hrange, hu.symm⟩

/-- A change of one entry. -/
theorem Inv.change (h : Inv s) {signo : Int} (hrange : 0 ≤ signo ∧ signo < nsig)
    (v : Option UserInfo) (hfatal : v ≠ none → isFatal signo = false) (installed : List Int) :
    Inv { s.setUser signo (v.getD .empty) with
      installed := installed
      history := s.history ++ [(signo, v)] } := by
  have hother : ∀ signo' : Int, signo ≠ signo' →
      Journal.current (s.history ++ [(signo, v)]) signo' = Journal.current s.history signo' :=
    fun signo' hne => Journal.current_concat_ne _ v hne
  refine ⟨fun signo' hrange' => ?_, fun signo' hout => ?_, fun signo' hfatal' => ?_, h.fifo,
    fun l hl => ?_, h.delivered⟩
  · show (s.setUser signo (v.getD .empty)).user signo' = _
    by_cases heq : signo = signo'
    · subst heq
      rw [user_setUser_self hrange, Journal.current_concat_self]
    · rw [user_setUser_ne hrange.1 heq, h.table signo' hrange', hother signo' heq]
  · rw [hother signo' (fun heq => hout (heq ▸ hrange)), h.outside signo' hout]
  · by_cases heq : signo = signo'
    · subst heq
      rw [Journal.current_concat_self]
      by_contra hne
      rw [hfatal hne] at hfatal'
      cases hfatal'
    · rw [hother signo' heq, h.fatal signo' hfatal']
  · obtain ⟨htime, hfound⟩ := h.found l hl
    refine ⟨htime.trans (by simp), hfound.trans ?_⟩
    exact (s.registration_concat (signo, v) htime _).symm

/-- What a lookup finds is the registration of that moment. -/
theorem Inv.registration_now (h : Inv s) (signo : Int) :
    s.registration s.history.length signo =
      (s.user signo).filter fun user => user.cb ≠ .null := by
  rw [registration, List.take_length]
  by_cases hrange : 0 ≤ signo ∧ signo < nsig
  · rw [h.table signo hrange]
    cases Journal.current s.history signo with
    | none => rfl
    | some user => rfl
  · rw [h.outside signo hrange]
    have : s.user signo = none := by
      by_contra hne
      exact hrange ((s.exists_user_iff signo).mp (Option.ne_none_iff_exists'.mp hne))
    rw [this]

/-- A lookup that finds the present registration. -/
theorem Inv.found_concat (h : Inv s) {found : Option UserInfo} (record : Record)
    (readTime : Nat) (hfound : found = s.registration s.history.length record.siginfo.siSigno) :
    ∀ l ∈ s.lookups ++ [⟨record, found, readTime, s.history.length⟩],
      l.time ≤ s.history.length ∧ l.found = s.registration l.time l.record.siginfo.siSigno := by
  intro l hl
  rcases List.mem_append.mp hl with hl | hl
  · exact h.found l hl
  · obtain rfl := List.mem_singleton.mp hl
    exact ⟨le_refl _, hfound⟩

/-- Every step keeps the invariant. -/
theorem Inv.step (h : Inv s) {a : Act} (hstep : s.step capacity a = some s') : Inv s' := by
  cases step_effect hstep with
  | idle => exact h
  | registered signo user old hfatal hold hnull =>
      exact h.change (h.user_of_range hold).1 (some user) (fun _ => hfatal) _
  | deregistered signo old hold =>
      exact h.change (h.user_of_range hold).1 none (fun hne => absurd rfl hne) _
  | arrived siginfo =>
      refine ⟨h.table, h.outside, h.fatal, ?_, h.found, h.delivered⟩
      show _ ++ _ ++ (s.pipe ++ _) = _
      rw [← List.append_assoc, h.fifo, numbered_concat]
  | read record pipe hreading hpipe =>
      refine ⟨h.table, h.outside, h.fatal, ?_, h.found, h.delivered⟩
      have := h.fifo
      simpa [hreading, hpipe] using this
  | dropped record readTime hreading hfound =>
      refine ⟨h.table, h.outside, h.fatal, ?_, h.found_concat record readTime ?_, ?_⟩
      · have := h.fifo
        simpa [hreading] using this
      · rw [h.registration_now]
        cases huser : s.user record.siginfo.siSigno with
        | none => rfl
        | some user => exact (Option.filter_some_neg (by simp [hfound user huser])).symm
      · show (s.pending ++ s.invoked).Perm (List.filterMap deliveryOf (s.lookups ++ [_]))
        rw [List.filterMap_append]
        exact (List.append_nil _).symm ▸ h.delivered
  | sent record readTime user hreading hfound hcb =>
      refine ⟨h.table, h.outside, h.fatal, ?_, h.found_concat record readTime ?_, ?_⟩
      · have := h.fifo
        simpa [hreading] using this
      · rw [h.registration_now, hfound]
        exact (Option.filter_some_pos (by simp [hcb])).symm
      · show ((s.pending ++ [_]) ++ s.invoked).Perm (List.filterMap deliveryOf (s.lookups ++ [_]))
        rw [List.filterMap_append, List.append_assoc]
        -- the new event is the last of the pending ones
        refine (List.Perm.append_left _ List.perm_append_comm).trans ?_
        rw [← List.append_assoc]
        exact h.delivered.append_right _
  | fired i sigCtxt hpending =>
      refine ⟨h.table, h.outside, h.fatal, h.fifo, h.found, ?_⟩
      refine List.Perm.trans ?_ h.delivered
      obtain ⟨hi, rfl⟩ := List.getElem?_eq_some_iff.mp hpending
      show (s.pending.eraseIdx i ++ (s.invoked ++ [s.pending[i]])).Perm _
      rw [← List.append_assoc]
      refine List.perm_append_comm.trans ?_
      -- the event has only moved from one list to the other
      exact (List.getElem_cons_eraseIdx_perm hi).append_right s.invoked

/-! ## The signals that arrive -/

/-- The signals that `nonfatal_signal_handler` is entered for, in their order. -/
def arrivals (acts : List Act) : List Siginfo :=
  acts.filterMap fun
    | .arrive siginfo => some siginfo
    | .register _ _ _ _ | .deregister _ | .read | .lookup | .fire _ => none

theorem arrivals_append (acts acts' : List Act) :
    arrivals (acts ++ acts') = arrivals acts ++ arrivals acts' := List.filterMap_append

/-- Only a signal that arrives is written. -/
theorem written_of_not_arrive {a : Act} (hstep : s.step capacity a = some s')
    (ha : arrivals [a] = []) : s'.written = s.written := by
  cases a with
  | arrive siginfo => cases ha
  | register signo cb ctxt loop =>
      obtain ⟨⟨t, ret⟩, hregister, rfl⟩ := Option.map_eq_some_iff.mp hstep
      obtain ⟨-, rfl⟩ | ⟨-, -, old, -, -, rfl⟩ := register_cases hregister <;> rfl
  | deregister signo =>
      obtain ⟨⟨t, ret⟩, hderegister, rfl⟩ := Option.map_eq_some_iff.mp hstep
      obtain ⟨old, hold, hpair⟩ := Option.bind_eq_some_iff.mp hderegister
      cases hpair
      rfl
  | read =>
      simp only [step, read] at hstep
      split at hstep
      · cases hstep
      · cases hstep
        rfl
      · cases hstep
        rfl
  | lookup =>
      simp only [step, lookup] at hstep
      split at hstep
      · cases hstep
      split at hstep
      · cases hstep
        rfl
      · obtain ⟨user, -, hstep⟩ := Option.bind_eq_some_iff.mp hstep
        split at hstep <;> cases hstep <;> rfl
  | fire i =>
      obtain ⟨sigCtxt, hpending, rfl⟩ := Option.map_eq_some_iff.mp hstep
      rfl

/-- A step writes what arrives, or nothing where the pipe is full. -/
theorem written_step {a : Act} (hstep : s.step capacity a = some s') :
    s'.written = s.written ++ arrivals [a] ∨
      (capacity ≤ s.pipe.length ∧ s'.written = s.written) := by
  cases a with
  | arrive siginfo =>
      simp only [step, arrive] at hstep
      split at hstep
      · split at hstep
        · cases hstep
          exact Or.inl rfl
        · next hfull =>
          cases hstep
          exact Or.inr ⟨Nat.le_of_not_lt hfull, rfl⟩
      · cases hstep
  | register | deregister | read | lookup | fire =>
      left
      rw [written_of_not_arrive hstep rfl]
      exact (List.append_nil _).symm

/-- The pipe holds some of the records that were written. -/
theorem Inv.length_pipe_le (h : Inv s) : s.pipe.length ≤ s.written.length := by
  have hlength := congrArg List.length h.fifo
  simp only [numbered, List.length_append, List.length_map, List.length_zipIdx] at hlength
  omega

/-- Some of the signals that arrive are written, in their order, and all of them where they are no
more than the pipe has room for. -/
theorem written_run {acts : List Act} (hrun : blank.run capacity acts = some s) :
    s.written.Sublist (arrivals acts) ∧
      ((arrivals acts).length ≤ capacity → s.written = arrivals acts) := by
  have hall : s.Inv ∧ s.written.Sublist (arrivals acts) ∧
      ((arrivals acts).length ≤ capacity → s.written = arrivals acts) := by
    refine PartialRun.history_invariant (P := fun acts s => s.Inv ∧
      s.written.Sublist (arrivals acts) ∧
      ((arrivals acts).length ≤ capacity → s.written = arrivals acts))
      ⟨.blank, List.Sublist.refl _, fun _ => rfl⟩ ?_ hrun
    rintro before s a s' ⟨hinv, hsub, hroom⟩ hstep
    refine ⟨hinv.step hstep, ?_⟩
    rw [arrivals_append]
    obtain hwritten | ⟨hfull, hwritten⟩ := written_step hstep
    · rw [hwritten]
      refine ⟨hsub.append (List.Sublist.refl _), fun hle => ?_⟩
      rw [List.length_append] at hle
      rw [hroom (by omega)]
    · rw [hwritten]
      refine ⟨hsub.trans (List.sublist_append_left _ _), fun hle => ?_⟩
      -- the pipe is full, so that nothing more can have arrived
      rw [List.length_append] at hle
      have hbefore := hroom (by omega)
      have hpipe := hinv.length_pipe_le
      rw [hbefore] at hpipe ⊢
      have hnone : arrivals [a] = [] := List.length_eq_zero_iff.mp (by omega)
      rw [hnone, List.append_nil]
  exact hall.2

/-- The invariant holds in every state that an interleaving reaches. -/
theorem Inv.run (h : Inv s) {acts : List Act} (hrun : s.run capacity acts = some s') : Inv s' :=
  PartialRun.invariant (fun _ _ _ h hstep => h.step hstep) h hrun

/-- The records have different numbers. -/
theorem nodup_numbered (written : List Siginfo) :
    ((numbered written).map Record.number).Nodup := by
  have : (numbered written).map Record.number = List.range written.length := by
    rw [numbered, List.map_map, List.range_eq_range']
    exact List.zipIdx_map_snd 0 written
  rw [this]
  exact List.nodup_range

/-- Each timer event belongs to the record of its lookup. -/
theorem number_sublist (lookups : List Lookup) :
    ((lookups.filterMap deliveryOf).map fun d => d.record.number).Sublist
      (lookups.map fun l => l.record.number) := by
  induction lookups with
  | nil => exact List.Sublist.refl _
  | cons l lookups ih =>
      cases hfound : l.found with
      | none =>
          rw [List.filterMap_cons_none (by rw [deliveryOf, hfound]; rfl)]
          exact ih.cons _
      | some user =>
          rw [List.filterMap_cons_some (by rw [deliveryOf, hfound]; rfl)]
          exact ih.cons_cons _

/-- The invocations, pending ones included, are for different records. -/
theorem Inv.nodup_deliveries (h : Inv s) :
    ((s.pending ++ s.invoked).map fun d => d.record.number).Nodup := by
  have hlookups : (s.lookups.map fun l => l.record.number).Nodup := by
    have := nodup_numbered s.written
    rw [← h.fifo, List.map_append, List.map_append, List.map_map] at this
    exact (List.nodup_append.mp (List.nodup_append.mp this).1).1
  refine (h.delivered.map _).nodup_iff.mpr ?_
  exact hlookups.sublist (number_sublist s.lookups)

/-- A callback that is called, or is about to be, is for a record that was written. -/
theorem Inv.record_written (h : Inv s) {d : SignalCtxt} (hd : d ∈ s.pending ++ s.invoked) :
    s.written[d.record.number]? = some d.record.siginfo := by
  obtain ⟨l, hl, hdelivery⟩ := List.mem_filterMap.mp (h.delivered.subset hd)
  obtain ⟨user, -, rfl⟩ := Option.map_eq_some_iff.mp hdelivery
  have hrecord : l.record ∈ numbered s.written := by
    rw [← h.fifo]
    exact List.mem_append_left _ (List.mem_append_left _ (List.mem_map_of_mem hl))
  obtain ⟨⟨siginfo, i⟩, hi, hnumber⟩ := List.mem_map.mp hrecord
  rw [List.mk_mem_zipIdx_iff_getElem?] at hi
  rw [← hnumber]
  exact hi

end State

/-- In every interleaving from the state behind `create_selfpipe` on, with the registrations of
`zsignal_init` at its beginning or between other steps: the records go through the self-pipe in the
order they were written; the invocations, executed or pending, belong to different
records, and are exactly one for each lookup that found an entry, with the siginfo of its record
and the callback and context found; a lookup finds what one registration, current at that moment,
stored; a refused registration leaves the table alone; and no fatal signal has an entry. -/
theorem signal_delivery (capacity : Nat) (acts : List Act) (s : State)
    (hrun : State.blank.run capacity acts = some s) :
    s.lookups.map Lookup.record ++ (s.reading.map Prod.fst).toList ++ s.pipe =
      State.numbered s.written ∧
    ((s.pending ++ s.invoked).map fun d => d.record.number).Nodup ∧
    (s.pending ++ s.invoked).Perm (s.lookups.filterMap State.deliveryOf) ∧
    (∀ l ∈ s.lookups, l.time ≤ s.history.length ∧
      l.found = s.registration l.time l.record.siginfo.siSigno) ∧
    (∀ signo cb ctxt loop s', s.register signo cb ctxt loop = some (s', -1) →
      s'.users = s.users) ∧
    ∀ signo user, isFatal signo = true → s.user signo = some user → user.cb = .null := by
  have h := State.Inv.blank.run hrun
  refine ⟨h.fifo, h.nodup_deliveries, h.delivered, h.found, ?_, ?_⟩
  · intro signo cb ctxt loop s' hrefused
    obtain ⟨-, rfl⟩ | ⟨hret, -, old, hold, -⟩ := State.register_cases hrefused
    · rfl
    · have := (h.user_of_range hold).1
      omega
  · intro signo user hfatal huser
    rw [(h.user_of_range huser).2, h.fatal signo hfatal]
    rfl

/-- A signal arrives and is read; then its user is replaced before the lookup. -/
def replacedBetween : List Act :=
  [.register 23 (.user 1) 7 1, .arrive ⟨23, []⟩, .read, .deregister 23,
    .register 23 (.user 2) 8 1, .lookup, .fire 0]

/-- The same behind `zsignal_init`, where `SIGPIPE` arrives between its first registration and its
second one: this is a run, and it ends with two invocations. -/
theorem signal_delivery_replacedBetween :
    ∃ s, State.blank.run 4 ((installDefaults 1).take 1 ++ .arrive ⟨13, []⟩ ::
        (installDefaults 1).drop 1 ++ [.read, .lookup, .fire 0] ++ replacedBetween) = some s ∧
      s.invoked.length = 2 ∧
      (s.pending ++ s.invoked).Perm (s.lookups.filterMap State.deliveryOf) := by
  refine ⟨_, rfl, rfl, (signal_delivery 4 ((installDefaults 1).take 1 ++ .arrive ⟨13, []⟩ ::
    (installDefaults 1).drop 1 ++ [.read, .lookup, .fire 0] ++ replacedBetween) _ rfl).2.2.1⟩

/-- The registration that a lookup finds need not be the one that was current when `selfpipe_cb`
read the record. -/
theorem found_not_of_read_time :
    ¬ ∀ (capacity loop : Nat) (acts : List Act) (s : State),
      State.blank.run capacity (installDefaults loop ++ acts) = some s →
      ∀ l ∈ s.lookups, l.found = s.registration l.readTime l.record.siginfo.siSigno := by
  intro hall
  have h := hall 4 1 replacedBetween _ rfl ⟨⟨0, ⟨23, []⟩⟩, some ⟨1, .user 2, 8⟩, 11, 13⟩ (by decide)
  exact absurd h (by decide)

end BazelPro.Zlib
