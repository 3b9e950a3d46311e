import BazelPro.Zlib.Handlers

/-!
# A fatal signal ends the process

A thread that has entered `fatal_signal_handler` does not come back to the application: with each
step it takes, and each signal it gets, less is left to do (`Process.potential`), and there is
always something that it can do until the process ends (`fatal_signal_terminates`).
-/

namespace BazelPro.Zlib

/-- The thread that a step is about. -/
def Move.thread : Move → Nat
  | .call t _ | .raise t _ | .abort t | .run t | .send t _ | .deliver t _ | .fault t _ => t

/-- The thread goes on with a handler, or gets a signal that was pending. -/
def Move.goesOn (t : Nat) : Move → Bool
  | .run t' => t' = t
  | .deliver t' _ => t' = t
  | _ => false

/-- A signal is sent to the thread. -/
def Move.sendsTo (t : Nat) : Move → Bool
  | .send t' _ => t' = t
  | _ => false

/-- How many steps a handler has left. -/
def FatalPc.left : FatalPc → Nat
  | .test => 4
  | .record => 3
  | .raise => 2
  | .ret => 1

namespace Process

variable {capacity t : Nat} {p p' : Process} {si : Siginfo}

/-! ## What is left to do -/

/-- How many fatal signals have their handler. -/
def armed (d : Int → Disposition) : Nat :=
  fatalSignals.countP fun signo => d signo = .fatalSignalHandler

/-- The steps that the handlers of a thread have left. -/
def handlerSteps (x : Thread) : Nat := (x.handlers.map fun h => h.pc.left).sum

/-- The steps that the handlers of the thread have left, those that it may yet enter included. -/
def work (p : Process) (t : Nat) : Nat := handlerSteps (p.threads t) + 4 * armed p.disposition

/-- A step of a handler may make a signal pending, so it counts twice. -/
def potential (p : Process) (t : Nat) : Nat := 2 * p.work t + (p.threads t).pending.length

theorem armed_mono {d d' : Int → Disposition}
    (h : ∀ signo, d' signo = .fatalSignalHandler → d signo = .fatalSignalHandler) :
    armed d' ≤ armed d :=
  List.countP_mono_left fun signo _ hd => by simpa using h signo (by simpa using hd)

/-- A handler that is entered is gone. -/
theorem armed_update_lt {d : Int → Disposition} {signo : Int} (hfatal : isFatal signo = true)
    (hd : d signo = .fatalSignalHandler) : armed (Function.update d signo .sigDfl) < armed d := by
  have hmem : signo ∈ fatalSignals := by simpa [isFatal] using hfatal
  have hfilter : fatalSignals.filter (fun n =>
      Function.update d signo .sigDfl n = .fatalSignalHandler) =
      (fatalSignals.filter fun n => d n = .fatalSignalHandler).filter fun n => n ≠ signo := by
    rw [List.filter_filter]
    refine List.filter_congr fun n _ => ?_
    by_cases heq : n = signo
    · simp [heq]
    · simp [heq]
  rw [armed, armed, List.countP_eq_length_filter, List.countP_eq_length_filter, hfilter]
  refine List.length_filter_lt_length_iff_exists.mpr ⟨signo, ?_, by simp⟩
  simp [hmem, hd]

theorem length_addPending_le (x : Thread) (si : Siginfo) :
    (x.addPending si).pending.length ≤ x.pending.length + 1 := by
  unfold Thread.addPending
  split
  · omega
  · simp

theorem handlerSteps_le (x : Thread) : handlerSteps x ≤ 4 * x.handlers.length := by
  unfold handlerSteps
  induction x.handlers with
  | nil => simp
  | cons h rest ih =>
      have hpc : h.pc.left ≤ 4 := by cases h.pc <;> simp [FatalPc.left]
      rw [List.map_cons, List.sum_cons, List.length_cons]
      omega

theorem work_setThread_self (p : Process) (t : Nat) (x : Thread) :
    (p.setThread t x).work t = handlerSteps x + 4 * armed p.disposition := by
  simp [work, setThread]

/-! ## What a step leaves alone -/

/-- A step that concerns one thread: the other threads stay what they are, no handler of a fatal
signal is installed, and the handlers that were entered are kept. -/
structure Frame (t : Nat) (p p' : Process) : Prop where
  threads : ∀ t', t' ≠ t → p'.threads t' = p.threads t'
  disposition : ∀ signo, p'.disposition signo = .fatalSignalHandler →
    p.disposition signo = .fatalSignalHandler
  handled : ∀ e ∈ p.handled, e ∈ p'.handled

theorem Frame.refl (t : Nat) (p : Process) : Frame t p p :=
  ⟨fun _ _ => rfl, fun _ => id, fun _ => id⟩

theorem Frame.setThread (p : Process) (t : Nat) (x : Thread) : Frame t p (p.setThread t x) :=
  ⟨fun _ hne => Function.update_of_ne hne _ _, fun _ => id, fun _ => id⟩

theorem Frame.setDisposition (h : Frame t p p') (signo : Int) {d : Disposition}
    (hd : d ≠ .fatalSignalHandler) : Frame t p (p'.setDisposition signo d) := by
  unfold Process.setDisposition
  split
  · exact h
  refine ⟨h.threads, fun signo' hd' => h.disposition signo' ?_, h.handled⟩
  by_cases heq : signo' = signo
  · subst heq
    simp only [Function.update_self] at hd'
    exact absurd hd' hd
  · simpa only [Function.update_of_ne heq] using hd'

theorem Frame.runHandler (p : Process) (t : Nat) (top : Handler) (rest : List Handler) :
    Frame t p (p.runHandler t top rest) := by
  have hset := Frame.setThread p t
  unfold Process.runHandler
  cases top.pc with
  | test =>
      dsimp only
      split <;> exact hset _
  | record => exact ⟨(hset _).threads, fun _ => id, fun _ => id⟩
  | raise =>
      dsimp only
      rw [raise_setThread]
      exact hset _
  | ret => exact hset _

theorem Frame.runAbort (p : Process) (t : Nat) (pc : AbortPc) : Frame t p (p.runAbort t pc) := by
  have hset := Frame.setThread p t
  unfold Process.runAbort
  cases pc with
  | print => exact ⟨(hset _).threads, fun _ => id, fun _ => id⟩
  | raise =>
      dsimp only
      rw [raise_setThread]
      exact hset _
  | exit => exact ⟨fun _ _ => rfl, fun _ => id, fun _ => id⟩

theorem Frame.runLogError (p : Process) (t : Nat) (si : Siginfo) (pc : LogPc) :
    Frame t p (p.runLogError t si pc) := by
  have hset := Frame.setThread p t
  unfold Process.runLogError
  cases pc with
  | record => exact ⟨(hset _).threads, fun _ => id, fun _ => id⟩
  | setDefault => exact (hset _).setDisposition _ nofun
  | raise =>
      dsimp only
      rw [raise_setThread]
      exact hset _
  | ret => exact hset _

theorem Frame.deliverTo {p₀ : Process} (h : Frame t p₀ p)
    (hdeliver : p.deliverTo capacity t si = some p') : Frame t p₀ p' := by
  obtain ⟨-, rfl⟩ | ⟨-, -, rfl⟩ | ⟨-, -, rfl⟩ | ⟨-, delivery, -, rfl⟩ := deliverTo_cases hdeliver
  · refine ⟨fun t' hne => (Function.update_of_ne hne _ _).trans (h.threads t' hne),
      fun signo hd => h.disposition signo ?_, fun e he => List.mem_append_left _ (h.handled e he)⟩
    by_cases heq : signo = si.siSigno
    · subst heq
      simp [enter] at hd
    · simpa [enter, heq] using hd
  · exact ⟨h.threads, h.disposition, h.handled⟩
  · exact h
  · exact ⟨h.threads, h.disposition, h.handled⟩

theorem Effect.frame {m : Move} (h : Effect capacity p m p') : Frame m.thread p p' := by
  cases h with
  | refused t m hm happ => exact .refl _ p
  | called => exact ⟨fun _ _ => rfl, fun _ => id, fun _ => id⟩
  | registered t signo cb ctxt loop delivery happ hstep hfatal hinstalled =>
      have hcalled : Frame t p { p with delivery := delivery } :=
        ⟨fun _ _ => rfl, fun _ => id, fun _ => id⟩
      exact hcalled.setDisposition signo nofun
  | logging t i delivery sigCtxt happ hpending hstep =>
      exact ⟨fun _ hne => Function.update_of_ne hne _ _, fun _ => id, fun _ => id⟩
  | raised t signo happ => exact .setThread p t _
  | aborting t happ => exact ⟨fun _ hne => Function.update_of_ne hne _ _, fun _ => id, fun _ => id⟩
  | handler t top rest hhandlers => exact .runHandler p t top rest
  | abort t pc hhandlers hready hbase => exact .runAbort p t pc
  | logError t si pc hhandlers hready hbase => exact .runLogError p t si pc
  | sent t si => exact .setThread p t _
  | delivered t i si p' hi hblocked hdeliver => exact (Frame.setThread p t _).deliverTo hdeliver
  | fault t si p' hblocked hdeliver => exact (Frame.refl t p).deliverTo hdeliver
  | blocked t si hblocked => exact ⟨fun _ _ => rfl, fun _ => id, fun _ => id⟩

/-! ## A thread in a handler -/

/-- A thread that has entered a handler is in one, or about to get its signal again. -/
theorem Inv.busy (h : p.Inv) (hended : p.ended = none) (hentered : (t, si) ∈ p.handled) :
    (p.threads t).handlers ≠ [] ∨ (p.threads t).Interrupted := by
  by_contra hidle
  rw [not_or, not_not] at hidle
  have hblocked : si.siSigno ∈ (p.threads t).blocked :=
    ((h.threads hended t).doomed si hentered).elim id (Thread.mem_blocked_of_pending hidle.2)
  simp [Thread.blocked, hidle.1] at hblocked

theorem Inv.not_inApplication (h : p.Inv) (hended : p.ended = none)
    (hentered : (t, si) ∈ p.handled) : ¬ p.InApplication t := by
  rintro ⟨hhandlers, -, hready⟩
  exact (h.busy hended hentered).elim (· hhandlers) hready

/-- Something else to do does not come from other threads. -/
theorem potential_le (hthread : p'.threads t = p.threads t)
    (hd : ∀ signo, p'.disposition signo = .fatalSignalHandler →
      p.disposition signo = .fatalSignalHandler) : p'.potential t ≤ p.potential t := by
  have := armed_mono hd
  rw [potential, potential, work, work, hthread]
  omega

/-- A handler takes a step. -/
theorem potential_runHandler {top : Handler} {rest : List Handler}
    (hhandlers : (p.threads t).handlers = top :: rest) :
    (p.runHandler t top rest).potential t < p.potential t ∧
      ((p.runHandler t top rest).threads t).base = (p.threads t).base := by
  have hwork : p.work t = top.pc.left + (rest.map fun h => h.pc.left).sum +
      4 * armed p.disposition := by
    simp [work, handlerSteps, hhandlers]
  unfold runHandler
  cases hpc : top.pc with
  | test =>
      dsimp only
      split <;> simp [potential, work, handlerSteps, setThread, hhandlers, hpc, FatalPc.left]
  | record => simp [potential, work, handlerSteps, setThread, hhandlers, hpc, FatalPc.left]
  | raise =>
      dsimp only
      rw [raise_setThread]
      have hlength := length_addPending_le
        { p.threads t with handlers := { top with pc := .ret } :: rest } ⟨top.siginfo.siSigno, []⟩
      rw [hpc] at hwork
      simp only [FatalPc.left] at hwork
      refine ⟨?_, by simp⟩
      rw [potential, potential, hwork, work_setThread_self]
      simp [handlerSteps, FatalPc.left] at hlength ⊢
      omega
  | ret => simp [potential, work, handlerSteps, setThread, hhandlers, hpc, FatalPc.left]

/-- A signal is delivered to the thread. -/
theorem potential_deliverTo
    (hdeliver : p.deliverTo capacity t si = some p')
    (harmed : p.disposition si.siSigno = .fatalSignalHandler → isFatal si.siSigno = true) :
    p'.potential t ≤ p.potential t ∧ (p'.threads t).base = (p.threads t).base := by
  obtain ⟨hd, rfl⟩ | ⟨-, -, rfl⟩ | ⟨-, -, rfl⟩ | ⟨-, delivery, -, rfl⟩ := deliverTo_cases hdeliver
  · -- the handler that is entered was counted already
    have hlt := armed_update_lt (harmed hd) hd
    refine ⟨?_, by simp [enter]⟩
    simp [potential, work, handlerSteps, enter, FatalPc.left]
    omega
  · exact ⟨le_refl _, rfl⟩
  · exact ⟨le_refl _, rfl⟩
  · exact ⟨le_refl _, rfl⟩

/-- With every step of the thread there is less to do; only signals that are sent to it add to
that. -/
theorem Inv.potential_step (h : p.Inv) (hentered : (t, si) ∈ p.handled) {m : Move}
    (hstep : p.step capacity m = some p') :
    p'.potential t + (if m.goesOn t then 1 else 0) ≤
        p.potential t + (if m.sendsTo t then 1 else 0) ∧
      (p'.threads t).base = (p.threads t).base := by
  obtain ⟨hended, heffect⟩ := step_effect hstep
  by_cases hthread : m.thread = t
  · subst hthread
    have hnot := h.not_inApplication hended hentered
    cases heffect with
    | refused t m hm happ =>
        cases m <;> cases hm <;> exact absurd happ hnot
    | called t a delivery happ => exact absurd happ hnot
    | registered t signo cb ctxt loop delivery happ => exact absurd happ hnot
    | logging t i delivery sigCtxt happ => exact absurd happ hnot
    | raised t signo happ => exact absurd happ hnot
    | aborting t happ => exact absurd happ hnot
    | handler t top rest hhandlers =>
        obtain ⟨hlt, hbase⟩ := potential_runHandler hhandlers
        exact ⟨by simpa [Move.goesOn, Move.sendsTo, Move.thread] using Nat.succ_le_of_lt hlt, hbase⟩
    | abort t pc hhandlers hready =>
        exact absurd hhandlers ((h.busy hended hentered).resolve_right hready)
    | logError t si' pc hhandlers hready =>
        exact absurd hhandlers ((h.busy hended hentered).resolve_right hready)
    | sent t si' =>
        have := length_addPending_le (p.threads t) si'
        simp [Move.goesOn, Move.sendsTo, Move.thread, send, potential, work, handlerSteps]
        omega
    | delivered t i si' p' hi hblocked hdeliver =>
        obtain ⟨hle, hbase⟩ :=
          potential_deliverTo hdeliver fun hd => ((h.armed si'.siSigno).mp hd).1
        have hlt : i < (p.threads t).pending.length := (List.getElem?_eq_some_iff.mp hi).1
        refine ⟨?_, by simpa [Move.thread] using hbase⟩
        have hlength := List.length_eraseIdx_of_lt hlt
        simp [Move.goesOn, Move.sendsTo, Move.thread, potential, work, handlerSteps] at hle ⊢
        omega
    | fault t si' p' hblocked hdeliver =>
        obtain ⟨hle, hbase⟩ :=
          potential_deliverTo hdeliver fun hd => ((h.armed si'.siSigno).mp hd).1
        exact ⟨by simpa [Move.goesOn, Move.sendsTo, Move.thread] using hle, hbase⟩
    | blocked t si' hblocked => exact ⟨le_refl _, rfl⟩
  · have hframe := heffect.frame
    have hsame := hframe.threads t (Ne.symm hthread)
    have hgoes : m.goesOn t = false := by
      cases m <;> simp_all [Move.goesOn, Move.thread]
    have hsends : m.sendsTo t = false := by
      cases m <;> simp_all [Move.sendsTo, Move.thread]
    rw [hgoes, hsends, hsame]
    exact ⟨by simpa using potential_le hsame hframe.disposition, rfl⟩

/-- As long as the process runs, the thread can go on. -/
theorem Inv.exists_goesOn (h : p.Inv) (hended : p.ended = none) (hentered : (t, si) ∈ p.handled) :
    ∃ m p', m.goesOn t = true ∧ p.step capacity m = some p' := by
  by_cases hready : (p.threads t).Interrupted
  · obtain ⟨si', hmem, hblocked⟩ := hready
    obtain ⟨i, hi⟩ := List.mem_iff_getElem?.mp hmem
    suffices hdeliver : ∃ p', (p.setThread t { p.threads t with
        pending := (p.threads t).pending.eraseIdx i }).deliverTo capacity t si' = some p' by
      obtain ⟨p', hdeliver⟩ := hdeliver
      refine ⟨.deliver t i, p', by simp [Move.goesOn], ?_⟩
      simp only [Process.step, hended, hi]
      exact (if_neg hblocked).trans hdeliver
    unfold Process.deliverTo
    cases hd : p.disposition si'.siSigno with
    | sigDfl =>
        simp only [disposition_setThread, hd]
        split <;> exact ⟨_, rfl⟩
    | fatalSignalHandler =>
        simp only [disposition_setThread, hd]
        exact ⟨_, rfl⟩
    | nonfatalSignalHandler =>
        have hinstalled := (h.installed si'.siSigno hd).1
        simp only [disposition_setThread, hd]
        show ∃ p', (p.delivery.arrive capacity si').map _ = some p'
        rw [State.arrive, if_pos hinstalled]
        split <;> exact ⟨_, rfl⟩
  · have hhandlers := (h.busy hended hentered).resolve_right hready
    obtain ⟨top, rest, htop⟩ := List.exists_cons_of_ne_nil hhandlers
    refine ⟨.run t, p.runHandler t top rest, by simp [Move.goesOn], ?_⟩
    simp [Process.step, hended, hready, Process.run, htop]

/-- The handlers of a thread are for different signals, and none of these has its handler any
more. -/
theorem Inv.work_le (h : p.Inv) (hended : p.ended = none) (t : Nat) : p.work t ≤ 24 := by
  have hsteps : handlerSteps (p.threads t) ≤ 4 * (p.threads t).blocked.length := by
    rw [Thread.blocked, List.length_map]
    exact handlerSteps_le _
  have hentered : ∀ signo ∈ (p.threads t).blocked, signo ∈ p.handledNumbers := by
    intro signo hsigno
    obtain ⟨handler, hhandler, rfl⟩ := List.mem_map.mp hsigno
    exact List.mem_map_of_mem ((h.threads hended t).entered handler hhandler)
  -- the signals that are blocked, and those that have their handler, are different fatal signals
  have hnodup : ((p.threads t).blocked ++ fatalSignals.filter fun signo =>
      p.disposition signo = .fatalSignalHandler).Nodup := by
    have hfatal : fatalSignals.Nodup := by decide
    refine List.nodup_append.mpr ⟨(h.threads hended t).distinct, hfatal.filter _, ?_⟩
    intro a ha b hb heq
    have hb' : p.disposition b = .fatalSignalHandler := by simpa using (List.mem_filter.mp hb).2
    exact ((h.armed b).mp hb').2 (heq ▸ hentered a ha)
  have hsubset : ((p.threads t).blocked ++ fatalSignals.filter fun signo =>
      p.disposition signo = .fatalSignalHandler) ⊆ fatalSignals := by
    intro signo hsigno
    obtain hsigno | hsigno := List.mem_append.mp hsigno
    · obtain ⟨e, he, rfl⟩ := List.mem_map.mp (hentered signo hsigno)
      simpa [isFatal] using h.fatal e he
    · exact (List.mem_filter.mp hsigno).1
  have hlength := (hnodup.subperm hsubset).length_le
  rw [List.length_append, ← List.countP_eq_length_filter] at hlength
  have : fatalSignals.length = 6 := rfl
  rw [work, Process.armed]
  omega

/-- A thread that is elsewhere does not make the steps of the application. -/
theorem step_eq_none_of_caller {m : Move} (hm : m.caller = some t) (h : ¬ p.InApplication t) :
    p.step capacity m = none := by
  unfold Process.step
  split
  case isFalse => rfl
  case isTrue hended =>
  cases m with
  | call t' | raise t' | abort t' =>
      obtain rfl : t' = t := Option.some.inj hm
      exact if_neg h
  | run | send | deliver | fault => cases hm

end Process

/-- Once a thread has entered `fatal_signal_handler`, whatever the other threads do and whatever
signals come: the thread never gets back to the application, nor goes on with what it was doing;
its steps are bounded, but for the signals that are sent to it; and it can always take one until the
process has ended. -/
theorem fatal_signal_terminates (capacity initThread t : Nat) (si : Siginfo)
    (before after : List Move) (p p' : Process)
    (hrun : (Process.start initThread).runAll capacity before = some p)
    (hentered : (t, si) ∈ p.handled) (hrun' : p.runAll capacity after = some p') :
    (p'.threads t).base = (p.threads t).base ∧
      after.countP (Move.goesOn t) ≤
        48 + (p.threads t).pending.length + after.countP (Move.sendsTo t) ∧
      (p'.ended = none →
        (∀ m, m.caller = some t → p'.step capacity m = none) ∧
        ∃ m p'', m.goesOn t = true ∧ p'.step capacity m = some p'') := by
  have hinv := (Process.Inv.start initThread).runAll hrun
  have hstep : ∀ (q : Process) (m : Move) (q' : Process),
      q.Inv ∧ (t, si) ∈ q.handled ∧ (q.threads t).base = (p.threads t).base →
      q.step capacity m = some q' →
      q'.Inv ∧ (t, si) ∈ q'.handled ∧ (q'.threads t).base = (p.threads t).base := by
    rintro q m q' ⟨hq, hqentered, hqbase⟩ hqstep
    exact ⟨hq.step hqstep, (Process.step_effect hqstep).2.frame.handled _ hqentered,
      (hq.potential_step hqentered hqstep).2.trans hqbase⟩
  have hstart : p.Inv ∧ (t, si) ∈ p.handled ∧ (p.threads t).base = (p.threads t).base :=
    ⟨hinv, hentered, rfl⟩
  obtain ⟨hinv', hentered', hbase⟩ := PartialRun.invariant hstep hstart hrun'
  refine ⟨hbase, ?_, fun hended => ⟨fun m hm => ?_, hinv'.exists_goesOn hended hentered'⟩⟩
  · have hcount := PartialRun.countP_add_le hstep
      (fun q m q' hq hqstep => (hq.1.potential_step hq.2.1 hqstep).1) hstart hrun'
    cases after with
    | nil => simp
    | cons m after =>
        -- the process runs before the first of the steps
        obtain ⟨q, hq, -⟩ := Option.bind_eq_some_iff.mp hrun'
        have hwork := hinv.work_le (Process.step_effect hq).1 t
        have hpotential : p.potential t = 2 * p.work t + (p.threads t).pending.length := rfl
        omega
  · exact Process.step_eq_none_of_caller hm (hinv'.not_inApplication hended hentered')

/-- A thread causes `SIGSEGV`. -/
theorem fatal_signal_terminates_segfault :
    ∃ p p', (Process.start 1).runAll 4 (Process.init 1 ++ [.fault 1 ⟨11, []⟩]) = some p ∧
      p.runAll 4 [.run 1, .run 1, .run 1, .run 1, .deliver 1 0] = some p' ∧
      p'.ended = some (.killed 11) ∧ (p'.threads 1).base = .application := by
  refine ⟨_, _, rfl, rfl, rfl, ?_⟩
  exact (fatal_signal_terminates 4 1 1 ⟨11, []⟩ (Process.init 1 ++ [.fault 1 ⟨11, []⟩])
    [.run 1, .run 1, .run 1, .run 1, .deliver 1 0] _ _ rfl (by decide) rfl).1

end BazelPro.Zlib
