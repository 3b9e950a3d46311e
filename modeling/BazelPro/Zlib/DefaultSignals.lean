import BazelPro.Zlib.FatalRecords
import BazelPro.Zlib.ResetDefault

/-!
# The signals that terminate a process by default

`install_default_nonfatal_signals_handlers` registers
`log_error_and_call_system_default_handler` for nine signals, "to make sure we print an error
message before terminating". Whatever the threads register, deregister and reset afterwards, and
whatever signals come: none of the nine kills the process without a record of it, and nothing is
recorded that has not come (`default_signal_recorded`).
-/

namespace BazelPro.Zlib

/-- The signals that `install_default_nonfatal_signals_handlers` logs: `SIGHUP`, `SIGTERM`,
`SIGINT`, `SIGQUIT`, `SIGTRAP`, `SIGIO`, `SIGALRM`, `SIGUSR1` and `SIGUSR2`. -/
def loggedSignals : List Int := [1, 15, 2, 3, 5, 29, 14, 10, 12]

namespace State

variable {capacity : Nat} {s s' : State}

/-- What is pending was written to the self-pipe. -/
theorem Inv.mem_written (h : s.Inv) {c : SignalCtxt} (hc : c ∈ s.pending) :
    c.record.siginfo ∈ s.written := by
  obtain ⟨l, hl, hdelivery⟩ :=
    List.mem_filterMap.mp (h.delivered.subset (List.mem_append_left _ hc))
  obtain ⟨user, -, rfl⟩ := Option.map_eq_some_iff.mp hdelivery
  have hmem : l.record ∈ numbered s.written := by
    rw [← h.fifo, List.append_assoc]
    exact List.mem_append_left _ (List.mem_map_of_mem hl)
  obtain ⟨⟨siginfo, i⟩, hi, heq⟩ := List.mem_map.mp hmem
  rw [← heq]
  exact (List.mem_zipIdx' hi).2 ▸ List.getElem_mem _

/-- What was written stays written. -/
theorem written_mono {a : Act} (hstep : s.step capacity a = some s') :
    ∀ si ∈ s.written, si ∈ s'.written := by
  intro si hsi
  cases step_effect hstep with
  | arrived siginfo => exact List.mem_append_left _ hsi
  | idle | registered | deregistered | read | dropped | sent | fired => exact hsi

end State

namespace Process

variable {capacity t : Nat} {p p' : Process} {si : Siginfo}

/-- What is logged has come from the self-pipe, and is recorded before the default action is
restored. -/
structure Logged (p : Process) : Prop where
  caught : ∀ t si pc, (p.threads t).base = .logError si pc → si ∈ p.delivery.written
  logged : ∀ t si pc, (p.threads t).base = .logError si pc → pc ≠ .record → si ∈ p.records
  source : ∀ si ∈ p.records, isFatal si.siSigno = false → si ∈ p.delivery.written

/-- Each of the nine signals is caught, or has been recorded. -/
def Guarded (p : Process) : Prop :=
  ∀ signo ∈ loggedSignals, p.disposition signo = .nonfatalSignalHandler ∨ signo ∈ p.recordedNumbers

theorem Logged.start (initThread : Nat) : Logged (start initThread) where
  caught := by simp [Process.start, Thread.fresh]
  logged := by simp [Process.start, Thread.fresh]
  source := by simp [Process.start]

/-- A step that does not log a signal. -/
structure Unlogged (p p' : Process) : Prop where
  base : ∀ t si pc, (p'.threads t).base = .logError si pc → (p.threads t).base = .logError si pc
  kept : ∀ si ∈ p.records, si ∈ p'.records
  new : ∀ si ∈ p'.records, si ∈ p.records ∨ isFatal si.siSigno = true
  written : ∀ si ∈ p.delivery.written, si ∈ p'.delivery.written
  disposition : ∀ signo, isFatal signo = false → p.disposition signo = .nonfatalSignalHandler →
    p'.disposition signo = .nonfatalSignalHandler

theorem Unlogged.trans {p'' : Process} (h : Unlogged p p') (h' : Unlogged p' p'') :
    Unlogged p p'' where
  base t si pc hb := h.base t si pc (h'.base t si pc hb)
  kept si hsi := h'.kept si (h.kept si hsi)
  new si hsi := (h'.new si hsi).elim (h.new si) Or.inr
  written si hsi := h'.written si (h.written si hsi)
  disposition signo hfatal hd := h'.disposition signo hfatal (h.disposition signo hfatal hd)

theorem Logged.congr (h : p.Logged) (hsame : Unlogged p p') : p'.Logged where
  caught t si pc hb := hsame.written si (h.caught t si pc (hsame.base t si pc hb))
  logged t si pc hb hpc := hsame.kept si (h.logged t si pc (hsame.base t si pc hb) hpc)
  source si hsi hfatal := by
    refine (hsame.new si hsi).elim (fun hold => hsame.written si (h.source si hold hfatal)) ?_
    intro hfatal'
    rw [hfatal] at hfatal'
    cases hfatal'

theorem Guarded.congr (h : p.Guarded) (hkept : ∀ si ∈ p.records, si ∈ p'.records)
    (hd : ∀ signo ∈ loggedSignals, p.disposition signo = .nonfatalSignalHandler →
      p'.disposition signo = .nonfatalSignalHandler ∨ signo ∈ p'.recordedNumbers) :
    p'.Guarded := by
  intro signo hsigno
  obtain hcaught | hrecorded := h signo hsigno
  · exact hd signo hsigno hcaught
  · obtain ⟨si, hsi, rfl⟩ := List.mem_map.mp hrecorded
    exact Or.inr (List.mem_map_of_mem (hkept si hsi))

/-- The nine signals are not fatal. -/
theorem isFatal_of_mem_loggedSignals {signo : Int} (h : signo ∈ loggedSignals) :
    isFatal signo = false := by
  have hall : ∀ signo ∈ loggedSignals, isFatal signo = false := by decide
  exact hall signo h

theorem Unlogged.guarded (hsame : Unlogged p p') (h : p.Guarded) : p'.Guarded :=
  h.congr hsame.kept fun signo hsigno hd =>
    Or.inl (hsame.disposition signo (isFatal_of_mem_loggedSignals hsigno) hd)

/-! ## Steps -/

theorem Unlogged.setThread {x : Thread}
    (hbase : ∀ si pc, x.base = .logError si pc → (p.threads t).base = .logError si pc) :
    Unlogged p (p.setThread t x) := by
  refine ⟨fun t' si pc hb => ?_, fun _ => id, fun _ => Or.inl, fun _ => id, fun _ _ => id⟩
  by_cases heq : t' = t
  · subst heq
    exact hbase si pc (by simpa using hb)
  · simpa [heq] using hb

theorem Unlogged.delivery {delivery : State}
    (hwritten : ∀ si ∈ p.delivery.written, si ∈ delivery.written) :
    Unlogged p { p with delivery := delivery } :=
  ⟨fun _ _ _ => id, fun _ => id, fun _ => Or.inl, hwritten, fun _ _ => id⟩

theorem Unlogged.ended (p : Process) (e : End) : Unlogged p { p with ended := some e } :=
  ⟨fun _ _ _ => id, fun _ => id, fun _ => Or.inl, fun _ => id, fun _ _ => id⟩

theorem Unlogged.send (p : Process) (t : Nat) (si : Siginfo) : Unlogged p (p.send t si) :=
  .setThread (by simp)

/-- A handler is installed for a signal that is not fatal. -/
theorem Unlogged.registered (p : Process) (signo : Int) :
    Unlogged p (p.setDisposition signo .nonfatalSignalHandler) := by
  unfold Process.setDisposition
  split
  · exact ⟨fun _ _ _ => id, fun _ => id, fun _ => Or.inl, fun _ => id, fun _ _ => id⟩
  refine ⟨fun _ _ _ => id, fun _ => id, fun _ => Or.inl, fun _ => id, fun signo' _ hd => ?_⟩
  by_cases heq : signo' = signo
  · simp [heq]
  · simpa [heq] using hd

/-- `fatal_signal_handler` goes on: it records a fatal signal. -/
theorem Unlogged.runHandler {top : Handler} (hfatal : isFatal top.siginfo.siSigno = true)
    (t : Nat) (rest : List Handler) : Unlogged p (p.runHandler t top rest) := by
  have hgo : ∀ handlers, Unlogged p (p.setThread t { p.threads t with handlers := handlers }) :=
    fun handlers => .setThread fun _ _ => id
  unfold Process.runHandler
  cases top.pc with
  | test =>
      dsimp only
      split <;> exact hgo _
  | record =>
      refine ⟨(hgo _).base, fun si hsi => List.mem_append_left _ hsi, fun si hsi => ?_, fun _ => id,
        fun _ _ => id⟩
      refine (List.mem_append.mp hsi).imp_right fun hsi => ?_
      rw [List.mem_singleton.mp hsi]
      exact hfatal
  | raise => exact (hgo _).trans (.send _ t _)
  | ret => exact hgo _

/-- A signal is delivered. -/
theorem Unlogged.deliverTo (hfatal : p.disposition si.siSigno = .fatalSignalHandler →
    isFatal si.siSigno = true) (hdeliver : p.deliverTo capacity t si = some p') :
    Unlogged p p' := by
  obtain ⟨hd, rfl⟩ | ⟨-, -, rfl⟩ | ⟨-, -, rfl⟩ | ⟨-, delivery, hstep, rfl⟩ :=
    deliverTo_cases hdeliver
  · have hgo : Unlogged p (p.setThread t { p.threads t with
        handlers := ⟨si, .test⟩ :: (p.threads t).handlers }) := .setThread fun _ _ => id
    refine ⟨hgo.base, fun _ => id, fun _ => Or.inl, fun _ => id, fun signo hnot hd' => ?_⟩
    have hne : signo ≠ si.siSigno := by
      rintro rfl
      rw [hfatal hd] at hnot
      cases hnot
    exact (Function.update_of_ne hne _ _).trans hd'
  · exact .ended p _
  · exact ⟨fun _ _ _ => id, fun _ => id, fun _ => Or.inl, fun _ => id, fun _ _ => id⟩
  · exact .delivery (State.written_mono hstep)

/-- `zsignal_abort` goes on. -/
theorem Unlogged.runAbort (p : Process) (t : Nat) (pc : AbortPc) :
    Unlogged p (p.runAbort t pc) := by
  have hgo : ∀ pc : AbortPc,
      Unlogged p (p.setThread t { p.threads t with base := .zsignalAbort pc }) :=
    fun pc => .setThread nofun
  unfold Process.runAbort
  cases pc with
  | print => exact ⟨(hgo .raise).base, fun _ => id, fun _ => Or.inl, fun _ => id, fun _ _ => id⟩
  | raise => exact (hgo .exit).trans (.send _ t _)
  | exit => exact .ended p _

/-- A thread is logging a signal that has been caught, and has recorded it. -/
theorem Logged.setLog (h : p.Logged) (hcaught : si ∈ p.delivery.written) {pc : LogPc}
    (hrecorded : pc ≠ .record → si ∈ p.records) :
    (p.setThread t { p.threads t with base := .logError si pc }).Logged := by
  have hbase : ∀ t' si' pc', ((p.setThread t { p.threads t with base := .logError si pc }).threads
      t').base = .logError si' pc' → (p.threads t').base = .logError si' pc' ∨
        si' = si ∧ pc' = pc := by
    intro t' si' pc' hb
    by_cases heq : t' = t
    · subst heq
      rw [threads_setThread, Function.update_self] at hb
      cases hb
      exact Or.inr ⟨rfl, rfl⟩
    · exact Or.inl (by simpa [heq] using hb)
  refine ⟨fun t' si' pc' hb => ?_, fun t' si' pc' hb hpc => ?_, h.source⟩
  · obtain hold | ⟨rfl, -⟩ := hbase t' si' pc' hb
    · exact h.caught t' si' pc' hold
    · exact hcaught
  · obtain hold | ⟨rfl, rfl⟩ := hbase t' si' pc' hb
    · exact h.logged t' si' pc' hold hpc
    · exact hrecorded hpc

/-- `log_error_and_call_system_default_handler` goes on: the record comes before the default
action. -/
theorem Logged.runLogError (h : p.Logged) {pc : LogPc}
    (hbase : (p.threads t).base = .logError si pc) :
    (p.runLogError t si pc).Logged ∧ (p.Guarded → (p.runLogError t si pc).Guarded) := by
  have hcaught := h.caught t si pc hbase
  have hrecorded := h.logged t si pc hbase
  have hsame : ∀ q : Process, q.disposition = p.disposition → (∀ si ∈ p.records, si ∈ q.records) →
      p.Guarded → q.Guarded :=
    fun q hd hkept hguarded => hguarded.congr hkept fun signo _ hd' => Or.inl (hd ▸ hd')
  unfold Process.runLogError
  cases pc with
  | record =>
      have hlog : Logged { p with records := p.records ++ [si] } := by
        refine ⟨h.caught, fun t' si' pc' hb hpc => ?_, fun si' hsi' hfatal => ?_⟩
        · exact List.mem_append_left _ (h.logged t' si' pc' hb hpc)
        obtain hsi' | hsi' := List.mem_append.mp hsi'
        · exact h.source si' hsi' hfatal
        · rw [List.mem_singleton.mp hsi']
          exact hcaught
      refine ⟨hlog.setLog hcaught fun _ => ?_, hsame _ rfl fun _ => List.mem_append_left _⟩
      exact List.mem_append_right _ (List.mem_singleton_self si)
  | setDefault =>
      have hlog := h.setLog (t := t) hcaught fun _ : LogPc.raise ≠ .record => hrecorded nofun
      have hmem : si.siSigno ∈ p.recordedNumbers := List.mem_map_of_mem (hrecorded nofun)
      dsimp only
      unfold Process.setDisposition
      split
      · exact ⟨hlog, hsame _ rfl fun _ => id⟩
      refine ⟨⟨hlog.caught, hlog.logged, hlog.source⟩, fun hguarded => ?_⟩
      refine hguarded.congr (fun _ => id) fun signo hsigno hd => ?_
      by_cases heq : signo = si.siSigno
      · exact Or.inr (heq ▸ hmem)
      · exact Or.inl ((Function.update_of_ne heq _ _).trans hd)
  | raise =>
      have hlog := h.setLog (t := t) hcaught fun _ : LogPc.ret ≠ .record => hrecorded nofun
      exact ⟨hlog.congr (.send _ t _), hsame _ rfl fun _ => id⟩
  | ret =>
      have hgo : Unlogged p (p.setThread t { p.threads t with base := .application }) :=
        .setThread nofun
      exact ⟨h.congr hgo, hgo.guarded⟩

/-- Every step keeps this. -/
theorem Logged.step (h : p.Logged) (hinv : p.Inv) {m : Move}
    (hstep : p.step capacity m = some p') : p'.Logged ∧ (p.Guarded → p'.Guarded) := by
  obtain ⟨hended, heffect⟩ := step_effect hstep
  have hsame : Unlogged p p' → p'.Logged ∧ (p.Guarded → p'.Guarded) :=
    fun hsame => ⟨h.congr hsame, hsame.guarded⟩
  cases heffect with
  | refused t m hm happ => exact ⟨h, id⟩
  | called t a delivery happ hcall => exact hsame (.delivery (State.written_mono hcall))
  | registered t signo cb ctxt loop delivery happ hcall hfatal hinstalled =>
      have hdelivery : Unlogged p { p with delivery := delivery } :=
        .delivery (State.written_mono hcall)
      exact hsame (hdelivery.trans (.registered _ signo))
  | logging t i delivery sigCtxt happ hpending hcall =>
      have hdelivery : Unlogged p { p with delivery := delivery } :=
        .delivery (State.written_mono hcall)
      have hcaught := hinv.delivery.mem_written (List.mem_of_getElem? hpending)
      have hlog := (h.congr hdelivery).setLog (t := t) (hdelivery.written _ hcaught)
        fun hpc : LogPc.record ≠ .record => absurd rfl hpc
      exact ⟨hlog, fun hguarded => hguarded.congr (fun _ => id) fun _ _ => Or.inl⟩
  | raised t signo happ => exact hsame (.send p t _)
  | aborting t happ =>
      have hgo : Unlogged p (p.setThread t { p.threads t with base := .zsignalAbort .print }) :=
        .setThread nofun
      exact hsame ⟨hgo.base, hgo.kept, hgo.new, hgo.written, hgo.disposition⟩
  | handler t top rest hhandlers =>
      have hentered := (hinv.threads hended t).entered top (hhandlers ▸ List.mem_cons_self)
      exact hsame (.runHandler (hinv.fatal _ hentered) t rest)
  | abort t pc hhandlers hready hbase => exact hsame (.runAbort p t pc)
  | logError t si pc hhandlers hready hbase => exact h.runLogError hbase
  | sent t si => exact hsame (.send p t si)
  | delivered t i si p' hi hblocked hdeliver =>
      have hgo : Unlogged p (p.setThread t { p.threads t with
          pending := (p.threads t).pending.eraseIdx i }) := .setThread fun _ _ => id
      exact hsame (hgo.trans (.deliverTo (fun hd => ((hinv.armed _).mp hd).1) hdeliver))
  | fault t si p' hblocked hdeliver =>
      exact hsame (.deliverTo (fun hd => ((hinv.armed _).mp hd).1) hdeliver)
  | blocked t si hblocked => exact hsame (.ended p _)

/-- A signal kills the process with its default action, or it is blocked. -/
theorem killed_cases {m : Move} (hstep : p.step capacity m = some p') {signo : Int}
    (hkilled : p'.ended = some (.killed signo)) :
    p'.records = p.records ∧ (p.disposition signo = .sigDfl ∨
      ∃ t, signo ∈ (p.threads t).blocked) := by
  obtain ⟨hended, heffect⟩ := step_effect hstep
  have hrunning : ∀ {q : Process}, q.ended = p.ended → q.ended ≠ some (.killed signo) := by
    intro q hq
    simp [hq, hended]
  have hdeliver : ∀ {q : Process} {t : Nat} {si : Siginfo}, q.ended = p.ended →
      q.records = p.records → q.disposition = p.disposition →
      q.deliverTo capacity t si = some p' →
      p'.records = p.records ∧ (p.disposition signo = .sigDfl ∨
        ∃ t, signo ∈ (p.threads t).blocked) := by
    intro q t si hq hrecords hdisposition hdeliver
    obtain ⟨-, rfl⟩ | ⟨hd, -, rfl⟩ | ⟨-, -, rfl⟩ | ⟨-, delivery, -, rfl⟩ := deliverTo_cases hdeliver
    · exact absurd hkilled (hrunning hq)
    · obtain rfl : si.siSigno = signo := by simpa using hkilled
      exact ⟨hrecords, Or.inl (hdisposition ▸ hd)⟩
    · exact absurd hkilled (hrunning hq)
    · exact absurd hkilled (hrunning hq)
  cases heffect with
  | refused | called | logging | raised | aborting | sent => exact absurd hkilled (hrunning rfl)
  | registered t signo' cb ctxt loop delivery =>
      refine absurd hkilled (hrunning ?_)
      unfold Process.setDisposition
      split <;> rfl
  | handler t top rest hhandlers =>
      refine absurd hkilled (hrunning ?_)
      unfold Process.runHandler
      cases top.pc with
      | test =>
          dsimp only
          split <;> rfl
      | record | raise | ret => rfl
  | abort t pc hhandlers hready hbase =>
      cases pc with
      | print | raise => exact absurd hkilled (hrunning rfl)
      | exit => cases hkilled
  | logError t si pc hhandlers hready hbase =>
      refine absurd hkilled (hrunning ?_)
      unfold Process.runLogError
      cases pc with
      | record | raise | ret => rfl
      | setDefault =>
          dsimp only
          unfold Process.setDisposition
          split <;> rfl
  | delivered t i si p' hi hblocked hdelivered =>
      exact hdeliver (q := p.setThread t _) rfl rfl rfl hdelivered
  | fault t si p' hblocked hdelivered => exact hdeliver rfl rfl rfl hdelivered
  | blocked t si hblocked =>
      obtain rfl : si.siSigno = signo := by simpa using hkilled
      exact ⟨rfl, Or.inr ⟨t, hblocked⟩⟩

/-- One of the nine signals kills the process only behind its record. -/
theorem Guarded.killed (h : p.Guarded) (hinv : p.Inv) {m : Move}
    (hstep : p.step capacity m = some p') {signo : Int} (hsigno : signo ∈ loggedSignals)
    (hkilled : p'.ended = some (.killed signo)) : signo ∈ p'.recordedNumbers := by
  obtain ⟨hrecords, hd | ⟨t, hblocked⟩⟩ := killed_cases hstep hkilled
  · rw [recordedNumbers, hrecords]
    refine (h signo hsigno).resolve_left fun hcaught => ?_
    rw [hcaught] at hd
    cases hd
  · obtain ⟨top, htop, heq⟩ := List.mem_map.mp hblocked
    have hentered := (hinv.threads (step_effect hstep).1 t).entered top htop
    have hfatal : isFatal top.siginfo.siSigno = true := hinv.fatal _ hentered
    rw [heq, isFatal_of_mem_loggedSignals hsigno] at hfatal
    cases hfatal

/-! ## `install_default_nonfatal_signals_handlers` -/

/-- A registration in a free entry. -/
theorem step_register {signo : Int} {cb : SignalCb} {ctxt loop : Nat}
    (hvacant : State.Vacant signo p.delivery) (hfatal : isFatal signo = false)
    (hcatch : signo ∉ uncatchable)
    (hstep : p.step capacity (.call t (.register signo cb ctxt loop)) = some p') :
    ∃ delivery, p.delivery.step capacity (.register signo cb ctxt loop) = some delivery ∧
      p' = { p with
        delivery := delivery
        disposition := Function.update p.disposition signo .nonfatalSignalHandler } := by
  obtain ⟨delivery, hregister, -, -⟩ := hvacant.register hfatal cb ctxt loop
  have hrange : 0 ≤ signo := by
    obtain ⟨u, hu, -⟩ := hvacant
    exact ((p.delivery.exists_user_iff signo).mp ⟨u, hu⟩).1
  have hne : signo ≠ -1 := by omega
  have hsome := call_of_step hstep
  refine ⟨delivery, by rw [State.step, hregister]; rfl, ?_⟩
  simp only [call] at hsome
  split at hsome
  · rw [hregister] at hsome
    have heq := Option.some.inj hsome
    rw [if_neg hne, Process.setDisposition, if_neg hcatch] at heq
    exact heq.symm
  · cases hsome

/-- Registrations for different signals, in free entries: all of these are caught from then on. -/
theorem registers_cases {loop : Nat} {entries : List (Int × SignalCb)}
    (hnodup : (entries.map Prod.fst).Nodup)
    (hvacant : ∀ e ∈ entries, State.Vacant e.1 p.delivery)
    (hfatal : ∀ e ∈ entries, isFatal e.1 = false) (hcatch : ∀ e ∈ entries, e.1 ∉ uncatchable)
    (hrun : p.runAll capacity (entries.map fun e => .call t (.register e.1 e.2 0 loop)) =
      some p') :
    p'.ended = p.ended ∧ ∀ signo, p'.disposition signo =
      if signo ∈ entries.map Prod.fst then .nonfatalSignalHandler else p.disposition signo := by
  induction entries generalizing p with
  | nil =>
      cases hrun
      simp
  | cons e entries ih =>
      obtain ⟨q, hq, hrest⟩ := Option.bind_eq_some_iff.mp hrun
      rw [List.forall_mem_cons] at hvacant hfatal hcatch
      rw [List.map_cons, List.nodup_cons] at hnodup
      obtain ⟨delivery, hstep, rfl⟩ := step_register hvacant.1 hfatal.1 hcatch.1 hq
      -- the other entries are still free
      have hfree : ∀ e' ∈ entries, State.Vacant e'.1 delivery := by
        intro e' he'
        have hne : e.1 ≠ e'.1 := fun heq => hnodup.1 (heq ▸ List.mem_map_of_mem he')
        have huser := (State.step_frame e'.1 hstep).1 fun heq => hne (Option.some.inj heq)
        unfold State.Vacant
        rw [huser]
        exact hvacant.2 e' he'
      obtain ⟨hended, hdisposition⟩ := ih hnodup.2 hfree hfatal.2 hcatch.2 hrest
      refine ⟨hended, fun signo => ?_⟩
      rw [hdisposition signo, List.map_cons]
      by_cases heq : signo = e.1
      · simp [heq]
      · simp only [List.mem_cons, heq, false_or, Function.update_of_ne heq]

/-- Behind `zsignal_init` all nine signals are caught. -/
theorem Guarded.init {loop : Nat}
    (hrun : (Process.start loop).runAll capacity (Process.init loop) = some p) :
    p.ended = none ∧ p.Guarded := by
  let entries : List (Int × SignalCb) := (13, .doNothing) ::
    loggedSignals.map fun signo => (signo, .logErrorAndCallSystemDefaultHandler)
  have hmap : Process.init loop =
      entries.map fun e => .call loop (.register e.1 e.2 0 loop) := by
    simp [Process.init, installDefaults, entries, loggedSignals]
  have hvacant : ∀ e ∈ entries, State.Vacant e.1 (Process.start loop).delivery := by
    have hrange : ∀ e ∈ entries, 0 ≤ e.1 ∧ e.1 < nsig := by decide
    exact fun e he => ⟨_, State.Inv.blank.table e.1 (hrange e he), rfl⟩
  have hfatal : ∀ e ∈ entries, isFatal e.1 = false := by decide
  have hcatch : ∀ e ∈ entries, e.1 ∉ uncatchable := by decide
  rw [hmap] at hrun
  obtain ⟨hended, hdisposition⟩ := registers_cases (by decide) hvacant hfatal hcatch hrun
  refine ⟨hended, fun signo hsigno => Or.inl ?_⟩
  have hmem : signo ∈ entries.map Prod.fst := by simp [entries, hsigno]
  rw [hdisposition signo, if_pos hmem]

end Process

/-- In every interleaving that starts with `zsignal_init`: if one of the nine signals has killed the
process, then a record of it was written before; and what is recorded without being fatal is a
signal that its handler has written to the self-pipe. -/
theorem default_signal_recorded (capacity loop : Nat) (moves : List Move) (p : Process)
    (hrun : (Process.start loop).runAll capacity (Process.init loop ++ moves) = some p) :
    (∀ signo ∈ loggedSignals, p.ended = some (.killed signo) →
        ∃ si ∈ p.records, si.siSigno = signo) ∧
      ∀ si ∈ p.records, isFatal si.siSigno = false → si ∈ p.delivery.written := by
  have hlogged : ∀ (q : Process) (m : Move) (q' : Process), q.Inv ∧ q.Logged →
      q.step capacity m = some q' → q'.Inv ∧ q'.Logged :=
    fun q m q' hq hqstep => ⟨hq.1.step hqstep, (hq.2.step hq.1 hqstep).1⟩
  have hguarded : ∀ (q : Process) (m : Move) (q' : Process),
      (q.Inv ∧ q.Logged) ∧ q.Guarded ∧ (∀ signo ∈ loggedSignals,
        q.ended = some (.killed signo) → signo ∈ q.recordedNumbers) →
      q.step capacity m = some q' →
      (q'.Inv ∧ q'.Logged) ∧ q'.Guarded ∧ (∀ signo ∈ loggedSignals,
        q'.ended = some (.killed signo) → signo ∈ q'.recordedNumbers) :=
    fun q m q' hq hqstep => ⟨hlogged q m q' hq.1 hqstep, (hq.1.2.step hq.1.1 hqstep).2 hq.2.1,
      fun signo hsigno hkilled => hq.2.1.killed hq.1.1 hqstep hsigno hkilled⟩
  rw [Process.runAll, List.foldlM_append] at hrun
  obtain ⟨q, hinit, hrest⟩ := Option.bind_eq_some_iff.mp hrun
  have hstart := PartialRun.invariant hlogged ⟨Process.Inv.start loop, Process.Logged.start loop⟩
    hinit
  obtain ⟨hended, hinitial⟩ := Process.Guarded.init hinit
  obtain ⟨hlast, -, hkilled⟩ := PartialRun.invariant hguarded
    ⟨hstart, hinitial, fun signo _ hkilled => by simp [hended] at hkilled⟩ hrest
  refine ⟨fun signo hsigno hsome => ?_, hlast.2.source⟩
  obtain ⟨si, hsi, heq⟩ := List.mem_map.mp (hkilled signo hsigno hsome)
  exact ⟨si, hsi, heq⟩

/-- `SIGTERM` comes while the thread of the event loop is in the application. -/
theorem default_signal_recorded_terminated :
    ∃ p, (Process.start 1).runAll 4 (Process.init 1 ++
        [.send 2 ⟨15, []⟩, .deliver 2 0, .call 1 .read, .call 1 .lookup, .call 1 (.fire 0),
          .run 1, .run 1, .run 1, .deliver 1 0]) = some p ∧
      p.ended = some (.killed 15) ∧ ∃ si ∈ p.records, si.siSigno = 15 := by
  refine ⟨_, rfl, rfl, ?_⟩
  exact (default_signal_recorded 4 1 [.send 2 ⟨15, []⟩, .deliver 2 0, .call 1 .read,
    .call 1 .lookup, .call 1 (.fire 0), .run 1, .run 1, .run 1, .deliver 1 0] _ rfl).1 15
    (by decide) rfl

end BazelPro.Zlib
