import BazelPro.Zlib.FatalSignals

/-!
# The error records of fatal signals

What every step keeps of the error records (`Process.Recorded`): a fatal signal gets one record at
most, from the handler that was entered for it; while there is none, the handler is still before it,
or it was the `SIGABRT` that `zsignal_abort` has announced. So a process that is killed by a fatal
signal leaves a record of it, unless a second signal of the same number came before the first one
was recorded, or `abort_expected` was set before the message was printed (`fatal_signal_recorded`).
-/

namespace BazelPro.Zlib

/-- The handler has not written its record, and may be about to. -/
def Handler.BeforeRecord (h : Handler) : Prop := h.pc = .test ∨ h.pc = .record

namespace Process

variable {capacity t : Nat} {p p' : Process} {si : Siginfo}

/-- The numbers of the signals that were recorded. -/
def recordedNumbers (p : Process) : List Int := p.records.map Siginfo.siSigno

/-- The handler of the signal is in progress in the thread, before its record. -/
def Recording (p : Process) (t : Nat) (si : Siginfo) : Prop :=
  ∃ h ∈ (p.threads t).handlers, h.siginfo = si ∧ h.BeforeRecord

/-- Some thread is about to print the message of `zsignal_abort`. -/
def Announcing (p : Process) : Prop := ∃ t, (p.threads t).base = .zsignalAbort .print

/-- What holds of the records in every interleaving. -/
structure Recorded (p : Process) : Prop where
  early : ∀ t, ∀ h ∈ (p.threads t).handlers, h.BeforeRecord →
    h.siginfo.siSigno ∉ p.recordedNumbers
  kept : ∀ t si, (t, si) ∈ p.handled →
    si ∈ p.records ∨ p.Recording t si ∨ si.siSigno = sigabrt ∧ p.abortExpected = true
  source : ∀ si ∈ p.records, isFatal si.siSigno = true → ∃ t, (t, si) ∈ p.handled
  once : (p.recordedNumbers.filter isFatal).Nodup
  announced : p.abortExpected = true → p.announced = true ∨ p.Announcing

theorem Recorded.start (initThread : Nat) : Recorded (start initThread) where
  early := by simp [Process.start, Thread.fresh]
  kept := by simp [Process.start]
  source := by simp [Process.start]
  once := List.nodup_nil
  announced := by simp [Process.start]

/-- A step that has nothing to do with the records. -/
structure Unrecorded (p p' : Process) : Prop where
  handlers : ∀ t, (p'.threads t).handlers = (p.threads t).handlers
  base : ∀ t, (p.threads t).base = .zsignalAbort .print →
    (p'.threads t).base = .zsignalAbort .print
  records : p'.records = p.records
  handled : p'.handled = p.handled
  abortExpected : p'.abortExpected = p.abortExpected
  announced : p'.announced = p.announced

theorem Recorded.congr (h : p.Recorded) (hsame : Unrecorded p p') : p'.Recorded := by
  have hnumbers : p'.recordedNumbers = p.recordedNumbers := by
    rw [recordedNumbers, recordedNumbers, hsame.records]
  constructor
  · intro t g hg
    rw [hsame.handlers] at hg
    rw [hnumbers]
    exact h.early t g hg
  · intro t si hsi
    rw [hsame.records, hsame.abortExpected, Recording, hsame.handlers]
    exact h.kept t si (hsame.handled ▸ hsi)
  · rw [hsame.records, hsame.handled]
    exact h.source
  · rw [hnumbers]
    exact h.once
  · rw [hsame.abortExpected, hsame.announced]
    intro hexpected
    exact (h.announced hexpected).imp_right fun ⟨t, ht⟩ => ⟨t, hsame.base t ht⟩

theorem Unrecorded.trans {p'' : Process} (h : Unrecorded p p') (h' : Unrecorded p' p'') :
    Unrecorded p p'' :=
  ⟨fun t => (h'.handlers t).trans (h.handlers t), fun t hb => h'.base t (h.base t hb),
    h'.records.trans h.records, h'.handled.trans h.handled,
    h'.abortExpected.trans h.abortExpected, h'.announced.trans h.announced⟩

theorem Unrecorded.setThread {x : Thread} (hhandlers : x.handlers = (p.threads t).handlers)
    (hbase : (p.threads t).base = .zsignalAbort .print → x.base = .zsignalAbort .print) :
    Unrecorded p (p.setThread t x) := by
  refine ⟨fun t' => ?_, fun t' => ?_, rfl, rfl, rfl, rfl⟩
  · by_cases heq : t' = t
    · subst heq
      simpa using hhandlers
    · simp [heq]
  · by_cases heq : t' = t
    · subst heq
      simpa using hbase
    · simp [heq]

theorem Unrecorded.delivery (p : Process) (delivery : State) :
    Unrecorded p { p with delivery := delivery } :=
  ⟨fun _ => rfl, fun _ => id, rfl, rfl, rfl, rfl⟩

theorem Unrecorded.ended (p : Process) (e : End) : Unrecorded p { p with ended := some e } :=
  ⟨fun _ => rfl, fun _ => id, rfl, rfl, rfl, rfl⟩

theorem Unrecorded.setDisposition (p : Process) (signo : Int) (d : Disposition) :
    Unrecorded p (p.setDisposition signo d) := by
  unfold Process.setDisposition
  split <;> exact ⟨fun _ => rfl, fun _ => id, rfl, rfl, rfl, rfl⟩

theorem Unrecorded.send (p : Process) (t : Nat) (si : Siginfo) : Unrecorded p (p.send t si) :=
  .setThread (by simp) (by simp)

/-! ## Handlers -/

/-- The handlers of a thread change: each that is before its record was, and each that was still is,
or has left its record out. -/
theorem Recorded.setHandlers (h : p.Recorded) {handlers : List Handler}
    (hnew : ∀ g ∈ handlers, g.BeforeRecord →
      ∃ g' ∈ (p.threads t).handlers, g'.siginfo = g.siginfo ∧ g'.BeforeRecord)
    (hold : ∀ g ∈ (p.threads t).handlers, g.BeforeRecord →
      (∃ g' ∈ handlers, g'.siginfo = g.siginfo ∧ g'.BeforeRecord) ∨
        g.siginfo.siSigno = sigabrt ∧ p.abortExpected = true) :
    (p.setThread t { p.threads t with handlers := handlers }).Recorded := by
  constructor
  · intro t' g hg hbefore
    by_cases heq : t' = t
    · subst heq
      obtain ⟨g', hg', hsi, hbefore'⟩ := hnew g (by simpa using hg) hbefore
      exact hsi ▸ h.early t' g' hg' hbefore'
    · exact h.early t' g (by simpa [heq] using hg) hbefore
  · intro t' si' hsi'
    obtain hrecorded | ⟨g, hg, rfl, hbefore⟩ | habort := h.kept t' si' hsi'
    · exact Or.inl hrecorded
    · by_cases heq : t' = t
      · subst heq
        refine Or.inr ((hold g hg hbefore).imp_left fun hrecording => ?_)
        simpa [Recording] using hrecording
      · exact Or.inr (Or.inl ⟨g, by simpa [heq] using hg, rfl, hbefore⟩)
    · exact Or.inr (Or.inr habort)
  · exact h.source
  · exact h.once
  · intro hexpected
    refine (h.announced hexpected).imp_right fun ⟨t', ht'⟩ => ⟨t', ?_⟩
    by_cases heq : t' = t
    · subst heq
      simpa using ht'
    · simpa [heq] using ht'

/-- The handler that was entered last writes its record. -/
theorem Recorded.record (h : p.Recorded) (hinv : p.Inv) (hended : p.ended = none) {top : Handler}
    {rest : List Handler} (hhandlers : (p.threads t).handlers = top :: rest)
    (hpc : top.pc = .record) : (p.runHandler t top rest).Recorded := by
  have hthread := hinv.threads hended
  have htop : top ∈ (p.threads t).handlers := hhandlers ▸ List.mem_cons_self
  have hentered := (hthread t).entered top htop
  have hrun : p.runHandler t top rest =
      { p.setThread t { p.threads t with handlers := { top with pc := .raise } :: rest } with
        records := p.records ++ [top.siginfo] } := by
    simp [runHandler, hpc]
  have hnumbers : (p.runHandler t top rest).recordedNumbers =
      p.recordedNumbers ++ [top.siginfo.siSigno] := by
    simp [hrun, recordedNumbers]
  -- no other handler is for a signal of this number
  have hunique : ∀ t' g, g ∈ (p.threads t').handlers → (t' = t → g ∈ rest) →
      g.siginfo.siSigno ≠ top.siginfo.siSigno := by
    intro t' g hg hrest heq
    have hsame : (t', g.siginfo) = (t, top.siginfo) :=
      List.inj_on_of_nodup_map hinv.once ((hthread t').entered g hg) hentered heq
    obtain rfl : t' = t := congrArg Prod.fst hsame
    have hdistinct := (hthread t').distinct
    rw [Thread.blocked, hhandlers, List.map_cons, List.nodup_cons] at hdistinct
    exact hdistinct.1 (heq ▸ List.mem_map_of_mem (hrest rfl))
  have hbefore : ∀ t' g, g ∈ ((p.runHandler t top rest).threads t').handlers →
      g.BeforeRecord → g ∈ (p.threads t').handlers ∧ (t' = t → g ∈ rest) := by
    intro t' g hg hbefore
    rw [hrun] at hg
    by_cases heq : t' = t
    · subst heq
      simp only [threads_setThread, Function.update_self] at hg
      obtain rfl | hg := List.mem_cons.mp hg
      · simp [Handler.BeforeRecord] at hbefore
      · exact ⟨hhandlers ▸ List.mem_cons_of_mem _ hg, fun _ => hg⟩
    · exact ⟨by simpa [heq] using hg, fun h => absurd h heq⟩
  constructor
  · intro t' g hg hg'
    obtain ⟨hold, hrest⟩ := hbefore t' g hg hg'
    rw [hnumbers, List.mem_append, List.mem_singleton, not_or]
    exact ⟨h.early t' g hold hg', hunique t' g hold hrest⟩
  · intro t' si' hsi'
    have hsi : (t', si') ∈ p.handled := by simpa [hrun] using hsi'
    obtain hrecorded | ⟨g, hg, rfl, hg'⟩ | habort := h.kept t' si' hsi
    · exact Or.inl (by simp [hrun, hrecorded])
    · by_cases hsame : g.siginfo = top.siginfo
      · exact Or.inl (by simp [hrun, hsame])
      · refine Or.inr (Or.inl ⟨g, ?_, rfl, hg'⟩)
        rw [hrun]
        by_cases heq : t' = t
        · subst heq
          rw [hhandlers] at hg
          obtain rfl | hg := List.mem_cons.mp hg
          · exact absurd rfl hsame
          · simp [hg]
        · simpa [heq] using hg
    · exact Or.inr (Or.inr (by simpa [hrun] using habort))
  · intro si' hsi' hfatal
    have hmem : si' ∈ p.records ∨ si' = top.siginfo := by simpa [hrun] using hsi'
    obtain hold | rfl := hmem
    · obtain ⟨t', ht'⟩ := h.source si' hold hfatal
      exact ⟨t', by simpa [hrun] using ht'⟩
    · exact ⟨t, by simpa [hrun] using hentered⟩
  · have hfatal : isFatal top.siginfo.siSigno = true := hinv.fatal _ hentered
    rw [hnumbers, List.filter_append, List.filter_cons_of_pos hfatal, List.filter_nil]
    refine List.nodup_append.mpr ⟨h.once, List.nodup_singleton _, ?_⟩
    intro a ha b hb heq
    have hnot := h.early t top htop (Or.inr hpc)
    exact hnot (List.mem_singleton.mp hb ▸ heq ▸ (List.mem_filter.mp ha).1)
  · intro hexpected
    have hexpected' : p.abortExpected = true := by simpa [hrun] using hexpected
    rw [hrun]
    obtain hannounced | hannouncing := h.announced hexpected'
    · exact Or.inl hannounced
    · obtain ⟨t', ht'⟩ := hannouncing
      refine Or.inr ⟨t', ?_⟩
      by_cases heq : t' = t
      · subst heq
        simpa using ht'
      · simpa [heq] using ht'

/-- `fatal_signal_handler` goes on. -/
theorem Recorded.runHandler (h : p.Recorded) (hinv : p.Inv) (hended : p.ended = none)
    {top : Handler} {rest : List Handler} (hhandlers : (p.threads t).handlers = top :: rest) :
    (p.runHandler t top rest).Recorded := by
  have htop : top ∈ (p.threads t).handlers := hhandlers ▸ List.mem_cons_self
  have hmem : ∀ {g}, g ∈ rest → g ∈ (p.threads t).handlers :=
    fun hg => hhandlers ▸ List.mem_cons_of_mem _ hg
  -- the handler has its record behind it, or leaves it out
  have hbehind : ∀ {handlers : List Handler}, (∀ g ∈ handlers, g.BeforeRecord → g ∈ rest) →
      (∀ g ∈ rest, g ∈ handlers) →
      (top.BeforeRecord → top.siginfo.siSigno = sigabrt ∧ p.abortExpected = true) →
      (p.setThread t { p.threads t with handlers := handlers }).Recorded := by
    intro handlers hnew hrest hleft
    refine h.setHandlers (fun g hg hg' => ⟨g, hmem (hnew g hg hg'), rfl, hg'⟩) fun g hg hg' => ?_
    rw [hhandlers] at hg
    obtain rfl | hg := List.mem_cons.mp hg
    · exact Or.inr (hleft hg')
    · exact Or.inl ⟨g, hrest g hg, rfl, hg'⟩
  have hgo : ∀ pc : FatalPc, ¬ Handler.BeforeRecord { top with pc := pc } →
      ∀ g ∈ { top with pc := pc } :: rest, g.BeforeRecord → g ∈ rest := by
    intro pc hpc g hg hg'
    obtain rfl | hg := List.mem_cons.mp hg
    · exact absurd hg' hpc
    · exact hg
  cases hpc : top.pc with
  | test =>
      unfold Process.runHandler
      rw [hpc]
      dsimp only
      split
      · next habort =>
        exact hbehind (hgo .raise (by simp [Handler.BeforeRecord]))
          (fun g hg => List.mem_cons_of_mem _ hg) fun _ => habort
      · refine h.setHandlers (fun g hg hg' => ?_) fun g hg hg' => Or.inl ?_
        · obtain rfl | hg := List.mem_cons.mp hg
          · exact ⟨top, htop, rfl, Or.inl hpc⟩
          · exact ⟨g, hmem hg, rfl, hg'⟩
        · rw [hhandlers] at hg
          obtain rfl | hg := List.mem_cons.mp hg
          · exact ⟨_, List.mem_cons_self, rfl, Or.inr rfl⟩
          · exact ⟨g, List.mem_cons_of_mem _ hg, rfl, hg'⟩
  | record => exact h.record hinv hended hhandlers hpc
  | raise =>
      unfold Process.runHandler
      rw [hpc]
      refine Recorded.congr ?_ (.send _ t _)
      exact hbehind (hgo .ret (by simp [Handler.BeforeRecord]))
        (fun g hg => List.mem_cons_of_mem _ hg) (by simp [Handler.BeforeRecord, hpc])
  | ret =>
      unfold Process.runHandler
      rw [hpc]
      exact hbehind (fun g hg _ => hg) (fun g hg => hg) (by simp [Handler.BeforeRecord, hpc])

/-- The handler of a fatal signal is entered: it was not entered before, so there is no record. -/
theorem Recorded.enter (h : p.Recorded) (hinv : p.Inv)
    (hd : p.disposition si.siSigno = .fatalSignalHandler) : (p.enter t si).Recorded := by
  obtain ⟨hfatal, hnew⟩ := (hinv.armed si.siSigno).mp hd
  have hunrecorded : si.siSigno ∉ p.recordedNumbers := by
    intro hmem
    obtain ⟨si', hsi', heq⟩ := List.mem_map.mp hmem
    obtain ⟨t', ht'⟩ := h.source si' hsi' (heq ▸ hfatal)
    exact hnew (heq ▸ List.mem_map_of_mem ht')
  constructor
  · intro t' g hg hg'
    by_cases heq : t' = t
    · subst heq
      have hcases : g = ⟨si, .test⟩ ∨ g ∈ (p.threads t').handlers := by
        simpa [Process.enter] using hg
      obtain rfl | hg := hcases
      · exact hunrecorded
      · exact h.early t' g hg hg'
    · exact h.early t' g (by simpa [Process.enter, heq] using hg) hg'
  · intro t' si' hsi'
    obtain hsi' | hsi' := List.mem_append.mp hsi'
    · obtain hrecorded | ⟨g, hg, hsi, hg'⟩ | habort := h.kept t' si' hsi'
      · exact Or.inl hrecorded
      · refine Or.inr (Or.inl ⟨g, ?_, hsi, hg'⟩)
        by_cases heq : t' = t
        · subst heq
          simp [Process.enter, hg]
        · simpa [Process.enter, heq] using hg
      · exact Or.inr (Or.inr habort)
    · cases List.mem_singleton.mp hsi'
      exact Or.inr (Or.inl ⟨⟨si, .test⟩, by simp [Process.enter], rfl, Or.inl rfl⟩)
  · intro si' hsi' hfatal'
    obtain ⟨t', ht'⟩ := h.source si' hsi' hfatal'
    exact ⟨t', List.mem_append_left _ ht'⟩
  · exact h.once
  · intro hexpected
    obtain hannounced | hannouncing := h.announced hexpected
    · exact Or.inl hannounced
    · obtain ⟨t', ht'⟩ := hannouncing
      refine Or.inr ⟨t', ?_⟩
      by_cases heq : t' = t
      · subst heq
        simpa [Process.enter] using ht'
      · simpa [Process.enter, heq] using ht'

/-- A signal is delivered. -/
theorem Recorded.deliverTo (h : p.Recorded)
    (hnew : p.disposition si.siSigno = .fatalSignalHandler → (p.enter t si).Recorded)
    (hdeliver : p.deliverTo capacity t si = some p') : p'.Recorded := by
  obtain ⟨hd, rfl⟩ | ⟨-, -, rfl⟩ | ⟨-, -, rfl⟩ | ⟨-, delivery, -, rfl⟩ := deliverTo_cases hdeliver
  · exact hnew hd
  · exact h.congr (.ended p _)
  · exact h
  · exact h.congr (.delivery p delivery)

/-- `zsignal_abort` goes on. -/
theorem Recorded.runAbort (h : p.Recorded) {pc : AbortPc}
    (hbase : (p.threads t).base = .zsignalAbort pc) : (p.runAbort t pc).Recorded := by
  cases pc with
  | print =>
      have hhandlers : ∀ t', ((p.runAbort t .print).threads t').handlers =
          (p.threads t').handlers := by
        intro t'
        by_cases heq : t' = t
        · subst heq
          simp [Process.runAbort]
        · simp [Process.runAbort, heq]
      constructor
      · intro t' g hg
        rw [hhandlers] at hg
        exact h.early t' g hg
      · intro t' si' hsi'
        rw [Recording, hhandlers]
        exact h.kept t' si' hsi'
      · exact h.source
      · exact h.once
      · exact fun _ => Or.inl rfl
  | raise =>
      have hprint : Base.zsignalAbort .raise ≠ .zsignalAbort .print := by simp
      have hgo : Unrecorded p (p.setThread t { p.threads t with base := .zsignalAbort .exit }) :=
        .setThread rfl fun hb => absurd (hbase.symm.trans hb) hprint
      exact h.congr (hgo.trans (.send _ t _))
  | exit => exact h.congr (.ended p _)

/-- `log_error_and_call_system_default_handler` goes on. -/
theorem Recorded.runLogError (h : p.Recorded) (hinv : p.Inv) (hended : p.ended = none) {pc : LogPc}
    (hbase : (p.threads t).base = .logError si pc) : (p.runLogError t si pc).Recorded := by
  have hfatal : isFatal si.siSigno = false := (hinv.threads hended t).logging si pc hbase
  have hgo : ∀ b, Unrecorded p (p.setThread t { p.threads t with base := b }) :=
    fun b => .setThread rfl fun hb => Base.noConfusion (hbase.symm.trans hb)
  cases pc with
  | record =>
      have h' := h.congr (hgo (.logError si .setDefault))
      have hrun : (p.runLogError t si .record).recordedNumbers =
          p.recordedNumbers ++ [si.siSigno] := by
        simp [Process.runLogError, recordedNumbers]
      constructor
      · intro t' g hg hg'
        rw [hrun, List.mem_append, List.mem_singleton, not_or]
        refine ⟨h'.early t' g hg hg', fun heq => ?_⟩
        -- the handlers in progress are for fatal signals
        have hgfatal : isFatal g.siginfo.siSigno = true := by
          refine hinv.fatal _ ((hinv.threads hended t').entered g ?_)
          rw [← (hgo (.logError si .setDefault)).handlers t']
          exact hg
        rw [heq, hfatal] at hgfatal
        cases hgfatal
      · intro t' si' hsi'
        exact (h'.kept t' si' hsi').imp_left (List.mem_append_left _)
      · intro si' hsi' hfatal'
        obtain hsi' | hsi' := List.mem_append.mp hsi'
        · exact h'.source si' hsi' hfatal'
        · rw [List.mem_singleton.mp hsi', hfatal] at hfatal'
          cases hfatal'
      · rw [hrun, List.filter_append, List.filter_cons_of_neg (by simp [hfatal]), List.filter_nil,
          List.append_nil]
        exact h.once
      · exact h'.announced
  | setDefault => exact h.congr ((hgo _).trans (.setDisposition _ _ _))
  | raise => exact h.congr ((hgo _).trans (.send _ t _))
  | ret => exact h.congr (hgo _)

/-- Every step keeps this. -/
theorem Recorded.step (h : p.Recorded) (hinv : p.Inv) {m : Move}
    (hstep : p.step capacity m = some p') : p'.Recorded := by
  obtain ⟨hended, heffect⟩ := step_effect hstep
  cases heffect with
  | refused t m hm happ => exact h
  | called t a delivery happ hcall => exact h.congr (.delivery p delivery)
  | registered t signo cb ctxt loop delivery happ hcall hfatal hinstalled =>
      exact h.congr ((Unrecorded.delivery p delivery).trans (.setDisposition _ _ _))
  | logging t i delivery sigCtxt happ hpending hcall =>
      refine h.congr ((Unrecorded.delivery p delivery).trans (.setThread rfl fun hb => ?_))
      exact Base.noConfusion (happ.2.1.symm.trans hb)
  | raised t signo happ => exact h.congr (.send p t _)
  | aborting t happ =>
      have h' : (p.setThread t { p.threads t with base := .zsignalAbort .print }).Recorded :=
        h.congr (.setThread rfl fun _ => rfl)
      refine ⟨h'.early, fun t' si' hsi' => ?_, h'.source, h'.once, fun _ => Or.inr ⟨t, by simp⟩⟩
      exact (h'.kept t' si' hsi').imp_right (Or.imp_right fun habort => ⟨habort.1, rfl⟩)
  | handler t top rest hhandlers => exact h.runHandler hinv hended hhandlers
  | abort t pc hhandlers hready hbase => exact h.runAbort hbase
  | logError t si pc hhandlers hready hbase => exact h.runLogError hinv hended hbase
  | sent t si => exact h.congr (.send p t si)
  | delivered t i si p' hi hblocked hdeliver =>
      have htaken : (p.setThread t { p.threads t with
          pending := (p.threads t).pending.eraseIdx i }).Recorded := h.congr (.setThread rfl id)
      refine htaken.deliverTo (fun hd => ?_) hdeliver
      have henter := h.enter (t := t) hinv hd
      refine henter.congr ⟨fun t' => ?_, fun t' => ?_, rfl, rfl, rfl, rfl⟩ <;>
        by_cases heq : t' = t <;> simp [Process.enter, heq]
  | fault t si p' hblocked hdeliver => exact h.deliverTo (h.enter hinv) hdeliver
  | blocked t si hblocked => exact h.congr (.ended p _)

theorem Recorded.runAll (h : p.Recorded) (hinv : p.Inv) {moves : List Move}
    (hrun : p.runAll capacity moves = some p') : p'.Recorded := by
  have hstep : ∀ (q : Process) (m : Move) (q' : Process), q.Inv ∧ q.Recorded →
      q.step capacity m = some q' → q'.Inv ∧ q'.Recorded :=
    fun q m q' hq hqstep => ⟨hq.1.step hqstep, hq.2.step hq.1 hqstep⟩
  exact (PartialRun.invariant hstep ⟨hinv, h⟩ hrun).2

end Process

/-- In every interleaving: `fatal_signal_handler` is entered once at most for each fatal signal, and
writes one record of it at most; the process does not come to the `exit` of `zsignal_abort`; and if
a fatal signal has killed it, then there is a record of it, unless its handler was still before that
when a second signal of the same number came, or it is `SIGABRT` and `abort_expected` was set, so
that the message of `zsignal_abort` is printed, or was about to be. -/
theorem fatal_signal_recorded (capacity initThread : Nat) (moves : List Move) (p : Process)
    (hrun : (Process.start initThread).runAll capacity moves = some p) :
    p.handledNumbers.Nodup ∧ (p.recordedNumbers.filter isFatal).Nodup ∧
      (∀ si ∈ p.records, isFatal si.siSigno = true → ∃ t, (t, si) ∈ p.handled) ∧
      p.ended ≠ some .exited ∧
      ∀ signo, p.ended = some (.killed signo) → isFatal signo = true →
        ∃ t si, (t, si) ∈ p.handled ∧ si.siSigno = signo ∧
          (si ∈ p.records ∨ p.Recording t si ∨
            signo = sigabrt ∧ (p.announced = true ∨ p.Announcing)) := by
  have hinv := (Process.Inv.start initThread).runAll hrun
  have h := (Process.Recorded.start initThread).runAll (Process.Inv.start initThread) hrun
  refine ⟨hinv.once, h.once, h.source, hinv.exited, fun signo hkilled hfatal => ?_⟩
  obtain ⟨⟨t, si⟩, hentered, rfl⟩ := List.mem_map.mp (hinv.killed signo hkilled hfatal)
  refine ⟨t, si, hentered, rfl, (h.kept t si hentered).imp_right (Or.imp_right fun habort => ?_)⟩
  exact ⟨habort.1, h.announced habort.2⟩

/-- A thread causes `SIGSEGV`; its handler runs to its end. -/
theorem fatal_signal_recorded_segfault :
    ∃ p, (Process.start 1).runAll 4 (Process.init 1 ++
        [.fault 1 ⟨11, []⟩, .run 1, .run 1, .run 1, .run 1, .deliver 1 0]) = some p ∧
      p.ended = some (.killed 11) ∧ p.records = [⟨11, []⟩] ∧ p.handledNumbers.Nodup :=
  ⟨_, rfl, rfl, rfl, (fatal_signal_recorded 4 1 (Process.init 1 ++
    [.fault 1 ⟨11, []⟩, .run 1, .run 1, .run 1, .run 1, .deliver 1 0]) _ rfl).1⟩

end BazelPro.Zlib
