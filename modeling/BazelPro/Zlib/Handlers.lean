import BazelPro.Zlib.Delivery
import BazelPro.Zlib.Threads

/-!
# The handlers in progress

What every step of the process keeps (`Process.Inv`): a fatal signal has its handler until it is
entered, and the default action from then on; a thread that has entered one has it in progress, or
has the same signal pending. Each step is first described by its effect (`Process.Effect`), and each
function that goes on, or is entered, has its own lemma. What an interleaving is for signal delivery
is its `Process.trace`, and the process delivers signals accordingly (`process_delivers`).
-/

namespace BazelPro.Zlib

namespace Process

variable {capacity t : Nat} {p p' : Process} {si : Siginfo} {x : Thread}

/-! ## What a step does -/

@[simp] theorem threads_setThread (p : Process) (t : Nat) (x : Thread) :
    (p.setThread t x).threads = Function.update p.threads t x := rfl

@[simp] theorem disposition_setThread (p : Process) (t : Nat) (x : Thread) :
    (p.setThread t x).disposition = p.disposition := rfl

@[simp] theorem abortExpected_setThread (p : Process) (t : Nat) (x : Thread) :
    (p.setThread t x).abortExpected = p.abortExpected := rfl

@[simp] theorem records_setThread (p : Process) (t : Nat) (x : Thread) :
    (p.setThread t x).records = p.records := rfl

@[simp] theorem announced_setThread (p : Process) (t : Nat) (x : Thread) :
    (p.setThread t x).announced = p.announced := rfl

@[simp] theorem handled_setThread (p : Process) (t : Nat) (x : Thread) :
    (p.setThread t x).handled = p.handled := rfl

@[simp] theorem setThread_threads_self (p : Process) (t : Nat) :
    p.setThread t (p.threads t) = p := by
  simp [setThread]

/-- A thread that changes, and raises a signal. -/
theorem raise_setThread (p : Process) (t : Nat) (x : Thread) (signo : Int) :
    (p.setThread t x).raise t signo = p.setThread t (x.addPending ⟨signo, []⟩) := by
  simp [raise, send, setThread]

/-- Everything the delivery of a signal can do. -/
theorem deliverTo_cases (h : p.deliverTo capacity t si = some p') :
    (p.disposition si.siSigno = .fatalSignalHandler ∧ p' = p.enter t si) ∨
    (p.disposition si.siSigno = .sigDfl ∧ si.siSigno ∉ harmless ∧
      p' = { p with ended := some (.killed si.siSigno) }) ∨
    (p.disposition si.siSigno = .sigDfl ∧ si.siSigno ∈ harmless ∧ p' = p) ∨
    (p.disposition si.siSigno = .nonfatalSignalHandler ∧ ∃ delivery,
      p.delivery.step capacity (.arrive si) = some delivery ∧
        p' = { p with delivery := delivery }) := by
  unfold deliverTo at h
  split at h
  · next hd =>
    split at h
    · next hharmless =>
      exact Or.inr (Or.inr (Or.inl ⟨hd, hharmless, (Option.some.inj h).symm⟩))
    · next hkills => exact Or.inr (Or.inl ⟨hd, hkills, (Option.some.inj h).symm⟩)
  · next hd => exact Or.inl ⟨hd, (Option.some.inj h).symm⟩
  · next hd =>
    obtain ⟨delivery, harrive, rfl⟩ := Option.map_eq_some_iff.mp h
    exact Or.inr (Or.inr (Or.inr ⟨hd, delivery, harrive, rfl⟩))

/-- Everything a step can do. -/
inductive Effect (capacity : Nat) (p : Process) : Move → Process → Prop
  | refused (t : Nat) (m : Move) (hm : m.caller = some t) (happ : p.InApplication t) :
      Effect capacity p m p
  | called (t : Nat) (a : Act) (delivery : State) (happ : p.InApplication t)
      (hstep : p.delivery.step capacity a = some delivery) :
      Effect capacity p (.call t a) { p with delivery := delivery }
  | registered (t : Nat) (signo : Int) (cb : SignalCb) (ctxt loop : Nat) (delivery : State)
      (happ : p.InApplication t)
      (hstep : p.delivery.step capacity (.register signo cb ctxt loop) = some delivery)
      (hfatal : isFatal signo = false) (hinstalled : signo ∈ delivery.installed) :
      Effect capacity p (.call t (.register signo cb ctxt loop))
        (setDisposition { p with delivery := delivery } signo .nonfatalSignalHandler)
  | logging (t i : Nat) (delivery : State) (sigCtxt : SignalCtxt)
      (happ : p.InApplication t) (hpending : p.delivery.pending[i]? = some sigCtxt)
      (hstep : p.delivery.step capacity (.fire i) = some delivery) :
      Effect capacity p (.call t (.fire i)) (setThread { p with delivery := delivery } t
        { p.threads t with base := .logError sigCtxt.record.siginfo .record })
  | raised (t : Nat) (signo : Int) (happ : p.InApplication t) :
      Effect capacity p (.raise t signo) (p.raise t signo)
  | aborting (t : Nat) (happ : p.InApplication t) :
      Effect capacity p (.abort t) { p.setThread t
        { p.threads t with base := .zsignalAbort .print } with abortExpected := true }
  | handler (t : Nat) (top : Handler) (rest : List Handler)
      (hhandlers : (p.threads t).handlers = top :: rest) :
      Effect capacity p (.run t) (p.runHandler t top rest)
  | abort (t : Nat) (pc : AbortPc) (hhandlers : (p.threads t).handlers = [])
      (hready : ¬ (p.threads t).Interrupted) (hbase : (p.threads t).base = .zsignalAbort pc) :
      Effect capacity p (.run t) (p.runAbort t pc)
  | logError (t : Nat) (si : Siginfo) (pc : LogPc) (hhandlers : (p.threads t).handlers = [])
      (hready : ¬ (p.threads t).Interrupted) (hbase : (p.threads t).base = .logError si pc) :
      Effect capacity p (.run t) (p.runLogError t si pc)
  | sent (t : Nat) (si : Siginfo) : Effect capacity p (.send t si) (p.send t si)
  | delivered (t i : Nat) (si : Siginfo) (p' : Process) (hi : (p.threads t).pending[i]? = some si)
      (hblocked : si.siSigno ∉ (p.threads t).blocked)
      (hdeliver : (p.setThread t { p.threads t with
        pending := (p.threads t).pending.eraseIdx i }).deliverTo capacity t si = some p') :
      Effect capacity p (.deliver t i) p'
  | fault (t : Nat) (si : Siginfo) (p' : Process) (hblocked : si.siSigno ∉ (p.threads t).blocked)
      (hdeliver : p.deliverTo capacity t si = some p') : Effect capacity p (.fault t si) p'
  | blocked (t : Nat) (si : Siginfo) (hblocked : si.siSigno ∈ (p.threads t).blocked) :
      Effect capacity p (.fault t si) { p with ended := some (.killed si.siSigno) }

theorem effect_call {a : Act} (happ : p.InApplication t) (h : p.call t a = some p') :
    Effect capacity p (.call t a) p' := by
  cases a with
  | arrive siginfo => cases h
  | register signo cb ctxt loop =>
      simp only [call] at h
      split at h
      · obtain ⟨⟨delivery, ret⟩, hregister, h⟩ := Option.bind_eq_some_iff.mp h
        obtain rfl := Option.some.inj h
        obtain ⟨rfl, rfl⟩ | ⟨rfl, hfatal, old, hold, hnull, hdelivery⟩ :=
          State.register_cases hregister
        · exact .refused t _ rfl happ
        · have hrange := (State.exists_user_iff p.delivery ret).mp ⟨old, hold⟩
          have hstep : p.delivery.step capacity (.register ret cb ctxt loop) = some delivery := by
            rw [State.step, hregister]
            rfl
          rw [if_neg (by omega)]
          refine .registered t ret cb ctxt loop delivery happ hstep hfatal ?_
          rw [hdelivery]
          exact List.mem_cons_self
      · cases h
  | deregister signo =>
      obtain ⟨⟨delivery, ret⟩, hderegister, h⟩ := Option.bind_eq_some_iff.mp h
      cases h
      refine .called t (.deregister signo) delivery happ ?_
      rw [State.step, hderegister]
      rfl
  | read =>
      simp only [call] at h
      split at h
      · obtain ⟨delivery, hread, rfl⟩ := Option.map_eq_some_iff.mp h
        exact .called t .read delivery happ hread
      · cases h
  | lookup =>
      simp only [call] at h
      split at h
      · obtain ⟨delivery, hlookup, rfl⟩ := Option.map_eq_some_iff.mp h
        exact .called t .lookup delivery happ hlookup
      · cases h
  | fire i =>
      obtain ⟨sigCtxt, hpending, h⟩ := Option.bind_eq_some_iff.mp h
      split at h
      · obtain ⟨delivery, hfire, h⟩ := Option.bind_eq_some_iff.mp h
        cases h
        split
        · exact .logging t i delivery sigCtxt happ hpending hfire
        · exact .called t (.fire i) delivery happ hfire
      · cases h

/-- A step has one of these effects. -/
theorem step_effect {m : Move} (h : p.step capacity m = some p') :
    p.ended = none ∧ Effect capacity p m p' := by
  unfold step at h
  split at h
  case isFalse => cases h
  case isTrue hended =>
  refine ⟨hended, ?_⟩
  cases m with
  | call t a =>
      simp only at h
      split at h
      · next happ => exact effect_call happ h
      · cases h
  | raise t signo =>
      simp only at h
      split at h
      · next happ =>
        obtain rfl := Option.some.inj h
        unfold zsignalRaise
        split
        · exact .refused t _ rfl happ
        split
        · exact .raised t signo happ
        · exact .refused t _ rfl happ
      · cases h
  | abort t =>
      simp only at h
      split at h
      · next happ =>
        obtain rfl := Option.some.inj h
        exact .aborting t happ
      · cases h
  | run t =>
      simp only at h
      split at h
      · cases h
      · next hready =>
        unfold run at h
        split at h
        · next top rest hhandlers =>
          obtain rfl := Option.some.inj h
          exact .handler t top rest hhandlers
        · next hhandlers =>
          split at h
          · cases h
          · next pc hbase =>
            obtain rfl := Option.some.inj h
            exact .abort t pc hhandlers hready hbase
          · next si pc hbase =>
            obtain rfl := Option.some.inj h
            exact .logError t si pc hhandlers hready hbase
  | send t si =>
      simp only at h
      split at h
      · obtain rfl := Option.some.inj h
        exact .sent t si
      · cases h
  | deliver t i =>
      obtain ⟨si, hi, h⟩ := Option.bind_eq_some_iff.mp h
      split at h
      · cases h
      · next hblocked => exact .delivered t i si p' hi hblocked h
  | fault t si =>
      simp only at h
      split at h
      · cases h
      split at h
      · next hblocked =>
        obtain rfl := Option.some.inj h
        exact .blocked t si hblocked
      · next hblocked => exact .fault t si p' hblocked h

/-! ## The invariant -/

/-- The numbers of the signals that `fatal_signal_handler` was entered for. -/
def handledNumbers (p : Process) : List Int := p.handled.map fun e => e.2.siSigno

/-- The invariant of every interleaving. -/
structure Inv (p : Process) : Prop where
  delivery : p.delivery.Inv
  callbacks : ∀ c ∈ p.delivery.pending, isFatal c.record.siginfo.siSigno = false
  installed : ∀ signo, p.disposition signo = .nonfatalSignalHandler →
    signo ∈ p.delivery.installed ∧ isFatal signo = false
  /-- a fatal signal has its handler until it is entered -/
  armed : ∀ signo, p.disposition signo = .fatalSignalHandler ↔
    isFatal signo = true ∧ signo ∉ p.handledNumbers
  once : p.handledNumbers.Nodup
  fatal : ∀ e ∈ p.handled, isFatal e.2.siSigno = true
  threads : p.ended = none → ∀ t, (p.threads t).Inv p.handled t
  killed : ∀ signo, p.ended = some (.killed signo) → isFatal signo = true →
    signo ∈ p.handledNumbers
  exited : p.ended ≠ some .exited

theorem Inv.start (initThread : Nat) : Inv (start initThread) where
  delivery := State.Inv.blank
  callbacks := by simp [Process.start, State.blank]
  installed signo hd := by
    simp only [Process.start] at hd
    split at hd <;> cases hd
  armed signo := by
    cases hfatal : isFatal signo <;> simp [Process.start, handledNumbers, hfatal]
  once := List.nodup_nil
  fatal := by simp [Process.start]
  threads _ t := Thread.Inv.fresh t
  killed := by simp [Process.start]
  exited := by simp [Process.start]

/-- What the run is recorded in does not matter. -/
theorem Inv.logs (h : p.Inv) (abortExpected announced : Bool) (records : List Siginfo) :
    Inv { p with
      abortExpected := abortExpected
      announced := announced
      records := records } :=
  ⟨h.delivery, h.callbacks, h.installed, h.armed, h.once, h.fatal, h.threads, h.killed, h.exited⟩

/-- A step of signal delivery. -/
theorem Inv.called (h : p.Inv) {a : Act} {delivery : State}
    (hstep : p.delivery.step capacity a = some delivery) :
    Inv { p with delivery := delivery } := by
  have hdelivery := State.step_effect hstep
  refine ⟨h.delivery.step hstep, ?_, fun signo hd => ⟨?_, (h.installed signo hd).2⟩, h.armed,
    h.once, h.fatal, h.threads, h.killed, h.exited⟩
  · intro c hc
    cases hdelivery with
    | sent record readTime user hreading hfound hcb =>
        obtain hc | hc := List.mem_append.mp hc
        · exact h.callbacks c hc
        · obtain rfl := List.mem_singleton.mp hc
          -- a fatal signal has no entry
          by_contra hfatal
          rw [Bool.not_eq_false] at hfatal
          rw [(h.delivery.user_of_range hfound).2, h.delivery.fatal _ hfatal] at hcb
          exact hcb rfl
    | fired i sigCtxt hpending => exact h.callbacks c (List.mem_of_mem_eraseIdx hc)
    | idle | registered | deregistered | arrived | read | dropped => exact h.callbacks c hc
  · have hold := (h.installed signo hd).1
    cases hdelivery with
    | registered => exact List.mem_cons_of_mem _ hold
    | idle | deregistered | arrived | read | dropped | sent | fired => exact hold

/-- A thread changes. -/
theorem Inv.setThread (h : p.Inv) (hx : p.ended = none → x.Inv p.handled t) :
    (p.setThread t x).Inv := by
  refine ⟨h.delivery, h.callbacks, h.installed, h.armed, h.once, h.fatal, fun hended t' => ?_,
    h.killed, h.exited⟩
  rw [threads_setThread]
  by_cases heq : t' = t
  · subst heq
    rw [Function.update_self]
    exact hx hended
  · rw [Function.update_of_ne heq]
    exact h.threads hended t'

/-- `sigaction` for a signal that is not fatal. -/
theorem Inv.setDisposition (h : p.Inv) {signo : Int} {d : Disposition}
    (hfatal : isFatal signo = false) (hd : d ≠ .fatalSignalHandler)
    (hinstalled : d = .nonfatalSignalHandler → signo ∈ p.delivery.installed) :
    (p.setDisposition signo d).Inv := by
  unfold Process.setDisposition
  split
  · exact h
  refine ⟨h.delivery, h.callbacks, fun signo' hd' => ?_, fun signo' => ?_, h.once, h.fatal,
    h.threads, h.killed, h.exited⟩
  · by_cases heq : signo' = signo
    · subst heq
      simp only [Function.update_self] at hd'
      exact ⟨hinstalled hd', hfatal⟩
    · simp only [Function.update_of_ne heq] at hd'
      exact h.installed signo' hd'
  · by_cases heq : signo' = signo
    · subst heq
      simp [hfatal, hd]
    · simp only [Function.update_of_ne heq]
      exact h.armed signo'

theorem handledNumbers_enter (p : Process) (t : Nat) (x : Thread) (si : Siginfo) :
    ((p.setThread t x).enter t si).handledNumbers = p.handledNumbers ++ [si.siSigno] := by
  simp [handledNumbers, enter, setThread]

theorem enter_setThread (p : Process) (t : Nat) (x : Thread) (si : Siginfo) :
    (p.setThread t x).enter t si =
      { p.setThread t { x with handlers := ⟨si, .test⟩ :: x.handlers } with
        disposition := Function.update p.disposition si.siSigno .sigDfl
        handled := p.handled ++ [(t, si)] } := by
  simp [enter, setThread]

/-- The handler of a fatal signal is entered. -/
theorem Inv.enter (h : p.Inv) (hended : p.ended = none) (htakes : (p.threads t).Takes si x)
    (hd : p.disposition si.siSigno = .fatalSignalHandler) : ((p.setThread t x).enter t si).Inv := by
  obtain ⟨hfatal, hnew⟩ := (h.armed si.siSigno).mp hd
  have hnumbers := handledNumbers_enter p t x si
  have hother : ∀ signo, signo ≠ si.siSigno →
      ((p.setThread t x).enter t si).disposition signo = p.disposition signo :=
    fun signo hne => Function.update_of_ne hne _ _
  have hself : ((p.setThread t x).enter t si).disposition si.siSigno = .sigDfl :=
    Function.update_self _ _ _
  constructor
  · exact h.delivery
  · exact h.callbacks
  · intro signo hd'
    by_cases heq : signo = si.siSigno
    · rw [heq, hself] at hd'
      cases hd'
    · exact h.installed signo (hother signo heq ▸ hd')
  · intro signo
    rw [hnumbers]
    by_cases heq : signo = si.siSigno
    · rw [heq, hself]
      simp
    · rw [hother signo heq, h.armed signo]
      simp [heq]
  · rw [hnumbers]
    refine List.nodup_append.mpr ⟨h.once, List.nodup_singleton _, ?_⟩
    intro a ha b hb heq
    exact hnew (List.mem_singleton.mp hb ▸ heq ▸ ha)
  · intro e he
    obtain he | he := List.mem_append.mp he
    · exact h.fatal e he
    · obtain rfl := List.mem_singleton.mp he
      exact hfatal
  · intro _ t'
    rw [enter_setThread]
    by_cases heq : t' = t
    · subst heq
      simpa using (h.threads hended t').enter htakes
    · simpa [heq] using (h.threads hended t').other heq si
  · intro signo hkilled
    have hnone : ((p.setThread t x).enter t si).ended = none := hended
    rw [hnone] at hkilled
    cases hkilled
  · have hnone : ((p.setThread t x).enter t si).ended = none := hended
    simp [hnone]

/-- A signal is delivered. -/
theorem Inv.deliverTo (h : p.Inv) (hended : p.ended = none) (htakes : (p.threads t).Takes si x)
    (hdeliver : (p.setThread t x).deliverTo capacity t si = some p') : p'.Inv := by
  -- another signal than a fatal one leaves the thread as it was
  have htake : isFatal si.siSigno = false → x.Inv p.handled t := by
    intro hfatal
    refine (h.threads hended t).take htakes (fun si' hsi' heq => ?_) fun heq => ?_
    · rw [← heq, h.fatal _ hsi'] at hfatal
      cases hfatal
    · rw [← heq] at hfatal
      cases hfatal
  obtain ⟨hd, rfl⟩ | ⟨hd, -, rfl⟩ | ⟨-, hharmless, rfl⟩ | ⟨hd, delivery, harrive, rfl⟩ :=
    deliverTo_cases hdeliver
  · exact h.enter hended htakes hd
  · refine ⟨h.delivery, h.callbacks, h.installed, h.armed, h.once, h.fatal, nofun,
      fun signo hkilled hfatal => ?_, by simp⟩
    obtain rfl : si.siSigno = signo := by simpa using hkilled
    by_contra hnot
    have harmed := (h.armed si.siSigno).mpr ⟨hfatal, hnot⟩
    rw [show p.disposition si.siSigno = .sigDfl from hd] at harmed
    cases harmed
  · have hnot : ∀ signo ∈ harmless, isFatal signo = false := by decide
    exact h.setThread fun _ => htake (hnot _ hharmless)
  · exact (h.setThread fun _ => htake (h.installed si.siSigno hd).2).called harrive

/-- `fatal_signal_handler` goes on. -/
theorem Inv.runHandler (h : p.Inv) {top : Handler} {rest : List Handler}
    (hhandlers : (p.threads t).handlers = top :: rest) : (p.runHandler t top rest).Inv := by
  have hgo : ∀ pc : FatalPc, pc ≠ .ret →
      (p.setThread t { p.threads t with handlers := { top with pc := pc } :: rest }).Inv :=
    fun pc hpc => h.setThread fun hended => (h.threads hended t).setPc hhandlers hpc
  unfold Process.runHandler
  cases hpc : top.pc with
  | test =>
      dsimp only
      split
      · exact hgo .raise nofun
      · exact hgo .record nofun
  | record => exact (hgo .raise nofun).logs _ _ _
  | raise =>
      dsimp only
      rw [raise_setThread]
      exact h.setThread fun hended => (h.threads hended t).raiseAgain hhandlers
  | ret => exact h.setThread fun hended => (h.threads hended t).ret hhandlers hpc

/-- `zsignal_abort` goes on. The thread does not come to `exit`: `SIGABRT` has been raised. -/
theorem Inv.runAbort (h : p.Inv) (hended : p.ended = none) {pc : AbortPc}
    (hhandlers : (p.threads t).handlers = []) (hready : ¬ (p.threads t).Interrupted)
    (hbase : (p.threads t).base = .zsignalAbort pc) : (p.runAbort t pc).Inv := by
  unfold Process.runAbort
  cases pc with
  | print =>
      have hraise : Base.zsignalAbort .raise ≠ .zsignalAbort .exit := by simp
      exact (h.setThread fun hended =>
        (h.threads hended t).setBase hraise (by simp)).logs _ _ _
  | raise =>
      dsimp only
      rw [raise_setThread]
      exact h.setThread fun hended => (h.threads hended t).raiseAbort
  | exit =>
      have hblocked : sigabrt ∈ (p.threads t).blocked :=
        ((h.threads hended t).aborting hbase).elim id (Thread.mem_blocked_of_pending hready)
      simp [Thread.blocked, hhandlers] at hblocked

/-- `log_error_and_call_system_default_handler` goes on. -/
theorem Inv.runLogError (h : p.Inv) (hended : p.ended = none) {pc : LogPc}
    (hbase : (p.threads t).base = .logError si pc) : (p.runLogError t si pc).Inv := by
  have hfatal : isFatal si.siSigno = false := (h.threads hended t).logging si pc hbase
  have hgo : ∀ pc : LogPc, Thread.Inv p.handled t { p.threads t with base := .logError si pc } :=
    fun pc => (h.threads hended t).setBase nofun fun si' pc' heq => by cases heq; exact hfatal
  unfold Process.runLogError
  cases pc with
  | record => exact (h.setThread fun _ => hgo .setDefault).logs _ _ _
  | setDefault => exact (h.setThread fun _ => hgo .raise).setDisposition hfatal nofun nofun
  | raise =>
      dsimp only
      rw [raise_setThread]
      exact h.setThread fun _ => (hgo .ret).addPending _
  | ret => exact h.setThread fun _ => (h.threads hended t).setBase nofun nofun

/-- Every step keeps the invariant. -/
theorem Inv.step (h : p.Inv) {m : Move} (hstep : p.step capacity m = some p') : p'.Inv := by
  obtain ⟨hended, heffect⟩ := step_effect hstep
  cases heffect with
  | refused t m hm happ => exact h
  | called t a delivery happ hcall => exact h.called hcall
  | registered t signo cb ctxt loop delivery happ hcall hfatal hinstalled =>
      exact (h.called hcall).setDisposition hfatal nofun fun _ => hinstalled
  | logging t i delivery sigCtxt happ hpending hcall =>
      have hfatal := h.callbacks sigCtxt (List.mem_of_getElem? hpending)
      refine (h.called hcall).setThread fun _ => (h.threads hended t).setBase nofun ?_
      intro si pc heq
      cases heq
      exact hfatal
  | raised t signo happ => exact h.setThread fun hended => (h.threads hended t).addPending _
  | aborting t happ =>
      have hprint : Base.zsignalAbort .print ≠ .zsignalAbort .exit := by simp
      exact (h.setThread fun hended =>
        (h.threads hended t).setBase hprint (by simp)).logs _ _ _
  | handler t top rest hhandlers => exact h.runHandler hhandlers
  | abort t pc hhandlers hready hbase => exact h.runAbort hended hhandlers hready hbase
  | logError t si pc hhandlers hready hbase => exact h.runLogError hended hbase
  | sent t si => exact h.setThread fun hended => (h.threads hended t).addPending si
  | delivered t i si p' hi hblocked hdeliver =>
      exact h.deliverTo hended (.deliver hi hblocked) hdeliver
  | fault t si p' hblocked hdeliver =>
      have hsame : (p.setThread t (p.threads t)).deliverTo capacity t si = some p' := by
        rwa [setThread_threads_self]
      exact h.deliverTo hended (.fault hblocked) hsame
  | blocked t si hblocked =>
      refine ⟨h.delivery, h.callbacks, h.installed, h.armed, h.once, h.fatal, nofun,
        fun signo hkilled hfatal => ?_, by simp⟩
      obtain rfl : si.siSigno = signo := by simpa using hkilled
      obtain ⟨top, htop, heq⟩ := List.mem_map.mp hblocked
      rw [← heq]
      exact List.mem_map_of_mem ((h.threads hended t).entered top htop)

/-- The invariant holds in every state that an interleaving reaches. -/
theorem Inv.runAll (h : p.Inv) {moves : List Move} (hrun : p.runAll capacity moves = some p') :
    p'.Inv :=
  PartialRun.invariant (fun _ _ _ h hstep => h.step hstep) h hrun

/-! ## The process delivers signals -/

@[simp] theorem delivery_setDisposition (p : Process) (signo : Int) (d : Disposition) :
    (p.setDisposition signo d).delivery = p.delivery := by
  unfold setDisposition
  split <;> rfl

/-- A call of signal delivery is a step of it. -/
theorem delivery_call {a : Act} (h : p.call t a = some p') :
    p.delivery.step capacity a = some p'.delivery := by
  cases a with
  | arrive siginfo => cases h
  | register signo cb ctxt loop =>
      simp only [call] at h
      split at h
      · obtain ⟨⟨delivery, ret⟩, hregister, h⟩ := Option.bind_eq_some_iff.mp h
        obtain rfl := Option.some.inj h
        rw [State.step, hregister]
        split <;> simp
      · cases h
  | deregister signo =>
      obtain ⟨⟨delivery, ret⟩, hderegister, h⟩ := Option.bind_eq_some_iff.mp h
      cases h
      rw [State.step, hderegister]
      rfl
  | read =>
      simp only [call] at h
      split at h
      · obtain ⟨delivery, hread, rfl⟩ := Option.map_eq_some_iff.mp h
        exact hread
      · cases h
  | lookup =>
      simp only [call] at h
      split at h
      · obtain ⟨delivery, hlookup, rfl⟩ := Option.map_eq_some_iff.mp h
        exact hlookup
      · cases h
  | fire i =>
      obtain ⟨sigCtxt, hpending, h⟩ := Option.bind_eq_some_iff.mp h
      split at h
      · obtain ⟨delivery, hfire, h⟩ := Option.bind_eq_some_iff.mp h
        cases h
        split <;> exact hfire
      · cases h

/-- The signal, delivered to some thread, if `nonfatal_signal_handler` catches it. -/
def catches (p : Process) (si : Siginfo) : Option Siginfo :=
  if p.disposition si.siSigno = .nonfatalSignalHandler then some si else none

/-- The signal that `nonfatal_signal_handler` catches in a step, if there is one. -/
def caught (p : Process) : Move → Option Siginfo
  | .deliver t i => (p.threads t).pending[i]?.bind p.catches
  | .fault t si => if si.siSigno ∈ (p.threads t).blocked then none else p.catches si
  | .call _ _ | .raise _ _ | .abort _ | .run _ | .send _ _ => none

/-- What a step of the process is for signal delivery. -/
def acts (p : Process) : Move → List Act
  | .call _ a => [a]
  | m => (p.caught m).toList.map .arrive

/-- What an interleaving is for signal delivery: its calls, and the signals that
`nonfatal_signal_handler` catches, in their order. -/
def trace (capacity : Nat) (p : Process) : List Move → List Act
  | [] => []
  | m :: moves =>
      p.acts m ++ ((p.step capacity m).elim [] fun p' => p'.trace capacity moves)

/-- The signals that `nonfatal_signal_handler` catches in an interleaving, in their order. -/
def allCaught (capacity : Nat) (p : Process) : List Move → List Siginfo
  | [] => []
  | m :: moves =>
      (p.caught m).toList ++ ((p.step capacity m).elim [] fun p' => p'.allCaught capacity moves)

theorem call_of_step {a : Act} (h : p.step capacity (.call t a) = some p') :
    p.call t a = some p' := by
  simp only [Process.step] at h
  split at h
  · split at h
    · exact h
    · cases h
  · cases h

theorem delivery_deliverTo (h : p.deliverTo capacity t si = some p') :
    p.delivery.run capacity ((p.catches si).toList.map .arrive) = some p'.delivery := by
  unfold catches
  obtain ⟨hd, rfl⟩ | ⟨hd, -, rfl⟩ | ⟨hd, -, rfl⟩ | ⟨hd, delivery, harrive, rfl⟩ :=
    deliverTo_cases h
  · rw [hd]
    rfl
  · rw [hd]
    rfl
  · rw [hd]
    rfl
  · rw [if_pos hd]
    exact Option.bind_eq_some_iff.mpr ⟨delivery, harrive, rfl⟩

/-- Every step of the process is the steps of signal delivery that `acts` says. -/
theorem delivery_step {m : Move} (h : p.step capacity m = some p') :
    p.delivery.run capacity (p.acts m) = some p'.delivery := by
  -- a call that is refused has no effect that says so
  by_cases hcall : ∃ t a, m = .call t a
  · obtain ⟨t, a, rfl⟩ := hcall
    exact Option.bind_eq_some_iff.mpr ⟨p'.delivery, delivery_call (call_of_step h), rfl⟩
  obtain ⟨-, heffect⟩ := step_effect h
  cases heffect with
  | refused t m hm happ =>
      cases m with
      | call t a => exact absurd ⟨t, a, rfl⟩ hcall
      | raise | abort => rfl
      | run | send | deliver | fault => cases hm
  | called t a | registered t | logging t => exact absurd ⟨t, _, rfl⟩ hcall
  | raised | aborting | sent => rfl
  | blocked t si hblocked =>
      simp only [acts, caught, if_pos hblocked]
      rfl
  | handler t top rest hhandlers =>
      show some p.delivery = some _
      unfold Process.runHandler
      cases top.pc with
      | test =>
          dsimp only
          split <;> rfl
      | record | raise | ret => rfl
  | abort t pc => cases pc <;> rfl
  | logError t si pc =>
      show some p.delivery = some _
      unfold Process.runLogError
      cases pc with
      | record | raise | ret => rfl
      | setDefault =>
          dsimp only
          rw [delivery_setDisposition]
          rfl
  | delivered t i si p' hi hblocked hdeliver =>
      simp only [acts, caught, hi, Option.bind_some]
      -- the thread has changed; the dispositions, and signal delivery, have not
      have hdelivered := delivery_deliverTo hdeliver
      exact hdelivered
  | fault t si p' hblocked hdeliver =>
      simp only [acts, caught, if_neg hblocked]
      exact delivery_deliverTo hdeliver

/-- A run of the process is, for signal delivery, its trace. -/
theorem delivery_runAll {moves : List Move} (hrun : p.runAll capacity moves = some p') :
    p.delivery.run capacity (p.trace capacity moves) = some p'.delivery := by
  induction moves generalizing p with
  | nil =>
      cases hrun
      rfl
  | cons m moves ih =>
      obtain ⟨q, hq, hrest⟩ := Option.bind_eq_some_iff.mp hrun
      rw [trace, hq]
      exact PartialRun.append (delivery_step hq) (ih hrest)

theorem arrivals_arrive (o : Option Siginfo) :
    State.arrivals (o.toList.map .arrive) = o.toList := by
  cases o <;> rfl

/-- The signals of the trace are those that were caught. -/
theorem arrivals_trace {moves : List Move} (hrun : p.runAll capacity moves = some p') :
    State.arrivals (p.trace capacity moves) = p.allCaught capacity moves := by
  induction moves generalizing p with
  | nil => rfl
  | cons m moves ih =>
      obtain ⟨q, hq, hrest⟩ := Option.bind_eq_some_iff.mp hrun
      rw [trace, allCaught, hq, Option.elim_some, Option.elim_some, State.arrivals_append, ih hrest]
      congr 1
      cases m with
      | call t a =>
          cases a with
          | arrive si => cases call_of_step hq
          | register | deregister | read | lookup | fire => rfl
      | deliver t i => exact arrivals_arrive _
      | fault t si => exact arrivals_arrive _
      | raise | abort | run | send => rfl

end Process

/-- Whatever the threads of the process do behind `install_all_fatal_signal_handlers`, whatever
signals come and whatever handlers interrupt them: what the process does is, for signal delivery,
the calls that its threads make and the signals that `nonfatal_signal_handler` catches, one after
the other. Of the signals caught, those that are written to the self-pipe keep their order, and none
is lost where they are no more than the pipe has room for. The callbacks that are called, or are
about to be, are for signals caught, and there is one for each at most. -/
theorem process_delivers (capacity loop : Nat) (moves : List Move) (p : Process)
    (hrun : (Process.start loop).runAll capacity moves = some p) :
    State.blank.run capacity ((Process.start loop).trace capacity moves) = some p.delivery ∧
    p.delivery.written.Sublist ((Process.start loop).allCaught capacity moves) ∧
    (((Process.start loop).allCaught capacity moves).length ≤ capacity →
      p.delivery.written = (Process.start loop).allCaught capacity moves) ∧
    (∀ d ∈ p.delivery.pending ++ p.delivery.invoked,
      p.delivery.written[d.record.number]? = some d.record.siginfo) ∧
    ((p.delivery.pending ++ p.delivery.invoked).map fun d => d.record.number).Nodup := by
  have htrace : State.blank.run capacity ((Process.start loop).trace capacity moves) =
      some p.delivery := Process.delivery_runAll hrun
  have hinv := State.Inv.blank.run htrace
  obtain ⟨hsub, hroom⟩ := State.written_run htrace
  rw [Process.arrivals_trace hrun] at hsub hroom
  exact ⟨htrace, hsub, hroom, fun d hd => hinv.record_written hd, hinv.nodup_deliveries⟩

/-- `SIGHUP` is sent to a thread that is in no library function, is caught, read and looked up: the
one record of the pipe is about it. -/
theorem process_delivers_hangup :
    ∃ p, (Process.start 1).runAll 4 (Process.init 1 ++
        [.send 2 ⟨1, []⟩, .deliver 2 0, .call 1 .read, .call 1 .lookup]) = some p ∧
      p.delivery.pending.length = 1 ∧ p.delivery.written = [⟨1, []⟩] := by
  refine ⟨_, rfl, rfl, ?_⟩
  exact (process_delivers 4 1 (Process.init 1 ++
    [.send 2 ⟨1, []⟩, .deliver 2 0, .call 1 .read, .call 1 .lookup]) _ rfl).2.2.1 (by decide)

end BazelPro.Zlib
