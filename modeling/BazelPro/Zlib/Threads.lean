import BazelPro.Zlib.Process
import Mathlib.Data.List.Perm.Basic

/-!
# Threads and their handlers

What holds of a thread as long as the process runs (`Thread.Inv`): each handler in progress is for
another signal, and a signal whose handler was entered is blocked, or pending again. Each change of
a thread keeps that.
-/

namespace BazelPro.Zlib

namespace Thread

variable {x : Thread} {t : Nat} {handled : List (Nat × Siginfo)} {si : Siginfo}

/-- The numbers of the signals that are pending. -/
def pendingNumbers (x : Thread) : List Int := x.pending.map Siginfo.siSigno

/-- What holds of a thread, as long as the process runs. -/
structure Inv (handled : List (Nat × Siginfo)) (t : Nat) (x : Thread) : Prop where
  entered : ∀ h ∈ x.handlers, (t, h.siginfo) ∈ handled
  distinct : x.blocked.Nodup
  raised : ∀ h ∈ x.handlers, h.pc = .ret → h.siginfo.siSigno ∈ x.pendingNumbers
  /-- a signal whose handler was entered comes again -/
  doomed : ∀ si, (t, si) ∈ handled → si.siSigno ∈ x.blocked ∨ si.siSigno ∈ x.pendingNumbers
  aborting : x.base = .zsignalAbort .exit → sigabrt ∈ x.blocked ∨ sigabrt ∈ x.pendingNumbers
  logging : ∀ si pc, x.base = .logError si pc → isFatal si.siSigno = false

theorem Inv.fresh (t : Nat) : Inv [] t .fresh where
  entered := by simp [Thread.fresh]
  distinct := List.nodup_nil
  raised := by simp [Thread.fresh]
  doomed := by simp
  aborting := by simp [Thread.fresh]
  logging := by simp [Thread.fresh]

@[simp] theorem handlers_addPending : (x.addPending si).handlers = x.handlers := by
  unfold addPending
  split <;> rfl

@[simp] theorem base_addPending : (x.addPending si).base = x.base := by
  unfold addPending
  split <;> rfl

@[simp] theorem blocked_addPending : (x.addPending si).blocked = x.blocked := by
  simp [blocked]

theorem mem_pendingNumbers_addPending {signo : Int} :
    signo ∈ (x.addPending si).pendingNumbers ↔ signo ∈ x.pendingNumbers ∨ signo = si.siSigno := by
  unfold addPending pendingNumbers
  split
  · next h =>
    constructor
    · exact Or.inl
    · intro hsigno
      exact hsigno.elim id fun heq => heq ▸ h.2
  · simp

/-- What is pending is blocked, or stops the thread. -/
theorem mem_blocked_of_pending (hready : ¬ x.Interrupted) {signo : Int}
    (h : signo ∈ x.pendingNumbers) : signo ∈ x.blocked := by
  obtain ⟨si, hsi, rfl⟩ := List.mem_map.mp h
  by_contra hblocked
  exact hready ⟨si, hsi, hblocked⟩

/-- One more signal may be pending. -/
theorem Inv.addPending (h : Inv handled t x) (si : Siginfo) : Inv handled t (x.addPending si) where
  entered := by simpa using h.entered
  distinct := by simpa using h.distinct
  raised h' hh' hret := mem_pendingNumbers_addPending.mpr
    (Or.inl (h.raised h' (by simpa using hh') hret))
  doomed si' hsi' := by
    rw [blocked_addPending, mem_pendingNumbers_addPending]
    exact (h.doomed si' hsi').imp_right Or.inl
  aborting hb := by
    rw [blocked_addPending, mem_pendingNumbers_addPending]
    exact (h.aborting (by simpa using hb)).imp_right Or.inl
  logging := by simpa using h.logging

/-- Below its handlers, a thread does something else. -/
theorem Inv.setBase (h : Inv handled t x) {b : Base} (habort : b ≠ .zsignalAbort .exit)
    (hlog : ∀ si pc, b = .logError si pc → isFatal si.siSigno = false) :
    Inv handled t { x with base := b } where
  entered := h.entered
  distinct := h.distinct
  raised := h.raised
  doomed := h.doomed
  aborting hb := absurd hb habort
  logging := hlog

/-- A handler goes on, and does not come to its end. -/
theorem Inv.setPc (h : Inv handled t x) {top : Handler} {rest : List Handler}
    (hhandlers : x.handlers = top :: rest) {pc : FatalPc} (hpc : pc ≠ .ret) :
    Inv handled t { x with handlers := { top with pc := pc } :: rest } := by
  have hblocked : Thread.blocked { x with handlers := { top with pc := pc } :: rest } =
      x.blocked := by
    simp [Thread.blocked, hhandlers]
  constructor
  · intro h' hh'
    obtain rfl | hh' := List.mem_cons.mp hh'
    · exact h.entered top (hhandlers ▸ List.mem_cons_self)
    · exact h.entered h' (hhandlers ▸ List.mem_cons_of_mem _ hh')
  · exact hblocked ▸ h.distinct
  · intro h' hh' hret
    obtain rfl | hh' := List.mem_cons.mp hh'
    · exact absurd hret hpc
    · exact h.raised h' (hhandlers ▸ List.mem_cons_of_mem _ hh') hret
  · rw [hblocked]
    exact h.doomed
  · rw [hblocked]
    exact h.aborting
  · exact h.logging

/-- A handler raises its signal again. -/
theorem Inv.raiseAgain (h : Inv handled t x) {top : Handler} {rest : List Handler}
    (hhandlers : x.handlers = top :: rest) :
    Inv handled t (Thread.addPending { x with handlers := { top with pc := .ret } :: rest }
      ⟨top.siginfo.siSigno, []⟩) := by
  have hraise : FatalPc.raise ≠ .ret := FatalPc.noConfusion
  have h' := (h.setPc hhandlers hraise).addPending ⟨top.siginfo.siSigno, []⟩
  constructor
  · intro g hg
    rw [handlers_addPending] at hg
    obtain rfl | hg := List.mem_cons.mp hg
    · exact h.entered top (hhandlers ▸ List.mem_cons_self)
    · exact h.entered g (hhandlers ▸ List.mem_cons_of_mem _ hg)
  · have := h'.distinct
    rw [blocked_addPending] at this ⊢
    exact this
  · intro g hg hret
    rw [handlers_addPending] at hg
    obtain rfl | hg := List.mem_cons.mp hg
    · exact mem_pendingNumbers_addPending.mpr (Or.inr rfl)
    · refine mem_pendingNumbers_addPending.mpr (Or.inl ?_)
      exact h.raised g (hhandlers ▸ List.mem_cons_of_mem _ hg) hret
  · intro si hsi
    have := h'.doomed si hsi
    rw [blocked_addPending, mem_pendingNumbers_addPending] at this ⊢
    exact this
  · intro hb
    rw [base_addPending] at hb
    have := h'.aborting (by rw [base_addPending]; exact hb)
    rw [blocked_addPending, mem_pendingNumbers_addPending] at this ⊢
    exact this
  · intro si pc hb
    rw [base_addPending] at hb
    exact h.logging si pc hb

/-- A handler returns: its signal is pending. -/
theorem Inv.ret (h : Inv handled t x) {top : Handler} {rest : List Handler}
    (hhandlers : x.handlers = top :: rest) (hpc : top.pc = .ret) :
    Inv handled t { x with handlers := rest } := by
  have hmem : ∀ {g}, g ∈ rest → g ∈ x.handlers := fun hg => hhandlers ▸ List.mem_cons_of_mem _ hg
  have htop : top.siginfo.siSigno ∈ x.pendingNumbers :=
    h.raised top (hhandlers ▸ List.mem_cons_self) hpc
  have hblocked :
      x.blocked = top.siginfo.siSigno :: Thread.blocked { x with handlers := rest } := by
    simp [Thread.blocked, hhandlers]
  -- a number that was blocked still is, or is the one of the handler
  have hcases : ∀ {signo : Int}, signo ∈ x.blocked ∨ signo ∈ x.pendingNumbers →
      signo ∈ Thread.blocked { x with handlers := rest } ∨ signo ∈ x.pendingNumbers := by
    rintro signo (hsigno | hsigno)
    · rw [hblocked] at hsigno
      obtain rfl | hsigno := List.mem_cons.mp hsigno
      · exact Or.inr htop
      · exact Or.inl hsigno
    · exact Or.inr hsigno
  exact {
    entered := fun g hg => h.entered g (hmem hg)
    distinct := (List.nodup_cons.mp (hblocked ▸ h.distinct)).2
    raised := fun g hg hret => h.raised g (hmem hg) hret
    doomed := fun si hsi => hcases (h.doomed si hsi)
    aborting := fun hb => hcases (h.aborting hb)
    logging := h.logging }

/-- The signal has been taken from what was pending in `x`, or was not pending; it is not
blocked. -/
structure Takes (x : Thread) (si : Siginfo) (x' : Thread) : Prop where
  handlers : x'.handlers = x.handlers
  base : x'.base = x.base
  unblocked : si.siSigno ∉ x.blocked
  pending : ∀ signo ∈ x.pendingNumbers, signo ∈ x'.pendingNumbers ∨ signo = si.siSigno

theorem Takes.fault (h : si.siSigno ∉ x.blocked) : Takes x si x :=
  ⟨rfl, rfl, h, fun _ => Or.inl⟩

theorem Takes.deliver {i : Nat} (hi : x.pending[i]? = some si) (h : si.siSigno ∉ x.blocked) :
    Takes x si { x with pending := x.pending.eraseIdx i } := by
  refine ⟨rfl, rfl, h, fun signo hsigno => ?_⟩
  obtain ⟨si', hsi', rfl⟩ := List.mem_map.mp hsigno
  obtain ⟨hlt, hget⟩ := List.getElem?_eq_some_iff.mp hi
  have hperm := List.getElem_cons_eraseIdx_perm hlt
  obtain rfl | hmem := List.mem_cons.mp (hperm.mem_iff.mpr hsi')
  · exact Or.inr (congrArg Siginfo.siSigno hget)
  · exact Or.inl (List.mem_map_of_mem hmem)

variable {x' : Thread}

theorem Takes.blocked_eq (h : Takes x si x') : x'.blocked = x.blocked := by
  rw [blocked, blocked, h.handlers]

/-- A signal that is not fatal is taken. -/
theorem Inv.take (h : Inv handled t x) (htakes : Takes x si x')
    (hfatal : ∀ si', (t, si') ∈ handled → si'.siSigno ≠ si.siSigno)
    (habort : sigabrt ≠ si.siSigno) : Inv handled t x' where
  entered := by
    rw [htakes.handlers]
    exact h.entered
  distinct := htakes.blocked_eq ▸ h.distinct
  raised g hg hret := by
    rw [htakes.handlers] at hg
    refine (htakes.pending _ (h.raised g hg hret)).resolve_right ?_
    exact hfatal _ (h.entered g hg)
  doomed si' hsi' := by
    rw [htakes.blocked_eq]
    refine (h.doomed si' hsi').imp_right fun hp => ?_
    exact (htakes.pending _ hp).resolve_right (hfatal si' hsi')
  aborting hb := by
    rw [htakes.blocked_eq]
    refine (h.aborting (htakes.base ▸ hb)).imp_right fun hp => ?_
    exact (htakes.pending _ hp).resolve_right habort
  logging := by
    rw [htakes.base]
    exact h.logging

/-- The handler of a fatal signal is entered. -/
theorem Inv.enter (h : Inv handled t x) (htakes : Takes x si x') :
    Inv (handled ++ [(t, si)]) t { x' with handlers := ⟨si, .test⟩ :: x'.handlers } := by
  have hblocked : Thread.blocked { x' with handlers := ⟨si, .test⟩ :: x'.handlers } =
      si.siSigno :: x.blocked := by
    rw [← htakes.blocked_eq]
    rfl
  -- the signal itself is blocked now
  have hcases : ∀ {signo : Int}, signo ∈ x.blocked ∨ signo ∈ x.pendingNumbers →
      signo ∈ si.siSigno :: x.blocked ∨ signo ∈ x'.pendingNumbers := by
    rintro signo (hsigno | hsigno)
    · exact Or.inl (List.mem_cons_of_mem _ hsigno)
    · obtain hp | rfl := htakes.pending _ hsigno
      · exact Or.inr hp
      · exact Or.inl List.mem_cons_self
  constructor
  · intro g hg
    obtain rfl | hg := List.mem_cons.mp hg
    · simp
    · exact List.mem_append_left _ (h.entered g (htakes.handlers ▸ hg))
  · rw [hblocked]
    exact List.nodup_cons.mpr ⟨htakes.unblocked, h.distinct⟩
  · intro g hg hret
    obtain rfl | hg := List.mem_cons.mp hg
    · cases hret
    · rw [htakes.handlers] at hg
      refine (htakes.pending _ (h.raised g hg hret)).resolve_right fun heq => ?_
      exact htakes.unblocked (heq ▸ List.mem_map_of_mem hg)
  · intro si' hsi'
    rw [hblocked]
    obtain hsi' | hsi' := List.mem_append.mp hsi'
    · exact hcases (h.doomed si' hsi')
    · obtain rfl : si' = si := congrArg Prod.snd (List.mem_singleton.mp hsi')
      exact Or.inl List.mem_cons_self
  · intro hb
    rw [hblocked]
    exact hcases (h.aborting (htakes.base ▸ hb))
  · intro si' pc hb
    exact h.logging si' pc (htakes.base ▸ hb)

/-- The handler is entered in another thread. -/
theorem Inv.other (h : Inv handled t x) {t' : Nat} (hne : t ≠ t') (si : Siginfo) :
    Inv (handled ++ [(t', si)]) t x where
  entered g hg := List.mem_append_left _ (h.entered g hg)
  distinct := h.distinct
  raised := h.raised
  doomed si' hsi' := by
    obtain hsi' | hsi' := List.mem_append.mp hsi'
    · exact h.doomed si' hsi'
    · exact absurd (congrArg Prod.fst (List.mem_singleton.mp hsi')) hne
  aborting := h.aborting
  logging := h.logging

/-- `zsignal_abort` raises `SIGABRT`. -/
theorem Inv.raiseAbort (h : Inv handled t x) :
    Inv handled t (Thread.addPending { x with base := .zsignalAbort .exit } ⟨sigabrt, []⟩) := by
  have hraise : Base.zsignalAbort .raise ≠ .zsignalAbort .exit := by simp
  have h' := (h.setBase hraise (by simp)).addPending ⟨sigabrt, []⟩
  constructor
  · simpa using h.entered
  · rw [blocked_addPending]
    exact h.distinct
  · intro g hg hret
    rw [handlers_addPending] at hg
    exact mem_pendingNumbers_addPending.mpr (Or.inl (h.raised g hg hret))
  · intro si hsi
    have := h'.doomed si hsi
    rw [blocked_addPending, mem_pendingNumbers_addPending] at this ⊢
    exact this
  · intro _
    exact Or.inr (mem_pendingNumbers_addPending.mpr (Or.inr rfl))
  · simp

end Thread

end BazelPro.Zlib
