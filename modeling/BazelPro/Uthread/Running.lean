import BazelPro.Lib.PartialRun
import BazelPro.Uthread.Thread

/-!
# Whether a thread is running

`m_isThreadRunning` is set by the thread, after it has started, and cleared by the owner, in `exit`;
nothing orders the two, and nobody clears it when the thread ends by itself. The owner's calls and
the steps of the thread interleave freely, one access of the flag, one pthread call or one call of
the body at a time. `isRunning` tells the truth in an interleaving if and only if the owner's clear
comes after the thread's set before the owner asks about a thread that has ended
(`is_running_iff`).
-/

namespace BazelPro.Uthread

open C
open Print (CStr)

/-- What the thread calls. -/
inductive BodyCall where
  | callback
  | onInit
  | run
  | onExit

/-- Where the thread is. -/
inductive Phase where
  /-- there is none -/
  | none
  /-- created, but not in `UThreadStartFun` yet -/
  | started
  /-- in `UThreadStartFun`, where it sets its name -/
  | entered
  /-- in its body, with these calls to make -/
  | running (left : List BodyCall)
  | finished

/-- There is a thread, and it has not ended. -/
def Phase.Alive : Phase → Prop
  | .none | .finished => False
  | .started | .entered | .running _ => True

/-- The object, the thread, whether the thread is to be cancelled, and whether the owner is in
`exit`, behind `pthread_cancel`. -/
structure State where
  thread : UThread
  created : Bool
  phase : Phase
  cancelled : Bool
  exiting : Bool

/-- A step of the owner or of the thread. -/
inductive Act where
  /-- the owner calls `create` -/
  | create (name : CStr) (createCb arg : Nat) (r : PthreadResults)
  /-- the owner calls `exit`, up to `pthread_cancel` -/
  | exit
  /-- the owner clears the flag at the end of `exit` -/
  | clearRunning
  /-- the owner calls `join`, which returns -/
  | join
  /-- the owner calls `isRunning` -/
  | isRunning
  /-- the thread enters `UThreadStartFun` -/
  | enter
  /-- the thread sets the flag -/
  | setRunning
  /-- the thread makes the next call of its body -/
  | call
  /-- the thread returns from `UThreadStartFun` -/
  | ret
  /-- the thread is at a cancellation point -/
  | cancel
  /-- the thread calls `exit` itself, in its body -/
  | exitSelf

/-- The steps with which a thread ends. -/
def Act.Ends : Act → Prop
  | .ret | .cancel | .exitSelf => True
  | _ => False

namespace State

/-- The object has been constructed. -/
def start : State where
  thread := UThread.init
  created := false
  phase := .none
  cancelled := false
  exiting := false

/-- The calls of the body. -/
def body (t : UThread) : List BodyCall :=
  if t.createCb ≠ 0 then [.callback] else [.onInit, .run, .onExit]

/-- One step. A step that its thread cannot make now is `none`. -/
def step (s : State) : Act → Option State
  | .create name createCb arg r =>
      if s.created ∨ s.exiting then none
      else
        let (thread, result) := s.thread.create name createCb arg r
        some { s with
          thread := thread
          created := true
          phase := if result = 0 then .started else s.phase }
  | .exit =>
      if s.exiting then none
      else if s.thread.threadId ≠ 0 then some { s with cancelled := true, exiting := true }
      else some s
  | .clearRunning =>
      if s.exiting then
        some { s with thread := { s.thread with isThreadRunning := false }, exiting := false }
      else none
  | .join =>
      if s.exiting then none
      else if s.thread.threadId ≠ 0 then
        match s.phase with
        | .finished => some { s with thread := { s.thread with threadId := 0 } }
        | _ => none
      else some s
  | .isRunning => if s.exiting then none else some s
  | .enter =>
      match s.phase with
      | .started => some { s with phase := .entered }
      | _ => none
  | .setRunning =>
      match s.phase with
      | .entered => some { s with
          thread := { s.thread with isThreadRunning := true }
          phase := .running (body s.thread) }
      | _ => none
  | .call =>
      match s.phase with
      | .running (_ :: left) => some { s with phase := .running left }
      | _ => none
  | .ret =>
      match s.phase with
      | .running [] => some { s with phase := .finished }
      | _ => none
  | .cancel =>
      if s.cancelled then
        match s.phase with
        | .started | .entered | .running _ => some { s with phase := .finished }
        | .none | .finished => none
      else none
  | .exitSelf =>
      match s.phase with
      | .running (_ :: _) =>
          if s.thread.threadId ≠ 0 then some { s with phase := .finished } else none
      | _ => none

/-- An interleaving. -/
def run (s : State) (acts : List Act) : Option State := acts.foldlM step s

/-! ## Steps -/

variable {s s' : State} {a : Act} {acts : List Act}

/-- Everything a step can do. -/
inductive Effect (s : State) : Act → State → Prop
  | created (name : CStr) (createCb arg : Nat) (r : PthreadResults) (hfresh : s.created = false) :
      Effect s (.create name createCb arg r) { s with
        thread := (s.thread.create name createCb arg r).1
        created := true
        phase := if (s.thread.create name createCb arg r).2 = 0 then .started else s.phase }
  | idle (a : Act) (ha : a = .exit ∨ a = .join ∨ a = .isRunning) : Effect s a s
  | exited : Effect s .exit { s with cancelled := true, exiting := true }
  | cleared : Effect s .clearRunning { s with
      thread := { s.thread with isThreadRunning := false }
      exiting := false }
  | joined : Effect s .join { s with thread := { s.thread with threadId := 0 } }
  | entered (hphase : s.phase = .started) : Effect s .enter { s with phase := .entered }
  | set (hphase : s.phase = .entered) : Effect s .setRunning { s with
      thread := { s.thread with isThreadRunning := true }
      phase := .running (body s.thread) }
  | called (c : BodyCall) (left : List BodyCall) (hphase : s.phase = .running (c :: left)) :
      Effect s .call { s with phase := .running left }
  | ended (a : Act) (ha : a.Ends) (halive : s.phase.Alive) :
      Effect s a { s with phase := .finished }

theorem step_effect (h : s.step a = some s') : Effect s a s' := by
  cases a with
  | create name createCb arg r =>
      simp only [step, Option.ite_none_left_eq_some] at h
      obtain ⟨hfresh, h⟩ := h
      cases h
      exact .created name createCb arg r (by simpa using fun hcreated => hfresh (Or.inl hcreated))
  | exit =>
      simp only [step] at h
      split at h
      · cases h
      split at h <;> cases h
      · exact .exited
      · exact .idle _ (by simp)
  | clearRunning =>
      simp only [step] at h
      split at h <;> cases h
      exact .cleared
  | join =>
      simp only [step] at h
      split at h
      · cases h
      split at h
      · split at h <;> cases h
        exact .joined
      · cases h
        exact .idle _ (by simp)
  | isRunning =>
      simp only [step] at h
      split at h <;> cases h
      exact .idle _ (by simp)
  | enter =>
      simp only [step] at h
      split at h <;> cases h
      next hphase => exact .entered hphase
  | setRunning =>
      simp only [step] at h
      split at h <;> cases h
      next hphase => exact .set hphase
  | call =>
      simp only [step] at h
      split at h <;> cases h
      next c left hphase => exact .called c left hphase
  | ret =>
      simp only [step] at h
      split at h <;> cases h
      next hphase => exact .ended _ trivial (hphase ▸ trivial)
  | cancel =>
      simp only [step] at h
      split at h
      · split at h <;> cases h <;> next hphase => exact .ended _ trivial (hphase ▸ trivial)
      · cases h
  | exitSelf =>
      simp only [step] at h
      split at h
      · next hphase =>
        split at h <;> cases h
        exact .ended _ trivial (hphase ▸ trivial)
      · cases h

/-! ## Histories -/

/-- The owner has not cleared the flag since the thread set it. -/
def Standing (acts : List Act) : Prop :=
  ∃ before after, acts = before ++ .setRunning :: after ∧ .clearRunning ∉ after

theorem standing_concat (acts : List Act) (a : Act) :
    Standing (acts ++ [a]) ↔ a = .setRunning ∨ a ≠ .clearRunning ∧ Standing acts := by
  constructor
  · rintro ⟨before, after, heq, hclear⟩
    rcases List.eq_nil_or_concat after with rfl | ⟨after, b, rfl⟩
    · exact Or.inl (List.singleton_inj.mp (List.append_inj_right' heq rfl))
    · rw [List.concat_eq_append] at heq hclear
      rw [← List.cons_append, ← List.append_assoc] at heq
      obtain ⟨rfl, hlast⟩ := List.append_inj' heq rfl
      obtain rfl := List.singleton_inj.mp hlast
      rw [List.mem_append, not_or] at hclear
      exact Or.inr ⟨fun h => hclear.2 (h ▸ List.mem_singleton_self a), before, after, rfl, hclear.1⟩
  · rintro (rfl | ⟨hne, before, after, rfl, hclear⟩)
    · exact ⟨acts, [], rfl, List.not_mem_nil⟩
    · refine ⟨before, after ++ [a], by simp, ?_⟩
      rw [List.mem_append, List.mem_singleton, not_or]
      exact ⟨hclear, hne.symm⟩

/-- What the steps so far say about the state. -/
structure History (acts : List Act) (s : State) : Prop where
  running : s.thread.isThreadRunning = true ↔ Standing acts
  finished : s.phase = .finished ↔ ∃ a ∈ acts, a.Ends
  fresh : s.created = false → s.phase = .none
  /-- the flag is set behind the start of the thread only -/
  begun : .setRunning ∈ acts → s.phase = .finished ∨ ∃ left, s.phase = .running left

theorem History.start : History [] start := by
  refine ⟨iff_of_false Bool.false_ne_true ?_, by simp [State.start], fun _ => rfl, by simp⟩
  rintro ⟨before, after, heq, -⟩
  simp at heq

/-- Before there is a thread, the flag is as it was constructed. -/
theorem History.not_running (h : History acts s) (hphase : s.phase = .none) :
    s.thread.isThreadRunning = false := by
  refine Bool.eq_false_iff.mpr fun hflag => ?_
  obtain ⟨before, after, rfl, -⟩ := h.running.mp hflag
  have hbegun := h.begun (by simp)
  rw [hphase] at hbegun
  rcases hbegun with hfinished | ⟨left, hrunning⟩
  · cases hfinished
  · cases hrunning

theorem exists_ends_concat (acts : List Act) (a : Act) :
    (∃ b ∈ acts ++ [a], b.Ends) ↔ (∃ b ∈ acts, b.Ends) ∨ a.Ends := by
  simp [or_and_right, exists_or]

/-- A step that does not store to the flag, and does not end the thread. -/
theorem History.quiet (h : History acts s) (hset : a ≠ .setRunning) (hclear : a ≠ .clearRunning)
    (hends : ¬ a.Ends) (hflag : s'.thread.isThreadRunning = s.thread.isThreadRunning)
    (hphase : s'.phase = .finished ↔ s.phase = .finished)
    (hfresh : s'.created = false → s'.phase = .none)
    (hbegun : s.phase = .finished ∨ (∃ left, s.phase = .running left) →
      s'.phase = .finished ∨ ∃ left, s'.phase = .running left) : History (acts ++ [a]) s' := by
  refine ⟨?_, ?_, hfresh, fun hmem => hbegun (h.begun ?_)⟩
  · rw [standing_concat, hflag, h.running]
    simp [hset, hclear]
  · rw [hphase, h.finished, exists_ends_concat, or_iff_left hends]
  · rw [List.mem_append, List.mem_singleton] at hmem
    exact hmem.resolve_right hset.symm

/-- `create` does not set the flag. -/
theorem create_isThreadRunning {t : UThread} (h : t.isThreadRunning = false) (name : CStr)
    (createCb arg : Nat) (r : PthreadResults) :
    (t.create name createCb arg r).1.isThreadRunning = false := by
  obtain ⟨-, -, hsame | hcleared⟩ | hcreated := t.create_cases name createCb arg r
  · rw [hsame, h]
  · exact hcleared
  · rw [hcreated]
    exact h

/-- A step adds to the history. -/
theorem History.step (h : History acts s) (hstep : s.step a = some s') :
    History (acts ++ [a]) s' := by
  cases step_effect hstep with
  | created name createCb arg r hfresh =>
      have hphase := h.fresh hfresh
      have hflag := h.not_running hphase
      refine h.quiet (by simp) (by simp) id ?_ ?_ (fun h => nomatch h) ?_
      · exact (create_isThreadRunning hflag name createCb arg r).trans hflag.symm
      · dsimp only
        split <;> simp [hphase]
      · simp [hphase]
  | idle a ha =>
      have hquiet : a ≠ .setRunning ∧ a ≠ .clearRunning ∧ ¬ a.Ends := by
        rcases ha with rfl | rfl | rfl <;> simp [Act.Ends]
      exact h.quiet hquiet.1 hquiet.2.1 hquiet.2.2 rfl Iff.rfl h.fresh id
  | exited => exact h.quiet (by simp) (by simp) id rfl Iff.rfl h.fresh id
  | cleared =>
      refine ⟨iff_of_false Bool.false_ne_true ?_, ?_, h.fresh, fun hmem => h.begun ?_⟩
      · simp [standing_concat]
      · exact h.finished.trans ((exists_ends_concat acts .clearRunning).trans (or_iff_left id)).symm
      · simpa using hmem
  | joined => exact h.quiet (by simp) (by simp) id rfl Iff.rfl h.fresh id
  | entered hphase =>
      refine h.quiet (by simp) (by simp) id rfl (by simp [hphase]) (fun hfresh => ?_) ?_
      · rw [h.fresh hfresh] at hphase
        cases hphase
      · simp [hphase]
  | set hphase =>
      refine ⟨iff_of_true rfl ?_, ?_, fun hfresh => ?_, fun _ => Or.inr ⟨_, rfl⟩⟩
      · exact (standing_concat acts .setRunning).mpr (Or.inl rfl)
      · rw [exists_ends_concat, ← h.finished]
        simp [hphase, Act.Ends]
      · rw [h.fresh hfresh] at hphase
        cases hphase
  | called c left hphase =>
      refine h.quiet (by simp) (by simp) id rfl (by simp [hphase]) (fun hfresh => ?_)
        fun _ => Or.inr ⟨left, rfl⟩
      rw [h.fresh hfresh] at hphase
      cases hphase
  | ended a ha halive =>
      have hquiet : a ≠ .setRunning ∧ a ≠ .clearRunning :=
        ⟨fun h => (h ▸ ha : Act.Ends .setRunning), fun h => (h ▸ ha : Act.Ends .clearRunning)⟩
      refine ⟨?_, ?_, fun hfresh => ?_, fun _ => Or.inl rfl⟩
      · rw [standing_concat, ← h.running]
        simp [hquiet]
      · exact iff_of_true rfl ((exists_ends_concat acts a).mpr (Or.inr ha))
      · rw [h.fresh hfresh] at halive
        exact halive.elim

theorem History.of_run (hrun : State.start.run acts = some s) : History acts s :=
  PartialRun.history_invariant History.start (fun _ _ _ _ h hstep => h.step hstep) hrun

/-- The flag is set for a thread that does not run exactly if it has ended behind a set that was
not cleared. -/
theorem History.wrong_iff (h : History acts s) :
    (s.thread.isRunning = true ∧ ¬ s.phase.Alive) ↔ (∃ a ∈ acts, a.Ends) ∧ Standing acts := by
  rw [← h.finished, ← h.running, and_comm]
  refine and_congr_left fun hflag => ?_
  cases hphase : s.phase with
  | none => exact absurd ((h.not_running hphase).symm.trans hflag) Bool.false_ne_true
  | finished => simp [Phase.Alive]
  | started | entered | running => simp [Phase.Alive]

end State

open State

/-- Whenever the owner is told that the thread runs, there is one that has not ended. -/
def Truthful (acts : List Act) : Prop :=
  ∀ before after s, acts = before ++ .isRunning :: after → State.start.run before = some s →
    s.thread.isRunning = true → s.phase.Alive

/-- In every interleaving of the owner and the thread: `isRunning` tells the truth if and only if,
whenever it is called behind the end of a thread that has set the flag, the owner has cleared the
flag in between. -/
theorem is_running_iff (acts : List Act) (s : State) (hrun : State.start.run acts = some s) :
    Truthful acts ↔
      ∀ before after, acts = before ++ .isRunning :: after → (∃ a ∈ before, a.Ends) →
        ∀ first second, before = first ++ .setRunning :: second → .clearRunning ∈ second := by
  constructor
  · intro h before after hacts hends first second hbefore
    by_contra hclear
    rw [hacts] at hrun
    obtain ⟨t, ht⟩ := PartialRun.exists_prefix hrun
    obtain ⟨hflag, halive⟩ :=
      (History.of_run ht).wrong_iff.mpr ⟨hends, first, second, hbefore, hclear⟩
    exact halive (h before after t hacts ht hflag)
  · intro h before after t hacts ht hflag
    by_contra halive
    obtain ⟨hends, first, second, hbefore, hclear⟩ :=
      (History.of_run ht).wrong_iff.mp ⟨hflag, halive⟩
    exact hclear (h before after hacts hends first second hbefore)

/-- The thread has set the flag when the owner cancels it. -/
def cancelledThread : List Act :=
  [.create shortName 1 7 succeeding, .enter, .setRunning, .isRunning, .exit, .clearRunning, .cancel,
    .join, .isRunning]

/-- The second call comes behind the end of the thread, and there the flag has been cleared. -/
theorem is_running_iff_cancelled : Truthful cancelledThread := by
  refine (is_running_iff cancelledThread _ rfl).mpr ?_
  intro before after hacts hends first second hbefore
  subst hbefore
  -- the two calls of `isRunning`
  have hcalls : first = [.create shortName 1 7 succeeding, .enter] ∧
      (second = [] ∨ second = [.isRunning, .exit, .clearRunning, .cancel, .join]) := by
    simp [cancelledThread, List.cons_eq_append_iff, List.append_eq_cons_iff] at hacts
    exact ⟨hacts.1, hacts.2.imp And.left And.left⟩
  obtain ⟨rfl, rfl | rfl⟩ := hcalls
  · simp [Act.Ends] at hends
  · simp

/-- The callback returns, and the owner joins the thread. -/
def returnedThread : List Act :=
  [.create shortName 1 7 succeeding, .enter, .setRunning, .call, .ret, .join, .isRunning]

/-- The owner cancels the thread before it sets the flag. -/
def overtakenThread : List Act :=
  [.create shortName 1 7 succeeding, .exit, .clearRunning, .enter, .setRunning, .cancel, .join,
    .isRunning]

/-- Both end with a flag that says that the thread runs. -/
theorem finished_thread_running : ¬ Truthful returnedThread ∧ ¬ Truthful overtakenThread := by
  constructor
  · intro h
    exact h returnedThread.dropLast [] _ rfl rfl rfl
  · intro h
    exact h overtakenThread.dropLast [] _ rfl rfl rfl

end BazelPro.Uthread
