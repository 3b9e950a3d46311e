import BazelPro.Lib.PartialRun
import BazelPro.Tmp.History

/-!
# Put, store by store

`Put` as the sequence of its stores, so that other processes can run between any two of them,
and so that the writer can die there. `published` is not part of the segment: it records the
completed calls. Executed without interruption the stores are `AgvBuf.put` (`run_put`); at any
point, the only slot that a writer touches is the one after the published one (`Shared.Ok`,
`step_frame`).
-/

namespace BazelPro.Tmp

open C

/-- How far a `Put` is: its timestamp is stored, or also its checksum and `j` payload bytes. -/
inductive Progress where
  | stamped
  | copying (j : Nat)

/-- A `Put` that has stored its timestamp and not yet published its index. -/
structure Writing where
  put : Put
  index : Int
  progress : Progress

/-- The segment with its writer, and the completed `Put` calls, oldest first. -/
structure Shared where
  context : AgvBuf
  writer : Option Writing
  published : List Put

/-- What can happen to the segment: a `Put` makes its first or its next store, its process dies,
or a constructor runs. -/
inductive WriterAct where
  | begin (put : Put)
  | store
  | die
  | construct

namespace Shared

/-- The segment after the first constructor run. -/
def init : Shared := ⟨AgvBuf.initialised, none, []⟩

/-- The next store of a `Put`. -/
def store (s : Shared) (w : Writing) : Option Shared :=
  match w.progress with
  | .stamped => do
      let context ← s.context.update w.index fun slot =>
        { slot with crc32 := crc32 w.put.payload.toList }
      pure { s with context := context, writer := some { w with progress := .copying 0 } }
  | .copying j =>
      if h : j < agvInfoSize then do
        let context ← s.context.update w.index fun slot =>
          { slot with agvInfo := slot.agvInfo.set j w.put.payload[j] }
        pure { s with context := context, writer := some { w with progress := .copying (j + 1) } }
      else
        some ⟨{ s.context with index := BitVec.ofInt 32 w.index }, none, s.published ++ [w.put]⟩

/-- One step. There is one writer: a `Put` begins when none is in progress. -/
def step (s : Shared) : WriterAct → Option Shared
  | .begin p =>
      match s.writer with
      | some _ => none
      | none => do
          let index := s.context.nextIndex
          let context ← s.context.update index fun slot => { slot with timestamp := p.time }
          pure { s with context := context, writer := some ⟨p, index, .stamped⟩ }
  | .store => s.writer.bind s.store
  | .die => some { s with writer := none }
  | .construct => some { s with context := s.context.construct }

/-- A sequence of steps. -/
def run (s : Shared) (acts : List WriterAct) : Option Shared := acts.foldlM step s

/-- The slot of the next `Put`. -/
def nextSlot (s : Shared) : Nat := (s.published.length + 1) % cacheBufMax

theorem nextSlot_lt (s : Shared) : s.nextSlot < cacheBufMax := mod_cacheBufMax_lt _

/-! ## The invariant -/

/-- What a `Put` in progress has put into its slot so far. -/
structure Partial (w : Writing) (slot : AgvWrapper) : Prop where
  timestamp : slot.timestamp = w.put.time
  crc32 : ∀ j, w.progress = .copying j → slot.crc32 = Tmp.crc32 w.put.payload.toList
  agvInfo : ∀ j, w.progress = .copying j →
    j ≤ agvInfoSize ∧ ∀ i, i < j → slot.agvInfo[i]? = w.put.payload[i]?

/-- The tags and the index are in order, the published slot is complete, and a `Put` in progress
is working on the slot after it. -/
structure Ok (s : Shared) : Prop where
  tag1 : s.context.tag1 = 0x5A5A5A5A
  version : s.context.version = 1
  tag2 : s.context.tag2 = 0xA5A5A5A5
  index : s.context.index = BitVec.ofNat 32 (s.published.length % cacheBufMax)
  last : ∀ p, s.published.getLast? = some p →
    s.context.wrapper[s.published.length % cacheBufMax]? = some p.wrapper
  writer : ∀ w, s.writer = some w → w.index = s.nextSlot ∧
    ∃ slot, s.context.wrapper[s.nextSlot]? = some slot ∧ Partial w slot

theorem Ok.init : Ok Shared.init :=
  ⟨rfl, rfl, rfl, rfl, by simp [Shared.init], by simp [Shared.init]⟩

variable {s s' : Shared} {a : WriterAct}

theorem nextSlot_ne (s : Shared) : s.published.length % cacheBufMax ≠ s.nextSlot :=
  CyclicBuffer.cell_ne (by decide) (by decide)

/-- Everything a step can do. A store goes to the next slot, whose content before it is given;
the last store publishes that slot. -/
inductive Effect (s : Shared) : WriterAct → Shared → Prop
  | begin (p : Put) (slot : AgvWrapper) (idle : s.writer = none)
      (hslot : s.context.wrapper[s.nextSlot]? = some slot) :
      Effect s (.begin p) { s with
        context := s.context.withSlot s.nextSlot { slot with timestamp := p.time }
        writer := some ⟨p, s.nextSlot, .stamped⟩ }
  | crc (p : Put) (slot : AgvWrapper) (hwriter : s.writer = some ⟨p, s.nextSlot, .stamped⟩)
      (hslot : s.context.wrapper[s.nextSlot]? = some slot)
      (hpart : Partial ⟨p, s.nextSlot, .stamped⟩ slot) :
      Effect s .store { s with
        context := s.context.withSlot s.nextSlot { slot with crc32 := crc32 p.payload.toList }
        writer := some ⟨p, s.nextSlot, .copying 0⟩ }
  | byte (p : Put) (slot : AgvWrapper) (j : Nat) (hj : j < agvInfoSize)
      (hwriter : s.writer = some ⟨p, s.nextSlot, .copying j⟩)
      (hslot : s.context.wrapper[s.nextSlot]? = some slot)
      (hpart : Partial ⟨p, s.nextSlot, .copying j⟩ slot) :
      Effect s .store { s with
        context := s.context.withSlot s.nextSlot
          { slot with agvInfo := slot.agvInfo.set j p.payload[j] }
        writer := some ⟨p, s.nextSlot, .copying (j + 1)⟩ }
  | publish (p : Put) (hwriter : s.writer = some ⟨p, s.nextSlot, .copying agvInfoSize⟩)
      (hslot : s.context.wrapper[s.nextSlot]? = some p.wrapper) :
      Effect s .store ⟨{ s.context with index := BitVec.ofNat 32 s.nextSlot }, none,
        s.published ++ [p]⟩
  | die : Effect s .die { s with writer := none }
  | construct : Effect s .construct s

/-- A slot with all the bytes of the payload is the slot that `Put` means to leave. -/
theorem Partial.eq_wrapper {p : Put} {i : Int} {slot : AgvWrapper}
    (h : Partial ⟨p, i, .copying agvInfoSize⟩ slot) : slot = p.wrapper := by
  have hinfo : slot.agvInfo = p.payload := by
    refine Vector.ext fun k hk => ?_
    have := (h.agvInfo agvInfoSize rfl).2 k hk
    rwa [Vector.getElem?_eq_getElem hk, Vector.getElem?_eq_getElem hk, Option.some.injEq] at this
  have htime := h.timestamp
  have hcrc := h.crc32 agvInfoSize rfl
  obtain ⟨timestamp, crc, info⟩ := slot
  simp only at hinfo htime hcrc
  rw [hinfo, htime, hcrc, Put.wrapper]

/-- A step has one of these effects. -/
theorem Ok.effect (h : Ok s) (hstep : s.step a = some s') : Effect s a s' := by
  cases a with
  | begin p =>
      obtain ⟨slot, hslot⟩ := s.context.exists_slot s.nextSlot_lt
      simp only [step] at hstep
      split at hstep
      · cases hstep
      · next hidle =>
        rw [s.context.nextIndex_eq h.index] at hstep
        change (s.context.update s.nextSlot _ >>= _) = _ at hstep
        rw [AgvBuf.update_natCast _ _ hslot] at hstep
        cases hstep
        exact .begin p slot hidle hslot
  | store =>
      obtain ⟨⟨p, index, progress⟩, hwriter, hstore⟩ := Option.bind_eq_some_iff.mp hstep
      -- the invariant says which slot this is and what is in it
      obtain ⟨hindex, slot, hslot, hpart⟩ := h.writer _ hwriter
      simp only at hindex
      subst hindex
      cases progress with
      | stamped =>
          simp only [store, AgvBuf.update_natCast _ _ hslot] at hstore
          cases hstore
          exact .crc p slot hwriter hslot hpart
      | copying j =>
          simp only [store, AgvBuf.update_natCast _ _ hslot] at hstore
          split at hstore
          · next hj =>
            cases hstore
            exact .byte p slot j hj hwriter hslot hpart
          · next hj =>
            have hsize : j = agvInfoSize := by
              have := (hpart.agvInfo j rfl).1
              omega
            subst hsize
            rw [hpart.eq_wrapper] at hslot
            cases hstore
            exact .publish p hwriter hslot
  | die =>
      cases hstep
      exact .die
  | construct =>
      have hconstruct : s.context.construct = s.context := by
        rw [AgvBuf.construct, if_neg]
        simp [h.tag1, h.tag2, h.version]
      simp only [step, hconstruct] at hstep
      cases hstep
      exact .construct

/-- Storing a byte extends the copied part by it. -/
theorem Partial.set {p : Put} {i : Int} {slot : AgvWrapper} {j : Nat} (hj : j < agvInfoSize)
    (h : Partial ⟨p, i, .copying j⟩ slot) :
    Partial ⟨p, i, .copying (j + 1)⟩
      { slot with agvInfo := slot.agvInfo.set j p.payload[j] } := by
  refine ⟨h.timestamp, fun k _ => h.crc32 j rfl, fun k hk => ?_⟩
  obtain rfl : j + 1 = k := by simpa using hk
  refine ⟨hj, fun n hn => ?_⟩
  show (slot.agvInfo.set j p.payload[j])[n]? = p.payload[n]?
  rw [Vector.getElem?_set]
  split
  · next heq =>
    subst heq
    exact (Vector.getElem?_eq_getElem hj).symm
  · exact (h.agvInfo j rfl).2 n (by omega)

/-- Every step keeps the invariant. -/
theorem Ok.step (h : Ok s) (hstep : s.step a = some s') : Ok s' := by
  have hother : ∀ w, (s.context.withSlot s.nextSlot w).wrapper[
      s.published.length % cacheBufMax]? = s.context.wrapper[s.published.length % cacheBufMax]? :=
    fun w => s.context.wrapper_withSlot_ne s.nextSlot_ne.symm w
  have hself := fun w => s.context.wrapper_withSlot_self s.nextSlot_lt w
  cases h.effect hstep with
  | begin p slot hidle hslot =>
      refine ⟨h.tag1, h.version, h.tag2, h.index, fun q hq => (hother _).trans (h.last q hq), ?_⟩
      rintro w ⟨⟩
      exact ⟨rfl, _, hself _, rfl, by simp, by simp⟩
  | crc p slot hwriter hslot hpart =>
      refine ⟨h.tag1, h.version, h.tag2, h.index, fun q hq => (hother _).trans (h.last q hq), ?_⟩
      rintro w ⟨⟩
      exact ⟨rfl, _, hself _, hpart.timestamp, by simp, by simp⟩
  | byte p slot j hj hwriter hslot hpart =>
      refine ⟨h.tag1, h.version, h.tag2, h.index, fun q hq => (hother _).trans (h.last q hq), ?_⟩
      rintro w ⟨⟩
      exact ⟨rfl, _, hself _, hpart.set hj⟩
  | publish p hwriter hslot =>
      refine ⟨h.tag1, h.version, h.tag2, by simp [nextSlot], fun q hq => ?_, by simp⟩
      obtain rfl : p = q := by simpa using hq
      rw [List.length_append, List.length_singleton]
      exact hslot
  | die => exact ⟨h.tag1, h.version, h.tag2, h.index, h.last, by simp⟩
  | construct => exact h

/-! ## What a step leaves alone -/

/-- The number of `Put` calls in progress. -/
def busy (s : Shared) : Nat := if s.writer.isSome then 1 else 0

/-- The number of `Put` calls that a step begins. -/
def begins : WriterAct → Nat
  | .begin _ => 1
  | _ => 0

/-- A step publishes at most the `Put` in progress, and changes no slot but the next one. -/
theorem Ok.frame (h : Ok s) (hstep : s.step a = some s') :
    s.published.length ≤ s'.published.length ∧
      s'.published.length + s'.busy ≤ s.published.length + s.busy + begins a ∧
      ∀ i, i ≠ s.nextSlot ∨ s.busy + begins a = 0 →
        s'.context.wrapper[i]? = s.context.wrapper[i]? := by
  have hother : ∀ (w : AgvWrapper) (n i : Nat), i ≠ s.nextSlot ∨ n + 1 = 0 →
      (s.context.withSlot s.nextSlot w).wrapper[i]? = s.context.wrapper[i]? := by
    rintro w n i (hi | hi)
    · exact s.context.wrapper_withSlot_ne hi.symm w
    · omega
  cases h.effect hstep with
  | begin p slot hidle hslot => exact ⟨le_refl _, by simp [busy, begins], hother _ _⟩
  | crc p slot hwriter hslot hpart =>
      have hbusy : s.busy = 1 := by simp [busy, hwriter]
      rw [hbusy]
      exact ⟨le_refl _, by simp [busy, begins], hother _ 0⟩
  | byte p slot j hj hwriter hslot hpart =>
      have hbusy : s.busy = 1 := by simp [busy, hwriter]
      rw [hbusy]
      exact ⟨le_refl _, by simp [busy, begins], hother _ 0⟩
  | publish p hwriter hslot =>
      have hbusy : s.busy = 1 := by simp [busy, hwriter]
      rw [hbusy]
      exact ⟨by simp, by simp [busy, begins], fun i _ => rfl⟩
  | die => exact ⟨le_refl _, by simp [busy, begins], fun i _ => rfl⟩
  | construct => exact ⟨le_refl _, le_refl _, fun i _ => rfl⟩

/-! ## Without interruption -/

/-- The payload bytes, stored one after the other. -/
theorem run_copy (p : Put) (slot : AgvWrapper) (d j : Nat) (hd : j + d = agvInfoSize)
    (s : Shared) (hwriter : s.writer = some ⟨p, s.nextSlot, .copying j⟩)
    (hslot : s.context.wrapper[s.nextSlot]? = some slot)
    (hpart : Partial ⟨p, s.nextSlot, .copying j⟩ slot) :
    s.run (List.replicate d .store) = some { s with
      context := s.context.withSlot s.nextSlot p.wrapper
      writer := some ⟨p, s.nextSlot, .copying agvInfoSize⟩ } := by
  -- induction on the bytes that are left to copy
  induction d generalizing s slot j with
  | zero =>
      obtain rfl : j = agvInfoSize := by omega
      rw [hpart.eq_wrapper] at hslot
      rw [AgvBuf.withSlot_eq_self hslot, ← hwriter]
      rfl
  | succ d ih =>
      have hj : j < agvInfoSize := by omega
      let t : Shared := { s with
        context := s.context.withSlot s.nextSlot
          { slot with agvInfo := slot.agvInfo.set j p.payload[j] }
        writer := some ⟨p, s.nextSlot, .copying (j + 1)⟩ }
      have hstep : s.step .store = some t := by
        simp only [step, hwriter, Option.bind_some, store, dif_pos hj,
          AgvBuf.update_natCast _ _ hslot]
        rfl
      have hrest := ih _ (j + 1) (by omega) t rfl
        (s.context.wrapper_withSlot_self s.nextSlot_lt _) (hpart.set hj)
      refine Option.bind_eq_some_iff.mpr ⟨t, hstep, hrest.trans ?_⟩
      show some (Shared.mk ((s.context.withSlot s.nextSlot _).withSlot s.nextSlot _) _ _) = _
      rw [AgvBuf.withSlot_withSlot]
      rfl

/-- All the stores of a `Put`. -/
def putActs (p : Put) : List WriterAct :=
  .begin p :: .store :: (List.replicate agvInfoSize .store ++ [.store])

/-- Executed without interruption, the stores of a `Put` have the effect of `AgvBuf.put`. -/
theorem Ok.run_put (h : Ok s) (hidle : s.writer = none) (p : Put) :
    ∃ context, s.context.put p.payload p.time = some context ∧
      s.run (putActs p) = some ⟨context, none, s.published ++ [p]⟩ := by
  have hnext : s.context.nextIndex = s.nextSlot := s.context.nextIndex_eq h.index
  obtain ⟨slot, hslot⟩ := s.context.exists_slot s.nextSlot_lt
  refine ⟨_, s.context.put_eq p.payload p.time s.nextSlot_lt hnext, ?_⟩
  let stamped : AgvWrapper := { slot with timestamp := p.time }
  let checked : AgvWrapper := { stamped with crc32 := crc32 p.payload.toList }
  let s₁ : Shared := { s with
    context := s.context.withSlot s.nextSlot stamped
    writer := some ⟨p, s.nextSlot, .stamped⟩ }
  let s₂ : Shared := { s with
    context := s.context.withSlot s.nextSlot checked
    writer := some ⟨p, s.nextSlot, .copying 0⟩ }
  let s₃ : Shared := { s with
    context := s.context.withSlot s.nextSlot p.wrapper
    writer := some ⟨p, s.nextSlot, .copying agvInfoSize⟩ }
  have hbegin : s.step (.begin p) = some s₁ := by
    simp only [Shared.step, hidle, hnext, AgvBuf.update_natCast _ _ hslot]
    rfl
  have hcrc : s₁.step .store = some s₂ := by
    have hself : s₁.context.wrapper[s.nextSlot]? = some stamped :=
      s.context.wrapper_withSlot_self s.nextSlot_lt stamped
    show (s₁.context.update s.nextSlot _).bind _ = _
    rw [AgvBuf.update_natCast _ _ hself]
    show some (Shared.mk ((s.context.withSlot s.nextSlot _).withSlot s.nextSlot _) _ _) = _
    rw [AgvBuf.withSlot_withSlot]
  have hcopy : s₂.run (List.replicate agvInfoSize .store) = some s₃ := by
    refine (run_copy p checked agvInfoSize 0 (Nat.zero_add _) s₂ rfl
      (s.context.wrapper_withSlot_self s.nextSlot_lt checked)
      ⟨rfl, fun _ _ => rfl, by simp⟩).trans ?_
    show some (Shared.mk ((s.context.withSlot s.nextSlot _).withSlot s.nextSlot _) _ _) = _
    rw [AgvBuf.withSlot_withSlot]
    rfl
  have hpublish : s₃.step .store = some
      ⟨{ s.context.withSlot s.nextSlot p.wrapper with index := BitVec.ofNat 32 s.nextSlot }, none,
        s.published ++ [p]⟩ := rfl
  refine Option.bind_eq_some_iff.mpr ⟨s₁, hbegin, Option.bind_eq_some_iff.mpr ⟨s₂, hcrc, ?_⟩⟩
  exact PartialRun.append hcopy (Option.bind_eq_some_iff.mpr ⟨_, hpublish, rfl⟩)

end Shared

end BazelPro.Tmp
