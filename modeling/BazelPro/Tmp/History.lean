import BazelPro.Lib.CyclicBuffer
import BazelPro.Tmp.Shm

/-!
# The ring and its history

The segment as a cyclic buffer: after any sequence of `Put` calls, with constructor runs of
other processes in between, it holds the last fifteen payloads in cyclic order (`Ring`), and
`Get` returns the last one, or the one before when the last one was damaged.
-/

namespace BazelPro.Tmp

open C

/-- The arguments of a `Put`: the payload, and the second it is called in. -/
structure Put where
  payload : AgvInfo
  time : BitVec 32

/-- What a `Put` leaves in its slot. -/
def Put.wrapper (p : Put) : AgvWrapper := ⟨p.time, crc32 p.payload.toList, p.payload⟩

/-- A call that may change the segment. -/
inductive Call where
  | construct
  | put (p : Put)

namespace AgvBuf

/-- The effect of a call. -/
def call (context : AgvBuf) : Call → Option AgvBuf
  | .construct => some context.construct
  | .put p => context.put p.payload p.time

/-- The effect of a sequence of calls. -/
def run (context : AgvBuf) (calls : List Call) : Option AgvBuf := calls.foldlM call context

/-- The segment after the first constructor run, on fresh memory. -/
def initialised : AgvBuf := cleared.construct

/-! ## Slots -/

theorem slot_natCast (context : AgvBuf) (i : Nat) : context.slot i = context.wrapper[i]? := by
  simp [slot]

/-- The segment with one slot replaced. -/
def withSlot (context : AgvBuf) (i : Nat) (w : AgvWrapper) : AgvBuf :=
  { context with wrapper := context.wrapper.setIfInBounds i w }

theorem wrapper_withSlot_self (context : AgvBuf) {i : Nat} (hi : i < cacheBufMax)
    (w : AgvWrapper) : (context.withSlot i w).wrapper[i]? = some w :=
  Vector.getElem?_setIfInBounds_self_of_lt hi

theorem wrapper_withSlot_ne (context : AgvBuf) {i j : Nat} (h : i ≠ j) (w : AgvWrapper) :
    (context.withSlot i w).wrapper[j]? = context.wrapper[j]? :=
  Vector.getElem?_setIfInBounds_ne h

@[simp] theorem withSlot_withSlot (context : AgvBuf) (i : Nat) (v w : AgvWrapper) :
    (context.withSlot i v).withSlot i w = context.withSlot i w := by
  simp [withSlot]

theorem withSlot_eq_self {context : AgvBuf} {i : Nat} {w : AgvWrapper}
    (h : context.wrapper[i]? = some w) : context.withSlot i w = context := by
  have hset : context.wrapper.setIfInBounds i w = context.wrapper := by
    refine Vector.ext fun j hj => ?_
    rw [Vector.getElem_setIfInBounds hj]
    split
    · next heq =>
      subst heq
      rw [Vector.getElem?_eq_getElem hj, Option.some.injEq] at h
      exact h.symm
    · rfl
  rw [withSlot, hset]

/-- A store to a slot of the array. -/
theorem update_natCast (context : AgvBuf) {i : Nat} {w : AgvWrapper} (f : AgvWrapper → AgvWrapper)
    (hw : context.wrapper[i]? = some w) :
    context.update i f = some (context.withSlot i (f w)) := by
  rw [update, slot_natCast, hw]
  rfl

/-- Every slot of the array is there. -/
theorem exists_slot (context : AgvBuf) {i : Nat} (hi : i < cacheBufMax) :
    ∃ w, context.wrapper[i]? = some w :=
  ⟨_, Vector.getElem?_eq_getElem hi⟩

/-- A slot number is the same `int` after a round through `helper.index`. -/
theorem toInt_index {i : Nat} (hi : i < cacheBufMax) : (BitVec.ofNat 32 i).toInt = i := by
  have hmax : cacheBufMax = 15 := rfl
  have hnat : (BitVec.ofNat 32 i).toNat = i := by
    rw [BitVec.toNat_ofNat, Nat.mod_eq_of_lt (by omega)]
  rw [BitVec.toInt_eq_toNat_of_lt (by omega), hnat]

/-- The three stores of a `Put` to one slot replace it; then the index is published. -/
theorem put_eq (context : AgvBuf) (agvMsg : AgvInfo) (time : BitVec 32) {i : Nat}
    (hi : i < cacheBufMax) (hnext : context.nextIndex = i) :
    context.put agvMsg time = some { context.withSlot i ⟨time, crc32 agvMsg.toList, agvMsg⟩ with
      index := BitVec.ofNat 32 i } := by
  obtain ⟨w, hw⟩ := context.exists_slot hi
  have hself := fun v => context.wrapper_withSlot_self hi v
  simp only [put, hnext, Option.bind_eq_bind]
  rw [update_natCast context _ hw, Option.bind_some, update_natCast _ _ (hself _),
    Option.bind_some, withSlot_withSlot, update_natCast _ _ (hself _), Option.bind_some,
    withSlot_withSlot]
  rfl

/-- The slot after the published one. -/
theorem nextIndex_eq (context : AgvBuf) {n : Nat}
    (hindex : context.index = BitVec.ofNat 32 (n % cacheBufMax)) :
    context.nextIndex = ((n + 1) % cacheBufMax : Nat) := by
  have hmax : cacheBufMax = 15 := rfl
  have hmod := mod_cacheBufMax_lt n
  have hnat : (context.index + 1).toNat = n % cacheBufMax + 1 := by
    have hlow : (BitVec.ofNat 32 (n % cacheBufMax)).toNat = n % cacheBufMax := by
      rw [BitVec.toNat_ofNat, Nat.mod_eq_of_lt (by omega)]
    have hone : (1 : BitVec 32).toNat = 1 := rfl
    rw [hindex, BitVec.toNat_add, hlow, hone, Nat.mod_eq_of_lt (by omega)]
  have hint : (context.index + 1).toInt = ((n % cacheBufMax + 1 : Nat) : Int) := by
    rw [BitVec.toInt_eq_toNat_of_lt (by omega), hnat]
  rw [nextIndex, hint, ← Nat.mod_add_mod n cacheBufMax 1]
  exact (Int.ofNat_tmod _ _).symm

/-- `Get` on a fresh slot whose checksum matches. -/
theorem get_eq_of_match (context : AgvBuf) (payload : AgvInfo) (timeRange readTime : BitVec 32)
    {i : Nat} {w : AgvWrapper} (hi : i < cacheBufMax) (hindex : context.index = BitVec.ofNat 32 i)
    (hw : context.wrapper[i]? = some w) (hfresh : readTime - w.timestamp ≤ timeRange)
    (hcrc : crc32 w.agvInfo.toList = w.crc32) :
    context.get payload timeRange readTime = some (0, w.agvInfo) := by
  rw [get, hindex, toInt_index hi, if_neg (by omega), slot_natCast, hw]
  simp only [Option.bind_eq_bind, Option.bind_some, if_neg (BitVec.not_lt.mpr hfresh), if_pos hcrc]
  rfl

/-- `Get` on a fresh slot whose checksum does not match: the slot before it decides. -/
theorem get_eq_of_mismatch (context : AgvBuf) (payload : AgvInfo)
    (timeRange readTime : BitVec 32) {i j : Nat} {w r : AgvWrapper} (hi : i < cacheBufMax)
    (hindex : context.index = BitVec.ofNat 32 i) (hw : context.wrapper[i]? = some w)
    (hfresh : readTime - w.timestamp ≤ timeRange) (hcrc : crc32 w.agvInfo.toList ≠ w.crc32)
    (hretry : retryIndex i = j) (hr : context.wrapper[j]? = some r)
    (hrcrc : crc32 r.agvInfo.toList = r.crc32) :
    context.get payload timeRange readTime =
      if readTime - r.timestamp ≤ timeRange then some (0, r.agvInfo)
      else some (-1, w.agvInfo) := by
  rw [get, hindex, toInt_index hi, if_neg (by omega), slot_natCast, hw]
  simp only [Option.bind_eq_bind, Option.bind_some, if_neg (BitVec.not_lt.mpr hfresh),
    if_neg hcrc, hretry, slot_natCast, hr, if_pos hrcrc]
  by_cases hold : readTime - r.timestamp ≤ timeRange
  · rw [if_neg (BitVec.not_lt.mpr hold), if_pos hold]
    rfl
  · rw [if_pos (BitVec.not_le.mp hold), if_neg hold]
    rfl

end AgvBuf

/-! ## The invariant -/

/-- The `Put` calls of a sequence, oldest first. -/
def puts : List Call → List Put
  | [] => []
  | .construct :: calls => puts calls
  | .put p :: calls => p :: puts calls

/-- The segment after the given `Put` calls. -/
structure Ring (history : List Put) (context : AgvBuf) : Prop where
  tag1 : context.tag1 = 0x5A5A5A5A
  version : context.version = 1
  tag2 : context.tag2 = 0xA5A5A5A5
  index : context.index = BitVec.ofNat 32 (history.length % cacheBufMax)
  holds : CyclicBuffer.Holds cacheBufMax (fun i => context.wrapper[i]?) (history.map Put.wrapper)

theorem Ring.initialised : Ring [] AgvBuf.initialised :=
  ⟨rfl, rfl, rfl, rfl, CyclicBuffer.holds_nil _⟩

variable {history : List Put} {context : AgvBuf}

/-- A further constructor run finds the tags in place. -/
theorem Ring.construct_eq (h : Ring history context) : context.construct = context := by
  rw [AgvBuf.construct, if_neg]
  simp [h.tag1, h.tag2, h.version]

/-- A `Put` extends the history. -/
theorem Ring.put (h : Ring history context) (p : Put) :
    ∃ context', context.put p.payload p.time = some context' ∧
      Ring (history ++ [p]) context' := by
  have hlt := mod_cacheBufMax_lt (history.length + 1)
  refine ⟨_, AgvBuf.put_eq context p.payload p.time hlt
    (context.nextIndex_eq h.index), ?_⟩
  refine ⟨h.tag1, h.version, h.tag2, by simp, ?_⟩
  rw [List.map_append, List.map_singleton]
  have hlen : (history.map Put.wrapper).length = history.length := List.length_map _
  refine h.holds.push ?_ fun i hi hne => ?_
  · rw [hlen]
    exact context.wrapper_withSlot_self hlt _
  · rw [hlen] at hne
    exact context.wrapper_withSlot_ne hne.symm _

/-- The invariant holds after any sequence of calls. -/
theorem Ring.run (h : Ring history context) (calls : List Call) :
    ∃ context', context.run calls = some context' ∧ Ring (history ++ puts calls) context' := by
  induction calls generalizing history context with
  | nil => exact ⟨context, rfl, by simpa [puts] using h⟩
  | cons call calls ih =>
      cases call with
      | construct =>
          obtain ⟨context', hrun, hring⟩ := ih h
          refine ⟨context', ?_, hring⟩
          rw [← hrun]
          exact congrArg (AgvBuf.run · calls) h.construct_eq
      | put p =>
          obtain ⟨c, hput, hc⟩ := h.put p
          obtain ⟨context', hrun, hring⟩ := ih hc
          refine ⟨context', ?_, by simpa [puts] using hring⟩
          exact Option.bind_eq_some_iff.mpr ⟨c, hput, hrun⟩

/-! ## Reading -/

/-- The `Put` that `k` others came after. -/
def latest (history : List Put) (k : Nat) : Option Put := history.reverse[k]?

theorem lt_length_of_latest {k : Nat} {p : Put} (h : latest history k = some p) :
    k < history.length := by
  simpa using (List.getElem?_eq_some_iff.mp h).1

/-- The last fifteen payloads are in their slots. -/
theorem Ring.slot_latest (h : Ring history context) {k : Nat} {p : Put} (hk : k < cacheBufMax)
    (hp : latest history k = some p) :
    context.wrapper[(history.length - k) % cacheBufMax]? = some p.wrapper := by
  have hmap : (history.map Put.wrapper).reverse[k]? = some p.wrapper := by
    rw [← List.map_reverse, List.getElem?_map]
    exact congrArg (Option.map Put.wrapper) hp
  have := h.holds k p.wrapper hk hmap
  rwa [List.length_map] at this

/-- `Get` returns the last payload while it is fresh. -/
theorem Ring.get_latest (h : Ring history context) {last : Put}
    (hlast : latest history 0 = some last) (payload : AgvInfo) {timeRange now : BitVec 32}
    (hfresh : now - last.time ≤ timeRange) :
    context.get payload timeRange now = some (0, last.payload) :=
  context.get_eq_of_match payload timeRange now (mod_cacheBufMax_lt _) h.index
    (h.slot_latest (by decide) hlast) hfresh rfl

/-- When the last payload is damaged, `Get` falls back to the one before. -/
theorem Ring.get_damaged (h : Ring history context) {last prev : Put}
    (hlast : latest history 0 = some last) (hprev : latest history 1 = some prev)
    (payload damaged : AgvInfo) {timeRange now : BitVec 32}
    (hfresh : now - last.time ≤ timeRange)
    (hcrc : crc32 damaged.toList ≠ crc32 last.payload.toList) :
    ∃ context', context.update (history.length % cacheBufMax : Nat)
        (fun w => { w with agvInfo := damaged }) = some context' ∧
      context'.get payload timeRange now =
        if now - prev.time ≤ timeRange then some (0, prev.payload) else some (-1, damaged) := by
  have hlen : 1 < history.length := lt_length_of_latest hprev
  have hlt := mod_cacheBufMax_lt history.length
  have hslot := h.slot_latest (by decide) hlast
  have hold := h.slot_latest (by decide) hprev
  have hne : (history.length - 1) % cacheBufMax ≠ history.length % cacheBufMax := by
    have := CyclicBuffer.cell_ne (n := history.length - 1) (k := 1) (N := cacheBufMax)
      (by omega) (by decide)
    rwa [Nat.sub_add_cancel (by omega)] at this
  -- `Get` steps back as the writer stepped forward, from slot 0 to slot 14 too
  have hretry : AgvBuf.retryIndex (history.length % cacheBufMax : Nat) =
      ((history.length - 1) % cacheBufMax : Nat) := by
    have hpred := CyclicBuffer.pred_cell (N := cacheBufMax) (by decide) (history.length - 1)
    rw [Nat.sub_add_cancel (by omega)] at hpred
    rw [← hpred, AgvBuf.retryIndex]
    split_ifs <;> omega
  let w : AgvWrapper := { last.wrapper with agvInfo := damaged }
  have hother : (context.withSlot (history.length % cacheBufMax) w).wrapper[
      (history.length - 1) % cacheBufMax]? = some prev.wrapper :=
    (context.wrapper_withSlot_ne hne.symm w).trans hold
  have hget := AgvBuf.get_eq_of_mismatch (context.withSlot _ w) payload timeRange now hlt h.index
    (context.wrapper_withSlot_self hlt w) hfresh hcrc hretry hother rfl
  exact ⟨_, context.update_natCast _ hslot, hget⟩

/-- After any sequence of calls with at least one `Put`, the segment holds the last fifteen
payloads in cyclic order behind an index that counts the `Put` calls modulo 15; `Get` returns
the last payload while it is fresh, and the one before it, under its own age limit, when the
last one no longer matches its checksum. -/
theorem ring_history (calls : List Call) (last : Put) (hlast : latest (puts calls) 0 = some last) :
    ∃ context, AgvBuf.initialised.run calls = some context ∧
      context.index.toNat = (puts calls).length % cacheBufMax ∧
      (context.tag1 = 0x5A5A5A5A ∧ context.version = 1 ∧ context.tag2 = 0xA5A5A5A5) ∧
      (∀ k p, k < cacheBufMax → latest (puts calls) k = some p →
        context.wrapper[((puts calls).length - k) % cacheBufMax]? =
          some ⟨p.time, crc32 p.payload.toList, p.payload⟩) ∧
      ∀ payload timeRange now, now - last.time ≤ timeRange →
        context.get payload timeRange now = some (0, last.payload) ∧
        ∀ damaged prev, crc32 damaged.toList ≠ crc32 last.payload.toList →
          latest (puts calls) 1 = some prev →
          ∃ context', context.update ((puts calls).length % cacheBufMax : Nat)
              (fun w => { w with agvInfo := damaged }) = some context' ∧
            context'.get payload timeRange now =
              if now - prev.time ≤ timeRange then some (0, prev.payload)
              else some (-1, damaged) := by
  obtain ⟨context, hrun, hring⟩ := Ring.initialised.run calls
  rw [List.nil_append] at hring
  refine ⟨context, hrun, ?_, ⟨hring.tag1, hring.version, hring.tag2⟩,
    fun k p hk hp => hring.slot_latest hk hp, fun payload timeRange now hfresh =>
    ⟨hring.get_latest hlast payload hfresh, fun damaged prev hcrc hprev =>
      hring.get_damaged hlast hprev payload damaged hfresh hcrc⟩⟩
  have hmax : cacheBufMax = 15 := rfl
  have hlt := mod_cacheBufMax_lt (puts calls).length
  rw [hring.index, BitVec.toNat_ofNat, Nat.mod_eq_of_lt (by omega)]

/-- A payload that is zero but for its last byte. -/
def lastByte (b : Byte) : AgvInfo := (Vector.replicate 2463 0).push b

theorem crc32_lastByte_ne {x y : Byte} (h : x ≠ y) :
    crc32 (lastByte x).toList ≠ crc32 (lastByte y).toList := by
  rw [lastByte, lastByte, Vector.toList_push, Vector.toList_push]
  exact crc32_ne_of_byte _ [] h

/-- Two calls in the seconds 7 and 8 around a second constructor run, read in second 9: the
second payload, and the first one once the second is damaged. -/
theorem ring_history_two :
    ∃ context, AgvBuf.initialised.run
        [.put ⟨lastByte 1, 7⟩, .construct, .put ⟨lastByte 2, 8⟩] = some context ∧
      context.get (lastByte 0) 2 9 = some (0, lastByte 2) ∧
      ∃ context', context.update 2 (fun w => { w with agvInfo := lastByte 3 }) = some context' ∧
        context'.get (lastByte 0) 2 9 = some (0, lastByte 1) := by
  obtain ⟨context, hrun, -, -, -, hget⟩ :=
    ring_history [.put ⟨lastByte 1, 7⟩, .construct, .put ⟨lastByte 2, 8⟩] ⟨lastByte 2, 8⟩ rfl
  obtain ⟨hfresh, hdamaged⟩ := hget (lastByte 0) 2 9 (by decide)
  exact ⟨context, hrun, hfresh, hdamaged (lastByte 3) ⟨lastByte 1, 7⟩
    (crc32_lastByte_ne (by decide)) rfl⟩

end BazelPro.Tmp
