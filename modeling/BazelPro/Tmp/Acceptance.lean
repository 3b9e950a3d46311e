import BazelPro.Tmp.Interleaving
import Mathlib.Logic.Relation

/-!
# What Get accepts

`Get` on a segment with any content. A slot is accepted when it is fresh and intact; the slot
before it is tried only when the published one is fresh but not intact (`AgvBuf.get_eq`). A call
of the load-by-load model that nothing interrupts computes the same (`Reader.leads_get`).
-/

namespace BazelPro.Tmp

open C Relation

/-- The slot is at most `timeRange` seconds old. -/
abbrev AgvWrapper.Fresh (w : AgvWrapper) (timeRange readTime : BitVec 32) : Prop :=
  readTime - w.timestamp ≤ timeRange

/-- The payload has the checksum that is stored with it. -/
abbrev AgvWrapper.Intact (w : AgvWrapper) : Prop := Tmp.crc32 w.agvInfo.toList = w.crc32

/-- The cyclic predecessor of a slot. -/
def predecessor (i : Nat) : Nat := (i + (cacheBufMax - 1)) % cacheBufMax

theorem predecessor_lt (i : Nat) : predecessor i < cacheBufMax := mod_cacheBufMax_lt _

theorem retryIndex_eq {i : Nat} (hi : i < cacheBufMax) : AgvBuf.retryIndex i = predecessor i := by
  have hpred : predecessor i = (i + 14) % 15 := rfl
  have hmax : cacheBufMax = 15 := rfl
  rw [AgvBuf.retryIndex, hpred]
  split <;> omega

namespace AgvBuf

variable {context : AgvBuf} {timeRange readTime : BitVec 32}

/-- The second attempt of `Get`, on the slot `r`, with `payload` from the first one. -/
def retry (r : AgvWrapper) (payload : AgvInfo) (timeRange readTime : BitVec 32) : Int × AgvInfo :=
  if r.Fresh timeRange readTime then
    if r.Intact then (0, r.agvInfo) else (-1, r.agvInfo)
  else (-1, payload)

theorem toInt_of_lt (h : context.index.toNat < 2 ^ 31) :
    context.index.toInt = context.index.toNat :=
  BitVec.toInt_eq_toNat_of_lt (by omega)

theorem get_of_ge (hindex : context.index.toNat < 2 ^ 31) (h : cacheBufMax ≤ context.index.toNat)
    (payload : AgvInfo) : context.get payload timeRange readTime = some (-1, payload) := by
  rw [get, toInt_of_lt hindex, if_pos (by omega)]

/-- All exits of `Get` behind the check of the index. -/
theorem get_eq {w r : AgvWrapper} (h : context.index.toNat < cacheBufMax)
    (hw : context.wrapper[context.index.toNat]? = some w)
    (hr : context.wrapper[predecessor context.index.toNat]? = some r) (payload : AgvInfo) :
    context.get payload timeRange readTime = some (
      if w.Fresh timeRange readTime then
        if w.Intact then (0, w.agvInfo) else retry r w.agvInfo timeRange readTime
      else (-1, payload)) := by
  have hmax : cacheBufMax = 15 := rfl
  rw [get, toInt_of_lt (by omega), if_neg (by omega), slot_natCast, hw, retryIndex_eq h,
    slot_natCast, hr]
  simp only [Option.bind_eq_bind, Option.bind_some, retry, gt_iff_lt, ← BitVec.not_le, ite_not,
    apply_ite some]
  rfl

end AgvBuf

/-! ## Load by load -/

namespace Reader

variable {context : AgvBuf} {timeRange now : BitVec 32} {r : Reader} {retry : Bool}
variable {w : AgvWrapper}

/-- The loads of a call that nothing interrupts, and that sees one second on the clock. -/
def Leads (context : AgvBuf) (timeRange now : BitVec 32) : Reader → Reader → Prop :=
  ReflTransGen fun r r' => r.step context timeRange now = some r'

/-- The rest of the copying loop. -/
theorem leads_copy (hload : context.slot (r.slotIndex retry) = some w) {j : Nat}
    (hpoint : r.point = .copy retry j) (hj : j ≤ agvInfoSize)
    (hcopied : ∀ i < j, r.payload[i]? = w.agvInfo[i]?) :
    Leads context timeRange now r { r with point := .compare retry, payload := w.agvInfo } := by
  induction hn : agvInfoSize - j generalizing j r with
  | zero =>
      have hpayload : r.payload = w.agvInfo := eq_of_copied (by omega) hcopied
      refine .single ?_
      rw [step, hpoint]
      simp only [dif_neg (show ¬ j < agvInfoSize by omega), ← hpayload]
  | succ n ih =>
      have hlt : j < agvInfoSize := by omega
      have hrest := ih (r := { r with
        point := .copy retry (j + 1)
        payload := r.payload.set j w.agvInfo[j] }) hload rfl (by omega)
        (copied_set hlt hcopied) (by omega)
      refine .head ?_ hrest
      rw [step, hpoint]
      simp only [dif_pos hlt]
      exact congrArg (Option.bind · _) hload

variable (timeRange now) in
/-- One attempt on a slot. -/
theorem leads_attempt (hload : context.slot (r.slotIndex retry) = some w)
    (hpoint : r.point = .check retry) :
    if w.Fresh timeRange r.readTime then
      Leads context timeRange now r { r with
        point := if w.Intact then .done retry 0 else if retry then .done true (-1) else .check true
        payload := w.agvInfo }
    else Leads context timeRange now r { r with point := .done retry (-1) } := by
  have hcheck : r.step context timeRange now = some { r with
      point := if r.readTime - w.timestamp > timeRange then .late retry else .copy retry 0 } := by
    rw [step, hpoint]
    exact congrArg (Option.bind · _) hload
  split
  · next hfresh =>
    rw [if_neg (BitVec.not_lt.mpr hfresh)] at hcheck
    refine .head hcheck ?_
    · refine .tail (leads_copy (r := { r with point := .copy retry 0 }) hload rfl
        (Nat.zero_le _) (fun i hi => absurd hi (Nat.not_lt_zero i))) ?_
      exact congrArg (Option.bind · _) hload
  · next hfresh =>
    rw [if_pos (BitVec.not_le.mp hfresh)] at hcheck
    refine .head hcheck (.single ?_)
    exact congrArg (Option.bind · _) hload

/-- The beginning of a call, up to the first look at the age of the slot. -/
theorem leads_check (h : context.index.toNat < cacheBufMax)
    (hload : context.slot context.index.toNat = some w) (payload : AgvInfo) :
    Leads context timeRange now (init payload)
      ⟨.check false, context.index.toNat, now, payload⟩ := by
  have hmax : cacheBufMax = 15 := rfl
  have htrace : (Reader.mk .trace context.index.toNat now payload).step context timeRange now =
      some ⟨.check false, context.index.toNat, now, payload⟩ :=
    congrArg (Option.bind · _) hload
  refine .head ?_ (.head (b := ⟨.trace, context.index.toNat, now, payload⟩)
    (rfl : (Reader.mk .clock context.index.toNat 0 payload).step _ _ _ = _) (.single htrace))
  simp only [step, init, AgvBuf.toInt_of_lt (show context.index.toNat < 2 ^ 31 by omega)]
  rw [if_neg (by omega)]

variable (timeRange now) in
/-- A call that nothing interrupts computes `AgvBuf.get`. -/
theorem leads_get (hindex : context.index.toNat < 2 ^ 31) (payload : AgvInfo) :
    ∃ r retry ret, Leads context timeRange now (init payload) r ∧ r.point = .done retry ret ∧
      context.get payload timeRange now = some (ret, r.payload) := by
  by_cases hlt : context.index.toNat < cacheBufMax
  · obtain ⟨w, hw⟩ := context.exists_slot hlt
    obtain ⟨v, hv⟩ := context.exists_slot (predecessor_lt context.index.toNat)
    rw [AgvBuf.get_eq hlt hw hv]
    have hload : context.slot context.index.toNat = some w := by
      rw [AgvBuf.slot_natCast, hw]
    have hcheck : Leads context timeRange now _ _ := leads_check hlt hload payload
    have hretry : context.slot (AgvBuf.retryIndex context.index.toNat) = some v := by
      rw [retryIndex_eq hlt, AgvBuf.slot_natCast, hv]
    have hfirst := leads_attempt timeRange now
      (r := ⟨.check false, context.index.toNat, now, payload⟩) hload rfl
    by_cases hfresh : w.Fresh timeRange now
    · rw [if_pos hfresh] at hfirst ⊢
      by_cases hcrc : w.Intact
      · rw [if_pos hcrc] at hfirst ⊢
        exact ⟨_, _, _, hcheck.trans hfirst, rfl, rfl⟩
      · rw [if_neg hcrc] at hfirst ⊢
        have hsecond := leads_attempt timeRange now
          (r := ⟨.check true, context.index.toNat, now, w.agvInfo⟩) hretry rfl
        by_cases hfresh' : v.Fresh timeRange now
        · rw [if_pos hfresh'] at hsecond
          refine ⟨_, true, if v.Intact then 0 else -1, (hcheck.trans hfirst).trans hsecond, ?_, ?_⟩
          · exact (apply_ite (Point.done true) _ _ _).symm
          · rw [AgvBuf.retry, if_pos hfresh']
            split <;> rfl
        · rw [if_neg hfresh'] at hsecond
          refine ⟨_, _, _, (hcheck.trans hfirst).trans hsecond, rfl, ?_⟩
          rw [AgvBuf.retry, if_neg hfresh']
    · rw [if_neg hfresh] at hfirst ⊢
      exact ⟨_, _, _, hcheck.trans hfirst, rfl, rfl⟩
  · have hge : cacheBufMax ≤ context.index.toNat := Nat.le_of_not_lt hlt
    refine ⟨⟨.done false (-1), context.index.toNat, 0, payload⟩, false, -1, .single ?_, rfl,
      AgvBuf.get_of_ge hindex hge payload⟩
    simp only [step, init, AgvBuf.toInt_of_lt hindex]
    rw [if_pos (by omega)]

end Reader

namespace State

variable {timeRange now : BitVec 32} {s s' : State}

/-- A load of `Get` leaves the segment as it is. -/
theorem shared_of_read (h : s.step timeRange (.read now) = some s') : s'.shared = s.shared := by
  obtain ⟨reader, -, hs'⟩ := Option.bind_eq_some_iff.mp h
  split at hs' <;> cases hs' <;> rfl

theorem exists_read {r : Reader} (h : s.reader.step s.shared.context timeRange now = some r) :
    ∃ s', s.step timeRange (.read now) = some s' ∧ s'.reader = r := by
  by_cases hstart : s.reader.point = .start
  · exact ⟨_, Option.bind_eq_some_iff.mpr ⟨r, h, if_pos hstart⟩, rfl⟩
  · exact ⟨_, Option.bind_eq_some_iff.mpr ⟨r, h, if_neg hstart⟩, rfl⟩

/-- A call that nothing interrupts, in the model with a writer. -/
theorem run_leads {r : Reader}
    (h : Reader.Leads s.shared.context timeRange now s.reader r) :
    ∃ n s', s.run timeRange (List.replicate n (.read now)) = some s' ∧ s'.reader = r ∧
      s'.shared = s.shared := by
  induction h with
  | refl => exact ⟨0, s, rfl, rfl, rfl⟩
  | tail _ hstep ih =>
      obtain ⟨n, t, hrun, rfl, hshared⟩ := ih
      rw [← hshared] at hstep
      obtain ⟨s', hs', hreader⟩ := exists_read hstep
      refine ⟨n + 1, s', ?_, hreader, (shared_of_read hs').trans hshared⟩
      rw [List.replicate_succ']
      exact PartialRun.append hrun (Option.bind_eq_some_iff.mpr ⟨s', hs', rfl⟩)

end State

/-! ## The law -/

/-- `payload` is that of a fresh and intact slot: the published one, or the one before it if the
published one is fresh but not intact. -/
def Accepted (context : AgvBuf) (timeRange readTime : BitVec 32) (payload : AgvInfo) : Prop :=
  context.index.toNat < cacheBufMax ∧ ∃ i w, context.wrapper[i]? = some w ∧
    payload = w.agvInfo ∧ w.Fresh timeRange readTime ∧ crc32 payload.toList = w.crc32 ∧
    (i = context.index.toNat ∨ i = predecessor context.index.toNat ∧
      ∃ v, context.wrapper[context.index.toNat]? = some v ∧ v.Fresh timeRange readTime ∧
        ¬ v.Intact)

/-- There is no published slot, or it is stale, or it and the one before it are of no use. -/
def Rejected (context : AgvBuf) (timeRange readTime : BitVec 32) : Prop :=
  cacheBufMax ≤ context.index.toNat ∨
    ∃ w r, context.wrapper[context.index.toNat]? = some w ∧
      context.wrapper[predecessor context.index.toNat]? = some r ∧
      (¬ w.Fresh timeRange readTime ∨
        ¬ w.Intact ∧ (¬ r.Fresh timeRange readTime ∨ ¬ r.Intact))

/-- The return value and the payload of `Get`. -/
theorem accepted_or_rejected {context : AgvBuf} {payload out : AgvInfo} {ret : Int}
    {timeRange readTime : BitVec 32} (hindex : context.index.toNat < 2 ^ 31)
    (hget : context.get payload timeRange readTime = some (ret, out)) :
    ret = 0 ∧ Accepted context timeRange readTime out ∨
      ret = -1 ∧ Rejected context timeRange readTime := by
  by_cases hlt : context.index.toNat < cacheBufMax
  · obtain ⟨w, hw⟩ := context.exists_slot hlt
    obtain ⟨r, hr⟩ := context.exists_slot (predecessor_lt context.index.toNat)
    rw [AgvBuf.get_eq hlt hw hr, Option.some.injEq] at hget
    by_cases hfresh : w.Fresh timeRange readTime
    · rw [if_pos hfresh] at hget
      by_cases hcrc : w.Intact
      · rw [if_pos hcrc] at hget
        cases hget
        exact Or.inl ⟨rfl, hlt, _, w, hw, rfl, hfresh, hcrc, Or.inl rfl⟩
      · rw [if_neg hcrc, AgvBuf.retry] at hget
        split_ifs at hget with hfresh' hcrc'
        · cases hget
          exact Or.inl ⟨rfl, hlt, _, r, hr, rfl, hfresh', hcrc',
            Or.inr ⟨rfl, w, hw, hfresh, hcrc⟩⟩
        · cases hget
          exact Or.inr ⟨rfl, Or.inr ⟨w, r, hw, hr, Or.inr ⟨hcrc, Or.inr hcrc'⟩⟩⟩
        · cases hget
          exact Or.inr ⟨rfl, Or.inr ⟨w, r, hw, hr, Or.inr ⟨hcrc, Or.inl hfresh'⟩⟩⟩
    · rw [if_neg hfresh] at hget
      cases hget
      exact Or.inr ⟨rfl, Or.inr ⟨w, r, hw, hr, Or.inl hfresh⟩⟩
  · have hge : cacheBufMax ≤ context.index.toNat := Nat.le_of_not_lt hlt
    rw [AgvBuf.get_of_ge hindex hge] at hget
    cases hget
    exact Or.inr ⟨rfl, Or.inl hge⟩

/-- `Get`, for every content of the segment with an index below `2^31`: what its return value
says, and that executed load by load it leaves the segment as it was. -/
theorem get_law (context : AgvBuf) (hindex : context.index.toNat < 2 ^ 31) (payload : AgvInfo)
    (timeRange readTime : BitVec 32) :
    ∃ ret out, context.get payload timeRange readTime = some (ret, out) ∧
      (ret = 0 ∧ Accepted context timeRange readTime out ∨
        ret = -1 ∧ Rejected context timeRange readTime) ∧
      ∀ s : State, s.shared.context = context → s.reader = Reader.init payload →
        ∃ n s' retry, s.run timeRange (List.replicate n (.read readTime)) = some s' ∧
          s'.reader.point = .done retry ret ∧ s'.reader.payload = out ∧ s'.shared = s.shared := by
  obtain ⟨r, retry, ret, hleads, hdone, hget⟩ := Reader.leads_get timeRange readTime hindex payload
  refine ⟨ret, r.payload, hget, accepted_or_rejected hindex hget, fun s hs hreader => ?_⟩
  subst hs
  rw [← hreader] at hleads
  obtain ⟨n, s', hrun, hs', hshared⟩ := State.run_leads hleads
  exact ⟨n, s', retry, hrun, hs' ▸ hdone, hs' ▸ rfl, hshared⟩

/-- The published slot has a payload that is not that of its checksum; the one before it is as `Put`
has left it. -/
def damaged : AgvBuf :=
  ({ AgvBuf.initialised with index := 1 }.withSlot 1 ⟨8, crc32 (lastByte 1).toList, lastByte 2⟩)
    |>.withSlot 0 (Put.wrapper ⟨lastByte 1, 7⟩)

theorem wrapper_damaged : damaged.wrapper[1]? = some ⟨8, crc32 (lastByte 1).toList, lastByte 2⟩ ∧
    damaged.wrapper[0]? = some (Put.wrapper ⟨lastByte 1, 7⟩) := by
  constructor
  · rw [damaged, AgvBuf.wrapper_withSlot_ne _ (by decide),
      AgvBuf.wrapper_withSlot_self _ (by decide)]
  · rw [damaged, AgvBuf.wrapper_withSlot_self _ (by decide)]

/-- There `Get` accepts the payload of the slot before. -/
theorem get_law_damaged : damaged.get (lastByte 0) 1 8 = some (0, lastByte 1) := by
  obtain ⟨hpublished, hbefore⟩ := wrapper_damaged
  have hcrc : ¬ (AgvWrapper.mk 8 (crc32 (lastByte 1).toList) (lastByte 2)).Intact :=
    crc32_lastByte_ne (by decide)
  obtain ⟨ret, out, hget, ⟨rfl, -, i, w, hw, hout, -, hintact, hcase⟩ | ⟨rfl, hrejected⟩, -⟩ :=
    get_law damaged (by decide) (lastByte 0) 1 8
  · obtain rfl | ⟨rfl, -⟩ := hcase
    · -- the published slot is not intact
      cases hpublished.symm.trans hw
      rw [hout] at hintact
      exact absurd hintact hcrc
    · cases hbefore.symm.trans hw
      rw [hget, hout]
      rfl
  · obtain hindex | ⟨w, r, hw, hr, hstale⟩ := hrejected
    · exact absurd hindex (by decide)
    · cases hpublished.symm.trans hw
      cases hbefore.symm.trans hr
      obtain hfresh | ⟨-, hfresh | hcrc'⟩ := hstale
      · exact absurd (by decide) hfresh
      · exact absurd (by decide) hfresh
      · exact absurd rfl hcrc'

end BazelPro.Tmp
