import BazelPro.Tmp.Acceptance
import BazelPro.Tmp.Remainder

/-!
# Bursts

Two messages of one length with the same checksum differ by a multiple of the generator, which no
burst of at most 32 bits is. A slot whose payload was changed by such a burst is therefore not
intact, and `Get` does not accept it.
-/

namespace BazelPro.Tmp

open C Polynomial ShiftRegister

theorem messageBits_cons (b : Byte) (data : List Byte) :
    messageBits (b :: data) = (List.range 8).map b.getLsbD ++ messageBits data := rfl

theorem messageBits_injective : Function.Injective messageBits := by
  intro data
  induction data with
  | nil =>
      intro data' h
      cases data' with
      | nil => rfl
      | cons b data' => cases h
  | cons b data ih =>
      intro data' h
      cases data' with
      | nil => cases h
      | cons b' data' =>
          rw [messageBits_cons, messageBits_cons] at h
          obtain ⟨hbyte, hrest⟩ := List.append_inj h (by simp)
          rw [List.map_inj_left] at hbyte
          have hb : b = b' := BitVec.eq_of_getLsbD_eq fun i hi => hbyte i (List.mem_range.mpr hi)
          rw [hb, ih hrest]

theorem length_messageBits (data : List Byte) : (messageBits data).length = 8 * data.length := by
  induction data with
  | nil => rfl
  | cons b data ih =>
      rw [messageBits_cons, List.length_append, ih, List.length_map, List.length_range,
        List.length_cons]
      omega

variable {data data' : List Byte}

/-- Messages with the same checksum differ by a multiple of the generator. -/
theorem dvd_of_crc32_eq (hlen : data.length = data'.length) (h : crc32 data = crc32 data') :
    generator crcTaps ∣
      (ofBits (messageBits data) + ofBits (messageBits data')) * X ^ 32 := by
  obtain ⟨q, hq⟩ := reverse_foldl_crcByte data 0xffffffff
  obtain ⟨q', hq'⟩ := reverse_foldl_crcByte data' 0xffffffff
  rw [BitVec.not_inj.mp h, hq', ← hlen] at hq
  refine ⟨q + q', ?_⟩
  linear_combination hq +
    (ofBits (messageBits data) * X ^ 32 - generator crcTaps * q') * two_eq_zero

theorem crc32_ne_of_burst (hlen : data.length = data'.length) (hne : data ≠ data')
    (h : Burst 32 (messageBits data) (messageBits data')) : crc32 data ≠ crc32 data' := by
  intro hcrc
  have hbits : (messageBits data).length = (messageBits data').length := by
    rw [length_messageBits, length_messageBits, hlen]
  exact hne (messageBits_injective
    (h.eq_of_dvd (by decide) (by decide) hbits (dvd_of_crc32_eq hlen hcrc)))

/-- The slot is as the `Put` left it, but its payload was changed since, within 32 consecutive
bits. -/
structure AgvWrapper.ChangedWithin (w : AgvWrapper) (p : Put) : Prop where
  timestamp : w.timestamp = p.wrapper.timestamp
  crc32 : w.crc32 = p.wrapper.crc32
  changed : w.agvInfo ≠ p.payload
  burst : Burst 32 (messageBits p.payload.toList) (messageBits w.agvInfo.toList)

theorem AgvWrapper.ChangedWithin.not_intact {w : AgvWrapper} {p : Put} (h : w.ChangedWithin p) :
    ¬ w.Intact := by
  intro hintact
  refine crc32_ne_of_burst (by simp) (fun heq => ?_) h.burst (h.crc32.symm.trans hintact.symm)
  exact h.changed (Vector.toList_inj.mp heq).symm

/-- The checksum tells two messages apart that differ by a burst of at most 32 bits. In the
segment, `Get` does not accept a slot that was changed by one since it was stored: if it is the
published slot, all that remains is the second attempt, and on such a slot that one fails. -/
theorem burst_detected :
    (∀ data data' : List Byte, data.length = data'.length → data ≠ data' →
      Burst 32 (messageBits data) (messageBits data') → crc32 data ≠ crc32 data') ∧
    ∀ (context : AgvBuf) (payload : AgvInfo) (timeRange readTime : BitVec 32)
      (w r : AgvWrapper) (p : Put), context.index.toNat < cacheBufMax →
      context.wrapper[context.index.toNat]? = some w →
      context.wrapper[predecessor context.index.toNat]? = some r →
      (w.ChangedWithin p → context.get payload timeRange readTime = some (
        if w.Fresh timeRange readTime then AgvBuf.retry r w.agvInfo timeRange readTime
        else (-1, payload))) ∧
      (r.ChangedWithin p → (AgvBuf.retry r w.agvInfo timeRange readTime).1 = -1) := by
  refine ⟨fun data data' => crc32_ne_of_burst, ?_⟩
  intro context payload timeRange readTime w r p hlt hw hr
  constructor
  · intro hchanged
    rw [AgvBuf.get_eq hlt hw hr, if_neg hchanged.not_intact]
  · intro hchanged
    rw [AgvBuf.retry, if_neg hchanged.not_intact]
    split <;> rfl

/-- A burst across two byte boundaries. -/
theorem burst_detected_across :
    crc32 [1, 2, 0x80, 3, 4, 5] ≠ crc32 [1, 2, 0, 0xff, 0, 4] := by
  have hbits : ∀ i < 48, (messageBits [1, 2, 0x80, 3, 4, 5])[i]? ≠
      (messageBits [1, 2, 0, 0xff, 0, 4])[i]? → 23 ≤ i ∧ i < 23 + 32 := by decide
  refine burst_detected.1 _ _ rfl (by decide) ⟨23, fun i hi => ?_⟩
  by_cases hlt : i < 48
  · exact hbits i hlt hi
  · exact absurd (by rw [List.getElem?_eq_none, List.getElem?_eq_none] <;>
      simp only [length_messageBits, List.length_cons, List.length_nil] <;> omega) hi

end BazelPro.Tmp
