import BazelPro.Tmp.Acceptance

/-!
# The range of the index

`helper.index` is a `uint32_t` of a segment that others write to, but `Get` compares it and `Put`
reduces it as an `int`. Of all 32-bit values, these are the ones for which both stay within the
array.
-/

namespace BazelPro.Tmp.AgvBuf

variable {context : AgvBuf}

/-- `Get` stays within the array, and turns down an index that is not below `cache_buf_max`. -/
def GetInRange (context : AgvBuf) : Prop :=
  ∀ payload timeRange readTime, ∃ ret out,
    context.get payload timeRange readTime = some (ret, out) ∧
      (cacheBufMax ≤ context.index.toNat → ret = -1)

/-- `Put` stores to a slot of the array, and leaves its number in the index. -/
def PutInRange (context : AgvBuf) : Prop :=
  ∀ agvMsg time, ∃ i < cacheBufMax,
    context.put agvMsg time = some { context.withSlot i ⟨time, crc32 agvMsg.toList, agvMsg⟩ with
      index := BitVec.ofNat 32 i }

theorem slot_of_neg {i : Int} (h : i < 0) : context.slot i = none := if_neg (by omega)

theorem toInt_nonneg_iff {x : BitVec 32} : 0 ≤ x.toInt ↔ x.toNat < 2 ^ 31 := by
  have := x.isLt
  rw [BitVec.toInt_eq_toNat_cond]
  split <;> omega

/-- A large index passes the check as a negative number. -/
theorem get_of_neg (h : context.index.toInt < 0) (payload : AgvInfo)
    (timeRange readTime : BitVec 32) : context.get payload timeRange readTime = none := by
  have hmax : cacheBufMax = 15 := rfl
  rw [get, if_neg (by omega), slot_of_neg h]
  rfl

theorem put_of_neg (h : context.nextIndex < 0) (agvMsg : AgvInfo) (time : BitVec 32) :
    context.put agvMsg time = none := by
  rw [put, update, slot_of_neg h]
  rfl

theorem getInRange_iff : context.GetInRange ↔ context.index.toNat < 2 ^ 31 := by
  constructor
  · intro h
    by_contra hlarge
    obtain ⟨ret, out, hget, -⟩ := h (Vector.replicate agvInfoSize 0) 0 0
    rw [get_of_neg (not_le.mp (mt toInt_nonneg_iff.mp hlarge))] at hget
    cases hget
  · intro hindex payload timeRange readTime
    by_cases hlt : context.index.toNat < cacheBufMax
    · obtain ⟨w, hw⟩ := context.exists_slot hlt
      obtain ⟨r, hr⟩ := context.exists_slot (predecessor_lt context.index.toNat)
      exact ⟨_, _, get_eq hlt hw hr payload, fun hge => absurd hge (Nat.not_le.mpr hlt)⟩
    · exact ⟨_, _, get_of_ge hindex (Nat.le_of_not_lt hlt) payload, fun _ => rfl⟩

/-- A remainder has the sign of the dividend, unless it is zero. -/
theorem tmod_nonneg_iff {a b : Int} : 0 ≤ a.tmod b ↔ 0 ≤ a ∨ b ∣ a := by
  constructor
  · intro h
    by_contra hneg
    obtain ⟨hneg, hdvd⟩ := not_or.mp hneg
    have hopposite := Int.tmod_nonneg (a := -a) b (by omega)
    rw [Int.neg_tmod] at hopposite
    exact hdvd (Int.dvd_iff_tmod_eq_zero.mpr (by omega))
  · rintro (h | h)
    · exact Int.tmod_nonneg b h
    · exact (Int.dvd_iff_tmod_eq_zero.mp h).ge

theorem nextIndex_nonneg_iff :
    0 ≤ context.nextIndex ↔
      (context.index + 1).toNat < 2 ^ 31 ∨ (cacheBufMax : Int) ∣ (context.index + 1).toInt := by
  rw [nextIndex, tmod_nonneg_iff, toInt_nonneg_iff]

theorem putInRange_iff :
    context.PutInRange ↔
      (context.index + 1).toNat < 2 ^ 31 ∨ (cacheBufMax : Int) ∣ (context.index + 1).toInt := by
  rw [← nextIndex_nonneg_iff]
  constructor
  · intro h
    by_contra hneg
    obtain ⟨i, -, hput⟩ := h (Vector.replicate agvInfoSize 0) 0
    rw [put_of_neg (by omega)] at hput
    cases hput
  · intro hnext agvMsg time
    obtain ⟨i, hi⟩ := Int.eq_ofNat_of_zero_le hnext
    have hlt : context.nextIndex < cacheBufMax := Int.tmod_lt_of_pos _ (by decide)
    have hlt : i < cacheBufMax := by omega
    exact ⟨i, hlt, context.put_eq agvMsg time hlt hi⟩

/-- Which values of the index keep the operations within the array: `Get` needs one that is not
negative as an `int`, `Put` also accepts the negative ones in front of a multiple of the size. -/
theorem index_range (context : AgvBuf) :
    (context.GetInRange ∧ context.PutInRange ↔ context.index.toNat + 1 < 2 ^ 31) ∧
    (context.GetInRange ↔ context.index.toNat < 2 ^ 31) ∧
    (context.PutInRange ↔
      (context.index + 1).toNat < 2 ^ 31 ∨ (cacheBufMax : Int) ∣ (context.index + 1).toInt) := by
  refine ⟨?_, getInRange_iff, putInRange_iff⟩
  rw [getInRange_iff, putInRange_iff]
  have hone : (1 : BitVec 32).toNat = 1 := rfl
  constructor
  · intro h
    obtain ⟨hget, hput⟩ := h
    by_contra hlarge
    have hlast : context.index = 0x7fffffff := by
      refine BitVec.eq_of_toNat_eq ?_
      show _ = 2 ^ 31 - 1
      omega
    rw [hlast] at hput
    exact absurd hput (by decide)
  · intro h
    refine ⟨by omega, Or.inl ?_⟩
    rw [BitVec.toNat_add, hone]
    omega

/-- A segment with valid words and an index that is negative as an `int`. -/
def negativeIndex : AgvBuf := { cleared.construct with index := 0x80000000 }

theorem negativeIndex_out_of_range :
    negativeIndex.construct = negativeIndex ∧ ¬ negativeIndex.GetInRange ∧
      ¬ negativeIndex.PutInRange := by
  refine ⟨rfl, mt getInRange_iff.mp (by decide), mt putInRange_iff.mp (by decide)⟩

end BazelPro.Tmp.AgvBuf
