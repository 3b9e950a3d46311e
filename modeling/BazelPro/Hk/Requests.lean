import BazelPro.Hk.Protocol

/-!
# Requests

How much of the receive buffer a request is read from, how long a complete request is, and
that the former is covered by the latter: an iteration on a datagram that is full length for
its type sees the datagram alone. `FullLength` is the length rule of `msg_type.h`.
-/

namespace BazelPro.Hk

open C CType

/-- Size of the body structure of a request of this type. -/
def requestSize (type : BitVec 16) : Nat :=
  if type = GsMsgType.registerReq.code then sizeof registerReqS
  else if type = GsMsgType.robotStatusReq.code then sizeof robotStatusInfoS
  else if type = GsMsgType.applyCleanAreaReq.code then sizeof cleanAreaS
  else if type = GsMsgType.applyForDoorReq.code then sizeof applyDoorReqS
  else if type = GsMsgType.applyTrafficResReq.code then sizeof applyTrafficResReqS
  else if type = GsMsgType.applyOfflineReq.code then sizeof applyOfflineReqS
  else if type = GsMsgType.applyPlanReq.code then sizeof planReqS
  else 0

/-- The datagram holds a header and the body that its type calls for. -/
def FullLength (d : Datagram) : Prop :=
  sizeof hkHeaderS + requestSize (typeOf (view d.payload)) ≤ d.payload.length

instance (d : Datagram) : Decidable (FullLength d) := inferInstanceAs (Decidable (_ ≤ _))

/-- The address 127.0.0.1, port 8987. -/
def loopback : SockaddrIn :=
  ⟨[2, 0, 0x23, 0x1b, 127, 0, 0, 1, 0, 0, 0, 0, 0, 0, 0, 0], rfl, rfl⟩

/-- A robot status request with order 7 and an empty body. -/
def statusRequest : Datagram :=
  ⟨(Message.mk (bswap32 7) .robotStatusReq (List.replicate 28 0)).encode, loopback⟩

example : FullLength statusRequest := by decide

/-- A full-length datagram has at least a header. -/
theorem FullLength.sixteen_le {d : Datagram} (h : FullLength d) : 16 ≤ d.payload.length :=
  (by simp : 16 ≤ sizeof hkHeaderS + requestSize (typeOf (view d.payload))).trans h

theorem FullLength.ne_nil {d : Datagram} (h : FullLength d) : d.payload ≠ [] :=
  List.ne_nil_of_length_pos (by have := h.sixteen_le; omega)

/-- How far the dispatch reads into the receive buffer for a message of this type. -/
def bytesRead (type : BitVec 16) : Nat :=
  if type = GsMsgType.robotStatusReq.code then 23
  else if type = GsMsgType.applyCleanAreaReq.code then 24
  else if type = GsMsgType.applyForDoorReq.code then 32
  else if type = GsMsgType.applyTrafficResReq.code then 24
  else if type = GsMsgType.applyPlanReq.code then 36
  else 10

/-- The type itself is always read. -/
theorem ten_le_bytes_read (type : BitVec 16) : 10 ≤ bytesRead type := by
  unfold bytesRead
  split_ifs <;> omega

/-- No branch reads beyond the request it is for. -/
theorem bytes_read_le (type : BitVec 16) :
    bytesRead type ≤ sizeof hkHeaderS + requestSize type := by
  unfold bytesRead
  split_ifs with hstatus hclean hdoor htraffic hplan
  · rw [hstatus]
    decide
  · rw [hclean]
    decide
  · rw [hdoor]
    decide
  · rw [htraffic]
    decide
  · rw [hplan]
    decide
  · exact (by decide : 10 ≤ sizeof hkHeaderS).trans (Nat.le_add_right _ _)

/-- Two buffers that agree below some offset. -/
def AgreeBelow (n : Nat) (m m' : Mem) : Prop := ∀ i, i < n → m i = m' i

theorem AgreeBelow.mono {n k : Nat} {m m' : Mem} (h : AgreeBelow n m m') (hk : k ≤ n) :
    AgreeBelow k m m' :=
  fun i hi => h i (by omega)

theorem be16_congr {m m' : Mem} {off : Nat} (h : AgreeBelow (off + 2) m m') :
    be16 m off = be16 m' off := by
  rw [be16, be16, h off (by omega), h (off + 1) (by omega)]

theorem word32_congr {m m' : Mem} {off : Nat} (h : AgreeBelow (off + 4) m m') :
    word32 m off = word32 m' off := by
  rw [word32, word32, h off (by omega), h (off + 1) (by omega), h (off + 2) (by omega),
    h (off + 3) (by omega)]

theorem AgreeBelow.type_eq {n : Nat} {m m' : Mem} (h : AgreeBelow n m m') (hn : 10 ≤ n) :
    typeOf m = typeOf m' :=
  be16_congr (h.mono hn)

/-- The answers are a function of the bytes that the branch of the message reads. -/
theorem answers_congr {m m' : Mem} (sent : Bool) (h : AgreeBelow (bytesRead (typeOf m)) m m') :
    answers m sent = answers m' sent := by
  have htype := h.type_eq (ten_le_bytes_read _)
  unfold bytesRead at h
  unfold answers
  rw [← htype]
  split
  · rfl
  split
  · next hstatus =>
    rw [if_pos hstatus] at h
    rw [needPlanOf, needPlanOf, h 22 (by omega)]
  split
  · next hstatus hclean =>
    rw [if_neg hstatus, if_pos hclean] at h
    rw [word32_congr h]
  split
  · next hstatus hclean hdoor =>
    rw [if_neg hstatus, if_neg hclean, if_pos hdoor] at h
    rw [word32_congr (h.mono (by omega) : AgreeBelow (20 + 4) m m'),
      word32_congr (h.mono (by omega) : AgreeBelow (24 + 4) m m'), word32_congr h,
      word32_congr (h.mono (by omega) : AgreeBelow (4 + 4) m m')]
  split
  · next hstatus hclean hdoor htraffic =>
    rw [if_neg hstatus, if_neg hclean, if_neg hdoor, if_pos htraffic] at h
    rw [word32_congr h, word32_congr (h.mono (by omega) : AgreeBelow (4 + 4) m m')]
  split
  · next hstatus hclean hdoor htraffic hoffline =>
    have h8 : AgreeBelow (4 + 4) m m' := h.mono (by split_ifs <;> omega)
    rw [word32_congr h8]
  split
  · next hstatus hclean hdoor htraffic hoffline hplan =>
    rw [if_neg hstatus, if_neg hclean, if_neg hdoor, if_neg htraffic, if_pos hplan] at h
    rw [word32_congr (h.mono (by omega) : AgreeBelow (4 + 4) m m'), ctrlTypeOf, be16_congr h]
  · rfl

namespace Server

variable (s : Server) (d : Datagram)

/-- The received bytes are those of the datagram. -/
theorem received_agree {n : Nat} (hn : n ≤ d.payload.length) (hsize : n ≤ 1024) :
    AgreeBelow n (s.received d) (view d.payload) := by
  intro i hi
  rw [received, view, storeAt_zero, storeAt_zero, List.getElem?_take_of_lt (by omega),
    List.getElem?_eq_getElem (by omega)]
  rfl

/-- The type that the loop reads is the type of the datagram. -/
theorem type_received (h : 10 ≤ d.payload.length) :
    typeOf (s.received d) = typeOf (view d.payload) :=
  (s.received_agree d h (by omega)).type_eq (le_refl _)

/-- A full-length datagram is answered from its own bytes. -/
theorem answers_received (h : FullLength d) (sent : Bool) :
    answers (s.received d) sent = answers (view d.payload) sent := by
  have hread := bytes_read_le (typeOf (view d.payload))
  have hlen : bytesRead (typeOf (view d.payload)) ≤ d.payload.length := le_trans hread h
  have h10 := ten_le_bytes_read (typeOf (view d.payload))
  refine answers_congr sent ?_
  rw [s.type_received d (by omega)]
  refine s.received_agree d hlen ?_
  unfold bytesRead
  split_ifs <;> omega

end Server

end BazelPro.Hk
