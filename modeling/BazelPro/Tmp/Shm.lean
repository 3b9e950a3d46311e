import BazelPro.C.Layout
import BazelPro.Tmp.Crc32
import Mathlib.Data.Int.Basic

/-!
# The shared segment

After `Hk_Shm` in `src/tmp/tmp.h` and `src/tmp/tmp.cc`: the segment, the constructor, `Put` and
`Get`. The payload is its bytes. A slot is addressed by an `int`; an access outside the array is
undefined and makes the operation `none`. The clock is an argument, in seconds.
-/

namespace BazelPro.Tmp

open C CType

/-- `agv_buf_max`. -/
def agvBufMax : Nat := 15

/-- `cache_buf_max`. -/
abbrev cacheBufMax : Nat := 15

theorem mod_cacheBufMax_lt (n : Nat) : n % cacheBufMax < cacheBufMax := Nat.mod_lt n (by decide)

/-- `agv_path_s`. -/
def agvPathS : CType := .struct [int32_t, int32_t]

/-- `trp_lock_s`. -/
def trpLockS : CType := .struct [int32_t, int32_t, int32_t, int32_t, int32_t, int32_t]

/-- `agv_msg_s`. -/
def agvMsgS : CType :=
  .struct [int32_t, int32_t, int32_t, int32_t, int32_t, trpLockS, .array 15 agvPathS]

/-- `agv_info_s`. -/
def agvInfoS : CType := .struct [int32_t, .array agvBufMax agvMsgS]

/-- `sizeof(agv_info_s)`, which fits the `uint16_t` that `crc32` takes. -/
abbrev agvInfoSize : Nat := 2464

theorem sizeof_agv_info : sizeof agvInfoS = agvInfoSize := by decide

/-- The bytes of an `agv_info_s`. -/
abbrev AgvInfo := Vector Byte agvInfoSize

/-- `agv_wrapper_s`. -/
structure AgvWrapper where
  timestamp : BitVec 32
  crc32 : BitVec 32
  agvInfo : AgvInfo

/-- `agv_buf_s`: the members of the helper, and the slots. -/
structure AgvBuf where
  tag1 : BitVec 32
  version : BitVec 32
  tag2 : BitVec 32
  index : BitVec 32
  wrapper : Vector AgvWrapper cacheBufMax

namespace AgvBuf

/-- The segment after `memset(&context, 0, sizeof(agv_buf_s))`. -/
def cleared : AgvBuf where
  tag1 := 0
  version := 0
  tag2 := 0
  index := 0
  wrapper := Vector.replicate cacheBufMax ⟨0, 0, Vector.replicate agvInfoSize 0⟩

/-- The constructor, on the mapped segment. -/
def construct (context : AgvBuf) : AgvBuf :=
  if context.tag1 ≠ 0x5A5A5A5A ∨ context.tag2 ≠ 0xA5A5A5A5 ∨ context.version ≠ 1 then
    { cleared with tag1 := 0x5A5A5A5A, tag2 := 0xA5A5A5A5, version := 1 }
  else context

/-- `context.agvs.wrapper[index]`. -/
def slot (context : AgvBuf) (index : Int) : Option AgvWrapper :=
  if 0 ≤ index then context.wrapper[index.toNat]? else none

/-- A store to `context.agvs.wrapper[index]`. -/
def update (context : AgvBuf) (index : Int) (f : AgvWrapper → AgvWrapper) : Option AgvBuf :=
  (context.slot index).map fun w =>
    { context with wrapper := context.wrapper.setIfInBounds index.toNat (f w) }

/-- The index that `Put` stores to: `int index = helper.index + 1; index %= cache_buf_max`. -/
def nextIndex (context : AgvBuf) : Int := (context.index + 1).toInt.tmod cacheBufMax

/-- `Put`, in the second `time`. -/
def put (context : AgvBuf) (agvMsg : AgvInfo) (time : BitVec 32) : Option AgvBuf := do
  let crc := crc32 agvMsg.toList
  let index := context.nextIndex
  let context ← context.update index fun w => { w with timestamp := time }
  let context ← context.update index fun w => { w with crc32 := crc }
  let context ← context.update index fun w => { w with agvInfo := agvMsg }
  pure { context with index := BitVec.ofInt 32 index }

/-- The slot that `Get` falls back to. -/
def retryIndex (index : Int) : Int := if index = 0 then cacheBufMax - 1 else index - 1

/-- `Get`, in the second `readTime`: the return value, and what is in `payload` then. -/
def get (context : AgvBuf) (payload : AgvInfo) (timeRange readTime : BitVec 32) :
    Option (Int × AgvInfo) :=
  let index := context.index.toInt
  if index ≥ cacheBufMax then some (-1, payload)
  else do
    let w ← context.slot index
    if readTime - w.timestamp > timeRange then pure (-1, payload)
    else if crc32 w.agvInfo.toList = w.crc32 then pure (0, w.agvInfo)
    else do
      let r ← context.slot (retryIndex index)
      if readTime - r.timestamp > timeRange then pure (-1, w.agvInfo)
      else if crc32 r.agvInfo.toList = r.crc32 then pure (0, r.agvInfo)
      else pure (-1, r.agvInfo)

end AgvBuf

end BazelPro.Tmp
