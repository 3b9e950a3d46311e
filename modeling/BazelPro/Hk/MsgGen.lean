import BazelPro.Hk.MsgType

/-!
# The message generators

After `src/hk/msg_gen.cpp`. A generator fills the shared send buffer from offset 0: each
`memcpy` goes to `&send_buffer[msg_len]` and `msg_len` is advanced by a literal of its own, so
`Cursor` keeps the two apart. Words are copied in host order, which is little endian.

`Message.encode` is the wire format that the generators are meant to produce, and
`Generator.produces` says that each of them produces exactly one message in that format.
-/

namespace BazelPro.Hk

open C CType

/-! ## Byte swaps -/

/-- `bswap_32`. The argument is a signed `int`, so the right shifts are arithmetic. -/
def bswap32 (le : BitVec 32) : BitVec 32 :=
  (le &&& 0xff) <<< 24 ||| (le &&& 0xff00) <<< 8 ||| (le &&& 0xff0000).sshiftRight 8 |||
    le.sshiftRight 24 &&& 0xff

/-- `bswap_16`. -/
def bswap16 (x : BitVec 16) : BitVec 16 := x >>> 8 ||| x <<< 8

/-- Swapping reverses the object representation, the sign bit included. -/
theorem bytes32_bswap32 (x : BitVec 32) : bytes32 (bswap32 x) = (bytes32 x).reverse := by
  have hmask : (0xff0000#32).msb = false := rfl
  simp only [bytes32, List.reverse_cons, List.reverse_nil, List.nil_append, List.cons_append,
    List.cons.injEq, and_true]
  -- bit by bit: the masks remove the sign bits that the arithmetic shifts bring in
  refine ⟨?_, ?_, ?_, ?_⟩ <;> ext i hi <;> interval_cases i <;>
    simp [bswap32, BitVec.getElem_sshiftRight, hmask]

/-- Swapping reverses the object representation. -/
theorem bytes16_bswap16 (x : BitVec 16) : bytes16 (bswap16 x) = (bytes16 x).reverse := by
  simp only [bytes16, List.reverse_cons, List.reverse_nil, List.nil_append, List.cons_append,
    List.cons.injEq, and_true]
  constructor <;> ext i hi <;> interval_cases i <;> simp [bswap16]

/-- Swapping what a `memcpy` read from the wire gives the field in network order. -/
theorem bswap16_word16 (m : Mem) (off : Nat) : bswap16 (word16 m off) = be16 m off := by
  apply BitVec.eq_of_getLsbD_eq
  intro i hi
  simp only [bswap16, word16, be16, BitVec.getLsbD_or, BitVec.getLsbD_ushiftRight,
    BitVec.getLsbD_shiftLeft, BitVec.getLsbD_append]
  by_cases h : i < 8
  · simp [h]
  · simp [h, hi, show i - 8 < 8 by omega, BitVec.getLsbD_of_ge (m (off + 1)) i (by omega)]

/-! ## Writing into the send buffer -/

/-- `send_buffer` and the write offset `msg_len`. -/
structure Cursor where
  sendBuffer : Mem
  msgLen : Nat

namespace Cursor

/-- `int msg_len = 0;` -/
def start (buffer : Mem) : Cursor := ⟨buffer, 0⟩

/-- `memcpy(&send_buffer[msg_len], bs, bs.length)`. -/
def memcpy (c : Cursor) (bs : List Byte) : Cursor :=
  { c with sendBuffer := storeAt c.sendBuffer c.msgLen bs }

/-- `msg_len += n`. -/
def advance (c : Cursor) (n : Nat) : Cursor := { c with msgLen := c.msgLen + n }

/-- `send_buffer[msg_len++] = b`. -/
def putc (c : Cursor) (b : Byte) : Cursor := (c.memcpy [b]).advance 1

/-- The generator's return value: the buffer it wrote and `msg_len`. -/
def result (c : Cursor) : Mem × Nat := (c.sendBuffer, c.msgLen)

/-- The cursor of a generator that has written `bs` and nothing else. -/
def written (buffer : Mem) (bs : List Byte) : Cursor := ⟨storeAt buffer 0 bs, bs.length⟩

@[simp] theorem start_eq_written (buffer : Mem) : start buffer = written buffer [] := by
  simp [start, written]

/-- Copying at the offset and then advancing by the copied length appends. -/
theorem advance_memcpy (buffer : Mem) (bs cs : List Byte) (n : Nat) (h : cs.length = n) :
    ((written buffer bs).memcpy cs).advance n = written buffer (bs ++ cs) := by
  have hstore := storeAt_append buffer 0 bs cs
  rw [Nat.zero_add] at hstore
  simp [written, memcpy, advance, hstore, h]

@[simp] theorem putc_written (buffer : Mem) (bs : List Byte) (b : Byte) :
    (written buffer bs).putc b = written buffer (bs ++ [b]) :=
  advance_memcpy buffer bs [b] 1 rfl

@[simp] theorem copy16_written (buffer : Mem) (bs : List Byte) (x : BitVec 16) :
    ((written buffer bs).memcpy (bytes16 x)).advance 2 = written buffer (bs ++ bytes16 x) :=
  advance_memcpy buffer bs (bytes16 x) 2 rfl

@[simp] theorem copy32_written (buffer : Mem) (bs : List Byte) (x : BitVec 32) :
    ((written buffer bs).memcpy (bytes32 x)).advance 4 = written buffer (bs ++ bytes32 x) :=
  advance_memcpy buffer bs (bytes32 x) 4 rfl

@[simp] theorem result_written (buffer : Mem) (bs : List Byte) :
    (written buffer bs).result = (storeAt buffer 0 bs, bs.length) := rfl

end Cursor

/-! ## The generators -/

/-- The assignments to `header` that every generator starts with. -/
def hkHeader (type : GsMsgType) (length : Nat) : HkHeader where
  msgOrder := 1
  msgType := type.code
  msgLength := BitVec.ofNat 16 length
  msgVersion := chr '0'
  msgCrypt := chr '0'
  remain := [chr '0', chr '0']

/-- The header part of a generator. `order` is the word it copies to offset 4: the swapped
`header.msg_order`, or the caller's `n_order` as it came from the wire. -/
def writeHeader (c : Cursor) (order : BitVec 32) (header : HkHeader) : Cursor :=
  let c := (((c.putc 0x44).putc 0x42).putc 0x48).putc 0x4b
  let c := (c.memcpy (bytes32 order)).advance 4
  let c := (c.memcpy (bytes16 (bswap16 header.msgType))).advance 2
  let c := (c.memcpy (bytes16 (bswap16 header.msgLength))).advance 2
  let c := (c.putc header.msgVersion).putc header.msgCrypt
  (c.memcpy header.remain).advance 2

/-- The body shared by three of the responses: the result 200, the vehicle 6001 and two
reserved bytes. -/
def writeResult (c : Cursor) : Cursor :=
  let c := (c.memcpy (bytes32 (bswap32 200))).advance 4
  let c := (c.memcpy (bytes16 (bswap16 6001))).advance 2
  (c.memcpy (bytes16 0)).advance 2

/-- `gen_path_plan_req`. -/
def genPathPlanReq (buffer : Mem) : Mem × Nat :=
  let header := hkHeader .pathPlanReq (sizeof hkHeaderS + sizeof pathPlanReqS)
  let c := writeHeader (.start buffer) (bswap32 header.msgOrder) header
  let c := (c.memcpy (bytes16 (bswap16 6001))).advance 2
  let c := (c.memcpy (bytes16 (bswap16 2))).advance 2
  let c := (c.memcpy (bytes32 (bswap32 11111))).advance 4
  let c := (c.memcpy (bytes32 (bswap32 22222))).advance 4
  let c := (c.memcpy (bytes16 (bswap16 33))).advance 2
  let c := (c.memcpy (bytes16 (bswap16 1))).advance 2
  let c := (c.memcpy (bytes32 (bswap32 33333))).advance 4
  let c := (c.memcpy (bytes32 (bswap32 44444))).advance 4
  ((c.memcpy (bytes32 (bswap32 1201))).advance 4).result

/-- `gen_apply_plan_resp`. -/
def genApplyPlanResp (buffer : Mem) (nOrder : BitVec 32) : Mem × Nat :=
  let header := hkHeader .applyPlanRsp (16 + sizeof commonRespS)
  (writeResult (writeHeader (.start buffer) nOrder header)).result

/-- `gen_apply_offine_resp`. -/
def genApplyOffineResp (buffer : Mem) (nOrder : BitVec 32) : Mem × Nat :=
  let header := hkHeader .applyOfflineRsp (16 + sizeof applyOfflineRespS)
  (writeResult (writeHeader (.start buffer) nOrder header)).result

/-- `gen_apply_traffic_res_resp`. -/
def genApplyTrafficResResp (buffer : Mem) (nOrder nAreaId : BitVec 32) : Mem × Nat :=
  let header := hkHeader .applyTrafficResRsp (16 + sizeof applyTrafficResRespS)
  let c := writeHeader (.start buffer) nOrder header
  let c := (c.memcpy (bytes16 (bswap16 200))).advance 2
  let c := (c.memcpy (bytes16 (bswap16 6001))).advance 2
  let c := (c.memcpy (bytes32 nAreaId)).advance 4
  ((c.memcpy (bytes32 0)).advance 4).result

/-- `gen_apply_for_door_resp`. -/
def genApplyForDoorResp (buffer : Mem) (nDoorId nX nY nOrder : BitVec 32) : Mem × Nat :=
  let header := hkHeader .applyForDoorRsp (16 + sizeof applyDoorRespS)
  let c := writeHeader (.start buffer) nOrder header
  let c := (c.memcpy (bytes16 (bswap16 6001))).advance 2
  let c := (c.memcpy (bytes16 (bswap16 200))).advance 2
  let c := (c.memcpy (bytes32 nDoorId)).advance 4
  let c := (c.memcpy (bytes32 nX)).advance 4
  let c := (c.memcpy (bytes32 nY)).advance 4
  ((c.memcpy (bytes32 (bswap32 1))).advance 4).result

/-- `gen_apply_clean_area_resp`. -/
def genApplyCleanAreaResp (buffer : Mem) (areaId : BitVec 32) : Mem × Nat :=
  let header := hkHeader .applyCleanAreaRsp (16 + 8)
  let c := writeHeader (.start buffer) (bswap32 header.msgOrder) header
  let c := (c.memcpy (bytes16 (bswap16 200))).advance 2
  let c := (c.memcpy (bytes16 (bswap16 6001))).advance 2
  ((c.memcpy (bytes32 (bswap32 areaId))).advance 4).result

/-- `gen_trp_ctrl_req`. -/
def genTrpCtrlReq (buffer : Mem) : Mem × Nat :=
  let header := hkHeader .trpCtrlReq (sizeof hkHeaderS + sizeof trpCtrlReqS)
  let c := writeHeader (.start buffer) (bswap32 header.msgOrder) header
  let c := (c.memcpy (bytes16 (bswap16 6001))).advance 2
  let c := (c.memcpy (bytes16 (bswap16 1))).advance 2
  let c := (c.memcpy (bytes32 (bswap32 11))).advance 4
  let c := (c.memcpy (bytes32 (bswap32 22))).advance 4
  let c := (c.memcpy (bytes16 (bswap16 33))).advance 2
  let c := (c.memcpy (bytes16 (bswap16 100))).advance 2
  ((c.memcpy (bytes32 (bswap32 1201))).advance 4).result

/-- `gen_robot_status_resp`. -/
def genRobotStatusResp (buffer : Mem) : Mem × Nat :=
  let header := hkHeader .robotStatusRsp (16 + 8)
  (writeResult (writeHeader (.start buffer) (bswap32 header.msgOrder) header)).result

/-- One `DOOR_INFO_S` of `gen_door_info`. -/
def writeDoor (c : Cursor) (doorId posX posY : BitVec 32) : Cursor :=
  let c := (c.memcpy (bytes32 (bswap32 doorId))).advance 4
  let c := (c.memcpy (bytes32 (bswap32 posX))).advance 4
  (c.memcpy (bytes32 (bswap32 posY))).advance 4

/-- `gen_door_info`. -/
def genDoorInfo (buffer : Mem) : Mem × Nat :=
  let header := hkHeader .doorConfigReq (16 + 4 + sizeof doorInfoS * 3)
  let c := writeHeader (.start buffer) (bswap32 header.msgOrder) header
  let c := (c.memcpy (bytes16 (bswap16 6001))).advance 2
  let c := (c.memcpy (bytes16 (bswap16 3))).advance 2
  (writeDoor (writeDoor (writeDoor c 1 1 1) 2 2 2) 3 3 3).result

/-- `gen_register_resp`. The last copy is not followed by an increment of `msg_len`, and the
function returns a literal. -/
def genRegisterResp (buffer : Mem) : Mem × Nat :=
  let header := hkHeader .registerRsp (16 + 8)
  let c := writeHeader (.start buffer) (bswap32 header.msgOrder) header
  let c := (c.memcpy (bytes32 (bswap32 200))).advance 4
  let c := (c.memcpy (bytes16 (bswap16 6001))).advance 2
  let c := c.memcpy (bytes16 0)
  (c.sendBuffer, 16 + 8)

/-- `gen_interrupt_ctrl_req`, with the static `flip` passed in and returned incremented. -/
def genInterruptCtrlReq (flip : BitVec 32) (buffer : Mem) : (Mem × Nat) × BitVec 32 :=
  let header := hkHeader .interruptCtrlReq (sizeof hkHeaderS + sizeof interruptCmdS)
  let c := writeHeader (.start buffer) (bswap32 header.msgOrder) header
  let flip := flip + 1
  let c := (c.memcpy (bytes16 (bswap16 6001))).advance 2
  let c := (c.memcpy (bytes16 (bswap16 ((flip.srem 3).setWidth 16)))).advance 2
  (c.result, flip)

/-! ## The wire format -/

/-- A message of the protocol. `order` is the word at offset 4 as `memcpy` sees it, so that a
response can carry a request's order without decoding it. -/
structure Message where
  order : BitVec 32
  type : GsMsgType
  body : List Byte

/-- The first 16 bytes of a message: magic, order, type, total length, version and encryption
flags with the reserved characters. -/
def headerBytes (order : BitVec 32) (type : GsMsgType) (length : Nat) : List Byte :=
  [0x44, 0x42, 0x48, 0x4b] ++ bytes32 order ++ bytes16 (bswap16 type.code) ++
    bytes16 (bswap16 (BitVec.ofNat 16 length)) ++ [chr '0', chr '0', chr '0', chr '0']

/-- The bytes of a message. -/
def Message.encode (msg : Message) : List Byte :=
  headerBytes msg.order msg.type (16 + msg.body.length) ++ msg.body

@[simp] theorem length_header_bytes (order : BitVec 32) (type : GsMsgType) (length : Nat) :
    (headerBytes order type length).length = 16 := rfl

@[simp] theorem Message.length_encode (msg : Message) :
    msg.encode.length = 16 + msg.body.length := by
  simp [encode]

/-- The body of the register, status, plan and offline responses. -/
def resultBody : List Byte := bytes32 (bswap32 200) ++ bytes16 (bswap16 6001) ++ bytes16 0

/-- The header part of a generator writes the header bytes. -/
theorem write_header_start (buffer : Mem) (order : BitVec 32) (type : GsMsgType)
    (length : Nat) :
    writeHeader (.start buffer) order (hkHeader type length) =
      .written buffer (headerBytes order type length) := by
  simp [writeHeader, hkHeader, headerBytes, Cursor.advance_memcpy]

/-- A generator that produces `msg`: whatever the buffer held, the message is stored at its
start, its length is returned, and nothing else changes. -/
def Produces (gen : Mem → Mem × Nat) (msg : Message) : Prop :=
  ∀ buffer, gen buffer = (storeAt buffer 0 msg.encode, msg.encode.length)

/-- A call of one of the generators declared in `msg_gen.h`, with its 32-bit arguments. -/
inductive Generator where
  | registerResp
  | doorInfo
  | robotStatusResp
  | applyCleanAreaResp (areaId : BitVec 32)
  | trpCtrlReq
  | applyForDoorResp (nDoorId nX nY nOrder : BitVec 32)
  | applyTrafficResResp (nOrder nAreaId : BitVec 32)
  | applyOffineResp (nOrder : BitVec 32)
  | applyPlanResp (nOrder : BitVec 32)
  | interruptCtrlReq
  | pathPlanReq

namespace Generator

/-- The call's effect on the send buffer and its return value. Only the interrupt generator
looks at the static counter `flip`. -/
def run : Generator → BitVec 32 → Mem → Mem × Nat
  | .registerResp, _, buffer => genRegisterResp buffer
  | .doorInfo, _, buffer => genDoorInfo buffer
  | .robotStatusResp, _, buffer => genRobotStatusResp buffer
  | .applyCleanAreaResp areaId, _, buffer => genApplyCleanAreaResp buffer areaId
  | .trpCtrlReq, _, buffer => genTrpCtrlReq buffer
  | .applyForDoorResp nDoorId nX nY nOrder, _, buffer =>
      genApplyForDoorResp buffer nDoorId nX nY nOrder
  | .applyTrafficResResp nOrder nAreaId, _, buffer => genApplyTrafficResResp buffer nOrder nAreaId
  | .applyOffineResp nOrder, _, buffer => genApplyOffineResp buffer nOrder
  | .applyPlanResp nOrder, _, buffer => genApplyPlanResp buffer nOrder
  | .interruptCtrlReq, flip, buffer => (genInterruptCtrlReq flip buffer).1
  | .pathPlanReq, _, buffer => genPathPlanReq buffer

/-- The message that the call is meant to produce. -/
def message : Generator → BitVec 32 → Message
  | .registerResp, _ => ⟨bswap32 1, .registerRsp, resultBody⟩
  | .doorInfo, _ =>
      ⟨bswap32 1, .doorConfigReq, bytes16 (bswap16 6001) ++ bytes16 (bswap16 3) ++
        bytes32 (bswap32 1) ++ bytes32 (bswap32 1) ++ bytes32 (bswap32 1) ++
        bytes32 (bswap32 2) ++ bytes32 (bswap32 2) ++ bytes32 (bswap32 2) ++
        bytes32 (bswap32 3) ++ bytes32 (bswap32 3) ++ bytes32 (bswap32 3)⟩
  | .robotStatusResp, _ => ⟨bswap32 1, .robotStatusRsp, resultBody⟩
  | .applyCleanAreaResp areaId, _ =>
      ⟨bswap32 1, .applyCleanAreaRsp,
        bytes16 (bswap16 200) ++ bytes16 (bswap16 6001) ++ bytes32 (bswap32 areaId)⟩
  | .trpCtrlReq, _ =>
      ⟨bswap32 1, .trpCtrlReq, bytes16 (bswap16 6001) ++ bytes16 (bswap16 1) ++
        bytes32 (bswap32 11) ++ bytes32 (bswap32 22) ++ bytes16 (bswap16 33) ++
        bytes16 (bswap16 100) ++ bytes32 (bswap32 1201)⟩
  | .applyForDoorResp nDoorId nX nY nOrder, _ =>
      ⟨nOrder, .applyForDoorRsp, bytes16 (bswap16 6001) ++ bytes16 (bswap16 200) ++
        bytes32 nDoorId ++ bytes32 nX ++ bytes32 nY ++ bytes32 (bswap32 1)⟩
  | .applyTrafficResResp nOrder nAreaId, _ =>
      ⟨nOrder, .applyTrafficResRsp, bytes16 (bswap16 200) ++ bytes16 (bswap16 6001) ++
        bytes32 nAreaId ++ bytes32 0⟩
  | .applyOffineResp nOrder, _ => ⟨nOrder, .applyOfflineRsp, resultBody⟩
  | .applyPlanResp nOrder, _ => ⟨nOrder, .applyPlanRsp, resultBody⟩
  | .interruptCtrlReq, flip =>
      ⟨bswap32 1, .interruptCtrlReq,
        bytes16 (bswap16 6001) ++ bytes16 (bswap16 (((flip + 1).srem 3).setWidth 16))⟩
  | .pathPlanReq, _ =>
      ⟨bswap32 1, .pathPlanReq, bytes16 (bswap16 6001) ++ bytes16 (bswap16 2) ++
        bytes32 (bswap32 11111) ++ bytes32 (bswap32 22222) ++ bytes16 (bswap16 33) ++
        bytes16 (bswap16 1) ++ bytes32 (bswap32 33333) ++ bytes32 (bswap32 44444) ++
        bytes32 (bswap32 1201)⟩

/-- The size of the structures in `msg_type.h` that make up the message's body. -/
def bodySize : Generator → Nat
  | .registerResp => sizeof commonRespS
  | .doorInfo => sizeof doorInfoReqS + 3 * sizeof doorInfoS
  | .robotStatusResp => sizeof robotStatusInfoRespS
  | .applyCleanAreaResp _ => sizeof applyCleanRespS
  | .trpCtrlReq => sizeof trpCtrlReqS
  | .applyForDoorResp .. => sizeof applyDoorRespS
  | .applyTrafficResResp .. => sizeof applyTrafficResRespS
  | .applyOffineResp _ => sizeof applyOfflineRespS
  | .applyPlanResp _ => sizeof commonRespS
  | .interruptCtrlReq => sizeof interruptCmdS
  | .pathPlanReq => sizeof pathPlanReqS

/-- Every generator produces its message. -/
theorem produces (g : Generator) (flip : BitVec 32) : Produces (g.run flip) (g.message flip) := by
  intro buffer
  have hdone : ∀ bs, bs = (g.message flip).encode →
      (Cursor.written buffer bs).result =
        (storeAt buffer 0 (g.message flip).encode, (g.message flip).encode.length) := by
    rintro _ rfl
    rfl
  cases g with
  | registerResp =>
      -- the missing increment after the last copy and the literal make up for each other
      have hreserved : ∀ bs, ((Cursor.written buffer bs).memcpy (bytes16 0)).sendBuffer =
          storeAt buffer 0 (bs ++ bytes16 0) :=
        fun bs => congrArg Cursor.sendBuffer (Cursor.copy16_written buffer bs 0)
      simp only [run, genRegisterResp, write_header_start, Cursor.copy16_written,
        Cursor.copy32_written, hreserved]
      simp [message, Message.encode, resultBody, hkHeader]
  | _ =>
      -- all the others advance by what they have copied
      simp only [run, genDoorInfo, genRobotStatusResp, genApplyCleanAreaResp, genTrpCtrlReq,
        genApplyForDoorResp, genApplyTrafficResResp, genApplyOffineResp, genApplyPlanResp,
        genInterruptCtrlReq, genPathPlanReq, writeResult, writeDoor, write_header_start,
        Cursor.copy16_written, Cursor.copy32_written]
      refine hdone _ ?_
      simp [message, Message.encode, resultBody, hkHeader]

/-- The declared body sizes are those of the structures. -/
theorem length_body (g : Generator) (flip : BitVec 32) :
    (g.message flip).body.length = g.bodySize := by
  cases g <;> simp [message, bodySize, resultBody]

end Generator

end BazelPro.Hk
