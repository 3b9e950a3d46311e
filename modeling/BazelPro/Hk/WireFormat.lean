import BazelPro.Hk.MsgGen

/-!
# Reading the wire format

The header fields of an encoded message read back in network order, from a buffer that the
message was stored into or from the bytes of a datagram (`view`). `generator_wire_format`
puts this together with `Generator.produces`: whatever an earlier message left in the send
buffer, the bytes a generator declares as sent are those of its own message.
-/

namespace BazelPro.Hk

open C CType

/-- The bytes of a datagram, addressed by offset. -/
def view (bytes : List Byte) : Mem := storeAt (fun _ => 0) 0 bytes

/-- A 16-bit field that was stored swapped reads back in network order. -/
theorem be16_storeAt (buffer : Mem) (bs cs : List Byte) (x : BitVec 16) :
    be16 (storeAt buffer 0 (bs ++ bytes16 (bswap16 x) ++ cs)) bs.length = x := by
  have hbytes : bytes16 (bswap16 x) = [x.extractLsb' 8 8, x.extractLsb' 0 8] :=
    bytes16_bswap16 x
  have hhi : storeAt buffer 0 (bs ++ bytes16 (bswap16 x) ++ cs) bs.length =
      x.extractLsb' 8 8 := by
    have := storeAt_inside buffer 0 (bs ++ bytes16 (bswap16 x) ++ cs) bs.length (by simp)
    simpa [hbytes] using this
  have hlo : storeAt buffer 0 (bs ++ bytes16 (bswap16 x) ++ cs) (bs.length + 1) =
      x.extractLsb' 0 8 := by
    have := storeAt_inside buffer 0 (bs ++ bytes16 (bswap16 x) ++ cs) (bs.length + 1)
      (by simp; omega)
    simpa [hbytes, List.getElem_append] using this
  rw [be16, hhi, hlo]
  exact BitVec.extractLsb'_append_extractLsb'_eq_extractLsb' (by decide) |>.trans (by simp)

namespace Message

variable (msg : Message) (buffer : Mem)

/-- The magic is at offset 0. -/
theorem load_magic : load (storeAt buffer 0 msg.encode) 0 4 = [0x44, 0x42, 0x48, 0x4b] := by
  have := load_storeAt_sub buffer 0 msg.encode 0 4 (by simp; omega)
  simpa [encode, headerBytes] using this

/-- The order is at offset 4. -/
theorem load_order : load (storeAt buffer 0 msg.encode) 4 4 = bytes32 msg.order := by
  have := load_storeAt_sub buffer 0 msg.encode 4 4 (by simp; omega)
  simpa [encode, headerBytes, bytes32] using this

/-- The type is at offset 8. -/
theorem be16_type : be16 (storeAt buffer 0 msg.encode) 8 = msg.type.code := by
  have := be16_storeAt buffer ([0x44, 0x42, 0x48, 0x4b] ++ bytes32 msg.order)
    (bytes16 (bswap16 (BitVec.ofNat 16 (16 + msg.body.length))) ++
      [chr '0', chr '0', chr '0', chr '0'] ++ msg.body) msg.type.code
  simpa [encode, headerBytes] using this

/-- The declared length is at offset 10. -/
theorem be16_length :
    be16 (storeAt buffer 0 msg.encode) 10 = BitVec.ofNat 16 (16 + msg.body.length) := by
  have := be16_storeAt buffer
    ([0x44, 0x42, 0x48, 0x4b] ++ bytes32 msg.order ++ bytes16 (bswap16 msg.type.code))
    ([chr '0', chr '0', chr '0', chr '0'] ++ msg.body)
    (BitVec.ofNat 16 (16 + msg.body.length))
  simpa [encode, headerBytes] using this

end Message

/-- Sending the first `len` bytes after a generator ran sends exactly its message. -/
theorem Produces.load_eq {gen : Mem → Mem × Nat} {msg : Message} (h : Produces gen msg)
    (buffer : Mem) : load (gen buffer).1 0 (gen buffer).2 = msg.encode := by
  rw [h buffer]
  exact load_storeAt buffer 0 msg.encode

namespace Generator

/-- The type of the message that a generator is for. -/
def type : Generator → GsMsgType
  | .registerResp => .registerRsp
  | .doorInfo => .doorConfigReq
  | .robotStatusResp => .robotStatusRsp
  | .applyCleanAreaResp _ => .applyCleanAreaRsp
  | .trpCtrlReq => .trpCtrlReq
  | .applyForDoorResp .. => .applyForDoorRsp
  | .applyTrafficResResp .. => .applyTrafficResRsp
  | .applyOffineResp _ => .applyOfflineRsp
  | .applyPlanResp _ => .applyPlanRsp
  | .interruptCtrlReq => .interruptCtrlReq
  | .pathPlanReq => .pathPlanReq

theorem type_message (g : Generator) (flip : BitVec 32) : (g.message flip).type = g.type := by
  cases g <;> rfl

/-- No message comes near the 1024 bytes of the send buffer. -/
theorem bodySize_le (g : Generator) : 16 + g.bodySize ≤ 56 := by
  cases g <;> simp [bodySize]

end Generator

/-- Every generator call, for every value of its arguments and of `flip`: the returned value
is 16 plus the size of the body structures and equals the length field it wrote; magic and
type are in place; the bytes below the returned length are the same for every previous
content of the send buffer, and the bytes from there on are left as they were. -/
theorem generator_wire_format (g : Generator) (flip : BitVec 32) :
    ∃ bytes : List Byte, ∀ buffer : Mem,
      (g.run flip buffer).2 = 16 + g.bodySize ∧
      (be16 (g.run flip buffer).1 10).toNat = (g.run flip buffer).2 ∧
      load (g.run flip buffer).1 0 4 = [0x44, 0x42, 0x48, 0x4b] ∧
      be16 (g.run flip buffer).1 8 = g.type.code ∧
      load (g.run flip buffer).1 0 (g.run flip buffer).2 = bytes ∧
      ∀ i, (g.run flip buffer).2 ≤ i → (g.run flip buffer).1 i = buffer i := by
  refine ⟨(g.message flip).encode, fun buffer => ?_⟩
  have hload := (g.produces flip).load_eq buffer
  have hsize := g.bodySize_le
  rw [g.produces flip buffer] at hload ⊢
  have hlen : (g.message flip).encode.length = 16 + g.bodySize := by
    rw [Message.length_encode, g.length_body flip]
  refine ⟨hlen, ?_, Message.load_magic _ _, ?_, hload, ?_⟩
  · rw [Message.be16_length, ← Message.length_encode, BitVec.toNat_ofNat,
      Nat.mod_eq_of_lt (by omega)]
  · rw [Message.be16_type, g.type_message]
  · intro i hi
    exact storeAt_outside buffer 0 _ i (Or.inr (by simpa using hi))

end BazelPro.Hk
