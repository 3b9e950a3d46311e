import BazelPro.Hk.Run

/-!
# The identifiers of a response

The clean-area branch decodes the identifier of the request and encodes it again; the door and
traffic branches copy theirs as they came. In both cases the fields of the response, read in
network order at the offsets of its structure, are those of the request
(`identifiers_returned`).
-/

namespace BazelPro.Hk

open C CType

/-! ## Fields in network order -/

/-- `bswap_32` decodes what `memcpy` read from the wire. -/
theorem bswap32_word32 (m : Mem) (off : Nat) : bswap32 (word32 m off) = be32 m off := by
  refine bytes32_injective ?_
  rw [bytes32_bswap32, bytes32_word32, bytes32_be32]

/-- Swapping twice changes nothing, for negative numbers too. -/
theorem bswap32_bswap32 (x : BitVec 32) : bswap32 (bswap32 x) = x := by
  refine bytes32_injective ?_
  rw [bytes32_bswap32, bytes32_bswap32, List.reverse_reverse]

/-! ## The offsets -/

/-- Where the identifiers of a request are: `area_id` of `CLEAN_AREA_S` and of
`APPLY_TRAFFIC_RES_REQ_S`; `door_id`, `point.pos_x` and `point.pos_y` of `APPLY_DOOR_REQ_S`. -/
def requestIds : GsMsgType → List Nat
  | .applyCleanAreaReq => [offsetof cleanAreaS 2]
  | .applyForDoorReq =>
      [offsetof applyDoorReqS 2, offsetof applyDoorReqS 3 + offsetof pointS 0,
        offsetof applyDoorReqS 3 + offsetof pointS 1]
  | .applyTrafficResReq => [offsetof applyTrafficResReqS 2]
  | _ => []

/-- Where they are in the response: `area_id` of `APPLY_CLEAN_RESP_S` and of
`APPLY_TRAFFIC_RES_RESP_S`; `door_id`, `point.pos_x` and `point.pos_y` of `APPLY_DOOR_RESP_S`. -/
def responseIds : GsMsgType → List Nat
  | .applyCleanAreaReq => [offsetof applyCleanRespS 2]
  | .applyForDoorReq =>
      [offsetof applyDoorRespS 2, offsetof applyDoorRespS 3 + offsetof pointS 0,
        offsetof applyDoorRespS 3 + offsetof pointS 1]
  | .applyTrafficResReq => [offsetof applyTrafficResRespS 2]
  | _ => []

/-- The body fields of a message at these offsets, decoded as big-endian numbers. -/
def fields (bytes : List Byte) (offsets : List Nat) : List (BitVec 32) :=
  offsets.map fun off => be32 (view bytes) (sizeof hkHeaderS + off)

/-- The request types that carry identifiers. -/
def identifyingTypes : List GsMsgType := [.applyCleanAreaReq, .applyForDoorReq, .applyTrafficResReq]

/-! ## One iteration -/

/-- A word of the body, read from the bytes of the message. -/
theorem Message.word32_body {msg : Message} (bs cs : List Byte) {x : BitVec 32} {off : Nat}
    (h : msg.body = bs ++ bytes32 x ++ cs) (hoff : off = sizeof hkHeaderS + bs.length) :
    word32 (view msg.encode) off = x := by
  have hencode : msg.encode = (headerBytes msg.order msg.type (16 + msg.body.length) ++ bs) ++
      bytes32 x ++ cs := by
    simp only [encode, h, List.append_assoc]
  have := word32_storeAt (fun _ => 0)
    (headerBytes msg.order msg.type (16 + msg.body.length) ++ bs) cs x
  rwa [← hencode, List.length_append, length_header_bytes, ← sizeof_hk_header, ← hoff] at this

/-- The single answer to such a request carries the identifiers as they came. -/
theorem answers_identifying {type : GsMsgType} (h : type ∈ identifyingTypes) {m : Mem}
    (htype : typeOf m = type.code) (doorInfoSent : Bool) :
    ∃ g, answers m doorInfoSent = [g] ∧ g.type.code = type.code + 1 ∧
      ∀ flip, (responseIds type).map
          (fun off => word32 (view (g.message flip).encode) (sizeof hkHeaderS + off)) =
        (requestIds type).map fun off => word32 m (sizeof hkHeaderS + off) := by
  simp only [identifyingTypes, List.mem_cons, List.not_mem_nil, or_false] at h
  unfold answers
  rcases h with rfl | rfl | rfl <;> rw [htype]
  · -- decoded and encoded again
    refine ⟨.applyCleanAreaResp (bswap32 (word32 m 20)), rfl, rfl, fun flip => ?_⟩
    simp only [responseIds, requestIds, List.map_cons, List.map_nil, Generator.message,
      bswap32_bswap32, List.cons.injEq, and_true]
    exact Message.word32_body (bytes16 (bswap16 200) ++ bytes16 (bswap16 6001)) []
      (List.append_nil _).symm rfl
  · refine ⟨.applyForDoorResp (word32 m 20) (word32 m 24) (word32 m 28) (word32 m 4), rfl, rfl,
      fun flip => ?_⟩
    simp only [responseIds, requestIds, List.map_cons, List.map_nil, Generator.message,
      List.cons.injEq, and_true]
    refine ⟨?_, ?_, ?_⟩
    · exact Message.word32_body (x := word32 m 20)
        (bytes16 (bswap16 6001) ++ bytes16 (bswap16 200))
        (bytes32 (word32 m 24) ++ bytes32 (word32 m 28) ++ bytes32 (bswap32 1))
        (by simp only [List.append_assoc]) rfl
    · exact Message.word32_body (x := word32 m 24)
        (bytes16 (bswap16 6001) ++ bytes16 (bswap16 200) ++ bytes32 (word32 m 20))
        (bytes32 (word32 m 28) ++ bytes32 (bswap32 1)) (by simp only [List.append_assoc]) rfl
    · exact Message.word32_body (bytes16 (bswap16 6001) ++ bytes16 (bswap16 200) ++
        bytes32 (word32 m 20) ++ bytes32 (word32 m 24)) (bytes32 (bswap32 1)) rfl rfl
  · refine ⟨.applyTrafficResResp (word32 m 4) (word32 m 20), rfl, rfl, fun flip => ?_⟩
    simp only [responseIds, requestIds, List.map_cons, List.map_nil, Generator.message,
      List.cons.injEq, and_true]
    exact Message.word32_body (bytes16 (bswap16 200) ++ bytes16 (bswap16 6001)) (bytes32 0) rfl rfl

/-- The response to a complete request of one of these types carries the identifiers of the
request, in every state of the server and for all their values; at most an interrupt command
follows it. -/
theorem identifiers_returned (s : Server) (d : Datagram) (type : GsMsgType)
    (h : type ∈ identifyingTypes) (htype : typeOf (view d.payload) = type.code)
    (hfull : FullLength d) :
    ∃ resp rest, (s.step d).2 = resp :: rest ∧ sentType resp = type.code + 1 ∧
      fields resp.bytes (responseIds type) = fields d.payload (requestIds type) ∧
      ∀ other ∈ rest, sentType other = GsMsgType.interruptCtrlReq.code := by
  obtain ⟨g, hanswers, hg, hwords⟩ := answers_identifying h htype s.ifSendDoorInfo
  obtain ⟨sendbuffer, hstep⟩ := s.step_spec hfull.ne_nil
  have houtputs : (s.step d).2 = (s.receive d).sent g ::
      (if interruptDue (s.tick + 1) then [Generator.interruptCtrlReq] else []).map
        (s.receive d).sent := by
    rw [hstep, Server.outputs, s.answers_received d hfull, hanswers]
    rfl
  refine ⟨_, _, houtputs, (Server.sentType_sent _ g).trans hg, ?_, fun other hother => ?_⟩
  · -- the fields are the same words, so the same numbers
    have hmap := congrArg (List.map bswap32) (hwords (s.receive d).flip)
    simp only [List.map_map, Function.comp_def, bswap32_word32] at hmap
    exact hmap
  · obtain ⟨g', hg', rfl⟩ := List.mem_map.mp hother
    rw [Server.sentType_sent]
    split at hg'
    · rw [List.mem_singleton.mp hg']
      rfl
    · cases hg'

/-- A door request for the door -2 at a point with a negative coordinate. -/
def doorRequest : Datagram :=
  ⟨(Message.mk (bswap32 7) .applyForDoorReq (bytes16 0 ++ bytes16 0 ++ bytes32 (bswap32 (-2)) ++
    bytes32 (bswap32 5) ++ bytes32 (bswap32 (-70000)))).encode, loopback⟩

theorem identifiers_returned_door :
    ∃ resp rest, ((Server.init (fun _ => 0) (fun _ => 0)).step doorRequest).2 = resp :: rest ∧
      fields resp.bytes (responseIds .applyForDoorReq) = [-2, 5, -70000] := by
  obtain ⟨resp, rest, hsent, -, hfields, -⟩ :=
    identifiers_returned (Server.init (fun _ => 0) (fun _ => 0)) doorRequest .applyForDoorReq
      (by decide) (by decide) (by decide)
  exact ⟨resp, rest, hsent, hfields.trans (by decide)⟩

end BazelPro.Hk
