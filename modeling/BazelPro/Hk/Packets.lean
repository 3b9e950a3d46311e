import BazelPro.C.Members
import BazelPro.Hk.Identifiers

/-!
# Packets

The HK server as its peer sees it, which reads a message by the structures of `msg_type.h`: the
header, and the members of the structure that the type calls for (`Packet`). `Packet.exchange` says
in terms of members what is sent in a run, and the server refines it (`packets_exchanged`): a peer
that looks at the magic and at the length accepts all that it is sent.
-/

namespace BazelPro.Hk

open C CType Packed

/-! ## Reading a message -/

/-- The structure behind the header. The server has three doors. -/
def GsMsgType.body : GsMsgType → CType
  | .registerReq => registerReqS
  | .registerRsp | .applyPlanRsp => commonRespS
  | .applyCleanAreaReq => cleanAreaS
  | .applyCleanAreaRsp => applyCleanRespS
  | .robotStatusReq => robotStatusInfoS
  | .robotStatusRsp => robotStatusInfoRespS
  | .trpCtrlReq => trpCtrlReqS
  | .applyForDoorReq => applyDoorReqS
  | .applyForDoorRsp => applyDoorRespS
  | .applyTrafficResReq => applyTrafficResReqS
  | .applyTrafficResRsp => applyTrafficResRespS
  | .doorConfigReq => .struct [uint16_t, int16_t, .array 3 doorInfoS]
  | .applyOfflineReq => applyOfflineReqS
  | .applyOfflineRsp => applyOfflineRespS
  | .interruptCtrlReq => interruptCmdS
  | .applyPlanReq => planReqS
  | .pathPlanReq => pathPlanReqS
  -- the server neither reads nor sends these
  | .trpCtrlRsp | .doorConfigRsp | .pathUploadReq | .pathUploadRsp | .interruptCtrlRsp
  | .pathPlanRsp | .unknown => .struct []

/-- The enumerators that are message types. -/
def GsMsgType.all : List GsMsgType :=
  [.registerReq, .registerRsp, .applyCleanAreaReq, .applyCleanAreaRsp, .robotStatusReq,
    .robotStatusRsp, .trpCtrlReq, .trpCtrlRsp, .applyForDoorReq, .applyForDoorRsp,
    .applyTrafficResReq, .applyTrafficResRsp, .doorConfigReq, .doorConfigRsp, .applyOfflineReq,
    .applyOfflineRsp, .pathUploadReq, .pathUploadRsp, .interruptCtrlReq, .interruptCtrlRsp,
    .applyPlanReq, .applyPlanRsp, .pathPlanReq, .pathPlanRsp]

/-- The type with this number. -/
def GsMsgType.ofCode (code : Nat) : GsMsgType :=
  (all.find? fun t => t.code.toNat = code).getD .unknown

/-- What a message says: its type, its order, and the members of its body. Negative numbers count
modulo `2 ^ 16` and `2 ^ 32`. -/
structure Packet where
  type : GsMsgType
  order : Nat
  members : List Nat
  deriving DecidableEq

namespace Packet

/-- What some bytes say, if they are a message. -/
def ofBytes (bytes : List Byte) : Packet :=
  let header := hkHeaderS.read (view bytes) 0
  let type := GsMsgType.ofCode (header.getD 5 0)
  ⟨type, header.getD 4 0, type.body.read (view bytes) (sizeof hkHeaderS)⟩

/-- What some bytes say, with a look at `DBHK` and at the length. -/
def parse (bytes : List Byte) : Option Packet :=
  let header := hkHeaderS.read (view bytes) 0
  let p := ofBytes bytes
  if header.take 4 = [0x44, 0x42, 0x48, 0x4b] ∧ header.getD 6 0 = bytes.length ∧
      bytes.length = sizeof hkHeaderS + sizeof p.type.body then some p
  else none

/-! ## The exchange -/

/-- A member of the body. -/
def member (p : Packet) (i : Nat) : Nat := p.members.getD i 0

/-- What is sent in reply to a message. -/
def answers (doorsSent : Bool) (p : Packet) : List Packet :=
  match p.type with
  | .registerReq => [⟨.registerRsp, 1, [200, 6001, 0, 0]⟩]
  | .robotStatusReq =>
      -- `need_plan`
      ⟨.robotStatusRsp, 1, [200, 6001, 0, 0]⟩ ::
        ((if p.member 4 ≠ 0 then [⟨.trpCtrlReq, 1, [6001, 1, 11, 22, 33, 100, 1201]⟩] else []) ++
          (if doorsSent then [] else [⟨.doorConfigReq, 1, [6001, 3, 1, 1, 1, 2, 2, 2, 3, 3, 3]⟩]))
  | .applyCleanAreaReq => [⟨.applyCleanAreaRsp, 1, [200, 6001, p.member 2]⟩]
  | .applyForDoorReq =>
      [⟨.applyForDoorRsp, p.order, [6001, 200, p.member 2, p.member 3, p.member 4, 1]⟩]
  | .applyTrafficResReq => [⟨.applyTrafficResRsp, p.order, [200, 6001, p.member 2, 0]⟩]
  | .applyOfflineReq => [⟨.applyOfflineRsp, p.order, [200, 6001, 0, 0]⟩]
  | .applyPlanReq =>
      -- `ctrl_type`
      ⟨.applyPlanRsp, p.order, [200, 6001, 0, 0]⟩ ::
        (if p.member 6 = 1 then
          [⟨.pathPlanReq, 1, [6001, 2, 11111, 22222, 33, 1, 33333, 44444, 1201]⟩]
        else [])
  | _ => []

/-- The command behind the message number `n`. -/
def command (n : Nat) : List Packet :=
  if n % 3 = 0 then [⟨.interruptCtrlReq, 1, [6001, n / 3 % 3]⟩] else []

/-- What is sent in reply to some messages, behind `n` others. -/
def exchange (n : Nat) (doorsSent : Bool) : List Packet → List (List Packet)
  | [] => []
  | p :: ps =>
      (p.answers doorsSent ++ command (n + 1)) ::
        exchange (n + 1) (doorsSent || p.type = .robotStatusReq) ps

end Packet

/-! ## The types -/

theorem GsMsgType.ofCode_code (t : GsMsgType) : GsMsgType.ofCode t.code.toNat = t := by
  cases t <;> rfl

/-- A number that has a type is its number. -/
theorem GsMsgType.eq_code {code : Nat} {t : GsMsgType} (h : GsMsgType.ofCode code = t)
    (ht : t ≠ .unknown) : code = t.code.toNat := by
  cases hfind : all.find? fun t => t.code.toNat = code with
  | none =>
      rw [ofCode, hfind] at h
      exact absurd h.symm ht
  | some t' =>
      have hcode := List.find?_some hfind
      rw [ofCode, hfind] at h
      obtain rfl : t' = t := h
      exact (of_decide_eq_true hcode).symm

/-! ## What is sent -/

/-- A number that is copied in network order. -/
theorem bytes16_eq_bytes (x : BitVec 16) : bytes16 (bswap16 x) = bytes 2 x.toNat := by
  rw [bytes16_bswap16, reverse_bytes16]

theorem bytes32_eq_bytes (x : BitVec 32) : bytes32 (bswap32 x) = bytes 4 x.toNat := by
  rw [bytes32_bswap32, reverse_bytes32]

/-- A word that is copied as it came. -/
theorem bytes32_eq_bytes_bswap32 (x : BitVec 32) : bytes32 x = bytes 4 (bswap32 x).toNat := by
  rw [← bytes32_eq_bytes, bswap32_bswap32]

/-- The members of a header, with their sizes. -/
def headerFields (order : BitVec 32) (type : GsMsgType) (length : Nat) : List (Nat × Nat) :=
  [(1, 0x44), (1, 0x42), (1, 0x48), (1, 0x4b), (4, (bswap32 order).toNat), (2, type.code.toNat),
    (2, length), (1, 48), (1, 48), (1, 48), (1, 48)]

theorem headerBytes_eq_pack (order : BitVec 32) (type : GsMsgType) {length : Nat}
    (h : length < 2 ^ 16) :
    headerBytes order type length = pack (headerFields order type length) := by
  have hlength : (BitVec.ofNat 16 length).toNat = length := by
    rw [BitVec.toNat_ofNat, Nat.mod_eq_of_lt h]
  rw [headerBytes, bytes32_eq_bytes_bswap32, bytes16_eq_bytes, bytes16_eq_bytes, hlength]
  simp [headerFields, bytes, chr]

/-- The structures have no padding. -/
theorem GsMsgType.gapless (t : GsMsgType) :
    Gapless (sizeof hkHeaderS) (t.body.scalars (sizeof hkHeaderS)) := by
  cases t <;> decide

/-- The body of the register, status, plan and offline responses. -/
def resultFields : List (Nat × Nat) := [(4, 200), (2, 6001), (1, 0), (1, 0)]

theorem resultBody_eq_pack : resultBody = pack resultFields := by decide

namespace Generator

/-- The members of the body, with their sizes. -/
def fields : Generator → BitVec 32 → List (Nat × Nat)
  | .registerResp, _ | .robotStatusResp, _ | .applyOffineResp _, _ | .applyPlanResp _, _ =>
      resultFields
  | .doorInfo, _ =>
      [(2, 6001), (2, 3), (4, 1), (4, 1), (4, 1), (4, 2), (4, 2), (4, 2), (4, 3), (4, 3), (4, 3)]
  | .applyCleanAreaResp areaId, _ => [(2, 200), (2, 6001), (4, areaId.toNat)]
  | .trpCtrlReq, _ => [(2, 6001), (2, 1), (4, 11), (4, 22), (2, 33), (2, 100), (4, 1201)]
  | .applyForDoorResp nDoorId nX nY _, _ =>
      [(2, 6001), (2, 200), (4, (bswap32 nDoorId).toNat), (4, (bswap32 nX).toNat),
        (4, (bswap32 nY).toNat), (4, 1)]
  | .applyTrafficResResp _ nAreaId, _ =>
      [(2, 200), (2, 6001), (4, (bswap32 nAreaId).toNat), (4, 0)]
  | .interruptCtrlReq, flip => [(2, 6001), (2, (((flip + 1).srem 3).setWidth 16).toNat)]
  | .pathPlanReq, _ =>
      [(2, 6001), (2, 2), (4, 11111), (4, 22222), (2, 33), (2, 1), (4, 33333), (4, 44444),
        (4, 1201)]

/-- What the call sends. -/
def packet (g : Generator) (flip : BitVec 32) : Packet :=
  ⟨g.type, (bswap32 (g.message flip).order).toNat, (g.fields flip).map Prod.snd⟩

/-- A call that numbers its message itself. -/
theorem packet_own {g : Generator} {flip : BitVec 32} (h : (g.message flip).order = bswap32 1) :
    g.packet flip = ⟨g.type, 1, (g.fields flip).map Prod.snd⟩ := by
  rw [packet, h, bswap32_bswap32]
  rfl

/-- The sizes are those of the structure. -/
theorem map_fst_fields (g : Generator) (flip : BitVec 32) :
    (g.type.body.scalars (sizeof hkHeaderS)).map Prod.snd = (g.fields flip).map Prod.fst := by
  cases g <;> rfl

theorem fields_fit (g : Generator) (flip : BitVec 32) :
    ∀ f ∈ g.fields flip, f.2 < 256 ^ f.1 := by
  have hword : ∀ x : BitVec 32, x.toNat < 256 ^ 4 := fun x => x.isLt
  have hhalf : ∀ x : BitVec 16, x.toNat < 256 ^ 2 := fun x => x.isLt
  cases g <;> simp only [fields, resultFields, List.forall_mem_cons, hword, hhalf, true_and] <;>
    decide

/-- A generator copies the members of its structure one behind the other. -/
theorem body_eq_pack (g : Generator) (flip : BitVec 32) :
    (g.message flip).body = pack (g.fields flip) := by
  have hzero : bswap32 0#32 = 0 := by decide
  cases g <;> simp [message, fields, resultBody_eq_pack, bytes16_eq_bytes,
    bytes32_eq_bytes_bswap32, bswap32_bswap32, hzero]

/-- A peer that looks at everything accepts what is sent. -/
theorem parse_encode (g : Generator) (flip : BitVec 32) :
    Packet.parse (g.message flip).encode = some (g.packet flip) := by
  have hlength : (g.message flip).body.length = sizeof g.type.body := by
    rw [g.length_body]
    cases g <;> rfl
  have hsize := g.bodySize_le
  rw [← g.length_body flip] at hsize
  have hencode : (g.message flip).encode = pack (headerFields (g.message flip).order g.type
      (16 + (g.message flip).body.length)) ++ pack (g.fields flip) := by
    rw [Message.encode, headerBytes_eq_pack _ _ (by omega), g.type_message, ← g.body_eq_pack]
  have hahead : (pack (headerFields (g.message flip).order g.type
      (16 + (g.message flip).body.length))).length = sizeof hkHeaderS := by
    rw [length_pack]
    rfl
  have hheader : hkHeaderS.read (view (g.message flip).encode) 0 =
      (headerFields (g.message flip).order g.type (16 + (g.message flip).body.length)).map
        Prod.snd := by
    refine read_pack (by decide) rfl ?_ ?_
    · have hword : (bswap32 (g.message flip).order).toNat < 256 ^ 4 := BitVec.isLt _
      have hhalf : g.type.code.toNat < 256 ^ 2 := BitVec.isLt _
      have hfits : 16 + (g.message flip).body.length < 256 ^ 2 := by omega
      simp only [headerFields, List.forall_mem_cons, hword, hhalf, hfits, true_and]
      decide
    · rw [hencode, view, load_storeAt_sub _ 0 _ 0 _ (by simp)]
      simp
  have hbody : g.type.body.read (view (g.message flip).encode) (sizeof hkHeaderS) =
      (g.fields flip).map Prod.snd := by
    refine read_pack g.type.gapless (g.map_fst_fields flip) (g.fields_fit flip) ?_
    have hload := load_storeAt_sub (fun _ => 0) 0 (g.message flip).encode (sizeof hkHeaderS)
      (pack (g.fields flip)).length (by rw [hencode, List.length_append, hahead])
    rwa [Nat.zero_add, hencode, List.drop_left' hahead, List.take_length, ← hencode] at hload
  have hpacket : Packet.ofBytes (g.message flip).encode = g.packet flip := by
    rw [Packet.ofBytes, hheader]
    show Packet.mk (GsMsgType.ofCode g.type.code.toNat) _
      ((GsMsgType.ofCode g.type.code.toNat).body.read _ _) = _
    rw [GsMsgType.ofCode_code, hbody]
    rfl
  rw [Packet.parse, hpacket, hheader]
  refine if_pos ⟨rfl, (Message.length_encode _).symm, ?_⟩
  rw [Message.length_encode, hlength, sizeof_hk_header]
  rfl

end Generator

/-! ## What is received -/

section Received

theorem scalars_hkHeaderS : hkHeaderS.scalars 0 = [(0, 1), (1, 1), (2, 1), (3, 1), (4, 4), (8, 2),
    (10, 2), (12, 1), (13, 1), (14, 1), (15, 1)] := rfl

variable (bytes : List Byte)

theorem Packet.type_ofBytes :
    (Packet.ofBytes bytes).type = GsMsgType.ofCode (typeOf (view bytes)).toNat := by
  simp [Packet.ofBytes, CType.read, scalars_hkHeaderS, number_load_two]

theorem Packet.order_ofBytes :
    (Packet.ofBytes bytes).order = (bswap32 (word32 (view bytes) 4)).toNat := by
  simp [Packet.ofBytes, CType.read, scalars_hkHeaderS, number_load_four, bswap32_word32]

variable {bytes}

/-- A message of this type. -/
theorem Packet.type_eq {t : GsMsgType} (h : typeOf (view bytes) = t.code) :
    (Packet.ofBytes bytes).type = t := by
  rw [Packet.type_ofBytes, h, GsMsgType.ofCode_code]

/-- A member, at its offset. -/
theorem Packet.member_eq {t : GsMsgType} (h : typeOf (view bytes) = t.code) {i off size : Nat}
    (hat : (t.body.scalars (sizeof hkHeaderS))[i]? = some (off, size)) :
    (Packet.ofBytes bytes).member i = number (load (view bytes) off size) := by
  have hmembers : (Packet.ofBytes bytes).members =
      (Packet.ofBytes bytes).type.body.read (view bytes) (sizeof hkHeaderS) := rfl
  rw [Packet.member, hmembers, Packet.type_eq h, CType.read, List.getD_eq_getElem?_getD,
    List.getElem?_map, hat, Option.map_some, Option.getD_some]

/-- A word of the body. -/
theorem Packet.word_eq {t : GsMsgType} (h : typeOf (view bytes) = t.code) {i off : Nat}
    (hat : (t.body.scalars (sizeof hkHeaderS))[i]? = some (off, 4)) :
    (bswap32 (word32 (view bytes) off)).toNat = (Packet.ofBytes bytes).member i := by
  rw [Packet.member_eq h hat, bswap32_word32, number_load_four]

/-- `need_plan` of a robot status request. -/
theorem Packet.needPlan_eq (h : typeOf (view bytes) = GsMsgType.robotStatusReq.code) :
    needPlanOf (view bytes) ≠ 0 ↔ (Packet.ofBytes bytes).member 4 ≠ 0 := by
  have hat : (GsMsgType.robotStatusReq.body.scalars (sizeof hkHeaderS))[4]? = some (22, 1) := rfl
  rw [Packet.member_eq h hat, number_load_one, ne_eq, ne_eq, BitVec.toNat_eq]
  rfl

/-- `ctrl_type` of a plan request. -/
theorem Packet.ctrlType_eq (h : typeOf (view bytes) = GsMsgType.applyPlanReq.code) :
    ctrlTypeOf (view bytes) = 1 ↔ (Packet.ofBytes bytes).member 6 = 1 := by
  have hat : (GsMsgType.applyPlanReq.body.scalars (sizeof hkHeaderS))[6]? = some (34, 2) := rfl
  rw [Packet.member_eq h hat, number_load_two, BitVec.toNat_eq]
  rfl

/-- No answer to any other type. -/
theorem Packet.answers_eq_nil {p : Packet} {code : BitVec 16}
    (h : p.type = GsMsgType.ofCode code.toNat) (hcode : code ∉ handledTypes) (doorsSent : Bool) :
    p.answers doorsSent = [] := by
  have hnot : ∀ t : GsMsgType, t ≠ .unknown → t.code ∈ handledTypes → p.type ≠ t := by
    rintro t ht hmem heq
    have := GsMsgType.eq_code (h.symm.trans heq) ht
    exact hcode (BitVec.eq_of_toNat_eq this ▸ hmem)
  unfold Packet.answers
  split
  case h_8 => rfl
  all_goals
    next htype => exact absurd htype (hnot _ nofun (by decide))

/-- The server answers what the members say. -/
theorem map_packet_answers (doorsSent : Bool) (flip : BitVec 32) :
    (answers (view bytes) doorsSent).map (fun g => g.packet flip) =
      (Packet.ofBytes bytes).answers doorsSent := by
  have horder := Packet.order_ofBytes bytes
  rw [answers]
  split
  · next h =>
    simp only [Packet.answers, Packet.type_eq h]
    exact congrArg (fun p => [p]) (Generator.packet_own rfl)
  split
  · next h =>
    have hresp : Generator.robotStatusResp.packet flip = ⟨.robotStatusRsp, 1, [200, 6001, 0, 0]⟩ :=
      Generator.packet_own rfl
    have htrp : Generator.trpCtrlReq.packet flip =
        ⟨.trpCtrlReq, 1, [6001, 1, 11, 22, 33, 100, 1201]⟩ := Generator.packet_own rfl
    have hdoor : Generator.doorInfo.packet flip =
        ⟨.doorConfigReq, 1, [6001, 3, 1, 1, 1, 2, 2, 2, 3, 3, 3]⟩ := Generator.packet_own rfl
    simp only [Packet.answers, Packet.type_eq h, Packet.needPlan_eq h]
    split <;> split <;>
      simp only [List.map_cons, List.map_nil, List.append_nil, List.cons_append, List.nil_append,
        hresp, htrp, hdoor]
  split
  · next h =>
    simp only [Packet.answers, Packet.type_eq h, ← Packet.word_eq h (i := 2) rfl]
    exact congrArg (fun p => [p]) (Generator.packet_own rfl)
  split
  · next h =>
    simp only [Packet.answers, Packet.type_eq h, horder, ← Packet.word_eq h (i := 2) rfl,
      ← Packet.word_eq h (i := 3) rfl, ← Packet.word_eq h (i := 4) rfl]
    rfl
  split
  · next h =>
    simp only [Packet.answers, Packet.type_eq h, horder, ← Packet.word_eq h (i := 2) rfl]
    rfl
  split
  · next h =>
    simp only [Packet.answers, Packet.type_eq h, horder]
    rfl
  split
  · next h =>
    have hresp : (Generator.applyPlanResp (word32 (view bytes) 4)).packet flip =
        ⟨.applyPlanRsp, (bswap32 (word32 (view bytes) 4)).toNat, [200, 6001, 0, 0]⟩ := rfl
    have hpath : Generator.pathPlanReq.packet flip =
        ⟨.pathPlanReq, 1, [6001, 2, 11111, 22222, 33, 1, 33333, 44444, 1201]⟩ :=
      Generator.packet_own rfl
    simp only [Packet.answers, Packet.type_eq h, horder, Packet.ctrlType_eq h]
    split <;> simp only [List.map_cons, List.map_nil, hresp, hpath]
  · next h₁ h₂ h₃ h₄ h₅ h₆ h₇ =>
    refine (Packet.answers_eq_nil (Packet.type_ofBytes bytes) ?_ doorsSent).symm
    simp [handledTypes, h₁, h₂, h₃, h₄, h₅, h₆, h₇]

end Received

/-! ## Runs -/

section Runs

variable {ds : List Datagram} {s : Server} {d : Datagram}

/-- A peer that looks at everything accepts what one iteration sends. -/
theorem Reached.parses (hs : Reached ds s) (hfull : FullLength d) (hlen : ds.length + 1 < 2 ^ 31) :
    (s.step d).2.map (fun x => Packet.parse x.bytes) =
      ((Packet.ofBytes d.payload).answers s.ifSendDoorInfo ++
        Packet.command (ds.length + 1)).map some := by
  obtain ⟨sendbuffer, hstep⟩ := s.step_spec hfull.ne_nil
  have hdue : interruptDue (s.tick + 1) = decide ((ds.length + 1) % 3 = 0) := by
    rw [hs.succ_tick, interrupt_due_ofNat _ hlen]
  have hparse : ∀ gs : List Generator, (gs.map (s.receive d).sent).map
      (fun x => Packet.parse x.bytes) = (gs.map fun g => g.packet s.flip).map some := by
    intro gs
    rw [List.map_map, List.map_map]
    exact List.map_congr_left fun g _ => g.parse_encode s.flip
  have hcommand : (if interruptDue (s.tick + 1) then [Generator.interruptCtrlReq] else []).map
      (fun g => g.packet s.flip) = Packet.command (ds.length + 1) := by
    rw [hdue, Packet.command]
    by_cases hthird : (ds.length + 1) % 3 = 0
    · have hflip : s.flip + 1 = BitVec.ofNat 32 ((ds.length + 1) / 3) := by
        rw [hs.flip, show (ds.length + 1) / 3 = ds.length / 3 + 1 by omega, ofNat_add_one]
      have hmod : (ds.length + 1) / 3 % 3 < 2 ^ 16 := by omega
      rw [if_pos (decide_eq_true hthird), if_pos hthird, List.map_singleton,
        Generator.packet_own rfl, Generator.fields, hflip, srem_three _ (by omega),
        BitVec.setWidth_ofNat_of_le (by omega), BitVec.toNat_ofNat, Nat.mod_eq_of_lt hmod]
      rfl
    · rw [if_neg (by simpa using hthird), if_neg hthird]
      rfl
  rw [hstep]
  show ((s.outputs d).map (s.receive d).sent).map (fun x => Packet.parse x.bytes) = _
  rw [hparse, Server.outputs, List.map_append, s.answers_received d hfull, map_packet_answers,
    hcommand]

/-- Whether the doors have been sent. -/
theorem Server.ifSendDoorInfo_step {s' : Server} (h : (s.step d).1 = some s')
    (hfull : FullLength d) : s'.ifSendDoorInfo =
      (s.ifSendDoorInfo || decide ((Packet.ofBytes d.payload).type = .robotStatusReq)) := by
  have h10 : 10 ≤ d.payload.length := by
    have := hfull.sixteen_le
    omega
  have hstatus : IsStatus d ↔ (Packet.ofBytes d.payload).type = .robotStatusReq := by
    refine ⟨fun h => Packet.type_eq h, fun h => BitVec.eq_of_toNat_eq ?_⟩
    exact GsMsgType.eq_code ((Packet.type_ofBytes d.payload).symm.trans h) nofun
  obtain ⟨sendbuffer, hstep⟩ := s.step_spec hfull.ne_nil
  rw [hstep] at h
  obtain rfl := Option.some.inj h
  show (s.ifSendDoorInfo || isStatus (s.received d)) = _
  rw [isStatus_received s d h10, decide_eq_decide.mpr hstatus]

/-- What is sent behind some datagrams. -/
theorem Reached.exchanges {earlier : List Datagram} (hs : Reached earlier s)
    (hlen : earlier.length + ds.length < 2 ^ 31) (hfull : ∀ d ∈ ds, FullLength d) :
    (s.run ds).2.map (fun sent => sent.map fun x => Packet.parse x.bytes) =
      (Packet.exchange earlier.length s.ifSendDoorInfo
        (ds.map fun d => Packet.ofBytes d.payload)).map fun sent => sent.map some := by
  induction ds generalizing earlier s with
  | nil => rfl
  | cons d ds ih =>
      rw [List.forall_mem_cons] at hfull
      rw [List.length_cons] at hlen
      obtain ⟨s', hstep, hs'⟩ := hs.step hfull.1 (by omega)
      have hnext := ih hs' (by rw [List.length_append]; simp; omega) hfull.2
      rw [List.length_append, List.length_singleton, Server.ifSendDoorInfo_step hstep hfull.1]
        at hnext
      have hparses := hs.parses hfull.1 (by omega)
      simp only [Server.run, List.map_cons, Packet.exchange]
      rcases hres : s.step d with ⟨_ | t, sent⟩ <;> rw [hres] at hstep hparses
      · cases hstep
      · obtain rfl := Option.some.inj hstep
        simp only [List.map_cons, hparses, hnext]

end Runs

/-- In every run on complete requests: what goes out, datagram by datagram, is accepted by a peer
that looks at the magic, at the length and at the size of the structure, and read by the structures
it is what `Packet.exchange` says of the members of the requests. -/
theorem packets_exchanged (buffer clientAddr : Mem) (ds : List Datagram)
    (hlen : ds.length < 2 ^ 31) (hfull : ∀ d ∈ ds, FullLength d) :
    ((Server.init buffer clientAddr).run ds).2.map
        (fun sent => sent.map fun x => Packet.parse x.bytes) =
      (Packet.exchange 0 false (ds.map fun d => Packet.ofBytes d.payload)).map
        fun sent => sent.map some :=
  (Reached.init buffer clientAddr).exchanges (by simpa using hlen) hfull

/-- A door request and two status requests. -/
theorem packets_exchanged_door :
    ((Server.init (fun _ => 0) (fun _ => 0)).run [doorRequest, statusRequest, statusRequest]).2.map
        (fun sent => sent.map fun x => Packet.parse x.bytes) =
      [[some ⟨.applyForDoorRsp, 7, [6001, 200, 4294967294, 5, 4294897296, 1]⟩],
        [some ⟨.robotStatusRsp, 1, [200, 6001, 0, 0]⟩,
          some ⟨.doorConfigReq, 1, [6001, 3, 1, 1, 1, 2, 2, 2, 3, 3, 3]⟩],
        [some ⟨.robotStatusRsp, 1, [200, 6001, 0, 0]⟩,
          some ⟨.interruptCtrlReq, 1, [6001, 1]⟩]] :=
  (packets_exchanged (fun _ => 0) (fun _ => 0) [doorRequest, statusRequest, statusRequest]
    (by decide) (by decide)).trans (by decide)

end BazelPro.Hk
