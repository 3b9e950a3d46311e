import BazelPro.Hk.Server
import BazelPro.Hk.WireFormat
import BazelPro.Utils.Hexdump

/-!
# What one iteration does

The abstract view of the HK server: `answers` says which messages an iteration sends, as a
function of the received bytes and of whether the door configuration went out before, and
`step_spec` shows that an iteration of the loop sends exactly these and the interrupt command
that is due, in this order, and changes the counters and flags as `Server.after` says. Every
property of a run is derived from `step_spec` alone.
-/

namespace BazelPro.Hk

open C CType

/-- The field `type` of the received bytes. -/
abbrev typeOf (m : Mem) : BitVec 16 := be16 m 8

/-- `ctrl_type` of a plan request. -/
abbrev ctrlTypeOf (m : Mem) : BitVec 16 := be16 m 34

/-- `need_plan` of a robot status request. -/
abbrev needPlanOf (m : Mem) : Byte := m 22

/-- The received bytes are a robot status request. -/
def isStatus (m : Mem) : Bool := typeOf m = GsMsgType.robotStatusReq.code

/-- What the dispatch sends in reply to the received bytes `m`. -/
def answers (m : Mem) (doorInfoSent : Bool) : List Generator :=
  if typeOf m = GsMsgType.registerReq.code then [.registerResp]
  else if typeOf m = GsMsgType.robotStatusReq.code then
    .robotStatusResp :: ((if needPlanOf m ≠ 0 then [.trpCtrlReq] else []) ++
      (if doorInfoSent then [] else [.doorInfo]))
  else if typeOf m = GsMsgType.applyCleanAreaReq.code then
    [.applyCleanAreaResp (bswap32 (word32 m 20))]
  else if typeOf m = GsMsgType.applyForDoorReq.code then
    [.applyForDoorResp (word32 m 20) (word32 m 24) (word32 m 28) (word32 m 4)]
  else if typeOf m = GsMsgType.applyTrafficResReq.code then
    [.applyTrafficResResp (word32 m 4) (word32 m 20)]
  else if typeOf m = GsMsgType.applyOfflineReq.code then [.applyOffineResp (word32 m 4)]
  else if typeOf m = GsMsgType.applyPlanReq.code then
    .applyPlanResp (word32 m 4) :: (if ctrlTypeOf m = 1 then [.pathPlanReq] else [])
  else []

/-- The request types that the server answers. -/
def handledTypes : List (BitVec 16) :=
  [GsMsgType.registerReq.code, GsMsgType.robotStatusReq.code, GsMsgType.applyCleanAreaReq.code,
    GsMsgType.applyForDoorReq.code, GsMsgType.applyTrafficResReq.code,
    GsMsgType.applyOfflineReq.code, GsMsgType.applyPlanReq.code]

/-- A type that no branch is for is not answered. -/
theorem answers_unhandled (m : Mem) (sent : Bool) (h : typeOf m ∉ handledTypes) :
    answers m sent = [] := by
  simp only [handledTypes, List.mem_cons, List.not_mem_nil, or_false, not_or] at h
  obtain ⟨h1, h2, h3, h4, h5, h6, h7⟩ := h
  rw [answers, if_neg h1, if_neg h2, if_neg h3, if_neg h4, if_neg h5, if_neg h6, if_neg h7]

/-- A handled type is answered, in every state. -/
theorem answers_eq_nil_iff (m : Mem) (sent : Bool) :
    answers m sent = [] ↔ typeOf m ∉ handledTypes := by
  refine ⟨fun h hmem => ?_, answers_unhandled m sent⟩
  simp only [handledTypes, List.mem_cons, List.not_mem_nil, or_false] at hmem
  unfold answers at h
  rcases hmem with hm | hm | hm | hm | hm | hm | hm <;> rw [hm] at h <;> cases h

/-- The interrupt command is due in the iteration with this number. -/
def interruptDue (tick : BitVec 32) : Bool := tick.srem 3 = 0

namespace Server

/-- The datagram that the server sends when it calls `g` now. -/
def sent (s : Server) (g : Generator) : Sent :=
  ⟨(g.message s.flip).encode, load s.clientAddr 0 s.clientLen⟩

/-- A generator call sends its message to the current client address, and changes only the
send buffer. -/
theorem send_spec (s : Server) (g : Generator) :
    ∃ sendbuffer, s.send (g.run s.flip) = ({ s with sendbuffer := sendbuffer }, [s.sent g]) := by
  refine ⟨(g.run s.flip s.sendbuffer).1, ?_⟩
  simp only [send, sent, ← (g.produces s.flip).load_eq s.sendbuffer]

/-- The status branch: response, movement command on request, and the door configuration if it
has not gone out yet. -/
theorem on_robot_status_spec (s : Server) :
    ∃ sendbuffer, s.onRobotStatus =
      ({ s with sendbuffer := sendbuffer, registered := true, ifSendDoorInfo := true },
        (Generator.robotStatusResp :: ((if needPlanOf s.buffer ≠ 0 then [.trpCtrlReq] else []) ++
          (if s.ifSendDoorInfo then [] else [.doorInfo]))).map s.sent) := by
  obtain ⟨b₁, hresp⟩ := s.send_spec .robotStatusResp
  change s.send genRobotStatusResp = _ at hresp
  have htrp : ∃ b₂, (if needPlanOf s.buffer ≠ 0 then
        ({ s with sendbuffer := b₁ } : Server).send genTrpCtrlReq
      else (({ s with sendbuffer := b₁ } : Server), [])) =
      ({ s with sendbuffer := b₂ },
        (if needPlanOf s.buffer ≠ 0 then [Generator.trpCtrlReq] else []).map s.sent) := by
    split
    · exact ({ s with sendbuffer := b₁ } : Server).send_spec .trpCtrlReq
    · exact ⟨b₁, rfl⟩
  obtain ⟨b₂, htrp⟩ := htrp
  have hdoor : ∃ b₃, (if !s.ifSendDoorInfo && true then
        ({ s with sendbuffer := b₂, registered := true, ifSendDoorInfo := true } : Server).send
          genDoorInfo
      else (({ s with sendbuffer := b₂, registered := true } : Server), [])) =
      ({ s with sendbuffer := b₃, registered := true, ifSendDoorInfo := true },
        (if s.ifSendDoorInfo then [] else [Generator.doorInfo]).map s.sent) := by
    cases hflag : s.ifSendDoorInfo with
    | false =>
        exact ({ s with sendbuffer := b₂, registered := true, ifSendDoorInfo := true } :
          Server).send_spec .doorInfo
    | true =>
        refine ⟨b₂, ?_⟩
        simp [← hflag]
  obtain ⟨b₃, hdoor⟩ := hdoor
  refine ⟨b₃, ?_⟩
  unfold onRobotStatus
  simp only [hresp]
  rw [htrp]
  simp only [hdoor, List.map_cons, List.map_append, List.cons_append, List.nil_append]

/-- The plan branch: response, and the path on request. -/
theorem on_apply_plan_spec (s : Server) :
    ∃ sendbuffer, s.onApplyPlan =
      ({ s with sendbuffer := sendbuffer },
        (Generator.applyPlanResp (word32 s.buffer 4) ::
          (if ctrlTypeOf s.buffer = 1 then [.pathPlanReq] else [])).map s.sent) := by
  obtain ⟨b₁, hresp⟩ := s.send_spec (.applyPlanResp (word32 s.buffer 4))
  change s.send (genApplyPlanResp · (word32 s.buffer 4)) = _ at hresp
  have hindex : sizeof hkHeaderS + sizeof planReqS - 2 = 34 := by simp
  have hplan : ∃ b₂, (if ctrlTypeOf s.buffer = 1 then
        ({ s with sendbuffer := b₁ } : Server).send genPathPlanReq
      else (({ s with sendbuffer := b₁ } : Server), [])) =
      ({ s with sendbuffer := b₂ },
        (if ctrlTypeOf s.buffer = 1 then [Generator.pathPlanReq] else []).map s.sent) := by
    split
    · exact ({ s with sendbuffer := b₁ } : Server).send_spec .pathPlanReq
    · exact ⟨b₁, rfl⟩
  obtain ⟨b₂, hplan⟩ := hplan
  refine ⟨b₂, ?_⟩
  unfold onApplyPlan
  simp only [hindex, bswap16_word16, hresp]
  rw [hplan]
  rfl

/-- The dispatch sends `answers`; a status request sets both flags. -/
theorem dispatch_spec (s : Server) :
    ∃ sendbuffer, s.dispatch (typeOf s.buffer) =
      ({ s with
          sendbuffer := sendbuffer
          registered := s.registered || isStatus s.buffer
          ifSendDoorInfo := s.ifSendDoorInfo || isStatus s.buffer },
        (answers s.buffer s.ifSendDoorInfo).map s.sent) := by
  by_cases hstatus : typeOf s.buffer = GsMsgType.robotStatusReq.code
  · obtain ⟨sendbuffer, h⟩ := s.on_robot_status_spec
    refine ⟨sendbuffer, ?_⟩
    have hregister : typeOf s.buffer ≠ GsMsgType.registerReq.code := by
      rw [hstatus]
      decide
    simp only [dispatch, answers, isStatus, if_neg hregister, if_pos hstatus, h]
    simp [hstatus]
  · have hflag : isStatus s.buffer = false := by simpa [isStatus] using hstatus
    simp only [dispatch, answers, hflag, Bool.or_false, if_neg hstatus]
    split
    · exact s.send_spec .registerResp
    split
    · exact s.send_spec (.applyCleanAreaResp (bswap32 (word32 s.buffer 20)))
    split
    · exact s.send_spec (.applyForDoorResp (word32 s.buffer 20) (word32 s.buffer 24)
        (word32 s.buffer 28) (word32 s.buffer 4))
    split
    · exact s.send_spec (.applyTrafficResResp (word32 s.buffer 4) (word32 s.buffer 20))
    split
    · exact s.send_spec (.applyOffineResp (word32 s.buffer 4))
    split
    · exact s.on_apply_plan_spec
    · exact ⟨s.sendbuffer, rfl⟩

/-- The interrupt command goes out when it is due, and only then is its counter advanced. -/
theorem interrupt_spec (s : Server) :
    ∃ sendbuffer, s.interrupt =
      ({ s with
          sendbuffer := sendbuffer
          flip := if interruptDue s.tick then s.flip + 1 else s.flip },
        (if interruptDue s.tick then [Generator.interruptCtrlReq] else []).map s.sent) := by
  by_cases hdue : s.tick.srem 3 = 0
  · obtain ⟨sendbuffer, h⟩ := s.send_spec .interruptCtrlReq
    refine ⟨sendbuffer, ?_⟩
    have hb : sendbuffer = (genInterruptCtrlReq s.flip s.sendbuffer).1.1 :=
      (congrArg (fun r => r.1.sendbuffer) h).symm
    have hsent : ({ s with flip := s.flip + 1 } : Server).send
        (fun _ => (genInterruptCtrlReq s.flip s.sendbuffer).1) =
        ({ s with flip := s.flip + 1, sendbuffer := sendbuffer }, [s.sent .interruptCtrlReq]) := by
      rw [hb]
      exact congrArg (Prod.mk _) (congrArg Prod.snd h)
    have hflag : interruptDue s.tick = true := decide_eq_true hdue
    simp only [interrupt, if_pos hdue, hflag]
    exact hsent
  · have hflag : interruptDue s.tick = false := decide_eq_false hdue
    refine ⟨s.sendbuffer, ?_⟩
    simp only [interrupt, if_neg hdue, hflag]
    rfl

/-- The bytes that an iteration on `d` finds in the receive buffer. -/
def received (s : Server) (d : Datagram) : Mem :=
  storeAt s.buffer 0 (d.payload.take 1024)

/-- Everything an iteration sends, in order. -/
def outputs (s : Server) (d : Datagram) : List Generator :=
  answers (s.received d) s.ifSendDoorInfo ++
    if interruptDue (s.tick + 1) then [.interruptCtrlReq] else []

/-- The dump of what was received comes back exactly if something was received. -/
theorem hexdump_received (s : Server) (d : Datagram) :
    Utils.hexdump (fun _ => true) (some (s.received d)) (BitVec.ofNat 64 (s.recvLen d)) = none ↔
      d.payload = [] := by
  have hlen : s.recvLen d = min d.payload.length 1024 := rfl
  constructor
  · intro hnone
    by_contra hne
    have hpos : 0 < d.payload.length := List.length_pos_of_ne_nil hne
    have hrows := Utils.rowCount_le (by omega : s.recvLen d ≤ 1024)
    have hprints : Utils.hexdump (fun _ => true) (some (s.received d))
        (BitVec.ofNat 64 (s.recvLen d)) =
          some [Utils.dumpText (load (s.received d) 0 (s.recvLen d))] :=
      (Utils.hexdump_prints (s.received d) (by omega) (by omega) rfl).2
    cases hnone.symm.trans hprints
  · intro hempty
    rw [hlen, hempty]
    rfl

/-- One iteration on a datagram that is not empty: it sends `outputs`, to the address that the
receive left behind, and the counters and flags change as stated. -/
theorem step_spec (s : Server) {d : Datagram} (hne : d.payload ≠ []) :
    ∃ sendbuffer, s.step d =
      (some
        { tick := s.tick + 1
          flip := if interruptDue (s.tick + 1) then s.flip + 1 else s.flip
          registered := s.registered || isStatus (s.received d)
          ifSendDoorInfo := s.ifSendDoorInfo || isStatus (s.received d)
          buffer := s.received d
          sendbuffer := sendbuffer
          clientAddr := (s.receive d).clientAddr
          clientLen := 16 },
        (s.outputs d).map (s.receive d).sent) := by
  let r : Server := { s.receive d with tick := s.tick + 1 }
  obtain ⟨b₁, hdispatch⟩ := r.dispatch_spec
  obtain ⟨b₂, hinterrupt⟩ := (r.dispatch (typeOf r.buffer)).1.interrupt_spec
  rw [hdispatch] at hinterrupt
  refine ⟨b₂, ?_⟩
  obtain ⟨dump, hdump⟩ := Option.ne_none_iff_exists'.mp (mt (s.hexdump_received d).mp hne)
  have hstep : s.step d =
      (some ((r.dispatch (typeOf r.buffer)).1.interrupt).1,
        (r.dispatch (typeOf r.buffer)).2 ++ ((r.dispatch (typeOf r.buffer)).1.interrupt).2) := by
    have hbuffer : Utils.hexdump (fun _ => true)
        (some (receive { s with tick := s.tick + 1 } d).buffer)
        (BitVec.ofNat 64 (recvLen { s with tick := s.tick + 1 } d)) = some dump := hdump
    simp only [step, hbuffer, bswap16_word16]
    rfl
  rw [hstep, hdispatch, hinterrupt]
  have hlen : (s.receive d).clientLen = 16 :=
    recvfrom_addrlen s.buffer 1024 s.clientAddr s.clientLen d
  rw [outputs, List.map_append, ← hlen]
  rfl

/-- An empty datagram ends the process before anything is sent. -/
theorem step_empty (s : Server) {d : Datagram} (hempty : d.payload = []) :
    s.step d = (none, []) := by
  have hbuffer : Utils.hexdump (fun _ => true)
      (some (receive { s with tick := s.tick + 1 } d).buffer)
      (BitVec.ofNat 64 (recvLen { s with tick := s.tick + 1 } d)) = none :=
    (s.hexdump_received d).mpr hempty
  simp only [step, hbuffer]

end Server

end BazelPro.Hk
