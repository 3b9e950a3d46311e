import BazelPro.C.Socket
import BazelPro.Hk.MsgGen
import BazelPro.Utils.Dump

/-!
# The HK server

After the receive loop of `src/hk/main.cpp`. `Server` holds what survives an iteration: the
static counters of both files, the two flags, and the buffers, none of which is ever cleared.
`step` is one iteration; a branch of the dispatch returns what it passes to `sendto`, in
order. Console output is left out, but not that `hexdump` has to come back: for an empty datagram
it prints and frees a pointer that was never set, and the process does not get any further.
-/

namespace BazelPro.Hk

open C CType

/-- The state of the server between two iterations. -/
structure Server where
  /-- The static iteration counter of `main.cpp`. -/
  tick : BitVec 32
  /-- The static counter of `msg_gen.cpp`. -/
  flip : BitVec 32
  registered : Bool
  ifSendDoorInfo : Bool
  buffer : Mem
  sendbuffer : Mem
  clientAddr : Mem
  clientLen : Nat

namespace Server

/-- The state before the first iteration. `buffer` and `client_addr` are uninitialised, the send
buffer comes from `calloc`. -/
def init (buffer clientAddr : Mem) : Server where
  tick := 0
  flip := 0
  registered := false
  ifSendDoorInfo := false
  buffer := buffer
  sendbuffer := fun _ => 0
  clientAddr := clientAddr
  clientLen := 0

/-- `send_len = gen(&sendbuffer)` followed by
`sendto(server_sockfd, sendbuffer, send_len, 0, &client_addr, client_len)`. -/
def send (s : Server) (gen : Mem → Mem × Nat) : Server × List Sent :=
  let (sendbuffer, sendLen) := gen s.sendbuffer
  ({ s with sendbuffer := sendbuffer },
    [⟨load sendbuffer 0 sendLen, load s.clientAddr 0 s.clientLen⟩])

/-! ## The branches of the dispatch -/

/-- `GS_MSG_TYPE_REGISTER_REQ`. -/
def onRegister (s : Server) : Server × List Sent := s.send genRegisterResp

/-- `GS_MSG_TYPE_ROBOT_STATUS_REQ`. -/
def onRobotStatus (s : Server) : Server × List Sent :=
  let (s, resp) := s.send genRobotStatusResp
  let needPlan := s.buffer (16 + 6)
  let (s, trp) := if needPlan ≠ 0 then s.send genTrpCtrlReq else (s, [])
  let s := { s with registered := true }
  let (s, door) :=
    if !s.ifSendDoorInfo && s.registered then
      { s with ifSendDoorInfo := true }.send genDoorInfo
    else (s, [])
  (s, resp ++ trp ++ door)

/-- `GS_MSG_TYPE_APPLY_CLEAN_AREA_REQ`. -/
def onApplyCleanArea (s : Server) : Server × List Sent :=
  let areaId := bswap32 (word32 s.buffer 20)
  s.send (genApplyCleanAreaResp · areaId)

/-- `GS_MSG_TYPE_APPLY_FOR_DOOR_REQ`. -/
def onApplyForDoor (s : Server) : Server × List Sent :=
  let nOrder := word32 s.buffer 4
  let nDoorId := word32 s.buffer 20
  let nX := word32 s.buffer 24
  let nY := word32 s.buffer 28
  s.send (genApplyForDoorResp · nDoorId nX nY nOrder)

/-- `GS_MSG_TYPE_APPLY_TRAFFIC_RES_REQ`. -/
def onApplyTrafficRes (s : Server) : Server × List Sent :=
  let nOrder := word32 s.buffer 4
  let nAreaId := word32 s.buffer 20
  s.send (genApplyTrafficResResp · nOrder nAreaId)

/-- `GS_MSG_TYPE_APPLY_OFFLINE_REQ`. -/
def onApplyOffline (s : Server) : Server × List Sent :=
  let nOrder := word32 s.buffer 4
  s.send (genApplyOffineResp · nOrder)

/-- `GS_MSG_TYPE_APPLY_PLAN_REQ`. The inner `type` is an `int` of which only the low half is
filled in; `bswap_16` takes that half. -/
def onApplyPlan (s : Server) : Server × List Sent :=
  let nOrder := word32 s.buffer 4
  let index := sizeof hkHeaderS + sizeof planReqS - 2
  let type := bswap16 (word16 s.buffer index)
  let (s, resp) := s.send (genApplyPlanResp · nOrder)
  let (s, plan) := if type = 1 then s.send genPathPlanReq else (s, [])
  (s, resp ++ plan)

/-- The chain of `if`s on the message type. -/
def dispatch (s : Server) (type : BitVec 16) : Server × List Sent :=
  if type = GsMsgType.registerReq.code then s.onRegister
  else if type = GsMsgType.robotStatusReq.code then s.onRobotStatus
  else if type = GsMsgType.applyCleanAreaReq.code then s.onApplyCleanArea
  else if type = GsMsgType.applyForDoorReq.code then s.onApplyForDoor
  else if type = GsMsgType.applyTrafficResReq.code then s.onApplyTrafficRes
  else if type = GsMsgType.applyOfflineReq.code then s.onApplyOffline
  else if type = GsMsgType.applyPlanReq.code then s.onApplyPlan
  else (s, [])

/-- The interrupt command at the end of every third iteration. -/
def interrupt (s : Server) : Server × List Sent :=
  if s.tick.srem 3 = 0 then
    let (sent, flip) := genInterruptCtrlReq s.flip s.sendbuffer
    { s with flip := flip }.send fun _ => sent
  else (s, [])

/-- The receive at the top of an iteration. -/
def receive (s : Server) (d : Datagram) : Server :=
  let r := recvfrom s.buffer 1024 s.clientAddr s.clientLen d
  { s with buffer := r.buffer, clientAddr := r.addr, clientLen := r.addrlen }

/-- `recv_len`. -/
def recvLen (s : Server) (d : Datagram) : Nat :=
  (recvfrom s.buffer 1024 s.clientAddr s.clientLen d).recvLen

/-- One iteration of the loop on the datagram `d`: the state behind it, if the process is still
there, and what it sent. The block for the dump is taken to be allocated. The dumps of the
messages to be sent come back, because no message is empty. -/
def step (s : Server) (d : Datagram) : Option Server × List Sent :=
  let s := { s with tick := s.tick + 1 }
  let recvLen := s.recvLen d
  let s := s.receive d
  let type := bswap16 (word16 s.buffer 8)
  match Utils.hexdump (fun _ => true) (some s.buffer) (BitVec.ofNat 64 recvLen) with
  | none => (none, [])
  | some _ =>
      let (s, replies) := s.dispatch type
      let (s, last) := s.interrupt
      (some s, replies ++ last)

/-- The loop on a finite sequence of datagrams: the state it reaches, if the process is still
there, and what each iteration that took place sent. -/
def run (s : Server) : List Datagram → Option Server × List (List Sent)
  | [] => (some s, [])
  | d :: ds =>
      match s.step d with
      | (none, sent) => (none, [sent])
      | (some s, sent) =>
          let (s, rest) := s.run ds
          (s, sent :: rest)

end Server

end BazelPro.Hk
