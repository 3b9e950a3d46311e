import BazelPro.C.Layout
import BazelPro.C.Memory

/-!
# Message types and wire structures of the HK protocol

After `src/hk/msg_type.h`: the message codes, the layouts of the wire structures that the
server and the generators use, and the in-memory header. The structures of the AMS channel
and the enumerations that no function of the server reads are left out.
-/

namespace BazelPro.Hk

open C

/-- `E_GS_MSG_TYPE`. -/
inductive GsMsgType where
  | registerReq
  | registerRsp
  | applyCleanAreaReq
  | applyCleanAreaRsp
  | robotStatusReq
  | robotStatusRsp
  | trpCtrlReq
  | trpCtrlRsp
  | applyForDoorReq
  | applyForDoorRsp
  | applyTrafficResReq
  | applyTrafficResRsp
  | doorConfigReq
  | doorConfigRsp
  | applyOfflineReq
  | applyOfflineRsp
  | pathUploadReq
  | pathUploadRsp
  | interruptCtrlReq
  | interruptCtrlRsp
  | applyPlanReq
  | applyPlanRsp
  | pathPlanReq
  | pathPlanRsp
  | unknown
  deriving DecidableEq, Repr

/-- The enumerator's value; the first is 1. -/
def GsMsgType.code : GsMsgType → BitVec 16
  | .registerReq => 1
  | .registerRsp => 2
  | .applyCleanAreaReq => 3
  | .applyCleanAreaRsp => 4
  | .robotStatusReq => 5
  | .robotStatusRsp => 6
  | .trpCtrlReq => 7
  | .trpCtrlRsp => 8
  | .applyForDoorReq => 9
  | .applyForDoorRsp => 10
  | .applyTrafficResReq => 11
  | .applyTrafficResRsp => 12
  | .doorConfigReq => 13
  | .doorConfigRsp => 14
  | .applyOfflineReq => 15
  | .applyOfflineRsp => 16
  | .pathUploadReq => 17
  | .pathUploadRsp => 18
  | .interruptCtrlReq => 19
  | .interruptCtrlRsp => 20
  | .applyPlanReq => 21
  | .applyPlanRsp => 22
  | .pathPlanReq => 23
  | .pathPlanRsp => 24
  | .unknown => 25

/-! ## Wire structures -/

section Layouts

open CType

/-- `HK_HEADER_S`. -/
def hkHeaderS : CType :=
  .struct [.array 4 char, int32_t, uint16_t, uint16_t, char, char, .array 2 char]

/-- `DOOR_INFO_S`. -/
def doorInfoS : CType := .struct [int32_t, int32_t, int32_t]

/-- `DOOR_INFO_REQ_S`. -/
def doorInfoReqS : CType := .struct [uint16_t, int16_t, .array 0 doorInfoS]

/-- `INTERRUPT_CMD_S`. -/
def interruptCmdS : CType := .struct [uint16_t, uint16_t]

/-- `PATH_PLAN_REQ_S`. -/
def pathPlanReqS : CType :=
  .struct [uint16_t, uint16_t, int32_t, int32_t, uint16_t, uint16_t, int32_t, int32_t, int32_t]

/-- `COMMON_RESP_S`. -/
def commonRespS : CType := .struct [int32_t, uint16_t, .array 2 char]

/-- `PLAN_REQ_S`. -/
def planReqS : CType :=
  .struct [uint16_t, uint16_t, int32_t, int32_t, int32_t, uint16_t, uint16_t]

/-- `POINT_S`. -/
def pointS : CType := .struct [int32_t, int32_t]

/-- `MOVE_POS_PARAM_S`. -/
def movePosParamS : CType := .struct [int32_t, int32_t, int32_t, .array 2 char, uint16_t]

/-- `PATH_INFO_S`. -/
def pathInfoS : CType := .struct [int16_t, int16_t, .array 0 pointS]

/-- `ROBOT_STATUS_INFO_S`. -/
def robotStatusInfoS : CType :=
  .struct [uint16_t, uint16_t, uint8_t, uint8_t, uint8_t, uint8_t, movePosParamS, pathInfoS]

/-- `ROBOT_STATUS_INFO_RESP_S`. -/
def robotStatusInfoRespS : CType := .struct [int32_t, uint16_t, .array 2 char]

/-- `REGISTER_REQ_S`. -/
def registerReqS : CType :=
  .struct [uint16_t, uint16_t, uint16_t, uint16_t, uint16_t, uint16_t]

/-- `RECTANGLE_S`. -/
def rectangleS : CType := .struct [pointS, pointS]

/-- `CLEAN_AREA_S`. -/
def cleanAreaS : CType := .struct [uint16_t, int16_t, int32_t, rectangleS]

/-- `APPLY_CLEAN_RESP_S`. -/
def applyCleanRespS : CType := .struct [int16_t, uint16_t, int32_t]

/-- `TRP_CTRL_REQ_S`. -/
def trpCtrlReqS : CType := .struct [uint16_t, int16_t, pointS, int16_t, int16_t, int32_t]

/-- `APPLY_DOOR_REQ_S`. -/
def applyDoorReqS : CType := .struct [uint16_t, int16_t, int32_t, pointS]

/-- `APPLY_DOOR_RESP_S`. -/
def applyDoorRespS : CType := .struct [uint16_t, int16_t, int32_t, pointS, int32_t]

/-- `APPLY_TRAFFIC_RES_REQ_S`. -/
def applyTrafficResReqS : CType := .struct [uint16_t, int16_t, int32_t, rectangleS]

/-- `AGV_INFO_S`. -/
def agvInfoS : CType := .struct [int32_t, pointS, int32_t, .array 0 pointS]

/-- `APPLY_TRAFFIC_RES_RESP_S`. -/
def applyTrafficResRespS : CType :=
  .struct [int16_t, uint16_t, int32_t, int32_t, .array 0 agvInfoS]

/-- `APPLY_OFFLINE_REQ_S`. -/
def applyOfflineReqS : CType := .struct [uint16_t, int16_t]

/-- `APPLY_OFFLINE_RESP_S`. -/
def applyOfflineRespS : CType := .struct [int32_t, uint16_t, .array 2 char]

/-! The sizes below are the ones the comments of `msg_type.h` add up to. -/

@[simp] theorem sizeof_hk_header : sizeof hkHeaderS = 16 := rfl

@[simp] theorem sizeof_door_info : sizeof doorInfoS = 12 := rfl

@[simp] theorem sizeof_door_info_req : sizeof doorInfoReqS = 4 := rfl

@[simp] theorem sizeof_interrupt_cmd : sizeof interruptCmdS = 4 := rfl

@[simp] theorem sizeof_path_plan_req : sizeof pathPlanReqS = 28 := rfl

@[simp] theorem sizeof_common_resp : sizeof commonRespS = 8 := rfl

@[simp] theorem sizeof_plan_req : sizeof planReqS = 20 := rfl

@[simp] theorem sizeof_robot_status_info : sizeof robotStatusInfoS = 28 := rfl

@[simp] theorem sizeof_robot_status_info_resp : sizeof robotStatusInfoRespS = 8 := rfl

@[simp] theorem sizeof_register_req : sizeof registerReqS = 12 := rfl

@[simp] theorem sizeof_clean_area : sizeof cleanAreaS = 24 := rfl

@[simp] theorem sizeof_apply_clean_resp : sizeof applyCleanRespS = 8 := rfl

@[simp] theorem sizeof_trp_ctrl_req : sizeof trpCtrlReqS = 20 := rfl

@[simp] theorem sizeof_apply_door_req : sizeof applyDoorReqS = 16 := rfl

@[simp] theorem sizeof_apply_door_resp : sizeof applyDoorRespS = 20 := rfl

@[simp] theorem sizeof_apply_traffic_res_req : sizeof applyTrafficResReqS = 24 := rfl

@[simp] theorem sizeof_apply_traffic_res_resp : sizeof applyTrafficResRespS = 12 := rfl

@[simp] theorem sizeof_apply_offline_req : sizeof applyOfflineReqS = 4 := rfl

@[simp] theorem sizeof_apply_offline_resp : sizeof applyOfflineRespS = 8 := rfl

end Layouts

/-- The members of `HK_HEADER_S` that a generator fills in and copies out. -/
structure HkHeader where
  msgOrder : BitVec 32
  msgType : BitVec 16
  msgLength : BitVec 16
  msgVersion : Byte
  msgCrypt : Byte
  remain : List Byte

end BazelPro.Hk
