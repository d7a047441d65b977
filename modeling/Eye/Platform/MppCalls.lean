import Eye.Lib.Calls
import Eye.Platform.ChannelParam

/-!
# What the video pipeline calls

The calls of `hi_video_pipeline.cpp` to the media drivers, to the kernel and to the sensor, with the
arguments they pass and the answers they get. A `Command` is answered by a return code; the other
calls also hand something out. Attributes keep the sizes, counts and rates; the enumerators that are
the same in every call of the program are left out.

`Mpp` is the type of a program that makes these calls. Nothing is assumed of the answers.
-/

namespace Eye

/-- `TD_SUCCESS` -/
def TD_SUCCESS : Int32 := 0

/-- `TD_FAILURE` -/
def TD_FAILURE : Int32 := -1

/-- `OT_ERR_VENC_NOT_SUPPORT` -/
def OT_ERR_VENC_NOT_SUPPORT : Int32 := -0x5ff77ff4

def OT_VPSS_MAX_GRP_NUM : Int32 := 6
def OT_VPSS_MAX_PHYS_CHN_NUM : Int32 := 3
def OT_VPSS_MAX_CHN_NUM : Int32 := 5
def OT_VI_MAX_PIPE_NUM : ℕ := 4

/-! ## Arguments -/

/-- `ot_vb_pool_cfg` -/
structure VbPoolCfg where
  blkSize : UInt64
  blkCnt : UInt32
  deriving DecidableEq, Repr

/-- `ot_vb_cfg`, with the pools that are used. -/
structure VbCfg where
  maxPoolCnt : UInt32
  commonPool : List VbPoolCfg
  deriving DecidableEq, Repr

/-- `ot_vi_vpss_mode_type`, as far as the code names its values. -/
inductive ViVpssMode
  | offlineOffline | offlineOnline | onlineOnline | other
  deriving DecidableEq, Repr

/-- `ot_vpss_chn_buf_wrap_attr` -/
structure VpssChnBufWrapAttr where
  enable : Bool
  bufLine : UInt32
  bufSize : UInt32
  deriving DecidableEq, Repr

/-- `ot_vpss_venc_wrap_param`; the small stream is always 720 by 480. -/
structure VpssVencWrapParam where
  allOnline : Bool
  frameRate : UInt32
  fullLinesStd : UInt32
  largeStreamSize : Size
  deriving DecidableEq, Repr

/-- `ot_compress_mode`, as far as VPSS channels use it. -/
inductive CompressMode
  | none | segCompact
  deriving DecidableEq, Repr

/-- `ot_vpss_grp_attr` -/
structure VpssGrpAttr where
  maxWidth : UInt32
  maxHeight : UInt32
  srcFrameRate : Int32
  dstFrameRate : Int32
  deriving DecidableEq, Repr

/-- `ot_vpss_chn_attr` -/
structure VpssChnAttr where
  width : UInt32
  height : UInt32
  depth : UInt32
  compressMode : CompressMode
  srcFrameRate : Int32
  dstFrameRate : Int32
  deriving DecidableEq, Repr

/-- `ot_isp_ctrl_param`; `others` are the fields that the code passes on as it got them. -/
structure IspCtrlParam where
  statInterval : UInt32
  others : List UInt32
  deriving DecidableEq, Repr

/-- `ot_3dnr_attr`: the code sets all of it. -/
structure DnrAttr where
  enable : Bool
  deriving DecidableEq, Repr

/-- The requests to the MIPI receiver, in the order of `comm_vi_start_mipi`. -/
inductive MipiRequest
  | setHsMode | enableMipiClock | resetMipi | enableSensorClock | resetSensor | setDevAttr
  | setExtDataType | unresetMipi | unresetSensor
  deriving DecidableEq, Repr

/-- `ot_mod_id`, for the modules that are bound together. -/
inductive ModId
  | vi | vpss | venc
  deriving DecidableEq, Repr

/-- `ot_mpp_chn` -/
structure MppChn where
  modId : ModId
  devId : Int32
  chnId : Int32
  deriving DecidableEq, Repr

/-- `ot_isp_sns_obj`: which of its functions there are. -/
structure SnsObj where
  pfnRegisterCallback : Bool
  pfnSetBusInfo : Bool
  deriving DecidableEq, Repr

/-- The SVAC3 modes of `ot_venc_rc_mode`. -/
inductive Svac3RcMode
  | abr | cbr | vbr | avbr | qvbr | cvbr | other
  deriving DecidableEq, Repr

/-- `ot_venc_rc_mode` as the driver answers it. -/
inductive ChnRcMode
  | venc (m : VencRcMode)
  | svac3 (m : Svac3RcMode)
  deriving DecidableEq, Repr

/-- `ot_venc_rc_param`, with the member of its union that belongs to the channel's mode; `others`
are its fields but `max_reencode_times`. -/
structure VencRcParam where
  maxReencodeTimes : Int32
  others : List UInt32
  deriving DecidableEq, Repr

/-- `ot_venc_mod_type` -/
inductive VencModType
  | unset | h264 | h265 | jpeg
  deriving DecidableEq, Repr

/-- `ot_venc_mod_param`, with the member of its union that the type names; `others` are its fields
but `mini_buf_mode`. -/
structure VencModParam where
  modType : VencModType
  miniBufMode : UInt32
  others : List UInt32
  deriving DecidableEq, Repr

/-! ## Calls -/

/-- The calls that are answered by a return code. -/
inductive Command
  -- ss_mpi_sys, ss_mpi_vb
  | sysExit | vbExit | vbSetCfg (cfg : VbCfg) | vbInit | sysSetCfg (align : UInt32) | sysInit
  | sysSetViVpssMode (mode : List ViVpssMode)
  | sysBind (src dest : MppChn)
  -- the MIPI receiver's device
  | ioctl (fd : Int32) (request : MipiRequest)
  | close (fd : Int32)
  -- ss_mpi_vi
  | viSetPipeBufWrapAttr (pipe : Int32) (enable : Bool) (bufLine : UInt32)
  | viSetDevAttr (dev : Int32) (inSize : Size)
  | viEnableDev (dev : Int32)
  | viBind (dev pipe : Int32)
  | viCreatePipe (pipe : Int32) (size : Size)
  | viStartPipe (pipe : Int32)
  | viDestroyPipe (pipe : Int32)
  | viSetChnAttr (pipe chn : Int32) (size : Size)
  | viEnableChn (pipe chn : Int32)
  | viSetPipe3dnrAttr (pipe : Int32) (attr : DnrAttr)
  -- ss_mpi_isp, ss_mpi_ae, ss_mpi_awb and the sensor
  | ispSetCtrlParam (pipe : Int32) (param : IspCtrlParam)
  | ispExit (pipe : Int32)
  | snsRegisterCallback (pipe : Int32)
  | snsSetBusInfo (pipe : Int32)
  | aeRegister (pipe : Int32)
  | awbRegister (pipe : Int32)
  | ispMemInit (pipe : Int32)
  | ispSetPubAttr (pipe : Int32) (size : Size) (frameRate : UInt32)
  | ispInit (pipe : Int32)
  -- ss_mpi_vpss
  | vpssCreateGrp (grp : Int32) (attr : VpssGrpAttr)
  | vpssSetChnAttr (grp chn : Int32) (attr : Option VpssChnAttr)
  | vpssSetExtChnAttr (grp chn : Int32) (attr : Option VpssChnAttr)
  | vpssSetChnRotation (grp chn : Int32)
  | vpssSetChnBufWrap (grp chn : Int32) (attr : VpssChnBufWrapAttr)
  | vpssEnableChn (grp chn : Int32)
  | vpssStartGrp (grp : Int32)
  | vpssDisableChn (grp chn : Int32)
  | vpssStopGrp (grp : Int32)
  | vpssDestroyGrp (grp : Int32)
  -- ss_mpi_venc
  | vencSetModParam (param : VencModParam)
  | vencCreateChn (chn : Int32) (attr : VencChnAttr)
  | vencSetRcParam (chn : Int32) (param : VencRcParam)
  | vencStartChn (chn : Int32) (recvPicNum : Int32)
  | vencDestroyChn (chn : Int32)
  deriving DecidableEq

/-- All calls. `divideByZero` is a division by zero: nothing follows it. -/
inductive MppCall
  | command (c : Command)
  | sysGetVpssVencWrapBufLine (param : VpssVencWrapParam)
  | sysGetViVpssMode
  | openMipi
  | viGetPipe3dnrAttr (pipe : Int32)
  | ispGetCtrlParam (pipe : Int32)
  | snsGetObj
  | startIspThread (pipe : Int32)
  | vencGetModParam (param : VencModParam)
  | vencGetChnAttr (chn : Int32)
  | vencGetRcParam (chn : Int32)
  | divideByZero
  deriving DecidableEq

/-- The answers: a return code and what is handed out, a file descriptor, the sensor's object or a
null pointer. -/
def MppCall.Answer : MppCall → Type
  | command _ => Int32
  | sysGetVpssVencWrapBufLine _ => Int32 × UInt32
  | sysGetViVpssMode => Int32 × List ViVpssMode
  | openMipi => Int32
  | viGetPipe3dnrAttr _ => Int32 × DnrAttr
  | ispGetCtrlParam _ => Int32 × IspCtrlParam
  | snsGetObj => Option SnsObj
  | startIspThread _ => Unit
  | vencGetModParam _ => Int32 × VencModParam
  | vencGetChnAttr _ => Int32 × ChnRcMode
  | vencGetRcParam _ => Int32 × VencRcParam
  | divideByZero => Empty

/-- A program that makes these calls. -/
abbrev Mpp (α : Type) := Calls MppCall MppCall.Answer α

/-- The call of a command, for its return code. -/
def mpi (c : Command) : Mpp Int32 := Calls.ask (MppCall.command c)

/-- A call that hands something out beside its return code. -/
def query (c : MppCall) : Mpp c.Answer := Calls.ask c

end Eye
