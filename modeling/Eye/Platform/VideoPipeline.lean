import Eye.Platform.MppCalls

/-!
# Bringing the video pipeline up

`videoProcessHi::init` and everything it calls, in the order of the source: the media system, the
sensor's interface and the video input, the image signal processor, VPSS with its three channels,
and the three encoder channels. A function returns the code it returns in the source; where the
source changes `stVpssChnBufWrap`, the object is returned with it.

`abChnEnable` of `init_vpss_module` is written and never read, so it is left out.
-/

namespace Eye

/-- `ot_common_get_pic_buf_size` and `ot_comm_get_vpss_venc_wrap_buf_size`, for the pixel formats
that the pipeline passes. -/
structure BufSizes where
  pic (width height : UInt32) : UInt32
  wrap (width height bufLine : UInt32) : UInt32

/-- The fields of `videoProcessHi` that its functions read. -/
structure VideoProcessHi where
  wrapEnable : Bool
  videoStretchEnable : Bool
  stVpssChnBufWrap : VpssChnBufWrapAttr

/-- The constructor. -/
def VideoProcessHi.new : VideoProcessHi where
  wrapEnable := false
  videoStretchEnable := false
  stVpssChnBufWrap := ⟨false, 0, 0⟩

def vpssChn0 : Int32 := 0
def vpssChn1 : Int32 := 1
def vpssChn2 : Int32 := 2
def maxFrameRate : Int32 := 30
def subVpssFrameRate : Int32 := 5
def subVencFrameRate : UInt32 := 10
def SENSOR_MAX : Size := ⟨2560, 1440⟩
def VIDEO_STRETCH : Size := ⟨0, 0⟩
def VI_0 : Size := SENSOR_MAX
def VI_1 : Size := ⟨1280, 720⟩
def VI_2 : Size := ⟨640, 384⟩
def rotateBSupport : Bool := false

/-! ## The media system -/

/-- `comm_vpss_get_default_chn_attr` -/
def commVpssGetDefaultChnAttr : VpssChnAttr where
  width := VIDEO_STRETCH.width
  height := VIDEO_STRETCH.height
  depth := 0
  compressMode := .segCompact
  srcFrameRate := -1
  dstFrameRate := -1

/-- `comm_vpss_get_wrap_cfg`; the attribute is changed whether or not the call succeeds. -/
def commVpssGetWrapCfg (sizes : BufSizes) (chnAttr : VpssChnAttr) (mode : ViVpssMode)
    (fullLinesStd : UInt32) (wrapAttr : VpssChnBufWrapAttr) :
    Mpp (Int32 × VpssChnBufWrapAttr) := do
  let frameRate :=
    if 0 < chnAttr.srcFrameRate ∧ 0 < chnAttr.dstFrameRate then
      (chnAttr.dstFrameRate * 30 / chnAttr.srcFrameRate).toUInt32
    else 25
  let line : Int32 × UInt32 ← query (.sysGetVpssVencWrapBufLine
    ⟨decide (mode = .onlineOnline), frameRate, fullLinesStd, ⟨chnAttr.width, chnAttr.height⟩⟩)
  if line.1 ≠ TD_SUCCESS then
    return (TD_FAILURE, { wrapAttr with enable := false })
  else
    return (TD_SUCCESS, ⟨true, line.2, sizes.wrap chnAttr.width chnAttr.height line.2⟩)

/-- The block of `hi_mpp_sys_init` under `wrap_enable`. Whether it succeeds is not looked at. -/
def VideoProcessHi.wrapCfg (sizes : BufSizes) (v : VideoProcessHi) : Mpp VideoProcessHi :=
  if v.wrapEnable then do
    let r ← commVpssGetWrapCfg sizes commVpssGetDefaultChnAttr .offlineOnline 1700
      v.stVpssChnBufWrap
    return { v with stVpssChnBufWrap := r.2 }
  else return v

/-- `stVbConf` -/
def VideoProcessHi.vbConf (sizes : BufSizes) (v : VideoProcessHi) : VbCfg where
  maxPoolCnt := 128
  commonPool :=
    [if v.wrapEnable then ⟨v.stVpssChnBufWrap.bufSize.toUInt64, 1⟩
      else ⟨(sizes.pic VI_0.width VI_0.height).toUInt64, 3⟩,
      ⟨(sizes.pic VI_1.width VI_1.height).toUInt64, 3⟩,
      ⟨(sizes.pic VI_2.width VI_2.height).toUInt64, 2⟩]

/-- The calls of `hi_mpp_sys_init`. -/
def startSys (cfg : VbCfg) : Mpp Int32 := do
  let ret ← mpi .sysExit
  if ret ≠ TD_SUCCESS then return ret else
  let ret ← mpi .vbExit
  if ret ≠ TD_SUCCESS then return ret else
  let ret ← mpi (.vbSetCfg cfg)
  if ret ≠ TD_SUCCESS then return ret else
  let ret ← mpi .vbInit
  if ret ≠ TD_SUCCESS then return ret else
  let ret ← mpi (.sysSetCfg 64)
  if ret ≠ TD_SUCCESS then return ret else
  let ret ← mpi .sysInit
  if ret ≠ TD_SUCCESS then return ret else
  return ret

/-- `hi_mpp_sys_init` -/
def hiMppSysInit (sizes : BufSizes) (v : VideoProcessHi) : Mpp (Int32 × VideoProcessHi) := do
  let v ← v.wrapCfg sizes
  let ret ← startSys (v.vbConf sizes)
  return (ret, v)

/-! ## The video input -/

/-- `set_vi_vpss_mode`: the first pipe gets the mode, the others one of the offline modes. -/
def setViVpssMode (mode : ViVpssMode) : Mpp Int32 := do
  let got : Int32 × List ViVpssMode ← query .sysGetViVpssMode
  if got.1 ≠ TD_SUCCESS then return TD_FAILURE else
  let otherMode : ViVpssMode :=
    if mode = .offlineOnline then .offlineOnline else .offlineOffline
  let ret ← mpi (.sysSetViVpssMode (mode :: List.replicate (OT_VI_MAX_PIPE_NUM - 1) otherMode))
  if ret ≠ TD_SUCCESS then return TD_FAILURE else
  return TD_SUCCESS

/-- The requests of `comm_vi_start_mipi`, each of which closes the device where it fails. -/
def mipiRequests (fd : Int32) : List MipiRequest → Mpp Int32
  | [] => do
    let _ ← mpi (.close fd)
    return TD_SUCCESS
  | request :: rest => do
    let ret ← mpi (.ioctl fd request)
    if ret ≠ TD_SUCCESS then
      let _ ← mpi (.close fd)
      return TD_FAILURE
    else mipiRequests fd rest

/-- `comm_vi_start_mipi` -/
def commViStartMipi : Mpp Int32 := do
  let fd : Int32 ← query .openMipi
  if fd < 0 then return TD_FAILURE else
  mipiRequests fd [.setHsMode, .enableMipiClock, .resetMipi, .enableSensorClock, .resetSensor,
    .setDevAttr, .setExtDataType, .unresetMipi, .unresetSensor]

/-- `comm_vi_create_vi`. The pipe is created under the number of the device. -/
def commViCreateVi (viDev viPipe viChn : Int32) : Mpp Int32 := do
  let ret ← mpi (.viSetDevAttr viDev SENSOR_MAX)
  if ret ≠ TD_SUCCESS then return ret else
  let ret ← mpi (.viEnableDev viDev)
  if ret ≠ TD_SUCCESS then return ret else
  let ret ← mpi (.viBind viDev viPipe)
  if ret ≠ TD_SUCCESS then return ret else
  let ret ← mpi (.viCreatePipe viDev SENSOR_MAX)
  if ret ≠ TD_SUCCESS then return ret else
  let ret ← mpi (.viStartPipe viPipe)
  if ret ≠ TD_SUCCESS then
    let _ ← mpi (.viDestroyPipe viPipe)
    return ret
  else
  let ret ← mpi (.viSetChnAttr viPipe viChn SENSOR_MAX)
  if ret ≠ TD_SUCCESS then
    let _ ← mpi (.viDestroyPipe viPipe)
    return ret
  else
  let ret ← mpi (.viEnableChn viPipe viChn)
  if ret ≠ TD_SUCCESS then return ret else
  -- whether this call succeeds is not looked at; all of the attribute is set afterwards
  let _ ← query (.viGetPipe3dnrAttr viPipe)
  let ret ← mpi (.viSetPipe3dnrAttr viPipe ⟨true⟩)
  if ret ≠ TD_SUCCESS then return ret else
  return TD_SUCCESS

/-- `comm_isp_run`: a thread that runs `comm_isp_task`. -/
def commIspRun (ispDev : Int32) : Mpp Int32 := do
  let _ ← query (.startIspThread ispDev)
  return TD_SUCCESS

/-- `comm_vi_create_isp` -/
def commViCreateIsp (viPipe : Int32) : Mpp Int32 := do
  let ret ← mpi (.ispExit viPipe)
  if ret ≠ TD_SUCCESS then return TD_FAILURE else
  let obj : Option SnsObj ← query .snsGetObj
  match obj with
  | none => return TD_FAILURE
  | some obj =>
    if obj.pfnRegisterCallback = false then return TD_FAILURE else
    let _ ← mpi (.snsRegisterCallback viPipe)
    if obj.pfnSetBusInfo = false then return TD_FAILURE else
    let _ ← mpi (.snsSetBusInfo viPipe)
    let ret ← mpi (.aeRegister viPipe)
    if ret ≠ TD_SUCCESS then return TD_FAILURE else
    let ret ← mpi (.awbRegister viPipe)
    if ret ≠ TD_SUCCESS then return TD_FAILURE else
    let ret ← mpi (.ispMemInit viPipe)
    if ret ≠ TD_SUCCESS then return TD_FAILURE else
    let ret ← mpi (.ispSetPubAttr viPipe SENSOR_MAX 30)
    if ret ≠ TD_SUCCESS then return TD_FAILURE else
    let ret ← mpi (.ispInit viPipe)
    if ret ≠ TD_SUCCESS then return TD_FAILURE else
    let ret ← commIspRun viPipe
    if ret ≠ TD_SUCCESS then return TD_FAILURE else
    return TD_SUCCESS

/-- `comm_vi_start_vi` -/
def commViStartVi (viDev viPipe viChn : Int32) : Mpp Int32 := do
  let ret ← commViStartMipi
  if ret ≠ TD_SUCCESS then return ret else
  let ret ← commViCreateVi viDev viPipe viChn
  if ret ≠ TD_SUCCESS then return ret else
  let ret ← commViCreateIsp viPipe
  if ret ≠ TD_SUCCESS then return ret else
  return TD_SUCCESS

/-- `init_vi_process`; `SENSOR_FRAME_RATE / 30` is 1. -/
def initViProcess (viDev viPipe viChn : Int32) : Mpp Int32 := do
  let got : Int32 × IspCtrlParam ← query (.ispGetCtrlParam viPipe)
  if got.1 ≠ TD_SUCCESS then return got.1 else
  let ret ← mpi (.ispSetCtrlParam viPipe { got.2 with statInterval := 1 })
  if ret ≠ TD_SUCCESS then return ret else
  let ret ← commViStartVi viDev viPipe viChn
  if ret ≠ TD_SUCCESS then return ret else
  return TD_SUCCESS

/-- The block of `init_vi_module` under `video_stretch_enable`. -/
def VideoProcessHi.stretch (v : VideoProcessHi) (viPipe : Int32) : Mpp Int32 :=
  if v.videoStretchEnable then mpi (.viSetPipeBufWrapAttr viPipe true 340) else return TD_SUCCESS

/-- `init_vi_module` -/
def initViModule (v : VideoProcessHi) (viDev viPipe viChn : Int32) : Mpp Int32 := do
  let ret ← v.stretch viPipe
  if ret ≠ TD_SUCCESS then return ret else
  let ret ← initViProcess viDev viPipe viChn
  if ret ≠ TD_SUCCESS then return ret else
  return TD_SUCCESS

/-- `hi_mpp_vi_init` -/
def hiMppViInit (v : VideoProcessHi) (viPipe viChn : Int32) : Mpp Int32 := do
  let viDev : Int32 := 0
  let ret ← setViVpssMode .onlineOnline
  if ret ≠ TD_SUCCESS then return ret else
  let ret ← initViModule v viDev viPipe viChn
  if ret ≠ TD_SUCCESS then return ret else
  return ret

/-! ## VPSS -/

/-- The attribute and the rotation of a VPSS channel. Extended channels have no rotation. -/
def setVpssChn (vpssGrp vpssChn : Int32) (chnAttr extChnAttr : Option VpssChnAttr) : Mpp Int32 :=
  if vpssChn < OT_VPSS_MAX_PHYS_CHN_NUM then do
    let ret ← mpi (.vpssSetChnAttr vpssGrp vpssChn chnAttr)
    if ret ≠ TD_SUCCESS then return ret else
    if rotateBSupport then mpi (.vpssSetChnRotation vpssGrp vpssChn) else return TD_SUCCESS
  else mpi (.vpssSetExtChnAttr vpssGrp vpssChn extChnAttr)

/-- The block of `enable_vpss_chn` under `wrap_enable`. -/
def VideoProcessHi.setWrap (v : VideoProcessHi) (vpssGrp vpssChn : Int32) : Mpp Int32 :=
  if v.wrapEnable ∧ vpssChn = 0 then
    mpi (.vpssSetChnBufWrap vpssGrp vpssChn v.stVpssChnBufWrap)
  else return TD_SUCCESS

/-- `enable_vpss_chn` -/
def enableVpssChn (v : VideoProcessHi) (vpssGrp vpssChn : Int32)
    (chnAttr extChnAttr : Option VpssChnAttr) : Mpp Int32 := do
  if vpssGrp < 0 ∨ OT_VPSS_MAX_GRP_NUM < vpssGrp then return TD_FAILURE else
  if vpssChn < 0 ∨ OT_VPSS_MAX_CHN_NUM < vpssChn then return TD_FAILURE else
  if chnAttr = none ∧ extChnAttr = none then return TD_FAILURE else
  let ret ← setVpssChn vpssGrp vpssChn chnAttr extChnAttr
  if ret ≠ TD_SUCCESS then return ret else
  let ret ← v.setWrap vpssGrp vpssChn
  if ret ≠ TD_SUCCESS then return ret else
  let ret ← mpi (.vpssEnableChn vpssGrp vpssChn)
  if ret ≠ TD_SUCCESS then return ret else
  return TD_SUCCESS

/-- `stVpssChnAttr[vpssChn]` of `init_vpss_module` -/
def vpssChnAttr (size : Size) (depth : UInt32) (compressMode : CompressMode)
    (dstFrameRate : Int32) : VpssChnAttr where
  width := size.width
  height := size.height
  depth := depth
  compressMode := compressMode
  srcFrameRate := maxFrameRate
  dstFrameRate := dstFrameRate

/-- `init_vpss_module` -/
def initVpssModule (v : VideoProcessHi) (vpssGrp : Int32) : Mpp Int32 := do
  let ret ← mpi (.vpssCreateGrp vpssGrp
    ⟨SENSOR_MAX.width, SENSOR_MAX.height, maxFrameRate, maxFrameRate⟩)
  if ret ≠ TD_SUCCESS then return ret else
  let ret ← enableVpssChn v vpssGrp vpssChn0 (some (vpssChnAttr VI_0 0 .segCompact maxFrameRate))
    none
  if ret ≠ TD_SUCCESS then return ret else
  let ret ← enableVpssChn v vpssGrp vpssChn1 (some (vpssChnAttr VI_1 0 .none maxFrameRate)) none
  if ret ≠ TD_SUCCESS then return ret else
  let ret ← enableVpssChn v vpssGrp vpssChn2 (some (vpssChnAttr VI_2 2 .none subVpssFrameRate))
    none
  if ret ≠ TD_SUCCESS then return ret else
  let ret ← mpi (.vpssStartGrp vpssGrp)
  if ret ≠ TD_SUCCESS then return ret else
  return ret

/-- The loop of `vpss_stop` over the channels from `j` on. -/
def vpssDisable (vpssGrp : Int32) : Int32 → List Bool → Mpp Int32
  | _, [] => return TD_SUCCESS
  | j, enabled :: rest => do
    if enabled then
      let ret ← mpi (.vpssDisableChn vpssGrp j)
      if ret ≠ TD_SUCCESS then return ret else
      vpssDisable vpssGrp (j + 1) rest
    else vpssDisable vpssGrp (j + 1) rest

/-- `vpss_stop` -/
def vpssStop (vpssGrp : Int32) (chnEnable : List Bool) : Mpp Int32 := do
  let ret ← vpssDisable vpssGrp 0 chnEnable
  if ret ≠ TD_SUCCESS then return ret else
  let ret ← mpi (.vpssStopGrp vpssGrp)
  if ret ≠ TD_SUCCESS then return ret else
  let ret ← mpi (.vpssDestroyGrp vpssGrp)
  if ret ≠ TD_SUCCESS then return ret else
  return ret

/-- `bind_vi_vpss` -/
def bindViVpss (viPipe viChn vpssGrp vpssChn : Int32) : Mpp Int32 := do
  let ret ← mpi (.sysBind ⟨.vi, viPipe, viChn⟩ ⟨.vpss, vpssGrp, vpssChn⟩)
  if ret ≠ TD_SUCCESS then
    let _ ← vpssStop vpssGrp [true, true, false]
    return ret
  else return ret

/-! ## The encoder -/

/-- `pic_size_array`; nothing for `PIC_BUTT` and above. -/
def picSizeArray : PicSize → Option Size
  | .picCif => some ⟨352, 288⟩
  | .pic360P => some ⟨640, 360⟩
  | .picD1Pal => some ⟨720, 576⟩
  | .picD1Ntsc => some ⟨720, 480⟩
  | .pic960H => some ⟨960, 576⟩
  | .pic720P => some ⟨1280, 720⟩
  | .pic1080P => some ⟨1920, 1080⟩
  | .pic480P => some ⟨720, 480⟩
  | .pic576P => some ⟨720, 576⟩
  | .pic800X600 => some ⟨800, 600⟩
  | .pic1024X768 => some ⟨1024, 768⟩
  | .pic1280X1024 => some ⟨1280, 1024⟩
  | .pic1366X768 => some ⟨1366, 768⟩
  | .pic1440X900 => some ⟨1440, 900⟩
  | .pic1280X800 => some ⟨1280, 800⟩
  | .pic1600X1200 => some ⟨1600, 1200⟩
  | .pic1680X1050 => some ⟨1680, 1050⟩
  | .pic1920X1200 => some ⟨1920, 1200⟩
  | .pic640X480 => some ⟨640, 480⟩
  | .pic1920X2160 => some ⟨1920, 2160⟩
  | .pic2304X1296 => some ⟨2304, 1296⟩
  | .pic2560X1440 => some ⟨2560, 1440⟩
  | .pic2560X1600 => some ⟨2560, 1600⟩
  | .pic2592X1520 => some ⟨2592, 1520⟩
  | .pic2688X1520 => some ⟨2688, 1520⟩
  | .pic2592X1944 => some ⟨2592, 1944⟩
  | .pic3840X2160 => some ⟨3840, 2160⟩
  | .pic4096X2160 => some ⟨4096, 2160⟩
  | .pic3000X3000 => some ⟨3000, 3000⟩
  | .pic4000X3000 => some ⟨4000, 3000⟩
  | .pic6080X2800 => some ⟨6080, 2800⟩
  | .pic7680X4320 => some ⟨7680, 4320⟩
  | .pic3840X8640 => some ⟨3840, 8640⟩
  | .pic2880X1620 => some ⟨2880, 1620⟩
  | .other => none

def VencResult.code : VencResult → Int32
  | success => TD_SUCCESS
  | failure => TD_FAILURE
  | notSupport => OT_ERR_VENC_NOT_SUPPORT

/-- `Pay_load_type` -/
inductive PayLoadType
  | h264 | h265 | mjpeg | max
  deriving DecidableEq, Repr

/-- `comm_venc_set_mod_type` -/
def commVencSetModType (payloadType : PayLoadType) (modParam : VencModParam) :
    Int32 × VencModParam :=
  match payloadType with
  | .h264 => (TD_SUCCESS, { modParam with modType := .h264 })
  | .h265 => (TD_SUCCESS, { modParam with modType := .h265 })
  | .mjpeg => (TD_SUCCESS, { modParam with modType := .jpeg })
  | .max => (TD_FAILURE, modParam)

/-- `comm_venc_set_mini_buf` -/
def commVencSetMiniBuf (payloadType : PayLoadType) (modParam : VencModParam) :
    Int32 × VencModParam :=
  match payloadType with
  | .h264 | .h265 | .mjpeg => (TD_SUCCESS, { modParam with miniBufMode := 1 })
  | .max => (TD_FAILURE, modParam)

/-- The loop of `comm_venc_mini_buf_en`. The parameter is carried from one turn to the next. -/
def miniBufLoop : List PayLoadType → VencModParam → Mpp Int32
  | [], _ => return TD_SUCCESS
  | i :: rest, modParam => do
    if (commVencSetModType i modParam).1 ≠ TD_SUCCESS then return TD_FAILURE else
    let got : Int32 × VencModParam ← query (.vencGetModParam (commVencSetModType i modParam).2)
    if got.1 ≠ TD_SUCCESS then return TD_FAILURE else
    if (commVencSetMiniBuf i got.2).1 ≠ TD_SUCCESS then return TD_FAILURE else
    let ret ← mpi (.vencSetModParam (commVencSetMiniBuf i got.2).2)
    if ret ≠ TD_SUCCESS then return TD_FAILURE else
    miniBufLoop rest (commVencSetMiniBuf i got.2).2

/-- `comm_venc_mini_buf_en` -/
def commVencMiniBufEn : Mpp Int32 := miniBufLoop [.h264, .h265, .mjpeg] ⟨.unset, 0, []⟩

/-- `comm_venc_get_gop_attr`; nothing for the modes it does not support. -/
def commVencGetGopAttr : VencGopAttr → Option VencGopAttr
  | .normalP _ => some (.normalP 2)
  | .smartP .. => some (.smartP 180 4 2)
  | .smartCrr .. => some (.smartCrr 300 10 3 4 0 0)
  | .dualP .. => some (.dualP 3 2 4)
  | .bipredB .. => some (.bipredB 2 (-2) 3)
  | .advSmartP .. | .lowDelayB => none

/-- The modes whose parameters have a number of re-encodings. -/
def ChnRcMode.reencodes : ChnRcMode → Bool
  | venc .h264Abr | venc .h264Cbr | venc .h264Vbr | venc .h264Avbr | venc .h264Qvbr
  | venc .h264Cvbr | venc .h265Abr | venc .h265Cbr | venc .h265Vbr | venc .h265Avbr
  | venc .h265Qvbr | venc .h265Cvbr => true
  | svac3 .abr | svac3 .cbr | svac3 .vbr | svac3 .avbr | svac3 .qvbr | svac3 .cvbr => true
  | venc _ | svac3 _ => false

/-- `comm_venc_close_reencode` -/
def commVencCloseReencode (vencChn : Int32) : Mpp Int32 := do
  let chnAttr : Int32 × ChnRcMode ← query (.vencGetChnAttr vencChn)
  if chnAttr.1 ≠ TD_SUCCESS then return TD_FAILURE else
  let rcParam : Int32 × VencRcParam ← query (.vencGetRcParam vencChn)
  if rcParam.1 ≠ TD_SUCCESS then return TD_FAILURE else
  if chnAttr.2.reencodes = false then return TD_SUCCESS else
  let ret ← mpi (.vencSetRcParam vencChn { rcParam.2 with maxReencodeTimes := 0 })
  if ret ≠ TD_SUCCESS then return TD_FAILURE else
  return TD_SUCCESS

/-- `comm_venc_channel_param_init`, which divides by the GOP of a smart-P channel. -/
def channelParamInit (chnParam : VencChnParam) : Mpp (VencResult × VencChnParam × VencChnAttr) :=
  match commVencChannelParamInit chnParam blankChannel with
  | some r => return r
  | none => do
    let e : Empty ← query .divideByZero
    nomatch e

/-- `comm_venc_create` -/
def commVencCreate (vencChn : Int32) (chnParam : VencChnParam) : Mpp Int32 := do
  match picSizeArray chnParam.size with
  | none => return TD_FAILURE
  | some size =>
    let r ← channelParamInit { chnParam with vencSize := size }
    if r.1.code ≠ TD_SUCCESS then return r.1.code else
    let ret ← mpi (.vencCreateChn vencChn r.2.2)
    if ret ≠ TD_SUCCESS then return ret else
    if chnParam.type = .jpeg then return TD_SUCCESS else
    let ret ← commVencCloseReencode vencChn
    if ret ≠ TD_SUCCESS then
      let _ ← mpi (.vencDestroyChn vencChn)
      return ret
    else return ret

/-- `comm_venc_start` -/
def commVencStart (vencChn : Int32) (chnParam : VencChnParam) : Mpp Int32 := do
  let ret ← commVencCreate vencChn chnParam
  if ret ≠ TD_SUCCESS then return TD_FAILURE else
  let ret ← mpi (.vencStartChn vencChn (-1))
  if ret ≠ TD_SUCCESS then
    let _ ← mpi (.vencDestroyChn vencChn)
    return TD_FAILURE
  else return ret

/-- The parameters that `venc_set_video_param` sets for one channel. -/
def vencVideoParam (frameRate : UInt32) (type : PayloadType) (size : PicSize)
    (gopAttr : VencGopAttr) : VencChnParam where
  frameRate := frameRate
  statsTime := 2
  gop := 60
  size := size
  vencSize := ⟨0, 0⟩
  profile := 0
  isRcnRefShareBuf := true
  gopAttr := gopAttr
  type := type
  rcMode := .cbr

/-- `venc_set_video_param`: the parameters of channels 0, 1 and 2; nothing where there is no room
for them. -/
def vencSetVideoParam (chnNum : UInt32) (gopAttr : VencGopAttr) :
    Option (VencChnParam × VencChnParam × VencChnParam) :=
  if chnNum ≤ 2 then none
  else some (vencVideoParam 30 .h265 .pic2560X1440 gopAttr,
    vencVideoParam 30 .h264 .pic720P gopAttr,
    vencVideoParam subVencFrameRate .mjpeg .pic360P gopAttr)

/-- `bind_vpss_venc` -/
def bindVpssVenc (vpssGrp vpssChn vencChn : Int32) : Mpp Int32 := do
  let ret ← mpi (.sysBind ⟨.vpss, vpssGrp, vpssChn⟩ ⟨.venc, 0, vencChn⟩)
  if ret ≠ TD_SUCCESS then return TD_FAILURE else
  return TD_SUCCESS

/-- The encoder channels of `venc_start_encode`. Channel 2 is fed by VPSS channel 1 too. -/
def startChannels (vpssGrp : Int32) (p0 p1 p2 : VencChnParam) : Mpp Int32 := do
  let ret ← commVencStart 0 p0
  if ret ≠ TD_SUCCESS then return TD_FAILURE else
  let ret ← bindVpssVenc vpssGrp vpssChn0 0
  if ret ≠ TD_SUCCESS then return TD_FAILURE else
  let ret ← commVencStart 1 p1
  if ret ≠ TD_SUCCESS then return TD_FAILURE else
  let ret ← bindVpssVenc vpssGrp vpssChn1 1
  if ret ≠ TD_SUCCESS then return TD_FAILURE else
  let ret ← commVencStart 2 p2
  if ret ≠ TD_SUCCESS then return TD_FAILURE else
  let ret ← bindVpssVenc vpssGrp vpssChn1 2
  if ret ≠ TD_SUCCESS then return TD_FAILURE else
  return ret

/-- `venc_start_encode` -/
def vencStartEncode (vpssGrp : Int32) : Mpp Int32 := do
  match commVencGetGopAttr (.normalP 0) with
  | none => return TD_FAILURE
  | some gopAttr =>
    let ret ← commVencMiniBufEn
    if ret ≠ TD_SUCCESS then return TD_FAILURE else
    match vencSetVideoParam 3 gopAttr with
    | none => return TD_FAILURE
    | some (p0, p1, p2) => startChannels vpssGrp p0 p1 p2

/-! ## The pipeline -/

/-- `videoProcessHi::init` -/
def VideoProcessHi.init (sizes : BufSizes) (v : VideoProcessHi) :
    Mpp (Int32 × VideoProcessHi) := do
  let r ← hiMppSysInit sizes v
  if r.1 ≠ TD_SUCCESS then return r else
  let ret ← hiMppViInit r.2 0 0
  if ret ≠ TD_SUCCESS then return (ret, r.2) else
  let ret ← initVpssModule r.2 0
  if ret ≠ TD_SUCCESS then return (ret, r.2) else
  let ret ← bindViVpss 0 0 0 0
  if ret ≠ TD_SUCCESS then return (ret, r.2) else
  let ret ← vencStartEncode 0
  if ret ≠ TD_SUCCESS then return (ret, r.2) else
  return (ret, r.2)

end Eye
