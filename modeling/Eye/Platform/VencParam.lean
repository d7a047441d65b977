import Mathlib.Data.Nat.Notation

/-!
# The parameters of an encoder channel

The driver's `ot_venc_chn_attr`, as far as it is filled in, and the functions of `video_venc_hi`,
one for each codec and rate-control mode. Each writes the tag of `rc_attr` and the member of its
union. Numbers are the 32-bit words of the code; a bit rate is computed in 64 bits and cut down.

`PicSize` and the two mode enumerations have a value `other` for what lies outside them.
-/

namespace Eye

/-- `PicSize` -/
inductive PicSize
  | picCif | pic360P | picD1Pal | picD1Ntsc | pic960H | pic720P | pic1080P | pic480P | pic576P
  | pic800X600 | pic1024X768 | pic1280X1024 | pic1366X768 | pic1440X900 | pic1280X800
  | pic1600X1200 | pic1680X1050 | pic1920X1200 | pic640X480 | pic1920X2160 | pic2304X1296
  | pic2560X1440 | pic2560X1600 | pic2592X1520 | pic2688X1520 | pic2592X1944 | pic3840X2160
  | pic4096X2160 | pic3000X3000 | pic4000X3000 | pic6080X2800 | pic7680X4320 | pic3840X8640
  | pic2880X1620 | other
  deriving DecidableEq, Repr

/-- `Size` -/
structure Size where
  width : UInt32
  height : UInt32
  deriving DecidableEq, Repr

/-- `ot_payload_type`, as far as the code tells the types apart. -/
inductive PayloadType
  | h264 | h265 | mjpeg | jpeg | svac3 | other
  deriving DecidableEq, Repr

/-- `rc_mode` -/
inductive RcMode
  | abr | cbr | vbr | avbr | cvbr | qvbr | qpmap | fixqp | other
  deriving DecidableEq, Repr

/-- `ot_venc_rc_mode`, SVAC3's among the others. -/
inductive VencRcMode
  | h264Abr | h264Cbr | h264Vbr | h264Avbr | h264Qvbr | h264Cvbr | h264Fixqp | h264Qpmap
  | mjpegCbr | mjpegVbr | mjpegFixqp
  | h265Abr | h265Cbr | h265Vbr | h265Avbr | h265Qvbr | h265Cvbr | h265Fixqp | h265Qpmap
  | other
  deriving DecidableEq, Repr

/-- `ot_venc_rc_qpmap_mode` -/
inductive VencRcQpmapMode
  | meanQp | minQp | maxQp
  deriving DecidableEq, Repr

/-! ## Members of `ot_venc_rc_attr` -/

/-- `ot_venc_h264_fixqp`, and `ot_venc_h265_fixqp` -/
structure VencFixqp where
  gop : UInt32
  srcFrameRate : UInt32
  dstFrameRate : UInt32
  iQp : UInt32
  pQp : UInt32
  bQp : UInt32
  deriving DecidableEq, Repr

/-- `ot_venc_h264_abr`, and `ot_venc_h265_abr` -/
structure VencAbr where
  gop : UInt32
  statsTime : UInt32
  srcFrameRate : UInt32
  dstFrameRate : UInt32
  bitRate : UInt32
  vbvBufDelay : UInt32
  deriving DecidableEq, Repr

/-- `ot_venc_h264_cbr`, and `ot_venc_h265_cbr` -/
structure VencCbr where
  gop : UInt32
  statsTime : UInt32
  srcFrameRate : UInt32
  dstFrameRate : UInt32
  bitRate : UInt32
  deriving DecidableEq, Repr

/-- `ot_venc_h264_vbr`, `ot_venc_h264_avbr`, and the same for H.265 -/
structure VencVbr where
  gop : UInt32
  statsTime : UInt32
  srcFrameRate : UInt32
  dstFrameRate : UInt32
  maxBitRate : UInt32
  deriving DecidableEq, Repr

/-- `ot_venc_h264_cvbr`, and `ot_venc_h265_cvbr` -/
structure VencCvbr where
  gop : UInt32
  statsTime : UInt32
  srcFrameRate : UInt32
  dstFrameRate : UInt32
  maxBitRate : UInt32
  shortTermStatsTime : UInt32
  longTermStatsTime : UInt32
  longTermMaxBitRate : UInt32
  longTermMinBitRate : UInt32
  deriving DecidableEq, Repr

/-- `ot_venc_h264_qvbr`, and `ot_venc_h265_qvbr` -/
structure VencQvbr where
  gop : UInt32
  statsTime : UInt32
  srcFrameRate : UInt32
  dstFrameRate : UInt32
  targetBitRate : UInt32
  deriving DecidableEq, Repr

/-- `ot_venc_h264_qpmap` -/
structure VencH264Qpmap where
  gop : UInt32
  statsTime : UInt32
  srcFrameRate : UInt32
  dstFrameRate : UInt32
  deriving DecidableEq, Repr

/-- `ot_venc_h265_qpmap` -/
structure VencH265Qpmap where
  gop : UInt32
  statsTime : UInt32
  srcFrameRate : UInt32
  dstFrameRate : UInt32
  qpmapMode : VencRcQpmapMode
  deriving DecidableEq, Repr

/-- `ot_venc_mjpeg_fixqp` -/
structure VencMjpegFixqp where
  srcFrameRate : UInt32
  dstFrameRate : UInt32
  qfactor : UInt32
  deriving DecidableEq, Repr

/-- `ot_venc_mjpeg_cbr` -/
structure VencMjpegCbr where
  statsTime : UInt32
  srcFrameRate : UInt32
  dstFrameRate : UInt32
  bitRate : UInt32
  deriving DecidableEq, Repr

/-- `ot_venc_mjpeg_vbr` -/
structure VencMjpegVbr where
  statsTime : UInt32
  srcFrameRate : UInt32
  dstFrameRate : UInt32
  maxBitRate : UInt32
  deriving DecidableEq, Repr

/-- The union of `ot_venc_rc_attr`: the member that was written last. -/
inductive RcMember
  | h264Abr (m : VencAbr)
  | h264Cbr (m : VencCbr)
  | h264Vbr (m : VencVbr)
  | h264Avbr (m : VencVbr)
  | h264Qvbr (m : VencQvbr)
  | h264Cvbr (m : VencCvbr)
  | h264Fixqp (m : VencFixqp)
  | h264Qpmap (m : VencH264Qpmap)
  | mjpegCbr (m : VencMjpegCbr)
  | mjpegVbr (m : VencMjpegVbr)
  | mjpegFixqp (m : VencMjpegFixqp)
  | h265Abr (m : VencAbr)
  | h265Cbr (m : VencCbr)
  | h265Vbr (m : VencVbr)
  | h265Avbr (m : VencVbr)
  | h265Qvbr (m : VencQvbr)
  | h265Cvbr (m : VencCvbr)
  | h265Fixqp (m : VencFixqp)
  | h265Qpmap (m : VencH265Qpmap)
  deriving DecidableEq, Repr

/-- `ot_venc_rc_attr` -/
structure VencRcAttr where
  rcMode : VencRcMode
  member : RcMember
  deriving DecidableEq, Repr

/-! ## `ot_venc_chn_attr` -/

/-- `ot_venc_gop_attr`, with the member of its union that the mode names. -/
inductive VencGopAttr
  | normalP (ipQpDelta : Int32)
  | dualP (spInterval : UInt32) (spQpDelta ipQpDelta : Int32)
  | smartP (bgInterval : UInt32) (bgQpDelta viQpDelta : Int32)
  | advSmartP (bgInterval : UInt32) (bgQpDelta viQpDelta : Int32)
  | bipredB (bFrameNum : UInt32) (bQpDelta ipQpDelta : Int32)
  | lowDelayB
  | smartCrr (bgInterval : UInt32) (bgQpDelta viQpDelta crrSplitNum crrDelayNum : Int32)
      (strategy : UInt32)
  deriving DecidableEq

/-- `ot_venc_h264_attr` and `ot_venc_h265_attr`, which are laid out alike. -/
structure VencCodecAttr where
  rcnRefShareBufEn : Bool
  frameBufRatio : UInt32
  deriving DecidableEq, Repr

/-- `ot_venc_attr` -/
structure VencAttr where
  type : PayloadType
  maxPicWidth : UInt32
  maxPicHeight : UInt32
  bufSize : UInt32
  profile : UInt32
  isByFrame : Bool
  picWidth : UInt32
  picHeight : UInt32
  codecAttr : VencCodecAttr
  deriving DecidableEq, Repr

/-- `ot_venc_chn_attr` -/
structure VencChnAttr where
  vencAttr : VencAttr
  rcAttr : VencRcAttr
  gopAttr : VencGopAttr
  deriving DecidableEq

/-- The tag and the member of `rc_attr` are written. -/
def VencChnAttr.setRc (a : VencChnAttr) (rcMode : VencRcMode) (member : RcMember) : VencChnAttr :=
  { a with rcAttr := ⟨rcMode, member⟩ }

/-! ## Bit rates -/

/-- `pic_width * pic_height`, in 32 bits -/
def VencChnAttr.pixels (a : VencChnAttr) : UInt32 := a.vencAttr.picWidth * a.vencAttr.picHeight

/-- `((td_u64)fhd * (pic_width * pic_height)) / (1920 * 1080)`: a bit rate for full HD, scaled to
the picture. -/
def VencChnAttr.scaledBitRate (a : VencChnAttr) (fhd : UInt64) : UInt32 :=
  (fhd * a.pixels.toUInt64 / (1920 * 1080)).toUInt32

/-- The three bit rates of a CVBR member. -/
def VencCvbr.setBitRates (m : VencCvbr) (max longTermMax longTermMin : UInt32) : VencCvbr :=
  { m with
    maxBitRate := max
    longTermMaxBitRate := longTermMax
    longTermMinBitRate := longTermMin }

/-- The bit rates of CVBR by picture size; `fhd` is the codec's bit rate for full HD. -/
def setCvbrBitRate (fhd : UInt64) (a : VencChnAttr) (m : VencCvbr) (frameRate : UInt32) :
    PicSize → VencCvbr
  | .picD1Ntsc => m.setBitRates (1024 + 512 * frameRate / 30) (1024 + 512 * frameRate / 30) 256
  | .pic720P =>
    m.setBitRates (1024 * 2 + 1024 * frameRate / 30) (1024 * 2 + 1024 * frameRate / 30) 512
  | .pic1080P =>
    m.setBitRates (1024 * 2 + 2048 * frameRate / 30) (1024 * 2 + 2048 * frameRate / 30) 1024
  | .pic2304X1296 =>
    m.setBitRates (1024 * 3 + 3072 * frameRate / 30) (1024 * 3 + 3072 * frameRate / 30) (1024 * 2)
  | .pic2592X1944 =>
    m.setBitRates (1024 * 4 + 3072 * frameRate / 30) (1024 * 3 + 3072 * frameRate / 30) (1024 * 2)
  | .pic3840X2160 =>
    m.setBitRates (1024 * 8 + 5120 * frameRate / 30) (1024 * 5 + 5120 * frameRate / 30) (1024 * 3)
  | .pic4000X3000 =>
    m.setBitRates (1024 * 12 + 5120 * frameRate / 30) (1024 * 10 + 5120 * frameRate / 30) (1024 * 4)
  | .pic7680X4320 =>
    m.setBitRates (1024 * 24 + 5120 * frameRate / 30) (1024 * 15 + 5120 * frameRate / 30) (1024 * 5)
  | _ => m.setBitRates (a.scaledBitRate fhd) (a.scaledBitRate fhd) (1024 * 5)

/-- `comm_venc_set_h265_cvbr_bit_rate` -/
def commVencSetH265CvbrBitRate : VencChnAttr → VencCvbr → UInt32 → PicSize → VencCvbr :=
  setCvbrBitRate 3072

/-- `comm_venc_set_h264_cvbr_bit_rate` -/
def commVencSetH264CvbrBitRate : VencChnAttr → VencCvbr → UInt32 → PicSize → VencCvbr :=
  setCvbrBitRate 4096

/-! ## H.264 and H.265 -/

section Members

variable (fhd : UInt64) (a : VencChnAttr) (gop statsTime frameRate : UInt32)

def abrMember : VencAbr where
  gop := gop
  statsTime := statsTime
  srcFrameRate := frameRate
  dstFrameRate := frameRate
  vbvBufDelay := 50
  bitRate := a.scaledBitRate fhd

def cbrMember : VencCbr where
  gop := gop
  statsTime := statsTime
  srcFrameRate := frameRate
  dstFrameRate := frameRate
  bitRate := a.scaledBitRate fhd

def fixqpMember : VencFixqp where
  gop := gop
  srcFrameRate := frameRate
  dstFrameRate := frameRate
  iQp := 25
  pQp := 30
  bQp := 32

/-- Of VBR and of AVBR. -/
def vbrMember : VencVbr where
  gop := gop
  statsTime := statsTime
  srcFrameRate := frameRate
  dstFrameRate := frameRate
  maxBitRate := a.scaledBitRate fhd

/-- Before its bit rates are set, which is done for every size. -/
def cvbrMember : VencCvbr where
  gop := gop
  statsTime := statsTime
  srcFrameRate := frameRate
  dstFrameRate := frameRate
  longTermStatsTime := 1
  shortTermStatsTime := statsTime
  maxBitRate := 0
  longTermMaxBitRate := 0
  longTermMinBitRate := 0

def qvbrMember : VencQvbr where
  gop := gop
  statsTime := statsTime
  srcFrameRate := frameRate
  dstFrameRate := frameRate
  targetBitRate := a.scaledBitRate fhd

end Members

section Initialisers

variable (a : VencChnAttr) (gop statsTime frameRate : UInt32)

/-- `comm_venc_h265_abr_param_init` -/
def commVencH265AbrParamInit : VencChnAttr :=
  a.setRc .h265Abr (.h265Abr (abrMember 3072 a gop statsTime frameRate))

/-- `comm_venc_h265_cbr_param_init` -/
def commVencH265CbrParamInit : VencChnAttr :=
  a.setRc .h265Cbr (.h265Cbr (cbrMember 3072 a gop statsTime frameRate))

/-- `comm_venc_h265_fixqp_param_init` -/
def commVencH265FixqpParamInit : VencChnAttr :=
  a.setRc .h265Fixqp (.h265Fixqp (fixqpMember gop frameRate))

/-- `comm_venc_h265_vbr_param_init` -/
def commVencH265VbrParamInit : VencChnAttr :=
  a.setRc .h265Vbr (.h265Vbr (vbrMember 3072 a gop statsTime frameRate))

/-- `comm_venc_h265_avbr_param_init` -/
def commVencH265AvbrParamInit : VencChnAttr :=
  a.setRc .h265Avbr (.h265Avbr (vbrMember 3072 a gop statsTime frameRate))

/-- `comm_venc_h265_cvbr_param_init` -/
def commVencH265CvbrParamInit (size : PicSize) : VencChnAttr :=
  a.setRc .h265Cvbr (.h265Cvbr
    (commVencSetH265CvbrBitRate a (cvbrMember gop statsTime frameRate) frameRate size))

/-- `comm_venc_h265_qvbr_param_init` -/
def commVencH265QvbrParamInit : VencChnAttr :=
  a.setRc .h265Qvbr (.h265Qvbr (qvbrMember 3072 a gop statsTime frameRate))

/-- `comm_venc_h265_qpmap_param_init` -/
def commVencH265QpmapParamInit : VencChnAttr :=
  a.setRc .h265Qpmap (.h265Qpmap ⟨gop, statsTime, frameRate, frameRate, .meanQp⟩)

/-- `comm_venc_h264_abr_param_init` -/
def commVencH264AbrParamInit : VencChnAttr :=
  a.setRc .h264Abr (.h264Abr (abrMember 4096 a gop statsTime frameRate))

/-- `comm_venc_h264_cbr_param_init` -/
def commVencH264CbrParamInit : VencChnAttr :=
  a.setRc .h264Cbr (.h264Cbr (cbrMember 4096 a gop statsTime frameRate))

/-- `comm_venc_h264_fixqp_param_init` -/
def commVencH264FixqpParamInit : VencChnAttr :=
  a.setRc .h264Fixqp (.h264Fixqp (fixqpMember gop frameRate))

/-- `comm_venc_h264_vbr_param_init` -/
def commVencH264VbrParamInit : VencChnAttr :=
  a.setRc .h264Vbr (.h264Vbr (vbrMember 4096 a gop statsTime frameRate))

/-- `comm_venc_h264_avbr_param_init` -/
def commVencH264AvbrParamInit : VencChnAttr :=
  a.setRc .h264Avbr (.h264Avbr (vbrMember 4096 a gop statsTime frameRate))

/-- `comm_venc_h264_cvbr_param_init` -/
def commVencH264CvbrParamInit (size : PicSize) : VencChnAttr :=
  a.setRc .h264Cvbr (.h264Cvbr
    (commVencSetH264CvbrBitRate a (cvbrMember gop statsTime frameRate) frameRate size))

/-- `comm_venc_h264_qvbr_param_init` -/
def commVencH264QvbrParamInit : VencChnAttr :=
  a.setRc .h264Qvbr (.h264Qvbr (qvbrMember 4096 a gop statsTime frameRate))

/-- `comm_venc_h264_qpmap_param_init` -/
def commVencH264QpmapParamInit : VencChnAttr :=
  a.setRc .h264Qpmap (.h264Qpmap ⟨gop, statsTime, frameRate, frameRate⟩)

/-! ## MJPEG -/

/-- `comm_venc_mjpeg_fixqp_param_init` -/
def commVencMjpegFixqpParamInit : VencChnAttr :=
  a.setRc .mjpegFixqp (.mjpegFixqp ⟨frameRate, frameRate, 50⟩)

/-- `comm_venc_mjpeg_cbr_param_init` -/
def commVencMjpegCbrParamInit : VencChnAttr :=
  a.setRc .mjpegCbr (.mjpegCbr ⟨statsTime, frameRate, frameRate, a.scaledBitRate 20480⟩)

/-- `comm_venc_mjpeg_vbr_param_init` -/
def commVencMjpegVbrParamInit : VencChnAttr :=
  a.setRc .mjpegVbr (.mjpegVbr ⟨statsTime, frameRate, frameRate, a.scaledBitRate 20480⟩)

end Initialisers

end Eye
