import Mathlib.Tactic.Set
import Mathlib.Tactic.SplitIfs
import Eye.Platform.VencParam

/-!
# Setting up an encoder channel

`comm_venc_channel_param_init` and the functions it picks by payload type and rate-control mode.
`rcAttr_reached_iff` is about all of them: whatever the parameters, the tag of `rc_attr` and the
member it names are those of the codec and the mode, and the member holds the channel's GOP,
statistics time and frame rate, but for QPMAP, where the last two change places.
-/

namespace Eye

/-- `venc_chn_param` -/
structure VencChnParam where
  frameRate : UInt32
  statsTime : UInt32
  gop : UInt32
  size : PicSize
  vencSize : Size
  profile : UInt32
  isRcnRefShareBuf : Bool
  gopAttr : VencGopAttr
  type : PayloadType
  rcMode : RcMode
  deriving DecidableEq

/-- `TD_SUCCESS`, `TD_FAILURE`, `OT_ERR_VENC_NOT_SUPPORT` -/
inductive VencResult
  | success | failure | notSupport
  deriving DecidableEq, Repr

/-- `OT_ALIGN_UP` -/
def alignUp (x a : UInt32) : UInt32 := (x + (a - 1)) / a * a

/-! ## Picking the initialiser -/

/-- The initialisers of a codec. -/
structure CodecInits where
  abr : VencChnAttr → UInt32 → UInt32 → UInt32 → VencChnAttr
  cbr : VencChnAttr → UInt32 → UInt32 → UInt32 → VencChnAttr
  fixqp : VencChnAttr → UInt32 → UInt32 → VencChnAttr
  vbr : VencChnAttr → UInt32 → UInt32 → UInt32 → VencChnAttr
  avbr : VencChnAttr → UInt32 → UInt32 → UInt32 → VencChnAttr
  cvbr : VencChnAttr → UInt32 → UInt32 → UInt32 → PicSize → VencChnAttr
  qvbr : VencChnAttr → UInt32 → UInt32 → UInt32 → VencChnAttr
  qpmap : VencChnAttr → UInt32 → UInt32 → UInt32 → VencChnAttr

/-- `rcn_ref_share_buf_en` is set. -/
def VencChnAttr.setShareBuf (a : VencChnAttr) (en : Bool) : VencChnAttr :=
  { a with vencAttr := { a.vencAttr with codecAttr := { a.vencAttr.codecAttr with
      rcnRefShareBufEn := en } } }

/-- `frame_buf_ratio` is set. -/
def VencChnAttr.setFrameBufRatio (a : VencChnAttr) (ratio : UInt32) : VencChnAttr :=
  { a with vencAttr := { a.vencAttr with codecAttr := { a.vencAttr.codecAttr with
      frameBufRatio := ratio } } }

/-- The body that `comm_venc_h265_param_init` and `comm_venc_h264_param_init` share. The statistics
time and the frame rate of QPMAP are passed in the other order. -/
def codecParamInit (inits : CodecInits) (a : VencChnAttr) (p : VencChnParam) :
    VencResult × VencChnAttr :=
  let a := a.setFrameBufRatio 75
  let succeed (a : VencChnAttr) := (VencResult.success, a.setShareBuf p.isRcnRefShareBuf)
  match p.rcMode with
  | .abr => succeed (inits.abr a p.gop p.statsTime p.frameRate)
  | .cbr => succeed (inits.cbr a p.gop p.statsTime p.frameRate)
  | .fixqp => succeed (inits.fixqp a p.gop p.frameRate)
  | .vbr => succeed (inits.vbr a p.gop p.statsTime p.frameRate)
  | .avbr => succeed (inits.avbr a p.gop p.statsTime p.frameRate)
  | .cvbr => succeed (inits.cvbr a p.gop p.statsTime p.frameRate p.size)
  | .qvbr => succeed (inits.qvbr a p.gop p.statsTime p.frameRate)
  | .qpmap => succeed (inits.qpmap a p.gop p.frameRate p.statsTime)
  | .other => (.failure, a)

def h265Inits : CodecInits where
  abr := commVencH265AbrParamInit
  cbr := commVencH265CbrParamInit
  fixqp := commVencH265FixqpParamInit
  vbr := commVencH265VbrParamInit
  avbr := commVencH265AvbrParamInit
  cvbr := commVencH265CvbrParamInit
  qvbr := commVencH265QvbrParamInit
  qpmap := commVencH265QpmapParamInit

def h264Inits : CodecInits where
  abr := commVencH264AbrParamInit
  cbr := commVencH264CbrParamInit
  fixqp := commVencH264FixqpParamInit
  vbr := commVencH264VbrParamInit
  avbr := commVencH264AvbrParamInit
  cvbr := commVencH264CvbrParamInit
  qvbr := commVencH264QvbrParamInit
  qpmap := commVencH264QpmapParamInit

/-- `comm_venc_h265_param_init` -/
def commVencH265ParamInit : VencChnAttr → VencChnParam → VencResult × VencChnAttr :=
  codecParamInit h265Inits

/-- `comm_venc_h264_param_init` -/
def commVencH264ParamInit : VencChnAttr → VencChnParam → VencResult × VencChnAttr :=
  codecParamInit h264Inits

/-- `comm_venc_mjpeg_param_init` -/
def commVencMjpegParamInit (a : VencChnAttr) (p : VencChnParam) : VencResult × VencChnAttr :=
  match p.rcMode with
  | .fixqp => (.success, commVencMjpegFixqpParamInit a p.frameRate)
  | .cbr => (.success, commVencMjpegCbrParamInit a p.statsTime p.frameRate)
  | .vbr | .avbr => (.success, commVencMjpegVbrParamInit a p.statsTime p.frameRate)
  | _ => (.failure, a)

/-! ## The channel -/

/-- `comm_venc_set_gop_attr` -/
def commVencSetGopAttr (type : PayloadType) (a : VencChnAttr) (gopAttr : VencGopAttr) :
    VencChnAttr :=
  if type = .mjpeg ∨ type = .jpeg then { a with gopAttr := .normalP 0 }
  else
    let a := { a with gopAttr := gopAttr }
    match gopAttr, type with
    | .bipredB .., .h264 =>
      if a.vencAttr.profile = 0 then { a with vencAttr := { a.vencAttr with profile := 1 } } else a
    | _, _ => a

/-- What `comm_venc_channel_param_init` writes into `venc_attr`. -/
def VencChnParam.fill (p : VencChnParam) (a : VencChnAttr) : VencChnAttr :=
  { a with
    vencAttr :=
      { a.vencAttr with
        type := p.type
        maxPicWidth := p.vencSize.width
        maxPicHeight := p.vencSize.height
        picWidth := p.vencSize.width
        picHeight := p.vencSize.height
        bufSize :=
          if p.type = .mjpeg ∨ p.type = .jpeg then
            alignUp p.vencSize.width 16 * alignUp p.vencSize.height 16 * 4
          else alignUp (p.vencSize.width * p.vencSize.height * 3 / 4) 64
        profile := p.profile
        isByFrame := true } }

/-- The statistics time of a smart-P channel is computed anew; `none` where that divides by zero. -/
def VencChnParam.computeStatsTime (p : VencChnParam) : Option VencChnParam :=
  match p.gopAttr with
  | .smartP bgInterval _ _ =>
    if p.gop = 0 then none else some { p with statsTime := bgInterval / p.gop }
  | _ => some p

/-- The switch over the payload types; `none` where the function returns at once. -/
def initByType (p : VencChnParam) (a : VencChnAttr) : Option (VencResult × VencChnAttr) :=
  match p.type with
  | .h265 => some (commVencH265ParamInit a p)
  | .h264 => some (commVencH264ParamInit a p)
  | .mjpeg => some (commVencMjpegParamInit a p)
  | .jpeg | .svac3 => some (.success, a)
  | .other => none

/-- `comm_venc_channel_param_init`, which changes both of its arguments. -/
def commVencChannelParamInit (p : VencChnParam) (a : VencChnAttr) :
    Option (VencResult × VencChnParam × VencChnAttr) :=
  p.computeStatsTime.map fun p =>
    match initByType p (p.fill a) with
    | some (result, a) => (result, p, commVencSetGopAttr p.type a p.gopAttr)
    | none => (.notSupport, p, p.fill a)

/-! ## What a member holds -/

/-- The fields that come from the channel's parameters, as far as a member has them. -/
structure RcFields where
  gop : Option UInt32
  statsTime : Option UInt32
  srcFrameRate : UInt32
  dstFrameRate : UInt32
  deriving DecidableEq

def RcMember.fields : RcMember → RcFields
  | .h264Abr m | .h265Abr m => ⟨some m.gop, some m.statsTime, m.srcFrameRate, m.dstFrameRate⟩
  | .h264Cbr m | .h265Cbr m => ⟨some m.gop, some m.statsTime, m.srcFrameRate, m.dstFrameRate⟩
  | .h264Vbr m | .h265Vbr m | .h264Avbr m | .h265Avbr m =>
    ⟨some m.gop, some m.statsTime, m.srcFrameRate, m.dstFrameRate⟩
  | .h264Qvbr m | .h265Qvbr m => ⟨some m.gop, some m.statsTime, m.srcFrameRate, m.dstFrameRate⟩
  | .h264Cvbr m | .h265Cvbr m => ⟨some m.gop, some m.statsTime, m.srcFrameRate, m.dstFrameRate⟩
  | .h264Fixqp m | .h265Fixqp m => ⟨some m.gop, none, m.srcFrameRate, m.dstFrameRate⟩
  | .h264Qpmap m => ⟨some m.gop, some m.statsTime, m.srcFrameRate, m.dstFrameRate⟩
  | .h265Qpmap m => ⟨some m.gop, some m.statsTime, m.srcFrameRate, m.dstFrameRate⟩
  | .mjpegCbr m => ⟨none, some m.statsTime, m.srcFrameRate, m.dstFrameRate⟩
  | .mjpegVbr m => ⟨none, some m.statsTime, m.srcFrameRate, m.dstFrameRate⟩
  | .mjpegFixqp m => ⟨none, none, m.srcFrameRate, m.dstFrameRate⟩

/-- The tag that names a member. -/
def RcMember.tag : RcMember → VencRcMode
  | .h264Abr _ => .h264Abr
  | .h264Cbr _ => .h264Cbr
  | .h264Vbr _ => .h264Vbr
  | .h264Avbr _ => .h264Avbr
  | .h264Qvbr _ => .h264Qvbr
  | .h264Cvbr _ => .h264Cvbr
  | .h264Fixqp _ => .h264Fixqp
  | .h264Qpmap _ => .h264Qpmap
  | .mjpegCbr _ => .mjpegCbr
  | .mjpegVbr _ => .mjpegVbr
  | .mjpegFixqp _ => .mjpegFixqp
  | .h265Abr _ => .h265Abr
  | .h265Cbr _ => .h265Cbr
  | .h265Vbr _ => .h265Vbr
  | .h265Avbr _ => .h265Avbr
  | .h265Qvbr _ => .h265Qvbr
  | .h265Cvbr _ => .h265Cvbr
  | .h265Fixqp _ => .h265Fixqp
  | .h265Qpmap _ => .h265Qpmap

/-- The tag of a mode of a codec, if the codec supports it; MJPEG has VBR for AVBR. -/
def tagOf : PayloadType → RcMode → Option VencRcMode
  | .h264, .abr => some .h264Abr
  | .h264, .cbr => some .h264Cbr
  | .h264, .vbr => some .h264Vbr
  | .h264, .avbr => some .h264Avbr
  | .h264, .cvbr => some .h264Cvbr
  | .h264, .qvbr => some .h264Qvbr
  | .h264, .qpmap => some .h264Qpmap
  | .h264, .fixqp => some .h264Fixqp
  | .h265, .abr => some .h265Abr
  | .h265, .cbr => some .h265Cbr
  | .h265, .vbr => some .h265Vbr
  | .h265, .avbr => some .h265Avbr
  | .h265, .cvbr => some .h265Cvbr
  | .h265, .qvbr => some .h265Qvbr
  | .h265, .qpmap => some .h265Qpmap
  | .h265, .fixqp => some .h265Fixqp
  | .mjpeg, .cbr => some .mjpegCbr
  | .mjpeg, .vbr | .mjpeg, .avbr => some .mjpegVbr
  | .mjpeg, .fixqp => some .mjpegFixqp
  | _, _ => none

theorem tagOf_other (type : PayloadType) : tagOf type .other = none := by cases type <;> rfl

/-- The channel's statistics time: of a smart-P channel, how many GOPs a background interval has. -/
def VencChnParam.channelStatsTime (p : VencChnParam) : UInt32 :=
  match p.gopAttr with
  | .smartP bgInterval _ _ => bgInterval / p.gop
  | _ => p.statsTime

/-- The tag is the one for the codec and the mode, and the member that it names holds the channel's
GOP, statistics time and frame rate, as far as it has the fields. -/
structure Reached (p : VencChnParam) (rc : VencRcAttr) : Prop where
  tag : tagOf p.type p.rcMode = some rc.rcMode
  named : rc.member.tag = rc.rcMode
  gop : ∀ gop ∈ rc.member.fields.gop, gop = p.gop
  statsTime : ∀ statsTime ∈ rc.member.fields.statsTime, statsTime = p.channelStatsTime
  srcFrameRate : rc.member.fields.srcFrameRate = p.frameRate
  dstFrameRate : rc.member.fields.dstFrameRate = p.frameRate

/-! ## What an initialiser writes -/

/-- The tag and the fields of the member that it names. -/
structure Wrote (rc : VencRcAttr) (tag : Option VencRcMode) (fields : RcFields) : Prop where
  tag : tag = some rc.rcMode
  named : rc.member.tag = rc.rcMode
  fields : rc.member.fields = fields

/-- Each initialiser writes the tag of its codec and mode, and its arguments into the fields of
their names. -/
structure CodecInits.Sound (inits : CodecInits) (type : PayloadType) : Prop where
  abr : ∀ a gop st fr,
    Wrote (inits.abr a gop st fr).rcAttr (tagOf type .abr) ⟨some gop, some st, fr, fr⟩
  cbr : ∀ a gop st fr,
    Wrote (inits.cbr a gop st fr).rcAttr (tagOf type .cbr) ⟨some gop, some st, fr, fr⟩
  fixqp : ∀ a gop fr,
    Wrote (inits.fixqp a gop fr).rcAttr (tagOf type .fixqp) ⟨some gop, none, fr, fr⟩
  vbr : ∀ a gop st fr,
    Wrote (inits.vbr a gop st fr).rcAttr (tagOf type .vbr) ⟨some gop, some st, fr, fr⟩
  avbr : ∀ a gop st fr,
    Wrote (inits.avbr a gop st fr).rcAttr (tagOf type .avbr) ⟨some gop, some st, fr, fr⟩
  cvbr : ∀ a gop st fr size,
    Wrote (inits.cvbr a gop st fr size).rcAttr (tagOf type .cvbr) ⟨some gop, some st, fr, fr⟩
  qvbr : ∀ a gop st fr,
    Wrote (inits.qvbr a gop st fr).rcAttr (tagOf type .qvbr) ⟨some gop, some st, fr, fr⟩
  qpmap : ∀ a gop st fr,
    Wrote (inits.qpmap a gop st fr).rcAttr (tagOf type .qpmap) ⟨some gop, some st, fr, fr⟩

theorem setCvbrBitRate_eq (fhd : UInt64) (a : VencChnAttr) (m : VencCvbr) (frameRate : UInt32)
    (size : PicSize) :
    ∃ max longTermMax longTermMin,
      setCvbrBitRate fhd a m frameRate size = m.setBitRates max longTermMax longTermMin := by
  cases size <;> exact ⟨_, _, _, rfl⟩

theorem fields_h265Cvbr (a : VencChnAttr) (m : VencCvbr) (frameRate : UInt32) (size : PicSize) :
    (RcMember.h265Cvbr (commVencSetH265CvbrBitRate a m frameRate size)).fields =
      (RcMember.h265Cvbr m).fields := by
  obtain ⟨_, _, _, h⟩ := setCvbrBitRate_eq 3072 a m frameRate size
  unfold commVencSetH265CvbrBitRate
  rw [h]
  rfl

theorem fields_h264Cvbr (a : VencChnAttr) (m : VencCvbr) (frameRate : UInt32) (size : PicSize) :
    (RcMember.h264Cvbr (commVencSetH264CvbrBitRate a m frameRate size)).fields =
      (RcMember.h264Cvbr m).fields := by
  obtain ⟨_, _, _, h⟩ := setCvbrBitRate_eq 4096 a m frameRate size
  unfold commVencSetH264CvbrBitRate
  rw [h]
  rfl

theorem h265Inits_sound : h265Inits.Sound .h265 where
  abr _ _ _ _ := ⟨rfl, rfl, rfl⟩
  cbr _ _ _ _ := ⟨rfl, rfl, rfl⟩
  fixqp _ _ _ := ⟨rfl, rfl, rfl⟩
  vbr _ _ _ _ := ⟨rfl, rfl, rfl⟩
  avbr _ _ _ _ := ⟨rfl, rfl, rfl⟩
  cvbr a _ _ fr size := ⟨rfl, rfl, fields_h265Cvbr a _ fr size⟩
  qvbr _ _ _ _ := ⟨rfl, rfl, rfl⟩
  qpmap _ _ _ _ := ⟨rfl, rfl, rfl⟩

theorem h264Inits_sound : h264Inits.Sound .h264 where
  abr _ _ _ _ := ⟨rfl, rfl, rfl⟩
  cbr _ _ _ _ := ⟨rfl, rfl, rfl⟩
  fixqp _ _ _ := ⟨rfl, rfl, rfl⟩
  vbr _ _ _ _ := ⟨rfl, rfl, rfl⟩
  avbr _ _ _ _ := ⟨rfl, rfl, rfl⟩
  cvbr a _ _ fr size := ⟨rfl, rfl, fields_h264Cvbr a _ fr size⟩
  qvbr _ _ _ _ := ⟨rfl, rfl, rfl⟩
  qpmap _ _ _ _ := ⟨rfl, rfl, rfl⟩

/-! ## What a channel gets -/

/-- What is written into the fields of the member. -/
def VencChnParam.writtenFields (p : VencChnParam) : RcFields :=
  let gop := if p.type = .mjpeg then none else some p.gop
  match p.rcMode with
  | .fixqp => ⟨gop, none, p.frameRate, p.frameRate⟩
  | .qpmap => ⟨gop, some p.frameRate, p.statsTime, p.statsTime⟩
  | _ => ⟨gop, some p.statsTime, p.frameRate, p.frameRate⟩

theorem codecParamInit_wrote {inits : CodecInits} {p : VencChnParam} (hi : inits.Sound p.type)
    (ht : p.type ≠ .mjpeg) (hm : p.rcMode ≠ .other) (a : VencChnAttr) :
    ∃ a', codecParamInit inits a p = (.success, a') ∧
      Wrote a'.rcAttr (tagOf p.type p.rcMode) p.writtenFields := by
  unfold codecParamInit VencChnParam.writtenFields
  rw [if_neg ht]
  cases hmode : p.rcMode with
  | abr => exact ⟨_, rfl, hi.abr ..⟩
  | cbr => exact ⟨_, rfl, hi.cbr ..⟩
  | fixqp => exact ⟨_, rfl, hi.fixqp ..⟩
  | vbr => exact ⟨_, rfl, hi.vbr ..⟩
  | avbr => exact ⟨_, rfl, hi.avbr ..⟩
  | cvbr => exact ⟨_, rfl, hi.cvbr ..⟩
  | qvbr => exact ⟨_, rfl, hi.qvbr ..⟩
  | qpmap => exact ⟨_, rfl, hi.qpmap ..⟩
  | other => exact absurd hmode hm

theorem commVencMjpegParamInit_wrote {p : VencChnParam} (ht : p.type = .mjpeg)
    (hs : (tagOf .mjpeg p.rcMode).isSome = true) (a : VencChnAttr) :
    ∃ a', commVencMjpegParamInit a p = (.success, a') ∧
      Wrote a'.rcAttr (tagOf .mjpeg p.rcMode) p.writtenFields := by
  unfold commVencMjpegParamInit VencChnParam.writtenFields
  rw [if_pos ht]
  cases hm : p.rcMode with
  | fixqp | cbr | vbr | avbr => exact ⟨_, rfl, rfl, rfl, rfl⟩
  | abr | cvbr | qvbr | qpmap | other =>
    rw [hm] at hs
    cases hs

theorem initByType_wrote {p : VencChnParam} (hs : (tagOf p.type p.rcMode).isSome = true)
    (a : VencChnAttr) :
    ∃ a', initByType p a = some (.success, a') ∧
      Wrote a'.rcAttr (tagOf p.type p.rcMode) p.writtenFields := by
  have hm : p.rcMode ≠ .other := by
    intro hm
    rw [hm, tagOf_other] at hs
    cases hs
  unfold initByType
  cases ht : p.type with
  | h265 =>
    obtain ⟨a', hinit, hw⟩ := codecParamInit_wrote (p := p) (ht ▸ h265Inits_sound)
      (by simp [ht]) hm a
    exact ⟨a', congrArg some hinit, ht ▸ hw⟩
  | h264 =>
    obtain ⟨a', hinit, hw⟩ := codecParamInit_wrote (p := p) (ht ▸ h264Inits_sound)
      (by simp [ht]) hm a
    exact ⟨a', congrArg some hinit, ht ▸ hw⟩
  | mjpeg =>
    obtain ⟨a', hinit, hw⟩ := commVencMjpegParamInit_wrote ht (ht ▸ hs) a
    exact ⟨a', congrArg some hinit, hw⟩
  | jpeg | svac3 | other =>
    rw [ht] at hs
    cases hs

theorem rcAttr_commVencSetGopAttr (type : PayloadType) (a : VencChnAttr) (gopAttr : VencGopAttr) :
    (commVencSetGopAttr type a gopAttr).rcAttr = a.rcAttr := by
  unfold commVencSetGopAttr
  split_ifs
  · rfl
  · dsimp only
    split
    · split_ifs <;> rfl
    · rfl

theorem computeStatsTime_eq {p : VencChnParam}
    (hgop : ∀ bg d v, p.gopAttr = .smartP bg d v → p.gop ≠ 0) :
    p.computeStatsTime = some { p with statsTime := p.channelStatsTime } := by
  obtain ⟨_, _, gop, _, _, _, _, gopAttr, _, _⟩ := p
  cases gopAttr with
  | smartP bg d v => exact if_neg (hgop bg d v rfl)
  | normalP | dualP | advSmartP | bipredB | lowDelayB | smartCrr => rfl

theorem writtenFields_eq {p : VencChnParam} (h : p.rcMode = .qpmap → p.frameRate = p.statsTime) :
    p.writtenFields =
      ⟨if p.type = .mjpeg then none else some p.gop,
        if p.rcMode = .fixqp then none else some p.statsTime, p.frameRate, p.frameRate⟩ := by
  unfold VencChnParam.writtenFields
  cases hm : p.rcMode with
  | qpmap => simp [h hm]
  | abr | cbr | vbr | avbr | cvbr | qvbr | fixqp | other => simp

/-- What is written is right, but that QPMAP has the statistics time and the frame rate the wrong
way round. -/
theorem Wrote.reached_iff {p : VencChnParam} {rc : VencRcAttr}
    (h : Wrote rc (tagOf p.type p.rcMode)
      { p with statsTime := p.channelStatsTime }.writtenFields) :
    Reached p rc ↔ (p.rcMode = .qpmap → p.frameRate = p.channelStatsTime) := by
  have hfields := h.fields
  constructor
  · intro hr hm
    have hsrc := hr.srcFrameRate
    rw [hfields] at hsrc
    unfold VencChnParam.writtenFields at hsrc
    simp only [hm] at hsrc
    exact hsrc.symm
  · intro hm
    rw [writtenFields_eq hm] at hfields
    refine ⟨h.tag, h.named, ?_, ?_, ?_, ?_⟩ <;> rw [hfields]
    · intro gop hgop
      dsimp only at hgop
      split_ifs at hgop <;> cases hgop
      rfl
    · intro statsTime hst
      dsimp only at hst
      split_ifs at hst <;> cases hst
      rfl

/-- **Rate-control parameters.** Of every channel of H.264, H.265 or MJPEG with a mode that its
codec supports, `comm_venc_channel_param_init` succeeds; and the parameters reach the fields of
their names exactly if the mode is not QPMAP or the frame rate equals the statistics time. -/
theorem rcAttr_reached_iff (p : VencChnParam) (a : VencChnAttr)
    (hs : (tagOf p.type p.rcMode).isSome = true)
    (hgop : ∀ bg d v, p.gopAttr = .smartP bg d v → p.gop ≠ 0) :
    ∃ a', commVencChannelParamInit p a =
        some (.success, { p with statsTime := p.channelStatsTime }, a') ∧
      (Reached p a'.rcAttr ↔ (p.rcMode = .qpmap → p.frameRate = p.channelStatsTime)) := by
  set p' := { p with statsTime := p.channelStatsTime }
  obtain ⟨a', hinit, hw⟩ := initByType_wrote (p := p') hs (p'.fill a)
  refine ⟨commVencSetGopAttr p.type a' p.gopAttr, ?_, ?_⟩
  · unfold commVencChannelParamInit
    rw [computeStatsTime_eq hgop, Option.map_some, hinit]
  · rw [rcAttr_commVencSetGopAttr]
    exact hw.reached_iff

/-- A full-HD channel, before it is set up and as it is asked for. -/
def blankChannel : VencChnAttr where
  vencAttr := ⟨.other, 0, 0, 0, 0, false, 0, 0, ⟨false, 0⟩⟩
  rcAttr := ⟨.other, .h264Abr ⟨0, 0, 0, 0, 0, 0⟩⟩
  gopAttr := .normalP 0

def fullHd (type : PayloadType) (rcMode : RcMode) (gopAttr : VencGopAttr) : VencChnParam where
  frameRate := 30
  statsTime := 2
  gop := 60
  size := .pic1080P
  vencSize := ⟨1920, 1080⟩
  profile := 0
  isRcnRefShareBuf := true
  gopAttr := gopAttr
  type := type
  rcMode := rcMode

/-- A QPMAP channel of 30 frames a second gets 2 frames a second, and statistics over 30 seconds. -/
theorem rcAttr_swapped :
    ∃ p a', commVencChannelParamInit (fullHd .h265 .qpmap (.normalP 3)) blankChannel =
        some (.success, p, a') ∧
      a'.rcAttr = ⟨.h265Qpmap, .h265Qpmap ⟨60, 30, 2, 2, .meanQp⟩⟩ ∧
        ¬ Reached (fullHd .h265 .qpmap (.normalP 3)) a'.rcAttr := by
  refine ⟨_, _, rfl, rfl, ?_⟩
  intro h
  exact absurd h.srcFrameRate (by decide)

/-- A smart-P channel with CBR, its background interval four GOPs. -/
theorem rcAttr_reached_iff_smartP :
    ∃ p a', commVencChannelParamInit (fullHd .h264 .cbr (.smartP 240 3 3)) blankChannel =
        some (.success, p, a') ∧
      p.statsTime = 4 ∧ Reached (fullHd .h264 .cbr (.smartP 240 3 3)) a'.rcAttr := by
  obtain ⟨a', hinit, hreached⟩ := rcAttr_reached_iff (fullHd .h264 .cbr (.smartP 240 3 3))
    blankChannel rfl (fun _ _ _ _ => by decide)
  exact ⟨_, a', hinit, rfl, hreached.mpr nofun⟩

end Eye
