import Mathlib.Data.List.Basic
import Eye.Rtsp.FrameQueue

/-!
# Stream sources

`RtspStreamSource`: the fields that its methods and those of its live555 base read and write, and
what each method does to them. The queue it pops from and the scheduler it posts to come in where
the event loop is put together.

`answers_delivery`: what `deliver_frame` hands downstream for a NAL unit.
-/

namespace Eye

/-- `RtspStreamSource`. `fTo` is what has been copied to the buffer of that name; a `time_t` and a
`suseconds_t` have 64 bits. -/
structure RtspStreamSource where
  streamType : StreamType
  codecType : CodecType
  awaitingFrame : Bool
  isCurrentlyAwaitingData : Bool
  fMaxSize : UInt32
  fTo : List UInt8
  fFrameSize : UInt32
  fNumTruncatedBytes : UInt32
  tvSec : Int64
  tvUsec : Int64
  fDurationInMicroseconds : UInt32
  deriving DecidableEq

/-- The arguments of a call of the downstream callback, with the bytes it finds in its buffer. -/
structure Delivery where
  data : List UInt8
  frameSize : UInt32
  numTruncatedBytes : UInt32
  tvSec : Int64
  tvUsec : Int64
  durationInMicroseconds : UInt32
  deriving DecidableEq

namespace RtspStreamSource

/-- `RtspStreamSource::RtspStreamSource` -/
def new (streamType : StreamType) (codecType : CodecType) : RtspStreamSource where
  streamType := streamType
  codecType := codecType
  awaitingFrame := false
  isCurrentlyAwaitingData := false
  fMaxSize := 0
  fTo := []
  fFrameSize := 0
  fNumTruncatedBytes := 0
  tvSec := 0
  tvUsec := 0
  fDurationInMicroseconds := 0

/-- `RtspStreamSource::createNew`: `new` does not return `NULL`. -/
def createNew (streamType : StreamType) (codecType : CodecType) : Option RtspStreamSource :=
  some (.new streamType codecType)

/-- `FramedSource::getNextFrame` and `doGetNextFrame`, up to the call of `deliver_frame`. -/
def getNextFrame (src : RtspStreamSource) (maxSize : UInt32) : RtspStreamSource :=
  { src with fMaxSize := maxSize, isCurrentlyAwaitingData := true, awaitingFrame := true }

/-- `FramedSource::stopGettingFrames` and `doStopGettingFrames` -/
def stopGettingFrames (src : RtspStreamSource) : RtspStreamSource :=
  { src with isCurrentlyAwaitingData := false, awaitingFrame := false }

/-- `notify_frame_available`: the source, and whether a `deliver_frame` task is scheduled. -/
def notifyFrameAvailable (src : RtspStreamSource) : RtspStreamSource × Bool :=
  if src.awaitingFrame then ({ src with awaitingFrame := false }, true) else (src, false)

/-- The part of `deliver_frame` between the pop and `afterGetting`. -/
def fill (src : RtspStreamSource) (nal : RtspNalUnit) : RtspStreamSource :=
  let src :=
    if src.fMaxSize.toNat < nal.data.size then
      { src with
        fNumTruncatedBytes := (nal.data.size - src.fMaxSize.toNat).toUInt32
        fTo := nal.data.bytes.take src.fMaxSize.toNat
        fFrameSize := src.fMaxSize }
    else
      { src with
        fFrameSize := nal.data.size.toUInt32
        fNumTruncatedBytes := 0
        fTo := nal.data.bytes }
  { src with
    tvSec := (nal.timestamp / 1000).toInt64
    tvUsec := (nal.timestamp % 1000 * 1000).toInt64
    fDurationInMicroseconds := 1000000 / 30 }

/-- `FramedSource::afterGetting`, up to the call of the downstream callback. -/
def afterGetting (src : RtspStreamSource) : RtspStreamSource :=
  { src with isCurrentlyAwaitingData := false }

/-- What `afterGetting` calls the downstream callback with. -/
def delivery (src : RtspStreamSource) : Delivery where
  data := src.fTo
  frameSize := src.fFrameSize
  numTruncatedBytes := src.fNumTruncatedBytes
  tvSec := src.tvSec
  tvUsec := src.tvUsec
  durationInMicroseconds := src.fDurationInMicroseconds

/-- A delivery carries a NAL unit into a buffer of `maxSize` bytes. -/
structure Answers (maxSize : UInt32) (nal : RtspNalUnit) (d : Delivery) : Prop where
  data : d.data = nal.data.bytes.take (min nal.data.size maxSize.toNat)
  frameSize : d.frameSize.toNat = min nal.data.size maxSize.toNat
  size : d.frameSize.toNat + d.numTruncatedBytes.toNat = nal.data.size
  frameSize_le : d.frameSize ≤ maxSize
  time : d.tvSec.toInt * 1000 + d.tvUsec.toInt / 1000 = nal.timestamp.toNat
  tvUsec_nonneg : 0 ≤ d.tvUsec.toInt
  tvUsec_lt : d.tvUsec.toInt < 1000000

@[simp] theorem fill_streamType (src : RtspStreamSource) (nal : RtspNalUnit) :
    (src.fill nal).streamType = src.streamType := by
  unfold fill
  split_ifs <;> rfl

/-! ## The fields of a delivery -/

theorem toUInt32_toNat {n : ℕ} (h : n < 2 ^ 32) : n.toUInt32.toNat = n := Nat.mod_eq_of_lt h

theorem toInt_toInt64 {x : UInt64} (h : x.toNat < 2 ^ 63) : x.toInt64.toInt = x.toNat :=
  BitVec.toInt_eq_toNat_of_lt (x := x.toBitVec) (by
    have : x.toBitVec.toNat = x.toNat := rfl
    omega)

/-- A millisecond timestamp split into seconds and microseconds is still that timestamp. -/
theorem time_split (ts : UInt64) :
    (ts / 1000).toInt64.toInt * 1000 + (ts % 1000 * 1000).toInt64.toInt / 1000 = ts.toNat ∧
      0 ≤ (ts % 1000 * 1000).toInt64.toInt ∧ (ts % 1000 * 1000).toInt64.toInt < 1000000 := by
  have hlt := ts.toNat_lt
  have hsec : (ts / 1000).toNat = ts.toNat / 1000 := UInt64.toNat_div ..
  have husec : (ts % 1000 * 1000).toNat = ts.toNat % 1000 * 1000 := by
    rw [UInt64.toNat_mul, UInt64.toNat_mod]
    show ts.toNat % 1000 * 1000 % 2 ^ 64 = _
    omega
  rw [toInt_toInt64 (by omega), toInt_toInt64 (by omega), hsec, husec]
  omega

/-- What the callback gets for a NAL unit answers the request it was popped for. -/
theorem answers_delivery (src : RtspStreamSource) (nal : RtspNalUnit) :
    Answers src.fMaxSize nal (src.fill nal).delivery := by
  obtain ⟨htime, hnonneg, hlt⟩ := time_split nal.timestamp
  have hsize : nal.data.size < 2 ^ 32 := nal.data.size_lt
  have hmax := src.fMaxSize.toNat_lt
  unfold fill
  split_ifs with h
  · have hmin : min nal.data.size src.fMaxSize.toNat = src.fMaxSize.toNat := by omega
    refine ⟨?_, ?_, ?_, Nat.le_refl _, htime, hnonneg, hlt⟩
    · rw [hmin]
      rfl
    · rw [hmin]
      rfl
    · show src.fMaxSize.toNat + (nal.data.size - src.fMaxSize.toNat).toUInt32.toNat = _
      rw [toUInt32_toNat (by omega)]
      omega
  · have hmin : min nal.data.size src.fMaxSize.toNat = nal.data.size := by omega
    have hframe : nal.data.size.toUInt32.toNat = nal.data.size := toUInt32_toNat hsize
    refine ⟨?_, ?_, ?_, ?_, htime, hnonneg, hlt⟩
    · rw [hmin]
      exact (List.take_length ..).symm
    · rw [hmin]
      exact hframe
    · show nal.data.size.toUInt32.toNat + 0 = _
      rw [hframe, Nat.add_zero]
    · show nal.data.size.toUInt32.toNat ≤ src.fMaxSize.toNat
      omega

end RtspStreamSource

end Eye
