import Mathlib.Algebra.Group.Nat.Defs
import Mathlib.Data.Nat.Notation

/-!
# Common types

The vocabulary that the stream and RTSP modules share: stream types and codecs, byte vectors, the
packs an encoded frame is delivered in, and the frame handed to consumers.

A `FramePack` carries the contract of the pointer it stands for: unless it is null, `len` bytes can
be read through it. A `FrameData` has at most `MAX_PACKS` packs in use.
-/

namespace Eye

/-- `StreamType` -/
inductive StreamType
  | videoMain | videoSub | videoMjpeg | audioAac
  deriving DecidableEq, Repr

/-- Every stream type, in the order of its value: the order a `std::map` is walked in. -/
def StreamType.all : List StreamType := [.videoMain, .videoSub, .videoMjpeg, .audioAac]

theorem StreamType.mem_all (t : StreamType) : t ∈ StreamType.all := by cases t <;> decide

/-- `VencChannel` -/
inductive VencChannel
  | chn0 | chn1 | chn2
  deriving DecidableEq, Repr

/-- `CodecType` -/
inductive CodecType
  | h264 | h265 | mjpeg
  deriving DecidableEq, Repr

/-- `NaluType` -/
inductive NaluType
  | idrSlice | pSlice | bSlice | other
  deriving DecidableEq, Repr

/-- A byte string whose length fits the 32-bit sizes of the target. -/
structure ByteVec where
  bytes : List UInt8
  size_lt : bytes.length < 2 ^ 32
  deriving DecidableEq

namespace ByteVec

@[ext] theorem ext {a b : ByteVec} (h : a.bytes = b.bytes) : a = b := by
  cases a
  cases b
  cases h
  rfl

def empty : ByteVec := ⟨[], by decide⟩

/-- `size()` -/
def size (v : ByteVec) : ℕ := v.bytes.length

/-- The bytes from `start` up to `stop`, as `assign(data + start, data + stop)` copies them. -/
def slice (v : ByteVec) (start stop : ℕ) : ByteVec :=
  ⟨(v.bytes.drop start).take (stop - start), by
    have := v.size_lt
    rw [List.length_take, List.length_drop]
    omega⟩

@[simp] theorem bytes_slice (v : ByteVec) (start stop : ℕ) :
    (v.slice start stop).bytes = (v.bytes.drop start).take (stop - start) := rfl

end ByteVec

/-- `FramePack`: `data` is `none` for the null pointer, and otherwise the bytes it points to. -/
structure FramePack where
  data : Option ByteVec
  len : UInt32
  naluType : NaluType
  readable : ∀ bs ∈ data, bs.size = len.toNat

/-- `FrameData::MAX_PACKS` -/
def MAX_PACKS : ℕ := 16

/-- `FrameData` -/
structure FrameData where
  packs : Vector FramePack MAX_PACKS
  packCount : ℕ
  seq : UInt32
  packCount_le : packCount ≤ MAX_PACKS

/-- The packs in use, `packs[0] … packs[pack_count - 1]`. -/
def FrameData.used (fd : FrameData) : List FramePack := fd.packs.toList.take fd.packCount

theorem FrameData.length_used (fd : FrameData) : fd.used.length = fd.packCount := by
  unfold used
  rw [List.length_take, Vector.length_toList, Nat.min_eq_left fd.packCount_le]

/-- `StreamFrame` -/
structure StreamFrame where
  channel : VencChannel
  type : StreamType
  codecType : CodecType
  timestamp : UInt64
  data : FrameData

/-- `StreamFrame::is_idr` -/
def StreamFrame.isIdr (frame : StreamFrame) : Bool :=
  if frame.codecType = .mjpeg then true
  else frame.data.used.any fun pk => pk.naluType == .idrSlice

end Eye
