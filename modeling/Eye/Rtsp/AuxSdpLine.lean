import Mathlib.Data.List.Basic
import Eye.Lib.Base64
import Eye.Lib.Machine
import Eye.Rtsp.Server
import Eye.Rtsp.Subsession

/-!
# The SDP line of a subsession

`getAuxSDPLine` reads the parameter-set cache that `process_frame_nals` fills: the worker takes the
cache's mutex once for each NAL unit, `getAuxSDPLine` once for each attempt to find the sets ready
and once more to copy them. The event thread and the worker take turns, each lock-protected section
being one step.

Base64 and the sink are live555's; they come in as `base64Encode` and `sink`. `IsBase64` is what is
relied on of the former, and `base64` meets it.
-/

namespace Eye

/-- What `getAuxSDPLine` asks its sink for. -/
structure RtpSink where
  rtpmapLine : String
  rtpPayloadType : UInt8
  deriving DecidableEq

/-- `kParameterSetWaitAttempts` -/
def kParameterSetWaitAttempts : ℕ := 50

namespace ParameterSetCache

/-- `ParameterSetCache::has_sps_pps` -/
def hasSpsPps (cache : ParameterSetCache) : Bool :=
  !cache.sps.bytes.isEmpty && !cache.pps.bytes.isEmpty

/-- `ParameterSetCache::has_vps_sps_pps` -/
def hasVpsSpsPps (cache : ParameterSetCache) : Bool :=
  !cache.vps.bytes.isEmpty && !cache.sps.bytes.isEmpty && !cache.pps.bytes.isEmpty

/-- Every set the codec needs is there. -/
def ready (codec : CodecType) (cache : ParameterSetCache) : Bool :=
  if codec = .h265 then cache.hasVpsSpsPps else cache.hasSpsPps

/-- The sets the codec needs. -/
def needed (codec : CodecType) (cache : ParameterSetCache) : List ByteVec :=
  if codec = .h265 then [cache.vps, cache.sps, cache.pps] else [cache.sps, cache.pps]

end ParameterSetCache

/-- What live555's encoder is relied on for: no two byte strings have one encoding, and only
characters of the alphabet occur in it. -/
structure IsBase64 (base64Encode : List UInt8 → String) : Prop where
  injective : ∀ xs ys, base64Encode xs = base64Encode ys → xs = ys
  isChar : ∀ xs, ∀ c ∈ (base64Encode xs).toList, Base64.IsChar c

/-- The encoding itself. -/
def base64 (xs : List UInt8) : String := String.ofList (Base64.encode xs)

theorem isBase64_base64 : IsBase64 base64 := by
  constructor
  · intro xs ys h
    have := congrArg String.toList h
    unfold base64 at this
    rw [String.toList_ofList, String.toList_ofList] at this
    exact Base64.encode_injective this
  · intro xs c hc
    unfold base64 at hc
    rw [String.toList_ofList] at hc
    exact Base64.mem_encode hc

/-! ## The line -/

section Line

variable (base64Encode : List UInt8 → String) (sink : RtpSink)

/-- `base64_encode` -/
def base64EncodeSet (data : ByteVec) : String :=
  if data.bytes.isEmpty then "" else base64Encode data.bytes

/-- The line that `getAuxSDPLine` puts together. -/
def sdpLine (codec : CodecType) (cache : ParameterSetCache) : String :=
  if codec = .h265 then
    sink.rtpmapLine ++ "a=fmtp:" ++ toString sink.rtpPayloadType.toNat ++
      " sprop-vps=" ++ base64EncodeSet base64Encode cache.vps ++
      ";sprop-sps=" ++ base64EncodeSet base64Encode cache.sps ++
      ";sprop-pps=" ++ base64EncodeSet base64Encode cache.pps ++ "\r\n"
  else
    sink.rtpmapLine ++ "a=fmtp:" ++ toString sink.rtpPayloadType.toNat ++
      " sprop-parameter-sets=" ++ base64EncodeSet base64Encode cache.sps ++
      "," ++ base64EncodeSet base64Encode cache.pps ++ "\r\n"

/-- `getAuxSDPLine` from its second lock on: the returned line, and the subsession afterwards. -/
def lockedAuxSDPLine (sub : RtspServerMediaSubsession) (cache : ParameterSetCache) :
    Option String × RtspServerMediaSubsession :=
  if cache.ready sub.codecType then
    let sub :=
      if sub.auxSdpLine.isEmpty then
        { sub with auxSdpLine := sdpLine base64Encode sink sub.codecType cache }
      else sub
    (some sub.auxSdpLine, sub)
  else (none, sub)

end Line

/-! ## The worker and the event thread -/

/-- Where the event thread is in `getAuxSDPLine`: not in it, before the lock of an attempt, or
before the last lock. -/
inductive Waiting
  | idle
  | attempt (i : ℕ)
  | final
  deriving DecidableEq

/-- The return value of a call, with the cache as its last lock found it. -/
structure Answer where
  sets : ParameterSetCache
  line : Option String
  deriving DecidableEq

/-- A subsession and the cache it shares with the worker of its stream: the NAL units of the frame
in progress that are still to come, the cache when that frame began, the caches that the frames
begun so far leave, the answers of `getAuxSDPLine`, and the caches it has put a line together
from. -/
structure Describing where
  sub : RtspServerMediaSubsession
  cache : ParameterSetCache
  rest : List ParsedNal
  before : ParameterSetCache
  states : List ParameterSetCache
  waiting : Waiting
  answers : List Answer
  copied : List ParameterSetCache

namespace Describing

/-- A new subsession with the cache that `add_stream` gives it. -/
def new (sub : RtspServerMediaSubsession) : Describing :=
  ⟨sub, .empty, [], .empty, [.empty], .idle, [], []⟩

/-- A call that takes its last lock finds the sets, and no line that has been kept. -/
def Copies (w : Describing) : Prop :=
  w.cache.ready w.sub.codecType = true ∧ w.sub.auxSdpLine.isEmpty = true

instance (w : Describing) : Decidable w.Copies := inferInstanceAs (Decidable (_ ∧ _))

/-- The worker begins a frame with these NAL units, goes on to the next of them; the event thread
calls `getAuxSDPLine`, makes an attempt, takes the last lock. -/
inductive Action
  | beginFrame (nals : List ParsedNal)
  | nextNal
  | getAuxSDPLine
  | attempt
  | lock

def step (base64Encode : List UInt8 → String) (sink : RtpSink) (w : Describing) :
    Action → Option Describing
  | .beginFrame nals =>
    match w.rest with
    | [] =>
      some { w with
        rest := nals
        before := w.cache
        states := w.states ++ [RtspServer.cacheAfter w.cache nals] }
    | _ :: _ => none
  | .nextNal =>
    match w.rest with
    | [] => none
    | nal :: rest => some { w with cache := RtspServer.cacheNal w.cache nal, rest := rest }
  | .getAuxSDPLine =>
    match w.waiting with
    | .idle => some { w with waiting := .attempt 0 }
    | .attempt _ | .final => none
  | .attempt =>
    match w.waiting with
    | .attempt i =>
      some { w with
        waiting :=
          if w.cache.ready w.sub.codecType then .final
          else if i + 1 < kParameterSetWaitAttempts then .attempt (i + 1)
          else .final }
    | .idle | .final => none
  | .lock =>
    match w.waiting with
    | .final =>
      let r := lockedAuxSDPLine base64Encode sink w.sub w.cache
      some { w with
        sub := r.2
        waiting := .idle
        answers := w.answers ++ [⟨w.cache, r.1⟩]
        copied := if w.Copies then w.copied ++ [w.cache] else w.copied }
    | .idle | .attempt _ => none

/-- All runs, from the constructor of a subsession on. -/
def machine (base64Encode : List UInt8 → String) (sink : RtpSink) : Machine Describing Action where
  init w := ∃ type codec maxClients reuse, w = new (.new type codec maxClients reuse)
  step := step base64Encode sink

/-- The outcomes of `step`. -/
inductive Step (base64Encode : List UInt8 → String) (sink : RtpSink) (w : Describing) :
    Action → Describing → Prop
  | beginFrame (nals : List ParsedNal) : w.rest = [] →
      Step base64Encode sink w (.beginFrame nals)
        { w with
          rest := nals
          before := w.cache
          states := w.states ++ [RtspServer.cacheAfter w.cache nals] }
  | nextNal {nal rest} : w.rest = nal :: rest →
      Step base64Encode sink w .nextNal
        { w with cache := RtspServer.cacheNal w.cache nal, rest := rest }
  | wait {a} (waiting : Waiting) : a ≠ .lock →
      Step base64Encode sink w a { w with waiting := waiting }
  | lock : Step base64Encode sink w .lock
      { w with
        sub := (lockedAuxSDPLine base64Encode sink w.sub w.cache).2
        waiting := .idle
        answers := w.answers ++ [⟨w.cache, (lockedAuxSDPLine base64Encode sink w.sub w.cache).1⟩]
        copied := if w.Copies then w.copied ++ [w.cache] else w.copied }

variable {base64Encode : List UInt8 → String} {sink : RtpSink} {w w' : Describing} {a : Action}

theorem Step.of_step (h : w.step base64Encode sink a = some w') :
    Step base64Encode sink w a w' := by
  cases a with
  | beginFrame nals =>
    rw [Describing.step] at h
    split at h
    · cases h
      exact .beginFrame nals ‹_›
    · cases h
  | nextNal =>
    rw [Describing.step] at h
    split at h
    · cases h
    · cases h
      exact .nextNal ‹_›
  | getAuxSDPLine | attempt =>
    rw [Describing.step] at h
    split at h
    · cases h
      exact .wait _ (by rintro ⟨⟩)
    all_goals cases h
  | lock =>
    rw [Describing.step] at h
    split at h
    · cases h
      exact .lock
    all_goals cases h

theorem run_nextNals (w : Describing) (nals : List ParsedNal) :
    (machine base64Encode sink).run { w with rest := nals } (nals.map fun _ => .nextNal) =
      some { w with cache := RtspServer.cacheAfter w.cache nals, rest := [] } := by
  induction nals generalizing w with
  | nil => rfl
  | cons nal nals ih =>
    rw [RtspServer.cacheAfter_cons]
    exact ih { w with cache := RtspServer.cacheNal w.cache nal }

/-- The NAL units of a frame, one step each, leave the cache that `process_frame_nals` leaves. -/
theorem run_frame (hr : w.rest = []) (nals : List ParsedNal) :
    (machine base64Encode sink).run w (.beginFrame nals :: nals.map fun _ => .nextNal) =
      some { w with
        cache := RtspServer.cacheAfter w.cache nals
        before := w.cache
        states := w.states ++ [RtspServer.cacheAfter w.cache nals] } := by
  have hstep : (machine base64Encode sink).step w (.beginFrame nals) =
      some { w with
        rest := nals
        before := w.cache
        states := w.states ++ [RtspServer.cacheAfter w.cache nals] } := by
    show w.step base64Encode sink (.beginFrame nals) = _
    unfold step
    rw [hr]
  rw [Machine.run_cons, hstep, Option.bind_some]
  refine (run_nextNals { w with
    before := w.cache
    states := w.states ++ [RtspServer.cacheAfter w.cache nals] } nals).trans ?_
  rw [← hr]

end Describing

end Eye
