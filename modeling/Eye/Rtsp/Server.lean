import Mathlib.Data.List.Induction
import Mathlib.Logic.Function.Basic
import Eye.Rtsp.FrameQueue
import Eye.Rtsp.NalParser

/-!
# The RTSP server and the frames it is given

`RtspServer` with its maps from stream types to queues, parameter-set caches and codecs, and
`process_frame_nals`, which a stream worker runs on each frame of its stream.

`processFrameNals_spec` says what a frame does to the cache and the queue of its own stream and that
it does nothing else; it follows that frames of different streams can be processed in any order.
-/

namespace Eye

/-- A pointer to a `ServerMediaSession`. -/
abbrev SessionId := ℕ

/-- `ParameterSetCache` -/
structure ParameterSetCache where
  vps : ByteVec
  sps : ByteVec
  pps : ByteVec
  deriving DecidableEq

def ParameterSetCache.empty : ParameterSetCache := ⟨.empty, .empty, .empty⟩

/-- `RtspConfig` -/
structure RtspConfig where
  port : UInt16
  frameQueueSize : ℕ
  reuseFirstSource : Bool
  maxClients : ℕ
  deriving DecidableEq

/-- `RtspServer`: a `std::map` is a partial function of its key, a pointer to live555's own objects
the fact that it is not null. -/
structure RtspServer where
  rtspServer : Bool
  env : Bool
  scheduler : Bool
  running : Bool
  sessions : StreamType → Option SessionId
  frameQueues : StreamType → Option (RtspFrameQueue RtspNalUnit)
  parameterSets : StreamType → Option ParameterSetCache
  streamCodecs : StreamType → Option CodecType
  config : RtspConfig

namespace RtspServer

/-- What the loops of `process_frame_nals` have gathered so far. -/
structure Gathered where
  cache : ParameterSetCache
  accessUnitNals : List RtspNalUnit
  deriving DecidableEq

/-- The parameter sets of one NAL unit, stored under the cache's mutex. -/
def cacheNal (cache : ParameterSetCache) (nal : ParsedNal) : ParameterSetCache :=
  if nal.isVps || nal.isSps || nal.isPps then
    { vps := if nal.isVps then nal.data else cache.vps
      sps := if nal.isSps then nal.data else cache.sps
      pps := if nal.isPps then nal.data else cache.pps }
  else cache

/-- The queue's NAL unit for a parsed one. -/
def nalUnit (ts : UInt64) (nal : ParsedNal) : RtspNalUnit := ⟨nal.data, ts, nal.isIdr⟩

/-- The inner loop's body. -/
def processNal (ts : UInt64) (g : Gathered) (nal : ParsedNal) : Gathered :=
  ⟨cacheNal g.cache nal, g.accessUnitNals ++ [nalUnit ts nal]⟩

/-- The outer loop's body: null and empty packs are skipped. -/
def processPack (codec : CodecType) (ts : UInt64) (isIdr : Bool) (g : Gathered)
    (pk : FramePack) : Gathered :=
  match pk.data with
  | none => g
  | some data =>
    if pk.len = 0 then g
    else (splitAnnexBNals data codec ts isIdr []).foldl (processNal ts) g

/-- The loops over the packs of a frame and over their NAL units. -/
def gather (codec : CodecType) (cache : ParameterSetCache) (frame : StreamFrame) : Gathered :=
  let ts := if frame.timestamp > 0 then frame.timestamp else 0
  frame.data.used.foldl (processPack codec ts frame.isIdr) ⟨cache, []⟩

/-- `RtspServer::process_frame_nals` -/
def processFrameNals (s : RtspServer) (frame : StreamFrame) : RtspServer :=
  match s.streamCodecs frame.type, s.frameQueues frame.type, s.parameterSets frame.type with
  | some codec, some queue, some cache =>
    let g := gather codec cache frame
    let queue' :=
      if queue.hasActiveSources && !g.accessUnitNals.isEmpty then
        queue.pushAccessUnit g.accessUnitNals
      else queue
    { s with
      frameQueues := Function.update s.frameQueues frame.type (some queue')
      parameterSets := Function.update s.parameterSets frame.type (some g.cache) }
  | _, _, _ => s

/-! ## What a frame contains -/

/-- The byte strings of the packs that are neither null nor empty. -/
def presentPacks (frame : StreamFrame) : List ByteVec :=
  frame.data.used.filterMap fun pk => if pk.len = 0 then none else pk.data

/-- The NAL units of a frame, in pack order and then in the order of the splitter. -/
def frameNals (codec : CodecType) (frame : StreamFrame) : List ParsedNal :=
  (presentPacks frame).flatMap fun data =>
    splitAnnexBNals data codec frame.timestamp frame.isIdr []

/-- The data of the last NAL unit of a kind, or the old value if there is none. -/
def lastOf (kind : ParsedNal → Bool) (nals : List ParsedNal) (old : ByteVec) : ByteVec :=
  (((nals.filter kind).getLast?).map ParsedNal.data).getD old

/-- The cache that the NAL units of a frame leave. -/
def cacheAfter (cache : ParameterSetCache) (nals : List ParsedNal) : ParameterSetCache where
  vps := lastOf ParsedNal.isVps nals cache.vps
  sps := lastOf ParsedNal.isSps nals cache.sps
  pps := lastOf ParsedNal.isPps nals cache.pps

/-- The queue that a frame leaves: one more access unit if a source is active and the frame has a
NAL unit. -/
def queueAfter (queue : RtspFrameQueue RtspNalUnit) (ts : UInt64) (nals : List ParsedNal) :
    RtspFrameQueue RtspNalUnit :=
  if queue.hasActiveSources ∧ nals ≠ [] then queue.pushAccessUnit (nals.map (nalUnit ts)) else queue

theorem lastOf_concat (kind : ParsedNal → Bool) (nals : List ParsedNal) (nal : ParsedNal)
    (old : ByteVec) :
    lastOf kind (nals ++ [nal]) old = if kind nal then nal.data else lastOf kind nals old := by
  unfold lastOf
  rw [List.filter_append, List.filter_singleton]
  split_ifs with h
  · rw [h, cond_true, List.getLast?_concat]
    rfl
  · rw [Bool.not_eq_true] at h
    rw [h, cond_false, List.append_nil]

theorem cacheAfter_concat (cache : ParameterSetCache) (nals : List ParsedNal) (nal : ParsedNal) :
    cacheAfter cache (nals ++ [nal]) = cacheNal (cacheAfter cache nals) nal := by
  unfold cacheAfter cacheNal
  rw [lastOf_concat, lastOf_concat, lastOf_concat]
  by_cases h : (nal.isVps || nal.isSps || nal.isPps) = true
  · rw [if_pos h]
  · rw [if_neg h]
    simp only [Bool.or_eq_true, not_or, Bool.not_eq_true] at h
    rw [h.1.1, h.1.2, h.2]
    rfl

theorem cacheAfter_cons (cache : ParameterSetCache) (nal : ParsedNal) (nals : List ParsedNal) :
    cacheAfter cache (nal :: nals) = cacheAfter (cacheNal cache nal) nals := by
  induction nals using List.reverseRecOn with
  | nil => exact cacheAfter_concat cache [] nal
  | append_singleton nals last ih =>
    rw [← List.cons_append, cacheAfter_concat, ih, cacheAfter_concat]

/-! ## The loops -/

/-- What is gathered once the NAL units `nals` have been gone through. -/
def gathered (cache : ParameterSetCache) (ts : UInt64) (nals : List ParsedNal) : Gathered :=
  ⟨cacheAfter cache nals, nals.map (nalUnit ts)⟩

theorem foldl_processNal (cache : ParameterSetCache) (ts : UInt64) (done nals : List ParsedNal) :
    nals.foldl (processNal ts) (gathered cache ts done) = gathered cache ts (done ++ nals) := by
  induction nals generalizing done with
  | nil => rw [List.append_nil, List.foldl_nil]
  | cons nal nals ih =>
    have hstep : processNal ts (gathered cache ts done) nal =
        gathered cache ts (done ++ [nal]) := by
      unfold processNal gathered
      rw [cacheAfter_concat, List.map_append, List.map_singleton]
    rw [List.foldl_cons, hstep, ih, List.append_assoc, List.singleton_append]

/-- The NAL units of one pack. -/
def packNals (codec : CodecType) (ts : UInt64) (isIdr : Bool) (pk : FramePack) : List ParsedNal :=
  match (if pk.len = 0 then none else pk.data) with
  | none => []
  | some data => splitAnnexBNals data codec ts isIdr []

theorem processPack_gathered (codec : CodecType) (ts : UInt64) (isIdr : Bool)
    (cache : ParameterSetCache) (done : List ParsedNal) (pk : FramePack) :
    processPack codec ts isIdr (gathered cache ts done) pk =
      gathered cache ts (done ++ packNals codec ts isIdr pk) := by
  unfold processPack packNals
  cases pk.data with
  | none => split_ifs <;> rw [List.append_nil]
  | some data =>
    dsimp only
    split_ifs
    · rw [List.append_nil]
    · exact foldl_processNal cache ts done _

theorem foldl_processPack (codec : CodecType) (ts : UInt64) (isIdr : Bool)
    (cache : ParameterSetCache) (done : List ParsedNal) (packs : List FramePack) :
    packs.foldl (processPack codec ts isIdr) (gathered cache ts done) =
      gathered cache ts (done ++ packs.flatMap (packNals codec ts isIdr)) := by
  induction packs generalizing done with
  | nil => rw [List.flatMap_nil, List.append_nil, List.foldl_nil]
  | cons pk packs ih =>
    rw [List.foldl_cons, processPack_gathered, ih, List.flatMap_cons, List.append_assoc]

theorem flatMap_packNals (codec : CodecType) (frame : StreamFrame) :
    frame.data.used.flatMap (packNals codec frame.timestamp frame.isIdr) =
      frameNals codec frame := by
  unfold frameNals presentPacks
  induction frame.data.used with
  | nil => rfl
  | cons pk packs ih =>
    rw [List.flatMap_cons, ih, List.filterMap_cons]
    unfold packNals
    cases (if pk.len = 0 then none else pk.data) with
    | none => rfl
    | some data =>
      dsimp only
      rw [List.flatMap_cons]

theorem ts_eq (ts : UInt64) : (if ts > 0 then ts else 0) = ts := by
  split_ifs with h
  · rfl
  · rw [← UInt64.toNat_inj]
    rw [gt_iff_lt, UInt64.lt_iff_toNat_lt] at h
    show 0 = ts.toNat
    have : (0 : UInt64).toNat = 0 := rfl
    omega

theorem gather_eq (codec : CodecType) (cache : ParameterSetCache) (frame : StreamFrame) :
    gather codec cache frame = gathered cache frame.timestamp (frameNals codec frame) := by
  have h := foldl_processPack codec frame.timestamp frame.isIdr cache [] frame.data.used
  rw [List.nil_append, flatMap_packNals] at h
  unfold gather
  rw [ts_eq]
  exact h

/-! ## One frame -/

/-- The three entries of a stream, if it is registered in all three maps. -/
def stream (s : RtspServer) (t : StreamType) :
    Option (CodecType × RtspFrameQueue RtspNalUnit × ParameterSetCache) :=
  match s.streamCodecs t, s.frameQueues t, s.parameterSets t with
  | some codec, some queue, some cache => some (codec, queue, cache)
  | _, _, _ => none

theorem stream_eq_some {s : RtspServer} {t : StreamType} {codec : CodecType}
    {queue : RtspFrameQueue RtspNalUnit} {cache : ParameterSetCache} :
    s.stream t = some (codec, queue, cache) ↔
      s.streamCodecs t = some codec ∧ s.frameQueues t = some queue ∧
        s.parameterSets t = some cache := by
  unfold stream
  constructor
  · intro h
    split at h
    · rename_i h1 h2 h3
      cases h
      exact ⟨h1, h2, h3⟩
    · cases h
  · rintro ⟨h1, h2, h3⟩
    rw [h1, h2, h3]

/-- What a registered frame does, in terms of its NAL units. -/
theorem processFrameNals_of_stream {s : RtspServer} {frame : StreamFrame} {codec : CodecType}
    {queue : RtspFrameQueue RtspNalUnit} {cache : ParameterSetCache}
    (h : s.stream frame.type = some (codec, queue, cache)) :
    s.processFrameNals frame =
      { s with
        frameQueues := Function.update s.frameQueues frame.type
          (some (queueAfter queue frame.timestamp (frameNals codec frame)))
        parameterSets := Function.update s.parameterSets frame.type
          (some (cacheAfter cache (frameNals codec frame))) } := by
  obtain ⟨h1, h2, h3⟩ := stream_eq_some.mp h
  unfold processFrameNals
  rw [h1, h2, h3]
  dsimp only
  rw [gather_eq]
  unfold queueAfter gathered
  dsimp only
  congr 3
  by_cases hn : frameNals codec frame = []
  · rw [hn]
    simp
  · simp [hn]

theorem processFrameNals_of_not_stream {s : RtspServer} {frame : StreamFrame}
    (h : s.stream frame.type = none) : s.processFrameNals frame = s := by
  unfold processFrameNals
  unfold stream at h
  split
  · rename_i h1 h2 h3
    rw [h1, h2, h3] at h
    cases h
  · rfl

/-- What `process_frame_nals` owes for one frame: `s` is the server before it, `s'` after it. -/
structure FrameSpec (s s' : RtspServer) (frame : StreamFrame) : Prop where
  registered : ∀ codec queue cache, s.stream frame.type = some (codec, queue, cache) →
    s'.parameterSets frame.type = some (cacheAfter cache (frameNals codec frame)) ∧
      s'.frameQueues frame.type =
        some (queueAfter queue frame.timestamp (frameNals codec frame))
  unregistered : s.stream frame.type = none → s' = s
  others : ∀ t, t ≠ frame.type →
    s'.parameterSets t = s.parameterSets t ∧ s'.frameQueues t = s.frameQueues t
  rest : s' = { s with parameterSets := s'.parameterSets, frameQueues := s'.frameQueues }

theorem frameSpec_processFrameNals (s : RtspServer) (frame : StreamFrame) :
    FrameSpec s (s.processFrameNals frame) frame := by
  cases h : s.stream frame.type with
  | none =>
    rw [processFrameNals_of_not_stream h]
    refine ⟨?_, fun _ => rfl, fun t _ => ⟨rfl, rfl⟩, rfl⟩
    intro codec queue cache h'
    rw [h] at h'
    cases h'
  | some entry =>
    obtain ⟨codec, queue, cache⟩ := entry
    rw [processFrameNals_of_stream h]
    refine ⟨fun codec' queue' cache' h' => ?_, fun h' => ?_, fun t ht => ⟨?_, ?_⟩, rfl⟩
    · rw [h] at h'
      cases h'
      exact ⟨Function.update_self .., Function.update_self ..⟩
    · rw [h] at h'
      cases h'
    · exact Function.update_of_ne ht ..
    · exact Function.update_of_ne ht ..

/-! ## Many frames -/

/-- Frames processed one after another. -/
def processFrames (s : RtspServer) (frames : List StreamFrame) : RtspServer :=
  frames.foldl processFrameNals s

/-- The frames of one stream, in their order. -/
def ofType (t : StreamType) (frames : List StreamFrame) : List StreamFrame :=
  frames.filter fun frame => frame.type = t

/-- The server with every stream but `t` forgotten. -/
def only (s : RtspServer) (t : StreamType) : RtspServer :=
  { s with
    frameQueues := Function.update (fun _ => none) t (s.frameQueues t)
    parameterSets := Function.update (fun _ => none) t (s.parameterSets t) }

theorem frameQueues_only (s : RtspServer) (t : StreamType) :
    (s.only t).frameQueues t = s.frameQueues t := by
  unfold only
  dsimp only
  rw [Function.update_self]

theorem parameterSets_only (s : RtspServer) (t : StreamType) :
    (s.only t).parameterSets t = s.parameterSets t := by
  unfold only
  dsimp only
  rw [Function.update_self]

theorem stream_only (s : RtspServer) (t : StreamType) : (s.only t).stream t = s.stream t := by
  unfold stream
  rw [frameQueues_only, parameterSets_only]
  rfl

/-- A server is determined by its streams, seen one at a time. -/
theorem ext_only {s s' : RtspServer} (h : ∀ t, s.only t = s'.only t) : s = s' := by
  have hrest := h .videoMain
  have hqueues : s.frameQueues = s'.frameQueues := by
    funext t
    rw [← frameQueues_only s, h t, frameQueues_only]
  have hsets : s.parameterSets = s'.parameterSets := by
    funext t
    rw [← parameterSets_only s, h t, parameterSets_only]
  cases s
  cases s'
  unfold only at hrest
  injection hrest with h1 h2 h3 h4 h5 _ _ h8 h9
  cases hqueues
  cases hsets
  cases h1
  cases h2
  cases h3
  cases h4
  cases h5
  cases h8
  cases h9
  rfl

/-- Seen at stream `t`, a frame of `t` does to the server what it does to `t` alone. -/
theorem only_processFrameNals_self (s : RtspServer) (frame : StreamFrame) :
    (s.processFrameNals frame).only frame.type = (s.only frame.type).processFrameNals frame := by
  cases h : s.stream frame.type with
  | none =>
    rw [processFrameNals_of_not_stream h, processFrameNals_of_not_stream]
    rw [stream_only, h]
  | some entry =>
    obtain ⟨codec, queue, cache⟩ := entry
    rw [processFrameNals_of_stream h, processFrameNals_of_stream ((stream_only s _).trans h)]
    unfold only
    dsimp only
    rw [Function.update_self, Function.update_self, Function.update_idem, Function.update_idem]

/-- Seen at stream `t`, a frame of another stream does nothing. -/
theorem only_processFrameNals_of_ne (s : RtspServer) {frame : StreamFrame} {t : StreamType}
    (ht : t ≠ frame.type) : (s.processFrameNals frame).only t = s.only t := by
  have hspec := frameSpec_processFrameNals s frame
  obtain ⟨hcache, hqueue⟩ := hspec.others t ht
  unfold only
  rw [hcache, hqueue, hspec.rest]

/-- What is seen at stream `t` after a run of frames depends on the frames of `t` only. -/
theorem only_processFrames (s : RtspServer) (frames : List StreamFrame) (t : StreamType) :
    (s.processFrames frames).only t = (s.only t).processFrames (ofType t frames) := by
  unfold processFrames ofType
  induction frames generalizing s with
  | nil => rfl
  | cons frame frames ih =>
    rw [List.foldl_cons, ih]
    by_cases ht : t = frame.type
    · subst ht
      rw [List.filter_cons_of_pos (by simp), List.foldl_cons, only_processFrameNals_self]
    · rw [List.filter_cons_of_neg (by simpa using Ne.symm ht), only_processFrameNals_of_ne s ht]

/-- **Main result.** Every frame does what `FrameSpec` says, and two runs of frames that agree on
each stream, however the streams are interleaved, leave the same server. -/
theorem processFrameNals_spec (s : RtspServer) :
    (∀ frame, FrameSpec s (s.processFrameNals frame) frame) ∧
      ∀ frames frames', (∀ t, ofType t frames = ofType t frames') →
        s.processFrames frames = s.processFrames frames' := by
  refine ⟨frameSpec_processFrameNals s, fun frames frames' h => ext_only fun t => ?_⟩
  rw [only_processFrames, only_processFrames, h t]

/-- A server with the main and the sub stream, each read by one source. -/
def twoStreams : RtspServer where
  rtspServer := true
  env := true
  scheduler := true
  running := true
  sessions
    | .videoMain => some 0
    | .videoSub => some 1
    | _ => none
  frameQueues
    | .videoMain => some ((RtspFrameQueue.new 5).registerSource 0)
    | .videoSub => some ((RtspFrameQueue.new 5).registerSource 1)
    | _ => none
  parameterSets
    | .videoMain | .videoSub => some .empty
    | _ => none
  streamCodecs
    | .videoMain => some .h265
    | .videoSub => some .h264
    | _ => none
  config := ⟨8554, 5, true, 1⟩

/-- A frame of one pack of six bytes. -/
def onePack (type : StreamType) (codec : CodecType) (ts : UInt64) (b c : UInt8) : StreamFrame where
  channel := .chn0
  type := type
  codecType := codec
  timestamp := ts
  data :=
    { packs := Vector.replicate _ ⟨some ⟨[0, 0, 0, 1, b, c], (by decide : 6 < 2 ^ 32)⟩, 6, .other,
        fun _ h => Option.some.inj h ▸ rfl⟩
      packCount := 1
      seq := 0
      packCount_le := by decide }

/-- A VPS of the main stream and a slice of the sub stream, in either order. -/
theorem processFrameNals_spec_main_sub :
    let main := onePack .videoMain .h265 40 0x40 0x01
    let sub := onePack .videoSub .h264 41 0x41 0x9a
    FrameSpec twoStreams (twoStreams.processFrameNals main) main ∧
      twoStreams.processFrames [main, sub] = twoStreams.processFrames [sub, main] ∧
      ((twoStreams.processFrames [main, sub]).parameterSets .videoMain).map (·.vps.bytes) =
        some [0x40, 0x01] := by
  intro main sub
  refine ⟨(processFrameNals_spec twoStreams).1 main,
    (processFrameNals_spec twoStreams).2 _ _ fun t => ?_, by decide +kernel⟩
  cases t <;> rfl

end RtspServer

end Eye
