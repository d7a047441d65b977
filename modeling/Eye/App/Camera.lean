import Eye.Platform.FrameValue
import Eye.Platform.StreamFetcher
import Eye.Rtsp.FaithfulDelivery
import Eye.Rtsp.Sessions

/-!
# From the encoder to the client

The program as `main` wires it: each encoder channel has a fetcher, which turns what the driver
hands out into frames, copies them while the driver's buffers are held, gives the buffers back and
pushes the frames into the distributor of its stream; from there `Pipeline` takes them to the RTSP
clients.

`camera_faithful` joins the two levels, the pointers of the fetch loop and the bytes of the
pipeline, however often the fetchers are started and stopped: what has been delivered of a stream
is, in order, a part of the NAL units in the packs that the driver handed out on the channel of that
stream, cut with the codec of that channel.
-/

namespace Eye

/-- The channel and the codec of the fetcher that `main` makes for a stream. -/
def fetcherOf : StreamType → Option (VencChannel × CodecType)
  | .videoMain => some (.chn0, .h265)
  | .videoSub => some (.chn1, .h264)
  | .videoMjpeg => some (.chn2, .mjpeg)
  | .audioAac => none

/-- The channel of the distributor that `StreamConsumerManager::StreamConsumerManager` makes for a
stream. -/
def distributorOf : StreamType → Option VencChannel
  | .videoMain => some .chn0
  | .videoSub => some .chn1
  | .videoMjpeg => some .chn2
  | .audioAac => none

/-- Where a fetch thread is in the body of its loop: at the head, with a frame that `fetchFrame` has
filled, with a frame that it has constructed, before the push, or with nothing left to do. -/
inductive FetchStage
  | head
  | fetched (frame : RawFrame)
  | constructed (frame : OwningFrame)
  | released
  | done

/-- The program: the fetchers with their threads, what these keep, where they are in the bodies of
their loops, and the rest of the way. -/
structure Camera where
  fetcher : StreamType → StreamFetcher
  fetch : StreamType → FetchState
  stage : StreamType → FetchStage
  pipeline : Pipeline

namespace Camera

/-- The program before any fetcher has been started, with these streams added to the RTSP server. -/
def new (currentStream : StreamType → VencStream) (rtspSlot : StreamType → SlotId)
    (added : StreamType → Bool) (frameQueueSize : ℕ) : Camera where
  fetcher _ := .new
  fetch t := .initial (currentStream t)
  stage _ := .head
  pipeline := .new fun t =>
    (rtspSlot t, if added t then RtspServer.streamCodec t else none, frameQueueSize)

/-- The steps of a fetcher's owner and of its thread outside the body of the loop, those of the body
with the driver, and all others. -/
inductive Action
  | fetcher (t : StreamType) (a : StreamFetcher.Action)
  | fetchFrame (t : StreamType) (o : Outcomes)
  | construct (t : StreamType)
  | releaseFrame (t : StreamType) (ok : Bool)
  | on (t : StreamType) (a : StreamPath.Action)

/-- A step of the owner or the thread. The thread leaves the body when nothing is left to do and
its push has returned. -/
def fetcherStep (w : Camera) (t : StreamType) (a : StreamFetcher.Action) : Option Camera :=
  if (fetcherOf t).isNone then none
  else if (w.fetcher t).thread = some .body ∧ a = .fetch then
    match w.stage t, (w.pipeline.path t).distributor.push with
    | .done, .idle =>
      ((w.fetcher t).step a).map fun f =>
        { w with
          fetcher := Function.update w.fetcher t f
          stage := Function.update w.stage t .head }
    | _, _ => none
  else ((w.fetcher t).step a).map fun f => { w with fetcher := Function.update w.fetcher t f }

/-- The body of the loop up to the constructor. -/
def fetchFrame (w : Camera) (t : StreamType) (o : Outcomes) : Option Camera :=
  match fetcherOf t, w.stage t, (w.fetcher t).thread with
  | some (_, codec), .head, some .body =>
    if o.ready then
      ((w.fetch t).fetchFrame codec o).map fun r =>
        { w with
          fetch := Function.update w.fetch t r.2
          stage := Function.update w.stage t
            (match r.1 with
              | none => .done
              | some frame => .fetched frame) }
    else some { w with stage := Function.update w.stage t .done }
  | _, _, _ => none

/-- `StreamFrame::StreamFrame`, with the clock read before. -/
def construct (w : Camera) (t : StreamType) : Option Camera :=
  match fetcherOf t, w.stage t with
  | some (channel, codec), .fetched frame =>
    ((w.fetch t).newStreamFrame channel t codec frame).bind fun f =>
      f.value.bind fun data =>
        (w.pipeline.construct t channel codec data).map fun pipeline =>
          { w with stage := Function.update w.stage t (.constructed f), pipeline := pipeline }
  | _, _ => none

/-- `releaseFrame`, when the frame has been constructed. -/
def releaseFrame (w : Camera) (t : StreamType) (ok : Bool) : Option Camera :=
  match w.stage t with
  | .constructed _ =>
    ((w.fetch t).releaseFrame ok).map fun s =>
      { w with
        fetch := Function.update w.fetch t s
        stage := Function.update w.stage t .released }
  | .head | .fetched _ | .released | .done => none

/-- Where the fetch thread is after a step that is not with the driver: it reads the clock in the
constructor and pushes after the release. -/
def nextStage : FetchStage → StreamPath.Action → Option FetchStage
  | .fetched frame, .readClock _ => some (.fetched frame)
  | .released, .push => some .done
  | _, .readClock _ | _, .push => none
  | stage, _ => some stage

def step (w : Camera) : Action → Option Camera
  | .fetcher t a => w.fetcherStep t a
  | .fetchFrame t o => w.fetchFrame t o
  | .construct t => w.construct t
  | .releaseFrame t ok => w.releaseFrame t ok
  | .on t a =>
    (nextStage (w.stage t) a).bind fun stage =>
      (w.pipeline.step (.on t a)).map fun pipeline =>
        { w with stage := Function.update w.stage t stage, pipeline := pipeline }

/-- All interleavings of all threads. -/
def machine : Machine Camera Action where
  init w := ∃ currentStream rtspSlot added frameQueueSize,
    w = new currentStream rtspSlot added frameQueueSize
  step := step

/-- The driver keeps its promises. -/
def Action.Valid : Action → Prop
  | .fetchFrame _ o => o.Valid
  | .fetcher _ _ | .construct _ | .releaseFrame _ _ | .on _ _ => True

/-- The stream that a step fetches for a frame. -/
def fetches (t : StreamType) (_ : Camera) : Action → List (List DriverPack)
  | .fetchFrame t' o => if t' = t ∧ o.ready then o.fetched else []
  | .fetcher _ _ | .construct _ | .releaseFrame _ _ | .on _ _ => []

/-- The streams fetched from the channel of a stream. -/
def fetched (t : StreamType) : Camera → List Action → List (List DriverPack) :=
  machine.collect (fetches t)

/-! ## One stream -/

/-- A frame of this stream, made of these packs. -/
structure MadeOf (t : StreamType) (frame : StreamFrame) (packs : List DriverPack) : Prop where
  channel : (fetcherOf t).map Prod.fst = some frame.channel
  type_eq : frame.type = t
  codec : (fetcherOf t).map Prod.snd = some frame.codecType
  vec : frame.data.used.map FramePack.vec = packs.map DriverPack.vec

/-- At each place of the loop: what is held, and which of the streams fetched have become frames. -/
def AtStage (codec : CodecType) (s : FetchState) (fetched made : List (List DriverPack)) :
    FetchStage → Prop
  | .head | .released | .done => s.Idle ∧ fetched = made
  | .fetched frame => ∃ packs, s.Filled codec packs frame ∧ fetched = made ++ [packs]
  | .constructed _ => (∃ packs a, s.Holds packs a) ∧ fetched = made

/-- What is constructed for a stream is made of what was fetched for it, and the pipeline carries
it. -/
def Follows (t : StreamType) (codec : CodecType) (served : Option CodecType)
    (fetched : List (List DriverPack)) (w : Camera) : Prop :=
  ∃ frames made, (w.pipeline.path t).Carries served frames ∧
    List.Forall₂ (MadeOf t) frames made ∧
    AtStage codec (w.fetch t) fetched made (w.stage t)

variable {w w' : Camera} {a : Action} {t t' : StreamType} {channel : VencChannel}
  {codec : CodecType} {served : Option CodecType} {streams : List (List DriverPack)}

theorem AtStage.next {s : FetchState} {fetched made : List (List DriverPack)}
    {stage stage' : FetchStage} {a : StreamPath.Action} (h : AtStage codec s fetched made stage)
    (hnext : nextStage stage a = some stage') : AtStage codec s fetched made stage' := by
  unfold nextStage at hnext
  split at hnext <;> cases hnext <;> exact h

theorem constructs_of_ne (hne : t' ≠ t) (p : Pipeline) (channel : VencChannel) (codec : CodecType)
    (data : FrameData) :
    Pipeline.constructs t p (.construct t' channel codec data) = [] := by
  unfold Pipeline.constructs
  dsimp only
  split
  · exact if_neg hne
  · rfl
  · rfl

/-- The frame that is constructed has the labels of its fetcher. -/
theorem constructs_self {p p' : Pipeline} {data : FrameData}
    (h : p.construct t channel codec data = some p') :
    ∃ ts, Pipeline.constructs t p (.construct t channel codec data) =
      [⟨channel, t, codec, ts, data⟩] := by
  unfold Pipeline.construct at h
  unfold Pipeline.constructs
  cases hf : (p.path t).fetcher with
  | clockRead now =>
    dsimp only
    rw [hf]
    exact ⟨_, if_pos rfl⟩
  | idle | built frame =>
    rw [hf] at h
    cases h

theorem Follows.other (hw : Follows t codec served streams w) (hfetch : w'.fetch t = w.fetch t)
    (hstage : w'.stage t = w.stage t)
    (hcarries : ∀ frames, (w.pipeline.path t).Carries served frames →
      (w'.pipeline.path t).Carries served frames) :
    Follows t codec served streams w' := by
  obtain ⟨frames, made, hc, hmade, hat⟩ := hw
  refine ⟨frames, made, hcarries frames hc, hmade, ?_⟩
  rw [hfetch, hstage]
  exact hat

/-- A step of the pipeline that constructs nothing for this stream. -/
theorem carries_pipeline {b : Pipeline.Action} {p p' : Pipeline} {frames : List StreamFrame}
    (hc : (p.path t).Carries served frames) (h : p.step b = some p')
    (hnone : Pipeline.constructs t p b = []) : (p'.path t).Carries served frames := by
  have hstep := Pipeline.carries_step hc h
  rwa [hnone, List.append_nil] at hstep

/-- The thread leaves the body when its turn is over; any other step is one of the fetcher alone. -/
theorem fetcherStep_cases {b : StreamFetcher.Action} (h : w.fetcherStep t b = some w') :
    ∃ f, (w.fetcher t).step b = some f ∧
      ((b = .fetch ∧ (w.fetcher t).thread = some .body ∧ w.stage t = .done ∧
          (w.pipeline.path t).distributor.push = .idle ∧
          w' = { w with
            fetcher := Function.update w.fetcher t f
            stage := Function.update w.stage t .head }) ∨
        ¬ ((w.fetcher t).thread = some .body ∧ b = .fetch) ∧
          w' = { w with fetcher := Function.update w.fetcher t f }) := by
  unfold fetcherStep at h
  split_ifs at h with hnone hbody
  · split at h
    case h_2 => cases h
    rename_i hdone hpush
    obtain ⟨f, hf, rfl⟩ := Option.map_eq_some_iff.mp h
    exact ⟨f, hf, .inl ⟨hbody.2, hbody.1, hdone, hpush, rfl⟩⟩
  · obtain ⟨f, hf, rfl⟩ := Option.map_eq_some_iff.mp h
    exact ⟨f, hf, .inr ⟨hbody, rfl⟩⟩

theorem Follows.fetcherStep (hw : Follows t codec served streams w) {b : StreamFetcher.Action}
    (h : w.fetcherStep t' b = some w') : Follows t codec served streams w' := by
  obtain ⟨f, -, ⟨-, -, hdone, -, rfl⟩ | ⟨-, rfl⟩⟩ := fetcherStep_cases h
  · by_cases ht : t = t'
    · subst ht
      obtain ⟨frames, made, hcarries, hmade, hat⟩ := hw
      rw [hdone] at hat
      refine ⟨frames, made, hcarries, hmade, ?_⟩
      dsimp only
      rw [Function.update_self]
      exact hat
    · exact hw.other rfl (Function.update_of_ne ht ..) fun _ => id
  · exact hw.other rfl rfl fun _ => id

theorem Follows.fetchFrame (hf : fetcherOf t = some (channel, codec))
    (hw : Follows t codec served streams w) {o : Outcomes} (ho : o.Valid)
    (h : w.fetchFrame t o = some w') :
    Follows t codec served (streams ++ if o.ready then o.fetched else []) w' := by
  unfold Camera.fetchFrame at h
  rw [hf] at h
  split at h
  case h_2 => cases h
  rename_i _ _ hcodec hhead _
  cases hcodec
  split_ifs at h ⊢ with hready
  · obtain ⟨frames, made, hcarries, hmade, hat⟩ := hw
    rw [hhead] at hat
    obtain ⟨hidle, rfl⟩ := hat
    obtain ⟨result, s', hfetch, hcases⟩ :
        ∃ result s', (w.fetch t).fetchFrame codec o = some (result, s') ∧ _ :=
      FetchState.fetchFrame_cases hidle ho
    rw [hfetch] at h
    cases h
    refine ⟨frames, streams, hcarries, hmade, ?_⟩
    dsimp only
    rw [Function.update_self, Function.update_self]
    rcases hcases with ⟨rfl, hidle', hnone⟩ | ⟨frame, packs, rfl, hfilled, hone⟩
    · rw [hnone, List.append_nil]
      exact ⟨hidle', rfl⟩
    · rw [hone]
      exact ⟨packs, hfilled, rfl⟩
  · cases h
    rw [List.append_nil]
    obtain ⟨frames, made, hcarries, hmade, hat⟩ := hw
    rw [hhead] at hat
    refine ⟨frames, made, hcarries, hmade, ?_⟩
    dsimp only
    rw [Function.update_self]
    exact hat

theorem Follows.construct (hf : fetcherOf t = some (channel, codec))
    (hw : Follows t codec served streams w) (h : w.construct t = some w') :
    Follows t codec served streams w' := by
  unfold Camera.construct at h
  rw [hf] at h
  split at h
  case h_2 => cases h
  rename_i _ _ frame hlabels hstage
  cases hlabels
  obtain ⟨frames, made, hcarries, hmade, hat⟩ := hw
  rw [hstage] at hat
  obtain ⟨packs, hfilled, rfl⟩ := hat
  obtain ⟨a, hholds, -⟩ := hfilled.holds
  obtain ⟨f, hnew, hown⟩ := hfilled.newStreamFrame channel t
  obtain ⟨data, hvalue, hvec⟩ := hown.value_eq hholds.length_le
  rw [hnew, Option.bind_some, hvalue, Option.bind_some] at h
  obtain ⟨pipeline, hpipeline, rfl⟩ := Option.map_eq_some_iff.mp h
  obtain ⟨ts, hconstructs⟩ := constructs_self hpipeline
  have hstep := Pipeline.carries_step (a := .construct t channel codec data) hcarries hpipeline
  rw [hconstructs] at hstep
  have hframe : MadeOf t ⟨channel, t, codec, ts, data⟩ packs :=
    ⟨by rw [hf]; rfl, rfl, by rw [hf]; rfl, hvec⟩
  refine ⟨_, made ++ [packs], hstep, List.rel_append hmade (.cons hframe .nil), ?_⟩
  dsimp only
  rw [Function.update_self]
  exact ⟨⟨packs, a, hholds⟩, rfl⟩

theorem Follows.releaseFrame (hw : Follows t codec served streams w) {ok : Bool}
    (h : w.releaseFrame t ok = some w') : Follows t codec served streams w' := by
  unfold Camera.releaseFrame at h
  split at h
  case h_2 | h_3 | h_4 | h_5 => cases h
  rename_i f hstage
  obtain ⟨frames, made, hcarries, hmade, hat⟩ := hw
  rw [hstage] at hat
  obtain ⟨⟨packs, a, hholds⟩, rfl⟩ := hat
  obtain ⟨s', hrelease, hidle⟩ := hholds.releaseFrame ok
  rw [hrelease] at h
  cases h
  refine ⟨frames, streams, hcarries, hmade, ?_⟩
  dsimp only
  rw [Function.update_self, Function.update_self]
  exact ⟨hidle, rfl⟩

theorem Follows.on (hw : Follows t codec served streams w) {a : StreamPath.Action}
    (h : w.step (.on t' a) = some w') : Follows t codec served streams w' := by
  obtain ⟨stage, hnext, h⟩ := Option.bind_eq_some_iff.mp h
  obtain ⟨pipeline, hpipeline, rfl⟩ := Option.map_eq_some_iff.mp h
  have hkept : ∀ frames, (w.pipeline.path t).Carries served frames →
      (pipeline.path t).Carries served frames := fun _ hc => carries_pipeline hc hpipeline rfl
  by_cases ht : t = t'
  · subst ht
    obtain ⟨frames, made, hcarries, hmade, hat⟩ := hw
    refine ⟨frames, made, hkept frames hcarries, hmade, ?_⟩
    dsimp only
    rw [Function.update_self]
    exact hat.next hnext
  · exact hw.other rfl (Function.update_of_ne ht ..) hkept

/-- The fetch thread of another stream does not touch this one. -/
theorem Follows.step_other (hw : Follows t codec served streams w) (hne : t' ≠ t)
    (ha : (∃ o, a = .fetchFrame t' o) ∨ a = .construct t' ∨ ∃ ok, a = .releaseFrame t' ok)
    (h : w.step a = some w') : Follows t codec served streams w' := by
  rcases ha with ⟨o, rfl⟩ | rfl | ⟨ok, rfl⟩
  · have h : w.fetchFrame t' o = some w' := h
    unfold Camera.fetchFrame at h
    split at h
    case h_2 => cases h
    split_ifs at h
    · obtain ⟨r, -, rfl⟩ := Option.map_eq_some_iff.mp h
      exact hw.other (Function.update_of_ne hne.symm ..) (Function.update_of_ne hne.symm ..)
        fun _ => id
    · cases h
      exact hw.other rfl (Function.update_of_ne hne.symm ..) fun _ => id
  · have h : w.construct t' = some w' := h
    unfold Camera.construct at h
    split at h
    case h_2 => cases h
    obtain ⟨f, -, h⟩ := Option.bind_eq_some_iff.mp h
    obtain ⟨data, -, h⟩ := Option.bind_eq_some_iff.mp h
    obtain ⟨pipeline, hpipeline, rfl⟩ := Option.map_eq_some_iff.mp h
    refine hw.other rfl (Function.update_of_ne hne.symm ..) fun frames hc => ?_
    exact carries_pipeline (b := .construct ..) hc hpipeline (constructs_of_ne hne ..)
  · have h : w.releaseFrame t' ok = some w' := h
    unfold Camera.releaseFrame at h
    split at h
    case h_2 | h_3 | h_4 | h_5 => cases h
    obtain ⟨s, -, rfl⟩ := Option.map_eq_some_iff.mp h
    exact hw.other (Function.update_of_ne hne.symm ..) (Function.update_of_ne hne.symm ..)
      fun _ => id

theorem Follows.step (hf : fetcherOf t = some (channel, codec))
    (hw : Follows t codec served streams w) (ha : a.Valid) (h : w.step a = some w') :
    Follows t codec served (streams ++ fetches t w a) w' := by
  cases a with
  | fetcher t' b =>
    show Follows t codec served (streams ++ []) w'
    rw [List.append_nil]
    exact hw.fetcherStep h
  | fetchFrame t' o =>
    by_cases ht : t' = t
    · subst ht
      have hfetches : fetches t' w (.fetchFrame t' o) = if o.ready then o.fetched else [] := by
        simp [fetches]
      rw [hfetches]
      exact hw.fetchFrame hf ha h
    · have hfetches : fetches t w (.fetchFrame t' o) = [] := if_neg fun hand => ht hand.1
      rw [hfetches, List.append_nil]
      exact hw.step_other ht (.inl ⟨o, rfl⟩) h
  | construct t' =>
    show Follows t codec served (streams ++ []) w'
    rw [List.append_nil]
    by_cases ht : t' = t
    · subst ht
      exact hw.construct hf h
    · exact hw.step_other ht (.inr (.inl rfl)) h
  | releaseFrame t' ok =>
    show Follows t codec served (streams ++ []) w'
    rw [List.append_nil]
    by_cases ht : t' = t
    · subst ht
      exact hw.releaseFrame h
    · exact hw.step_other ht (.inr (.inr ⟨ok, rfl⟩)) h
  | on t' a =>
    show Follows t codec served (streams ++ []) w'
    rw [List.append_nil]
    exact hw.on h

/-! ## Nothing undefined is done -/

/-- What the fetch thread of a stream does next with the driver and its buffers is defined. -/
structure Defined (w : Camera) (t : StreamType) : Prop where
  fetchFrame : ∀ o : Outcomes, o.Valid → (w.fetcher t).thread = some .body → w.stage t = .head →
    (w.fetchFrame t o).isSome = true
  construct : ∀ frame now, w.stage t = .fetched frame →
    (w.pipeline.path t).fetcher = .clockRead now → (w.construct t).isSome = true
  releaseFrame : ∀ frame ok, w.stage t = .constructed frame → (w.releaseFrame t ok).isSome = true

theorem Follows.defined (hf : fetcherOf t = some (channel, codec))
    (hw : Follows t codec served streams w) : w.Defined t := by
  obtain ⟨frames, made, -, -, hat⟩ := hw
  refine ⟨?_, ?_, ?_⟩
  · intro o ho hthread hstage
    rw [hstage] at hat
    unfold Camera.fetchFrame
    rw [hf, hstage, hthread]
    dsimp only
    split_ifs
    · obtain ⟨result, s', hfetch, -⟩ :
          ∃ result s', (w.fetch t).fetchFrame codec o = some (result, s') ∧ _ :=
        FetchState.fetchFrame_cases hat.1 ho
      rw [hfetch]
      rfl
    · rfl
  · intro frame now hstage hclock
    rw [hstage] at hat
    obtain ⟨packs, hfilled, -⟩ := hat
    obtain ⟨a, hholds, -⟩ := hfilled.holds
    obtain ⟨f, hnew, hown⟩ := hfilled.newStreamFrame channel t
    obtain ⟨data, hvalue, -⟩ := hown.value_eq hholds.length_le
    unfold Camera.construct Pipeline.construct
    rw [hf, hstage]
    dsimp only
    rw [hnew, Option.bind_some, hvalue, Option.bind_some, hclock]
    rfl
  · intro frame ok hstage
    rw [hstage] at hat
    obtain ⟨⟨packs, a, hholds⟩, -⟩ := hat
    obtain ⟨s', hrelease, -⟩ := hholds.releaseFrame ok
    unfold Camera.releaseFrame
    rw [hstage]
    dsimp only
    rw [hrelease]
    rfl

/-! ## What is delivered -/

/-- The bytes of a NAL unit, and whether it is an IDR. -/
def content (nal : RtspNalUnit) : ByteVec × Bool := (nal.data, nal.isIdr)

/-- The NAL units in the packs of a stream that the encoder has handed out, with their bytes and
whether they are an IDR. -/
def encodedNals (codec : CodecType) (packs : List DriverPack) : List (ByteVec × Bool) :=
  packs.flatMap fun p =>
    (splitAnnexBNals p.vec codec 0 false []).map fun nal => (nal.data, nal.isIdr)

/-- Bytes and IDR flags do not depend on the timestamp and the flag of the frame. -/
theorem split_content (data : ByteVec) (codec : CodecType) (ts : UInt64) (isIdr : Bool) :
    (splitAnnexBNals data codec ts isIdr []).map (fun nal => (nal.data, nal.isIdr)) =
      (splitAnnexBNals data codec 0 false []).map fun nal => (nal.data, nal.isIdr) := by
  by_cases hne : data.bytes = []
  · have hnone : ∀ ts isIdr, splitAnnexBNals data codec ts isIdr [] = [] := fun _ _ =>
      if_pos (List.length_eq_zero_iff.mpr hne)
    rw [hnone, hnone]
  · obtain ⟨nals, hnals, hsplit, -⟩ := split_eq_of_data data hne codec ts isIdr
    obtain ⟨nals', hnals', hsplit', -⟩ := split_eq_of_data data hne codec 0 false
    have hsame : nals = nals' := ByteVec.map_bytes_injective (hnals.trans hnals'.symm)
    rw [hsplit, hsplit', hsame, List.map_map, List.map_map]
    rfl

/-- What the server makes of a frame that it does not drop is what the encoder put in. -/
theorem content_unitsOf {frame : StreamFrame} {packs : List DriverPack}
    (hmade : MadeOf t frame packs) (codec : CodecType) :
    (StreamPath.unitsOf (some codec) frame).map content = encodedNals codec packs := by
  have hpacks : ∀ pk, (RtspServer.packNals codec frame.timestamp frame.isIdr pk).map
      (fun nal => (nal.data, nal.isIdr)) =
        (splitAnnexBNals pk.vec codec 0 false []).map fun nal => (nal.data, nal.isIdr) := by
    intro pk
    rw [RtspServer.packNals_eq_split, split_content]
  have hvec : packs.flatMap (fun p => (splitAnnexBNals p.vec codec 0 false []).map
        fun nal => (nal.data, nal.isIdr)) =
      (packs.map DriverPack.vec).flatMap fun v => (splitAnnexBNals v codec 0 false []).map
        fun nal => (nal.data, nal.isIdr) := by
    rw [List.flatMap_map]
  unfold StreamPath.unitsOf encodedNals
  rw [hvec, ← hmade.vec, List.flatMap_map, List.map_map, ← RtspServer.flatMap_packNals,
    List.map_flatMap]
  exact List.flatMap_congr fun pk _ => hpacks pk

theorem streamCodec_of_fetcher (hf : fetcherOf t = some (channel, codec)) :
    RtspServer.streamCodec t = none ∨ RtspServer.streamCodec t = some codec := by
  cases t <;> cases hf <;> simp [RtspServer.streamCodec]

theorem sublist_flatMap_of_forall₂ {α β γ : Type} {R : α → β → Prop} {f : α → List γ}
    {g : β → List γ} {xs : List α} {ys : List β} (h : List.Forall₂ R xs ys)
    (hfg : ∀ x y, R x y → (f x).Sublist (g y)) : (xs.flatMap f).Sublist (ys.flatMap g) := by
  induction h with
  | nil => exact .slnil
  | cons hxy _ ih =>
    rw [List.flatMap_cons, List.flatMap_cons]
    exact (hfg _ _ hxy).append ih

theorem distributorOf_fetcher (hf : fetcherOf t = some (channel, codec)) :
    distributorOf t = some channel := by
  cases t <;> cases hf <;> rfl

theorem exists_of_forall₂ {α β : Type} {R : α → β → Prop} {xs : List α} {ys : List β} {x : α}
    (h : List.Forall₂ R xs ys) (hx : x ∈ xs) : ∃ y ∈ ys, R x y := by
  induction h with
  | nil => cases hx
  | cons hxy _ ih =>
    rcases List.mem_cons.mp hx with rfl | hx
    · exact ⟨_, List.mem_cons_self, hxy⟩
    · obtain ⟨y, hy, hr⟩ := ih hx
      exact ⟨y, List.mem_cons_of_mem _ hy, hr⟩

theorem Follows.faithful (hserved : served = none ∨ served = some codec)
    (hw : Follows t codec served streams w) :
    ∃ units, List.Forall₂ StreamPath.Carried ((w.pipeline.path t).delivered.map Prod.fst) units ∧
      (units.map content).Sublist (streams.flatMap (encodedNals codec)) := by
  obtain ⟨frames, made, hcarries, hmade, hat⟩ := hw
  obtain ⟨units, hunits, hsub⟩ := hcarries.faithful
  have hstreams : made.Sublist streams := by
    cases hs : w.stage t with
    | head | constructed | released | done =>
      rw [hs] at hat
      exact hat.2 ▸ List.Sublist.refl _
    | fetched frame =>
      rw [hs] at hat
      obtain ⟨packs, -, rfl⟩ := hat
      exact List.sublist_append_left _ _
  refine ⟨units, hunits, (hsub.map content).trans ?_⟩
  rw [List.map_flatMap]
  refine (sublist_flatMap_of_forall₂ hmade fun frame packs h => ?_).trans
    (hstreams.flatMap (encodedNals codec))
  rcases hserved with rfl | rfl
  · exact List.nil_sublist _
  · rw [content_unitsOf h]

theorem Follows.labels (hw : Follows t codec served streams w) {x : StreamFrame × ℕ}
    (hx : x ∈ (w.pipeline.path t).offers) :
    x.1.type = t ∧ fetcherOf t = some (x.1.channel, x.1.codecType) := by
  obtain ⟨frames, made, hcarries, hmade, -⟩ := hw
  have hmem : x.1 ∈ frames := by
    apply hcarries.offered.subset
    exact List.mem_append_left _ (List.mem_map_of_mem hx)
  obtain ⟨packs, -, hframe⟩ := exists_of_forall₂ hmade hmem
  refine ⟨hframe.type_eq, ?_⟩
  have hchannel := hframe.channel
  have hcodec := hframe.codec
  cases hf : fetcherOf t with
  | none =>
    rw [hf] at hchannel
    cases hchannel
  | some fetcher =>
    rw [hf] at hchannel hcodec
    exact congrArg some (Prod.ext (Option.some.inj hchannel) (Option.some.inj hcodec))

theorem follows_new (currentStream : StreamType → VencStream) (rtspSlot : StreamType → SlotId)
    (added : StreamType → Bool) (frameQueueSize : ℕ) (t : StreamType) (codec : CodecType) :
    Follows t codec (if added t then RtspServer.streamCodec t else none) []
      (new currentStream rtspSlot added frameQueueSize) :=
  ⟨[], [], StreamPath.carries_new .., .nil, ⟨rfl, rfl⟩, rfl⟩

/-- **From the encoder to the client.** Take a driver that keeps its promises and any run: however
the fetch threads, the workers, the event loop and the streams interleave, whatever malloc, select
and the driver answer, whatever is dropped. No fetch thread reads from a buffer it has given back or
frees what is not its own; what reaches the distributor of a stream has the labels of the stream's
fetcher, and it is the distributor for that channel; and what has been delivered of the stream
carries, one by one and in order, a part of the NAL units in the packs fetched from its channel. -/
theorem camera_faithful (currentStream : StreamType → VencStream) (rtspSlot : StreamType → SlotId)
    (added : StreamType → Bool) (frameQueueSize : ℕ) (hf : fetcherOf t = some (channel, codec))
    {as : List Action} (has : ∀ a ∈ as, a.Valid)
    (hrun : machine.run (new currentStream rtspSlot added frameQueueSize) as = some w) :
    w.Defined t ∧
      (∀ x ∈ (w.pipeline.path t).offers, x.1.type = t ∧ x.1.codecType = codec ∧
        x.1.channel = channel ∧ distributorOf t = some channel) ∧
      ∃ units, List.Forall₂ StreamPath.Carried ((w.pipeline.path t).delivered.map Prod.fst) units ∧
        (units.map content).Sublist
          ((fetched t (new currentStream rtspSlot added frameQueueSize) as).flatMap
            (encodedNals codec)) := by
  have hserved : (if added t then RtspServer.streamCodec t else none) = none ∨
      (if added t then RtspServer.streamCodec t else none) = some codec := by
    split_ifs
    · exact streamCodec_of_fetcher hf
    · exact .inl rfl
  have hw : Follows t codec (if added t then RtspServer.streamCodec t else none)
      (fetched t (new currentStream rtspSlot added frameQueueSize) as) w :=
    Machine.keep_collect (J := fun streams w => Follows t codec _ streams w) (C := Action.Valid)
      (follows_new currentStream rtspSlot added frameQueueSize t codec)
      (fun _ _ _ _ hw ha h => hw.step hf ha h) has hrun
  refine ⟨hw.defined hf, fun x hx => ?_, hw.faithful hserved⟩
  obtain ⟨htype, hlabels⟩ := hw.labels hx
  rw [hf, Option.some.injEq, Prod.mk.injEq] at hlabels
  exact ⟨htype, hlabels.2.symm, hlabels.1.symm, distributorOf_fetcher hf⟩

/-- A pack with a parameter set and a picture, behind an offset of one byte. -/
def twoNals : DriverPack :=
  ⟨[7, 0, 0, 0, 1, 0x67, 1, 0, 0, 0, 1, 0x65, 2], 13, 1, 5, rfl⟩

/-- A fetcher is started, and its thread gets into the body of its loop. -/
def started : List StreamFetcher.Action := [.start, .owner, .owner, .getFd 3, .fetch]

/-- The main stream finds nothing, the sub stream a pack; the driver refuses to take it back. -/
def oneTurn : List Action :=
  Pipeline.setUp.map (.on .videoSub) ++ started.map (.fetcher .videoMain) ++
    started.map (.fetcher .videoSub) ++
    [.fetchFrame .videoMain (FetchState.outcomes 0 true none),
      .fetchFrame .videoSub (FetchState.outcomes 1 true (some [twoNals])),
      .on .videoSub (.readClock 9), .construct .videoSub, .releaseFrame .videoSub false] ++
    Pipeline.passOn.map (.on .videoSub)

theorem camera_faithful_oneTurn :
    ∃ w units, machine.run (new (fun _ => ⟨some 5, 5⟩) (fun _ => 0) (fun _ => true) 5) oneTurn =
        some w ∧
      List.Forall₂ StreamPath.Carried ((w.pipeline.path .videoSub).delivered.map Prod.fst) units ∧
      units.length = 1 := by
  have hvalid : ∀ a ∈ oneTurn, a.Valid := by
    intro a ha
    unfold oneTurn at ha
    simp only [List.mem_append, List.mem_map, List.mem_cons, List.not_mem_nil, or_false] at ha
    rcases ha with
      (((⟨_, -, rfl⟩ | ⟨_, -, rfl⟩) | ⟨_, -, rfl⟩) | rfl | rfl | rfl | rfl | rfl) | ⟨_, -, rfl⟩
    case inl.inr.inl =>
      intro _ _ _ hstream
      cases hstream
    case inl.inr.inr.inl =>
      intro _ _ hcur hstream
      cases hcur
      cases hstream
      decide
    all_goals trivial
  obtain ⟨w, hw⟩ : ∃ w, machine.run (new (fun _ => ⟨some 5, 5⟩) (fun _ => 0) (fun _ => true) 5)
      oneTurn = some w := Option.isSome_iff_exists.mp (by decide +kernel)
  obtain ⟨-, -, units, hunits, -⟩ :=
    camera_faithful (t := .videoSub) _ _ _ _ rfl hvalid hw
  refine ⟨w, units, hw, hunits, ?_⟩
  rw [← hunits.length_eq, List.length_map]
  have hlength : (machine.run (new (fun _ => ⟨some 5, 5⟩) (fun _ => 0) (fun _ => true) 5)
      oneTurn).map (fun w => (w.pipeline.path .videoSub).delivered.length) = some 1 := by
    decide +kernel
  rw [hw] at hlength
  exact Option.some.inj hlength

end Camera

end Eye
