import Eye.Rtsp.AuxSdpLine

/-!
# What a DESCRIBE advertises

The line that `getAuxSDPLine` returns is put together once, from the sets that the first call to
find them all has copied, and kept. Two questions about these sets:

* `auxSdpLine_kept`: which line does a call return? That of the first such call, so the one for the
  sets of its own time exactly if the sets the codec needs have not changed since.
* `wholeFrames_of_settled`: do the sets that a line is put together from belong to one state of the
  stream? They do if the last lock of that call did not come while a frame had changed some of them
  and was still to change others.
-/

namespace Eye

variable {base64Encode : List UInt8 → String} {sink : RtpSink}

/-! ## The line determines the sets -/

theorem sdpLine_ne_empty (codec : CodecType) (cache : ParameterSetCache) :
    (sdpLine base64Encode sink codec cache).isEmpty = false := by
  rw [Bool.eq_false_iff, ne_eq, String.isEmpty_iff, ← String.toList_inj]
  unfold sdpLine
  split_ifs <;> simp [String.toList_append]

theorem base64EncodeSet_inj (hb : IsBase64 base64Encode) {a b : ByteVec}
    (ha : a.bytes.isEmpty = false) (hb' : b.bytes.isEmpty = false)
    (h : (base64EncodeSet base64Encode a).toList = (base64EncodeSet base64Encode b).toList) :
    a = b := by
  unfold base64EncodeSet at h
  rw [ha, hb', if_neg Bool.false_ne_true, if_neg Bool.false_ne_true, String.toList_inj] at h
  exact ByteVec.ext (hb.injective _ _ h)

theorem notMem_base64EncodeSet (hb : IsBase64 base64Encode) {c : Char} (hpad : c ≠ '=')
    (hc : ∀ n < 64, Base64.char n ≠ c) (data : ByteVec) :
    c ∉ (base64EncodeSet base64Encode data).toList := by
  unfold base64EncodeSet
  split_ifs
  · exact List.not_mem_nil
  · intro h
    rcases hb.isChar _ c h with rfl | ⟨n, hn, rfl⟩
    · exact hpad rfl
    · exact hc n hn rfl

theorem sdpLine_inj (hb : IsBase64 base64Encode) {codec : CodecType} {c c' : ParameterSetCache}
    (hc : c.ready codec = true) (hc' : c'.ready codec = true) :
    sdpLine base64Encode sink codec c = sdpLine base64Encode sink codec c' ↔
      c.needed codec = c'.needed codec := by
  have hsemi : ∀ data : ByteVec, ';' ∉ (base64EncodeSet base64Encode data).toList :=
    notMem_base64EncodeSet hb (by decide) (by decide)
  have hcomma : ∀ data : ByteVec, ',' ∉ (base64EncodeSet base64Encode data).toList :=
    notMem_base64EncodeSet hb (by decide) (by decide)
  unfold ParameterSetCache.ready at hc hc'
  unfold sdpLine ParameterSetCache.needed
  split_ifs at hc hc' ⊢ with hcodec
  · simp only [ParameterSetCache.hasVpsSpsPps, Bool.and_eq_true, Bool.not_eq_true'] at hc hc'
    constructor
    · intro h
      have h := congrArg String.toList h
      simp only [String.toList_append, List.append_assoc, List.append_cancel_left_eq] at h
      rw [show ";sprop-sps=".toList = ';' :: "sprop-sps=".toList from rfl,
        show ";sprop-pps=".toList = ';' :: "sprop-pps=".toList from rfl] at h
      obtain ⟨hvps, h⟩ := Base64.append_inj_of_notMem (hsemi _) (hsemi _) h
      obtain ⟨hsps, h⟩ := Base64.append_inj_of_notMem (hsemi _) (hsemi _)
        (List.append_cancel_left h)
      have hpps := List.append_cancel_right (List.append_cancel_left h)
      rw [base64EncodeSet_inj hb hc.1.1 hc'.1.1 hvps, base64EncodeSet_inj hb hc.1.2 hc'.1.2 hsps,
        base64EncodeSet_inj hb hc.2 hc'.2 hpps]
    · intro h
      simp only [List.cons.injEq, and_true] at h
      rw [h.1, h.2.1, h.2.2]
  · simp only [ParameterSetCache.hasSpsPps, Bool.and_eq_true, Bool.not_eq_true'] at hc hc'
    constructor
    · intro h
      have h := congrArg String.toList h
      simp only [String.toList_append, List.append_assoc, List.append_cancel_left_eq] at h
      rw [show ",".toList = [','] from rfl, List.singleton_append, List.singleton_append] at h
      obtain ⟨hsps, h⟩ := Base64.append_inj_of_notMem (hcomma _) (hcomma _) h
      have hpps := List.append_cancel_right h
      rw [base64EncodeSet_inj hb hc.1 hc'.1 hsps, base64EncodeSet_inj hb hc.2 hc'.2 hpps]
    · intro h
      simp only [List.cons.injEq, and_true] at h
      rw [h.1, h.2]

namespace Describing

variable {w w' : Describing} {a : Action}

/-- The first answer of a call that found every set it needed. -/
def first (w : Describing) : Option Answer :=
  w.answers.find? fun a => a.sets.ready w.sub.codecType

/-! ## What every step keeps -/

/-- The line of the subsession is that of the first answer with all sets, and so is every line that
has been returned; the cache is on its way from one state of the frames to another. -/
structure Inv (base64Encode : List UInt8 → String) (sink : RtpSink) (w : Describing) : Prop where
  unset : w.first = none → w.sub.auxSdpLine = ""
  kept : ∀ a, w.first = some a →
    w.sub.auxSdpLine = sdpLine base64Encode sink w.sub.codecType a.sets
  answers : ∀ a ∈ w.answers, a.line =
    if a.sets.ready w.sub.codecType then some w.sub.auxSdpLine else none
  before : w.before ∈ w.states
  after : RtspServer.cacheAfter w.cache w.rest ∈ w.states

theorem inv_new {sub : RtspServerMediaSubsession} (h : sub.auxSdpLine = "") :
    Inv base64Encode sink (new sub) := by
  refine ⟨fun _ => h, ?_, ?_, ?_, ?_⟩
  · intro a ha
    simp [first, new] at ha
  · intro a ha
    simp [new] at ha
  · simp [new]
  · have hnil : RtspServer.cacheAfter .empty [] = .empty := rfl
    simp [new, hnil]

theorem first_concat (w : Describing) (b : Answer) (sub : RtspServerMediaSubsession)
    (hcodec : sub.codecType = w.sub.codecType) (waiting : Waiting)
    (copied : List ParameterSetCache) :
    first { w with
        sub := sub, waiting := waiting, answers := w.answers ++ [b], copied := copied } =
      w.first.or (if b.sets.ready w.sub.codecType then some b else none) := by
  unfold first
  dsimp only
  rw [List.find?_append, hcodec, List.find?_singleton]

theorem not_ready_of_first_eq_none (h : w.first = none) {b : Answer} (hb : b ∈ w.answers) :
    b.sets.ready w.sub.codecType = false := by
  have := List.find?_eq_none.mp h b hb
  simpa using this

theorem lockedAuxSDPLine_of_not_ready {sub : RtspServerMediaSubsession} {cache : ParameterSetCache}
    (h : cache.ready sub.codecType = false) :
    lockedAuxSDPLine base64Encode sink sub cache = (none, sub) := by
  unfold lockedAuxSDPLine
  rw [h, if_neg Bool.false_ne_true]

theorem lockedAuxSDPLine_of_kept {sub : RtspServerMediaSubsession} {cache : ParameterSetCache}
    (h : cache.ready sub.codecType = true) (hline : sub.auxSdpLine.isEmpty = false) :
    lockedAuxSDPLine base64Encode sink sub cache = (some sub.auxSdpLine, sub) := by
  unfold lockedAuxSDPLine
  rw [h, if_pos rfl, hline, if_neg Bool.false_ne_true]

theorem lockedAuxSDPLine_of_first {sub : RtspServerMediaSubsession} {cache : ParameterSetCache}
    (h : cache.ready sub.codecType = true) (hline : sub.auxSdpLine = "") :
    lockedAuxSDPLine base64Encode sink sub cache =
      (some (sdpLine base64Encode sink sub.codecType cache),
        { sub with auxSdpLine := sdpLine base64Encode sink sub.codecType cache }) := by
  unfold lockedAuxSDPLine
  rw [h, if_pos rfl, hline, show "".isEmpty = true from rfl, if_pos rfl]

theorem lockedAuxSDPLine_codecType (sub : RtspServerMediaSubsession) (cache : ParameterSetCache) :
    (lockedAuxSDPLine base64Encode sink sub cache).2.codecType = sub.codecType := by
  unfold lockedAuxSDPLine
  split_ifs <;> rfl

theorem Inv.lock (hi : Inv base64Encode sink w) (copied : List ParameterSetCache) :
    Inv base64Encode sink { w with
      sub := (lockedAuxSDPLine base64Encode sink w.sub w.cache).2
      waiting := .idle
      answers := w.answers ++ [⟨w.cache, (lockedAuxSDPLine base64Encode sink w.sub w.cache).1⟩]
      copied := copied } := by
  cases hr : w.cache.ready w.sub.codecType with
  | false =>
    rw [lockedAuxSDPLine_of_not_ready hr]
    have hfirst := first_concat w ⟨w.cache, none⟩ w.sub rfl .idle copied
    rw [hr, if_neg Bool.false_ne_true, Option.or_none] at hfirst
    refine ⟨?_, ?_, ?_, hi.before, hi.after⟩
    · intro h
      exact hi.unset (hfirst ▸ h)
    · intro b h
      exact hi.kept b (hfirst ▸ h)
    · intro b hb
      rcases List.mem_append.mp hb with hb | hb
      · exact hi.answers b hb
      · rw [List.mem_singleton.mp hb]
        simp [hr]
  | true =>
    cases hf : w.first with
    | none =>
      rw [lockedAuxSDPLine_of_first hr (hi.unset hf)]
      have hfirst := first_concat w
        ⟨w.cache, some (sdpLine base64Encode sink w.sub.codecType w.cache)⟩
        { w.sub with auxSdpLine := sdpLine base64Encode sink w.sub.codecType w.cache } rfl .idle
        copied
      rw [hf, Option.none_or, hr, if_pos rfl] at hfirst
      refine ⟨?_, ?_, ?_, hi.before, hi.after⟩
      · intro h
        simp [hfirst] at h
      · intro b h
        rw [hfirst] at h
        cases h
        rfl
      · intro b hb
        dsimp only
        rcases List.mem_append.mp hb with hb | hb
        · -- the answers before were NULL
          have hno := not_ready_of_first_eq_none hf hb
          have hold := hi.answers b hb
          rw [hno, if_neg Bool.false_ne_true] at hold ⊢
          exact hold
        · rw [List.mem_singleton.mp hb]
          simp [hr]
    | some f =>
      have hline : w.sub.auxSdpLine.isEmpty = false := by
        rw [hi.kept f hf]
        exact sdpLine_ne_empty _ _
      rw [lockedAuxSDPLine_of_kept hr hline]
      have hfirst := first_concat w ⟨w.cache, some w.sub.auxSdpLine⟩ w.sub rfl .idle copied
      rw [hf, Option.some_or] at hfirst
      refine ⟨?_, ?_, ?_, hi.before, hi.after⟩
      · intro h
        simp [hfirst] at h
      · intro b h
        exact hi.kept b (hf.trans (hfirst ▸ h))
      · intro b hb
        rcases List.mem_append.mp hb with hb | hb
        · exact hi.answers b hb
        · rw [List.mem_singleton.mp hb]
          simp [hr]

theorem Inv.step (hi : Inv base64Encode sink w) (h : Step base64Encode sink w a w') :
    Inv base64Encode sink w' := by
  cases h with
  | beginFrame nals hr =>
    refine ⟨hi.unset, hi.kept, hi.answers, List.mem_append_left _ ?_,
      List.mem_append_right _ (List.mem_singleton.mpr rfl)⟩
    have := hi.after
    rw [hr] at this
    exact this
  | nextNal hr =>
    refine ⟨hi.unset, hi.kept, hi.answers, hi.before, ?_⟩
    have := hi.after
    rw [hr, RtspServer.cacheAfter_cons] at this
    exact this
  | wait waiting ha => exact ⟨hi.unset, hi.kept, hi.answers, hi.before, hi.after⟩
  | lock => exact hi.lock _

theorem inv_of_reachable (hw : (machine base64Encode sink).Reachable w) :
    Inv base64Encode sink w := by
  refine hw.invariant (I := Inv base64Encode sink) (fun w h0 => ?_)
    (fun _ _ _ hi h => hi.step (.of_step h))
  obtain ⟨type, codec, maxClients, reuse, rfl⟩ := h0
  exact inv_new rfl

/-! ## Which line a call returns -/

/-- **The line is kept.** After any run, a call returned NULL exactly if its last lock found a
needed set missing. Otherwise it returned the line for the sets of the first call that found them
all, so the line for its own sets exactly if the needed ones are still those of that call. -/
theorem auxSdpLine_kept (hb : IsBase64 base64Encode)
    (hw : (machine base64Encode sink).Reachable w) {b : Answer} (hmem : b ∈ w.answers) :
    (b.line = none ↔ b.sets.ready w.sub.codecType = false) ∧
      ∀ line, b.line = some line → ∃ f, w.first = some f ∧
        f.line = some line ∧ line = sdpLine base64Encode sink w.sub.codecType f.sets ∧
          (line = sdpLine base64Encode sink w.sub.codecType b.sets ↔
            f.sets.needed w.sub.codecType = b.sets.needed w.sub.codecType) := by
  have hi := inv_of_reachable hw
  have hline := hi.answers b hmem
  cases hr : b.sets.ready w.sub.codecType with
  | false =>
    rw [hr, if_neg Bool.false_ne_true] at hline
    refine ⟨iff_of_true hline rfl, ?_⟩
    intro line h
    simp [hline] at h
  | true =>
    rw [hr, if_pos rfl] at hline
    refine ⟨iff_of_false (by simp [hline]) (by simp), ?_⟩
    intro line h
    cases hf : w.first with
    | none =>
      have hno := not_ready_of_first_eq_none hf hmem
      simp [hno] at hr
    | some f =>
      have hfr : f.sets.ready w.sub.codecType = true :=
        List.find?_some (p := fun a : Answer => a.sets.ready w.sub.codecType) hf
      have hfl := hi.answers f (List.mem_of_find?_eq_some hf)
      rw [hfr, if_pos rfl] at hfl
      have heq : line = sdpLine base64Encode sink w.sub.codecType f.sets := by
        rw [← hi.kept f hf]
        exact Option.some.inj (h.symm.trans hline)
      refine ⟨f, rfl, ?_, heq, ?_⟩
      · rw [hfl, hi.kept f hf, heq]
      · rw [heq]
        exact sdpLine_inj hb hfr hr

/-- A frame of the sub stream with an SPS and a PPS. -/
def setsFrame (ts : UInt64) (b c : UInt8) : StreamFrame :=
  let frame := RtspServer.onePack .videoSub .h264 ts 0 0
  let bytes := [0, 0, 0, 1, 0x67, b, 0, 0, 0, 1, 0x68, c]
  { frame with
    data := { frame.data with
      packs := Vector.replicate _ ⟨some ⟨bytes, (by decide : 12 < 2 ^ 32)⟩, 12, .other,
        fun _ h => Option.some.inj h ▸ rfl⟩ } }

/-- The sink of an H.264 subsession. -/
def h264Sink : RtpSink := ⟨"a=rtpmap:96 H264/90000\r\n", 96⟩

/-- A DESCRIBE after each of two frames with different sets. -/
def twoDescribes : List Action :=
  [.beginFrame (RtspServer.frameNals .h264 (setsFrame 40 1 1)), .nextNal, .nextNal,
    .getAuxSDPLine, .attempt, .lock,
    .beginFrame (RtspServer.frameNals .h264 (setsFrame 80 2 2)), .nextNal, .nextNal,
    .getAuxSDPLine, .attempt, .lock]

theorem twoDescribes_isSome : ((machine base64 h264Sink).run
    (new (.new .videoSub .h264 1 true)) twoDescribes).isSome = true := by
  decide +kernel

/-- The state after the two. -/
def describedTwice : Describing :=
  ((machine base64 h264Sink).run (new (.new .videoSub .h264 1 true)) twoDescribes).get
    twoDescribes_isSome

theorem describedTwice_reachable : (machine base64 h264Sink).Reachable describedTwice :=
  Machine.Reachable.run (.init ⟨_, _, _, _, rfl⟩) (Option.some_get twoDescribes_isSome).symm

/-- The second DESCRIBE gets the line of the first. -/
theorem auxSdpLine_stale : ¬ ∀ b ∈ describedTwice.answers, ∀ line ∈ b.line,
    line = sdpLine base64 h264Sink .h264 b.sets := by
  decide +kernel

theorem auxSdpLine_kept_twice : ∃ b ∈ describedTwice.answers, b.sets.sps.bytes = [0x67, 2] ∧
    ∀ line, b.line = some line → ∃ f, describedTwice.first = some f ∧ f.line = some line := by
  have hmem : ∃ b ∈ describedTwice.answers, b.sets.sps.bytes = [0x67, 2] := by decide +kernel
  obtain ⟨b, hb, hsps⟩ := hmem
  refine ⟨b, hb, hsps, ?_⟩
  intro line h
  obtain ⟨f, hf, hline, -⟩ :=
    (auxSdpLine_kept isBase64_base64 describedTwice_reachable hb).2 line h
  exact ⟨f, hf, hline⟩

/-! ## Which state of the stream it shows -/

/-- The sets that every line has been put together from are those that some number of whole frames
leave. -/
def WholeFrames (w : Describing) : Prop :=
  ∀ b ∈ w.copied, ∃ c ∈ w.states, c.needed w.sub.codecType = b.needed w.sub.codecType

instance (w : Describing) : Decidable w.WholeFrames :=
  inferInstanceAs (Decidable (∀ b ∈ w.copied, _))

/-- When a call takes its last lock and puts a line together, the frame in progress has changed none
of the sets yet, or changes none any more. -/
def Settled (w : Describing) : Action → Prop
  | .lock =>
    w.Copies →
      w.before.needed w.sub.codecType = w.cache.needed w.sub.codecType ∨
        (RtspServer.cacheAfter w.cache w.rest).needed w.sub.codecType =
          w.cache.needed w.sub.codecType
  | .beginFrame _ | .nextNal | .getAuxSDPLine | .attempt => True

instance (w : Describing) : (a : Action) → Decidable (w.Settled a)
  | .lock => inferInstanceAs (Decidable (w.Copies → _ ∨ _))
  | .beginFrame _ | .nextNal | .getAuxSDPLine | .attempt => .isTrue trivial

theorem WholeFrames.step (hi : Inv base64Encode sink w) (hw : w.WholeFrames) (hc : w.Settled a)
    (h : Step base64Encode sink w a w') : w'.WholeFrames := by
  cases h with
  | beginFrame nals hr =>
    intro b hb
    obtain ⟨c, hc, he⟩ := hw b hb
    exact ⟨c, List.mem_append_left _ hc, he⟩
  | nextNal hr => exact hw
  | wait waiting ha => exact hw
  | lock =>
    intro b hb
    dsimp only at hb ⊢
    rw [lockedAuxSDPLine_codecType]
    split_ifs at hb with hcopies
    · rcases List.mem_append.mp hb with hb | hb
      · exact hw b hb
      · rw [List.mem_singleton.mp hb]
        rcases hc hcopies with h | h
        · exact ⟨w.before, hi.before, h⟩
        · exact ⟨_, hi.after, h⟩
    · exact hw b hb

/-- **One state of the stream.** In a run in which no call puts a line together while a frame has
changed some of the sets and is still to change others, the sets of every line are in every state
those that some number of whole frames leave. -/
theorem wholeFrames_of_settled (type : StreamType) (codec : CodecType) (maxClients : ℕ)
    (reuse : Bool) (as : List Action)
    (h : (machine base64Encode sink).Along Settled (new (.new type codec maxClients reuse)) as) :
    (machine base64Encode sink).Always WholeFrames (new (.new type codec maxClients reuse)) as := by
  refine h.always (I := fun w => Inv base64Encode sink w ∧ w.WholeFrames)
    ⟨inv_new rfl, fun b hb => absurd hb List.not_mem_nil⟩ (fun w a w' hi hc h => ?_)
    fun w hi => hi.2
  exact ⟨hi.1.step (.of_step h), hi.2.step hi.1 hc (.of_step h)⟩

/-- A DESCRIBE between the SPS and the PPS of the second frame. -/
def midFrame : List Action :=
  [.beginFrame (RtspServer.frameNals .h264 (setsFrame 40 1 1)), .nextNal, .nextNal,
    .beginFrame (RtspServer.frameNals .h264 (setsFrame 80 2 2)), .nextNal,
    .getAuxSDPLine, .attempt, .lock]

theorem midFrame_isSome : ((machine base64 h264Sink).run
    (new (.new .videoSub .h264 1 true)) midFrame).isSome = true := by
  decide +kernel

/-- The state after it. -/
def describedMidFrame : Describing :=
  ((machine base64 h264Sink).run (new (.new .videoSub .h264 1 true)) midFrame).get midFrame_isSome

/-- It advertises the new SPS with the old PPS. -/
theorem describe_midFrame :
    describedMidFrame.first.map (fun f => f.sets.needed .h264) =
        some [⟨[0x67, 2], by decide⟩, ⟨[0x68, 1], by decide⟩] ∧
      ¬ (machine base64 h264Sink).Always WholeFrames (new (.new .videoSub .h264 1 true))
        midFrame := by
  refine ⟨by decide +kernel, ?_⟩
  intro h
  have hw : describedMidFrame.WholeFrames := h.last (Option.some_get midFrame_isSome).symm
  exact absurd hw (by decide +kernel)

/-- A DESCRIBE after the first frame, and one between the SPS and the PPS of the second, which gets
the line of the first. -/
def keptMidFrame : List Action :=
  [.beginFrame (RtspServer.frameNals .h264 (setsFrame 40 1 1)), .nextNal, .nextNal,
    .getAuxSDPLine, .attempt, .lock,
    .beginFrame (RtspServer.frameNals .h264 (setsFrame 80 2 2)), .nextNal,
    .getAuxSDPLine, .attempt, .lock]

theorem wholeFrames_of_settled_kept :
    (machine base64 h264Sink).Always WholeFrames (new (.new .videoSub .h264 1 true))
        keptMidFrame ∧
      ((machine base64 h264Sink).run (new (.new .videoSub .h264 1 true)) keptMidFrame).map
        (fun w => (w.answers.length, w.copied.length)) = some (2, 1) := by
  refine ⟨?_, by decide +kernel⟩
  apply wholeFrames_of_settled
  exact .of_checks (by decide +kernel)

end Describing

end Eye
