import Mathlib.Data.List.Forall2
import Eye.Rtsp.PresentationTime

/-!
# What reaches a client

From the constructor of `StreamFrame` to the downstream callback: what is delivered of a stream is,
in order, a part of the NAL units that the splitter finds in the frames constructed for it
(`delivered_faithful`). Frames and access units get lost on the way, for lack of room; nothing is
invented, doubled, reordered or changed, and nothing of another stream comes in between.

`Carries` says it of every state. The worker is ahead of the queue by the frame it works on, until
it has pushed that frame's access unit; `Handled` lists the frames that it has done with.
-/

namespace Eye

namespace StreamPath

/-- The NAL units that `on_frame` makes of a frame, for a stream of that codec. -/
def unitsOf (codec : Option CodecType) (frame : StreamFrame) : List RtspNalUnit :=
  match codec with
  | none => []
  | some codec => (RtspServer.frameNals codec frame).map (RtspServer.nalUnit frame.timestamp)

/-- What is delivered carries a NAL unit into the buffer of some request. -/
def Carried (d : Delivery) (nal : RtspNalUnit) : Prop :=
  ∃ maxSize, RtspStreamSource.Answers maxSize nal d

/-- The frame that the fetch thread has constructed and not yet pushed. -/
def unpushed (p : StreamPath) : List StreamFrame :=
  match p.fetcher with
  | .built frame => [frame]
  | .idle | .clockRead _ => []

/-- The frames given to the RTSP consumer whose access units have been pushed or discarded. -/
def Handled (p : StreamPath) (done : List (StreamFrame × ℕ)) : Prop :=
  match p.callback with
  | .idle =>
    (∃ x, p.place = .process x ∧ p.given = done ++ [x]) ∨
      (∀ x, p.place ≠ .process x) ∧ p.given = done
  | .gathered n nals | .active n nals =>
    ∃ frame, p.place = .process (frame, n) ∧ p.given = done ++ [(frame, n)] ∧
      nals = unitsOf p.codec frame
  | .returned => (∃ x, p.place = .process x) ∧ p.given = done

/-- All that has been delivered and is queued comes from the frames constructed so far. -/
structure Carries (codec : Option CodecType) (constructed : List StreamFrame) (p : StreamPath) :
    Prop where
  codec_eq : p.codec = codec
  distributor : p.distributor.Inv
  wf : p.queue.Wf
  offered : (p.offers.map Prod.fst ++ p.unpushed).Sublist constructed
  carried : ∃ done units, p.Handled done ∧
    List.Forall₂ Carried (p.delivered.map Prod.fst) units ∧
    (units ++ p.queue.nals.map Prod.fst).Sublist
      (done.flatMap fun x => unitsOf p.codec x.1)

variable {p p' : StreamPath} {codec : Option CodecType} {constructed : List StreamFrame}
  {done : List (StreamFrame × ℕ)}

theorem carries_new (rtspSlot : SlotId) (codec : Option CodecType) (maxQueueSize : ℕ) :
    Carries codec [] (new rtspSlot codec maxQueueSize) where
  codec_eq := rfl
  distributor := StreamDistributor.inv_new
  wf := RtspFrameQueue.wf_new _
  offered := .slnil
  carried := ⟨[], [], .inr ⟨nofun, rfl⟩, .nil, .slnil⟩

/-! ## The steps of the worker -/

theorem Carries.setCallback (hc : Carries codec constructed p) {cache : ParameterSetCache}
    {callback : Callback} {queue : RtspFrameQueue (RtspNalUnit × ℕ)} (hwf : queue.Wf)
    (hnext : ∀ done units, p.Handled done →
      (units ++ p.queue.nals.map Prod.fst).Sublist (done.flatMap fun x => unitsOf p.codec x.1) →
      ∃ done', Handled { p with cache := cache, callback := callback, queue := queue } done' ∧
        (units ++ queue.nals.map Prod.fst).Sublist
          (done'.flatMap fun x => unitsOf p.codec x.1)) :
    Carries codec constructed { p with cache := cache, callback := callback, queue := queue } := by
  obtain ⟨done, units, hdone, hunits, hsub⟩ := hc.carried
  obtain ⟨done', hdone', hsub'⟩ := hnext done units hdone hsub
  exact ⟨hc.codec_eq, hc.distributor, hwf, hc.offered, done', units, hdone', hunits, hsub'⟩

/-- What comes of the frames before comes of them and one more. -/
theorem sublist_flatMap_concat {x : StreamFrame × ℕ}
    {units : List RtspNalUnit} (h : units.Sublist (done.flatMap fun x => unitsOf codec x.1)) :
    units.Sublist ((done ++ [x]).flatMap fun x => unitsOf codec x.1) := by
  rw [List.flatMap_append]
  exact h.trans (List.sublist_append_left _ _)

theorem Carries.onFrame (hc : Carries codec constructed p) (h : p.onFrame = some p') :
    Carries codec constructed p' := by
  unfold StreamPath.onFrame at h
  split at h
  · rename_i frame n hidle hp
    have hgiven : ∀ done, p.Handled done → p.given = done ++ [(frame, n)] := by
      intro done hdone
      unfold Handled at hdone
      rw [hidle] at hdone
      rcases hdone with ⟨x, hx, hgiven⟩ | ⟨hnone, -⟩
      · cases hx.symm.trans hp
        exact hgiven
      · exact absurd hp (hnone _)
    split at h
    · rename_i hcodec
      cases h
      refine hc.setCallback hc.wf fun done units hdone hsub => ?_
      exact ⟨_, ⟨⟨_, hp⟩, hgiven done hdone⟩, sublist_flatMap_concat hsub⟩
    · rename_i codec' hcodec
      cases h
      refine hc.setCallback hc.wf fun done units hdone hsub => ⟨done, ?_, hsub⟩
      refine ⟨frame, hp, hgiven done hdone, ?_⟩
      dsimp only
      rw [hcodec, RtspServer.gather_eq]
      rfl
  · cases h

theorem Carries.check (hc : Carries codec constructed p) (h : p.check = some p') :
    Carries codec constructed p' := by
  unfold StreamPath.check at h
  cases hcb : p.callback with
  | gathered n nals =>
    rw [hcb] at h
    cases h
    refine hc.setCallback hc.wf fun done units hdone hsub => ?_
    unfold Handled at hdone ⊢
    rw [hcb] at hdone
    dsimp only
    split_ifs
    · exact ⟨done, hdone, hsub⟩
    · obtain ⟨frame, hp, hgiven, -⟩ := hdone
      exact ⟨_, ⟨⟨_, hp⟩, hgiven⟩, sublist_flatMap_concat hsub⟩
  | idle | active n nals | returned =>
    rw [hcb] at h
    cases h

theorem Carries.enqueue (hc : Carries codec constructed p) (h : p.enqueue = some p') :
    Carries codec constructed p' := by
  unfold StreamPath.enqueue at h
  cases hcb : p.callback with
  | active n nals =>
    rw [hcb] at h
    cases h
    refine hc.setCallback (hc.wf.pushAccessUnit _) fun done units hdone hsub => ?_
    unfold Handled at hdone
    rw [hcb] at hdone
    obtain ⟨frame, hp, hgiven, rfl⟩ := hdone
    refine ⟨_, ⟨⟨_, hp⟩, hgiven⟩, ?_⟩
    obtain ⟨kept, hkept, hnals⟩ :=
      RtspFrameQueue.nals_pushAccessUnit hc.wf (Playback.number n (unitsOf p.codec frame))
    have hnumber : (Playback.number n (unitsOf p.codec frame)).map Prod.fst =
        unitsOf p.codec frame := by
      unfold Playback.number
      rw [List.map_map]
      exact List.map_id _
    rw [hnals, List.map_append, hnumber, List.flatMap_append, List.flatMap_singleton,
      ← List.append_assoc]
    have hold : (units ++ kept.map Prod.fst).Sublist (units ++ p.queue.nals.map Prod.fst) :=
      (List.Sublist.refl _).append (hkept.map _)
    exact (hold.trans hsub).append (List.Sublist.refl _)
  | idle | gathered n nals | returned =>
    rw [hcb] at h
    cases h

theorem Carries.deliver (hc : Carries codec constructed p) (src : RtspStreamSource) :
    Carries codec constructed (p.deliver src) := by
  unfold StreamPath.deliver
  rcases RtspFrameQueue.nals_popNalUnit hc.wf with ⟨hnone, -, hsame⟩ | ⟨x, hsome, hcons⟩
  · rw [show p.queue.popNalUnit = (none, p.queue) from Prod.ext hnone hsame]
    exact hc
  · rw [show p.queue.popNalUnit = (some x, p.queue.popNalUnit.2) from Prod.ext hsome rfl]
    obtain ⟨done, units, hdone, hunits, hsub⟩ := hc.carried
    refine ⟨hc.codec_eq, hc.distributor, hc.wf.popNalUnit, hc.offered, done, units ++ [x.1], hdone,
      ?_, ?_⟩
    · dsimp only
      rw [List.map_append]
      exact List.rel_append hunits
        (.cons ⟨src.fMaxSize, RtspStreamSource.answers_delivery src x.1⟩ .nil)
    · rw [hcons, List.map_cons] at hsub
      dsimp only
      rw [List.append_assoc]
      exact hsub

/-! ## The steps of the distributor -/

theorem Carries.setDistributor (hc : Carries codec constructed p)
    {d : StreamDistributor StreamFrame} {callback : Callback} (hd : d.Inv)
    (hoffers : d.offersTo p.rtspSlot = p.offers)
    (hhandled : ∀ done, p.Handled done →
      Handled { p with distributor := d, callback := callback } done) :
    Carries codec constructed { p with distributor := d, callback := callback } := by
  obtain ⟨done, units, hdone, hunits, hsub⟩ := hc.carried
  refine ⟨hc.codec_eq, hd, hc.wf, ?_, done, units, hhandled done hdone, hunits, hsub⟩
  show ((d.offersTo p.rtspSlot).map Prod.fst ++ p.unpushed).Sublist constructed
  rw [hoffers]
  exact hc.offered

/-- A step of the distributor that is no push and does not end the callback of the RTSP consumer. -/
theorem Carries.distributor_step (hc : Carries codec constructed p)
    {a : StreamDistributor.Action StreamFrame} {d : StreamDistributor StreamFrame}
    (h : p.distributor.Step a d) (hends : endsCallback p.rtspSlot a = none)
    (hoffers : d.offersTo p.rtspSlot = p.offers) :
    Carries codec constructed { p with distributor := d } := by
  refine hc.setDistributor (hc.distributor.step h) hoffers fun done hdone => ?_
  unfold Handled at hdone ⊢
  rcases StreamDistributor.worker_cases (k := p.rtspSlot) h with
    ⟨x, hready, hprocess, hleft⟩ | ⟨hleft, ⟨ok, rfl, -⟩ | hsame⟩
  · have hnot : ∀ y, p.place ≠ .process y := by
      intro y hy
      rw [show p.place = .ready from hready] at hy
      cases hy
    cases hcb : p.callback with
    | idle =>
      rw [hcb] at hdone
      rcases hdone with ⟨y, hy, -⟩ | ⟨-, hgiven⟩
      · exact absurd hy (hnot y)
      · refine .inl ⟨x, hprocess, ?_⟩
        show (d.workerOf p.rtspSlot).ledger.left = _
        rw [hleft, ← hgiven]
        rfl
    | gathered n nals | active n nals =>
      rw [hcb] at hdone
      obtain ⟨frame, hp, -⟩ := hdone
      exact absurd hp (hnot _)
    | returned =>
      rw [hcb] at hdone
      obtain ⟨⟨y, hy⟩, -⟩ := hdone
      exact absurd hy (hnot y)
  · have hends : (if p.rtspSlot = p.rtspSlot then some ok else none) = none := hends
    rw [if_pos rfl] at hends
    cases hends
  · have hgiven : given { p with distributor := d } = p.given := hleft
    have hplace : ∀ x, place { p with distributor := d } = .process x ↔ p.place = .process x :=
      hsame
    dsimp only
    rw [hgiven]
    simp only [hplace, Ne]
    exact hdone

/-- The callback of the RTSP consumer has returned, or is left with an exception: then what it had
gathered is lost. -/
theorem Carries.finish (hc : Carries codec constructed p) {ok : Bool}
    {d : StreamDistributor StreamFrame} (h : p.distributor.Step (.slot p.rtspSlot (.finish ok)) d) :
    Carries codec constructed { p with distributor := d, callback := .idle } := by
  obtain ⟨htest, hleft⟩ := StreamDistributor.workerOf_finish h
  obtain ⟨done, units, hdone, hunits, hsub⟩ := hc.carried
  have hoffers : d.offersTo p.rtspSlot = p.offers := by
    rw [StreamDistributor.offersTo_step hc.distributor h]
    exact List.append_nil _
  have hnot : ∀ x, place { p with distributor := d, callback := .idle } ≠ .process x := by
    intro x hx
    rw [show place { p with distributor := d, callback := .idle } = .test from htest] at hx
    cases hx
  have hgiven : p.given = done ∨ ∃ x, p.given = done ++ [x] := by
    unfold Handled at hdone
    cases hcb : p.callback with
    | idle =>
      rw [hcb] at hdone
      rcases hdone with ⟨x, -, hgiven⟩ | ⟨-, hgiven⟩
      · exact .inr ⟨x, hgiven⟩
      · exact .inl hgiven
    | gathered n nals | active n nals =>
      rw [hcb] at hdone
      obtain ⟨frame, -, hgiven, -⟩ := hdone
      exact .inr ⟨_, hgiven⟩
    | returned =>
      rw [hcb] at hdone
      exact .inl hdone.2
  refine ⟨hc.codec_eq, hc.distributor.step h, hc.wf, ?_, p.given, units, .inr ⟨hnot, hleft⟩, hunits,
    ?_⟩
  · show ((d.offersTo p.rtspSlot).map Prod.fst ++ p.unpushed).Sublist constructed
    rw [hoffers]
    exact hc.offered
  · rcases hgiven with hgiven | ⟨x, hgiven⟩ <;> rw [hgiven]
    · exact hsub
    · exact sublist_flatMap_concat hsub

theorem Carries.distribute (hc : Carries codec constructed p)
    {a : StreamDistributor.Action StreamFrame} (h : p.distribute a = some p') :
    Carries codec constructed p' := by
  have hstep : ∀ d, p.distributor.step a = some d → (∀ frame, a ≠ .push frame) →
      endsCallback p.rtspSlot a = none → Carries codec constructed { p with distributor := d } := by
    intro d hd hpush hends
    have hd := StreamDistributor.Step.of_step hd
    refine hc.distributor_step hd hends ?_
    rw [StreamDistributor.offersTo_step hc.distributor hd]
    cases a with
    | push frame => exact absurd rfl (hpush frame)
    | addConsumer | link | removeConsumer | continuePush | destroy | continueDestroy | slot =>
      exact List.append_nil _
  cases a with
  | push frame => cases h
  | addConsumer | link | removeConsumer | continuePush | destroy | continueDestroy =>
    obtain ⟨d, hd, rfl⟩ := Option.map_eq_some_iff.mp h
    exact hstep d hd nofun rfl
  | slot k b =>
    unfold StreamPath.distribute at h
    cases hends : endsCallback p.rtspSlot (.slot k b) with
    | none =>
      simp only [hends] at h
      obtain ⟨d, hd, rfl⟩ := Option.map_eq_some_iff.mp h
      exact hstep d hd nofun hends
    | some ok =>
      simp only [hends] at h
      split_ifs at h
      obtain ⟨d, hd, rfl⟩ := Option.map_eq_some_iff.mp h
      rw [endsCallback_eq_some hends] at hd
      exact hc.finish (.of_step hd)

theorem Carries.push (hc : Carries codec constructed p) (h : p.push = some p') :
    Carries codec constructed p' := by
  unfold StreamPath.push at h
  cases hf : p.fetcher with
  | idle | clockRead now =>
    rw [hf] at h
    cases h
  | built frame =>
    rw [hf] at h
    obtain ⟨d, hd, rfl⟩ := Option.map_eq_some_iff.mp h
    have hstep := StreamDistributor.Step.of_step hd
    have hworker : d.workerOf p.rtspSlot = p.distributor.workerOf p.rtspSlot := by
      rcases StreamDistributor.workerOf_step (k := p.rtspSlot) hstep with heq | ⟨-, b, hb, -⟩
      · exact heq
      · cases hb
    obtain ⟨done, units, hdone, hunits, hsub⟩ := hc.carried
    refine ⟨hc.codec_eq, hc.distributor.step hstep, hc.wf, ?_, done, units, ?_, hunits, hsub⟩
    · have hoffered := hc.offered
      unfold unpushed at hoffered ⊢
      rw [hf] at hoffered
      dsimp only
      rw [List.append_nil]
      refine List.Sublist.trans ?_ hoffered
      show ((d.offersTo p.rtspSlot).map Prod.fst).Sublist _
      rw [StreamDistributor.offersTo_step hc.distributor hstep, List.map_append]
      refine (List.Sublist.refl _).append ?_
      unfold StreamDistributor.snapshot
      dsimp only
      split_ifs
      · exact List.Sublist.refl _
      · exact List.nil_sublist _
    · unfold Handled place given at hdone ⊢
      dsimp only
      rw [hworker]
      exact hdone

theorem Carries.step (hc : Carries codec constructed p) {a : Action} (h : p.step a = some p') :
    Carries codec constructed p' := by
  cases a with
  | readClock now =>
    have h : p.readClock now = some p' := h
    unfold StreamPath.readClock at h
    split at h
    · rename_i hf hp
      cases h
      have hoffered := hc.offered
      unfold unpushed at hoffered
      rw [hf] at hoffered
      exact ⟨hc.codec_eq, hc.distributor, hc.wf, hoffered, hc.carried⟩
    · cases h
  | push => exact hc.push h
  | distribute a => exact hc.distribute h
  | onFrame => exact hc.onFrame h
  | check => exact hc.check h
  | enqueue => exact hc.enqueue h
  | register s | unregister s =>
    cases h
    exact ⟨hc.codec_eq, hc.distributor, ⟨hc.wf.ne_nil, hc.wf.length_le⟩, hc.offered, hc.carried⟩
  | deliver src =>
    cases h
    exact hc.deliver src

theorem Carries.faithful (hc : Carries codec constructed p) :
    ∃ units, List.Forall₂ Carried (p.delivered.map Prod.fst) units ∧
      units.Sublist (constructed.flatMap (unitsOf codec)) := by
  obtain ⟨done, units, hdone, hunits, hsub⟩ := hc.carried
  refine ⟨units, hunits, ?_⟩
  have hdone : done.Sublist p.given := by
    unfold Handled at hdone
    cases hcb : p.callback with
    | idle =>
      rw [hcb] at hdone
      rcases hdone with ⟨x, -, hgiven⟩ | ⟨-, hgiven⟩ <;> rw [hgiven]
      exact List.sublist_append_left _ _
    | gathered n nals | active n nals =>
      rw [hcb] at hdone
      obtain ⟨frame, -, hgiven, -⟩ := hdone
      rw [hgiven]
      exact List.sublist_append_left _ _
    | returned =>
      rw [hcb] at hdone
      rw [hdone.2]
  have hframes : (done.map Prod.fst).Sublist constructed :=
    ((hdone.trans (StreamDistributor.given_sublist hc.distributor _)).map _).trans
      ((List.sublist_append_left _ _).trans hc.offered)
  have hunitsOf : (done.map Prod.fst).flatMap (unitsOf p.codec) =
      done.flatMap fun x => unitsOf p.codec x.1 := List.flatMap_map ..
  refine ((List.sublist_append_left _ _).trans hsub).trans ?_
  rw [← hunitsOf, hc.codec_eq]
  exact hframes.flatMap (unitsOf codec)

end StreamPath

namespace Pipeline

variable {w w' : Pipeline} {a : Action}

/-- The frame that a step constructs for a stream. -/
def constructs (t : StreamType) (w : Pipeline) : Action → List StreamFrame
  | .construct t' channel codecType data =>
    match (w.path t').fetcher with
    | .clockRead now =>
      if t' = t then [⟨channel, t, codecType, nextMonotonicTimestampMs w.lastTimestamp now, data⟩]
      else []
    | .idle | .built _ => []
  | .on _ _ => []

/-- The frames constructed for a stream. -/
def constructed (t : StreamType) : Pipeline → List Action → List StreamFrame :=
  machine.collect (constructs t)

theorem carries_construct {t t' : StreamType} {codec : Option CodecType}
    {frames : List StreamFrame} {channel : VencChannel} {codecType : CodecType} {data : FrameData}
    (hc : (w.path t).Carries codec frames) (h : w.construct t' channel codecType data = some w') :
    (w'.path t).Carries codec
      (frames ++ constructs t w (.construct t' channel codecType data)) := by
  unfold Pipeline.construct at h
  unfold constructs
  cases hf : (w.path t').fetcher with
  | clockRead now =>
    simp only [hf] at h ⊢
    cases h
    dsimp only
    by_cases ht : t = t'
    · subst ht
      rw [Function.update_self, if_pos rfl]
      have hoffered := hc.offered
      unfold StreamPath.unpushed at hoffered
      rw [hf] at hoffered
      rw [List.append_nil] at hoffered
      exact ⟨hc.codec_eq, hc.distributor, hc.wf, hoffered.append (List.Sublist.refl _), hc.carried⟩
    · rw [Function.update_of_ne ht, if_neg (Ne.symm ht), List.append_nil]
      exact hc
  | idle | built frame =>
    rw [hf] at h
    cases h

theorem carries_step {t : StreamType} {codec : Option CodecType} {frames : List StreamFrame}
    (hc : (w.path t).Carries codec frames) (h : w.step a = some w') :
    (w'.path t).Carries codec (frames ++ constructs t w a) := by
  cases a with
  | construct t' channel codecType data => exact carries_construct hc h
  | on t' a =>
    obtain ⟨p, hp, rfl⟩ := Option.map_eq_some_iff.mp h
    show (Function.update w.path t' p t).Carries codec (frames ++ [])
    rw [List.append_nil]
    by_cases ht : t = t'
    · subst ht
      rw [Function.update_self]
      exact hc.step hp
    · rw [Function.update_of_ne ht]
      exact hc

/-- **Faithful delivery.** In every run, whatever the clock reads, however the streams interleave,
whatever is dropped and whichever callbacks fail: what has been delivered of a stream carries, one
by one, a part of the NAL units of the frames constructed for that stream, in their order. -/
theorem delivered_faithful (path : StreamType → SlotId × Option CodecType × ℕ) {as : List Action}
    (hrun : machine.run (new path) as = some w) (t : StreamType) :
    ∃ units, List.Forall₂ StreamPath.Carried ((w.path t).delivered.map Prod.fst) units ∧
      units.Sublist
        ((constructed t (new path) as).flatMap (StreamPath.unitsOf (path t).2.1)) := by
  have h := Machine.keep_collect (J := fun frames w => (w.path t).Carries (path t).2.1 frames)
    (C := fun _ => True) (StreamPath.carries_new ..) (fun _ _ _ _ hc _ h => carries_step hc h)
    (fun _ _ => trivial) hrun
  exact h.faithful

/-- Both frames of `twoFrames` come through, whole. -/
theorem delivered_faithful_twoFrames :
    ∃ w units, machine.run (new fun _ => (0, some .h264, 5)) twoFrames = some w ∧
      List.Forall₂ StreamPath.Carried ((w.path .videoSub).delivered.map Prod.fst) units ∧
      units.length = 2 := by
  obtain ⟨w, hw⟩ : ∃ w, machine.run (new fun _ => (0, some .h264, 5)) twoFrames = some w :=
    Option.isSome_iff_exists.mp (by decide +kernel)
  obtain ⟨units, hunits, -⟩ := delivered_faithful _ hw .videoSub
  refine ⟨w, units, hw, hunits, ?_⟩
  rw [← hunits.length_eq, List.length_map]
  have hlength : (machine.run (new fun _ => (0, some .h264, 5)) twoFrames).map
      (fun w => (w.path .videoSub).delivered.length) = some 2 := by decide +kernel
  rw [hw] at hlength
  exact Option.some.inj hlength

end Pipeline

end Eye
