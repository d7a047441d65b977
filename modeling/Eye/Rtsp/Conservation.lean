import Eye.Rtsp.FaithfulDelivery

/-!
# What becomes of every NAL unit

`FaithfulDelivery` says that nothing is invented; here nothing disappears. A frame that is offered
to the RTSP consumer is dropped from its queue, cleared with the queue, still waiting, or given to
`on_frame`. A NAL unit of a frame that is given is delivered, queued or in the worker's hands, or it
was lost in one of three ways (`lost`): no source was active, the frame queue was full, or
`on_frame` threw.

`nals_conserved` counts them: each is in exactly one of these places.
-/

namespace Eye

/-- What a push makes a queue give up. -/
def RtspFrameQueue.evicted {ν : Type} (q : RtspFrameQueue ν) (nals : List ν) : List ν :=
  if nals.isEmpty then [] else (DropOldest.evicted q.maxQueueSize q.queue).flatten

theorem RtspFrameQueue.pushAccessUnit_perm {ν : Type} {q : RtspFrameQueue ν} (hq : q.Wf)
    (nals : List ν) :
    ((q.pushAccessUnit nals).nals ++ q.evicted nals).Perm (q.nals ++ nals) := by
  unfold evicted
  by_cases hnals : nals = []
  · rw [hnals]
    exact .refl _
  · rw [if_neg (by simpa using hnals)]
    have hqueue : q.nals = (DropOldest.evicted q.maxQueueSize q.queue).flatten ++
        (DropOldest.kept q.maxQueueSize q.queue).flatten := by
      unfold RtspFrameQueue.nals
      rw [← List.flatten_append, DropOldest.evicted_append_kept]
    rw [hqueue]
    unfold RtspFrameQueue.nals
    rw [queue_pushAccessUnit hq hnals]
    unfold DropOldest.push
    rw [List.flatten_append, List.flatten_singleton]
    exact List.perm_append_comm.trans (.of_eq (List.append_assoc ..).symm)

namespace StreamPath

/-- The NAL units of the frame that the worker of the RTSP consumer is at. -/
def hand (codec : Option CodecType) (place : Place (StreamFrame × ℕ)) : Callback → List RtspNalUnit
  | .idle => place.inHand.flatMap fun x => unitsOf codec x.1
  | .gathered _ nals | .active _ nals => nals
  | .returned => []

def inHand (p : StreamPath) : List RtspNalUnit := hand p.codec p.place p.callback

/-- The NAL units that a step loses. -/
def lost (p : StreamPath) : Action → List RtspNalUnit
  | .check =>
    match p.callback with
    | .gathered _ nals => if p.queue.hasActiveSources then [] else nals
    | .idle | .active _ _ | .returned => []
  | .enqueue =>
    match p.callback with
    | .active n nals => (p.queue.evicted (Playback.number n nals)).map Prod.fst
    | .idle | .gathered _ _ | .returned => []
  | .distribute a => if endsCallback p.rtspSlot a = some false then p.inHand else []
  | .readClock _ | .push | .onFrame | .register _ | .unregister _ | .deliver _ => []

/-- The NAL units of the frames given are delivered, queued, in hand or lost, each once. -/
def Conserves (lost : List RtspNalUnit) (p : StreamPath) : Prop :=
  ∃ units, List.Forall₂ Carried (p.delivered.map Prod.fst) units ∧
    ∀ nal : RtspNalUnit, units.count nal + (p.queue.nals.map Prod.fst).count nal +
        p.inHand.count nal + lost.count nal =
      (p.given.flatMap fun x => unitsOf p.codec x.1).count nal

variable {p p' : StreamPath} {codec : Option CodecType} {constructed : List StreamFrame}
  {gone : List RtspNalUnit}

theorem conserves_new (rtspSlot : SlotId) (codec : Option CodecType) (maxQueueSize : ℕ) :
    Conserves [] (new rtspSlot codec maxQueueSize) :=
  ⟨[], .nil, fun _ => rfl⟩

/-- A step that leaves what is given and moves NAL units between the queue, the hand and what is
lost. -/
theorem Conserves.move (hw : p.Conserves gone) {new : List RtspNalUnit}
    (hdelivered : p'.delivered = p.delivered) (hcodec : p'.codec = p.codec)
    (hgiven : p'.given = p.given)
    (hcount : ∀ nal : RtspNalUnit, (p'.queue.nals.map Prod.fst).count nal + p'.inHand.count nal +
      new.count nal = (p.queue.nals.map Prod.fst).count nal + p.inHand.count nal) :
    p'.Conserves (gone ++ new) := by
  obtain ⟨units, hunits, hsum⟩ := hw
  refine ⟨units, hdelivered ▸ hunits, fun nal => ?_⟩
  have hold := hsum nal
  have hmove := hcount nal
  rw [hcodec, hgiven, List.count_append]
  omega

theorem Conserves.onFrame (hw : p.Conserves gone) (h : p.onFrame = some p') :
    p'.Conserves gone := by
  unfold StreamPath.onFrame at h
  split at h
  · rename_i frame n hidle hp
    have hhand : p.inHand = unitsOf p.codec frame := by
      unfold inHand
      rw [hidle, show p.place = .process (frame, n) from hp]
      exact List.append_nil _
    have hsame : p'.delivered = p.delivered ∧ p'.codec = p.codec ∧ p'.given = p.given ∧
        p'.queue = p.queue ∧ p'.inHand = p.inHand := by
      split at h
      · rename_i hcodec
        cases h
        refine ⟨rfl, rfl, rfl, rfl, ?_⟩
        rw [hhand, hcodec]
        rfl
      · rename_i codec' hcodec
        cases h
        refine ⟨rfl, rfl, rfl, rfl, ?_⟩
        rw [hhand, hcodec]
        show (RtspServer.gather codec' p.cache frame).accessUnitNals = _
        rw [RtspServer.gather_eq]
        rfl
    obtain ⟨h1, h2, h3, h4, h5⟩ := hsame
    have hmove : p'.Conserves (gone ++ []) := hw.move h1 h2 h3 fun nal => by rw [h4, h5]; rfl
    rwa [List.append_nil] at hmove
  · cases h

theorem Conserves.check (hw : p.Conserves gone) (h : p.check = some p') :
    p'.Conserves (gone ++ p.lost .check) := by
  unfold StreamPath.check at h
  unfold lost
  cases hcb : p.callback with
  | gathered n nals =>
    rw [hcb] at h
    cases h
    refine hw.move rfl rfl rfl fun nal => ?_
    have hhand : p.inHand = nals := by
      unfold inHand
      rw [hcb]
      rfl
    rw [hhand]
    unfold inHand hand
    dsimp only
    cases p.queue.hasActiveSources with
    | false =>
      simp
    | true =>
      cases nals with
      | nil => simp
      | cons => simp
  | idle | active n nals | returned =>
    rw [hcb] at h
    cases h

theorem Conserves.enqueue (hw : p.Conserves gone) (hwf : p.queue.Wf) (h : p.enqueue = some p') :
    p'.Conserves (gone ++ p.lost .enqueue) := by
  unfold StreamPath.enqueue at h
  unfold lost
  cases hcb : p.callback with
  | active n nals =>
    rw [hcb] at h
    cases h
    refine hw.move rfl rfl rfl fun nal => ?_
    have hhand : p.inHand = (Playback.number n nals).map Prod.fst := by
      unfold inHand Playback.number
      rw [hcb, List.map_map]
      exact (List.map_id _).symm
    have hperm := (RtspFrameQueue.pushAccessUnit_perm hwf (Playback.number n nals)).map Prod.fst
    rw [List.map_append, List.map_append] at hperm
    have hcount := hperm.count_eq nal
    rw [List.count_append, List.count_append] at hcount
    rw [hhand]
    exact hcount
  | idle | gathered n nals | returned =>
    rw [hcb] at h
    cases h

theorem Conserves.deliver (hw : p.Conserves gone) (hwf : p.queue.Wf) (src : RtspStreamSource) :
    (p.deliver src).Conserves gone := by
  unfold StreamPath.deliver
  rcases RtspFrameQueue.nals_popNalUnit hwf with ⟨hnone, -, hsame⟩ | ⟨x, hsome, hcons⟩
  · rw [show p.queue.popNalUnit = (none, p.queue) from Prod.ext hnone hsame]
    exact hw
  · rw [show p.queue.popNalUnit = (some x, p.queue.popNalUnit.2) from Prod.ext hsome rfl]
    obtain ⟨units, hunits, hsum⟩ := hw
    refine ⟨units ++ [x.1], ?_, fun nal => ?_⟩
    · dsimp only
      rw [List.map_append]
      exact List.rel_append hunits
        (.cons ⟨src.fMaxSize, RtspStreamSource.answers_delivery src x.1⟩ .nil)
    · have hold := hsum nal
      rw [hcons, List.map_cons, List.count_cons] at hold
      show (units ++ [x.1]).count nal + (p.queue.popNalUnit.2.nals.map Prod.fst).count nal +
        p.inHand.count nal + gone.count nal =
          (p.given.flatMap fun x => unitsOf p.codec x.1).count nal
      rw [List.count_append, List.count_singleton]
      omega

theorem exists_process (hc : p.Carries codec constructed) (h : p.callback ≠ .idle) :
    ∃ x, p.place = .process x := by
  obtain ⟨done, units, hdone, -⟩ := hc.carried
  unfold Handled at hdone
  cases hcb : p.callback with
  | idle => exact absurd hcb h
  | gathered n nals | active n nals =>
    rw [hcb] at hdone
    obtain ⟨frame, hp, -⟩ := hdone
    exact ⟨_, hp⟩
  | returned =>
    rw [hcb] at hdone
    exact hdone.1

theorem inHand_congr {place place' : Place (StreamFrame × ℕ)}
    (h : ∀ x, place' = .process x ↔ place = .process x) : place'.inHand = place.inHand := by
  cases place with
  | process x =>
    rw [(h x).mpr rfl]
  | test | lock | check | block | waiting | ready | done =>
    cases place' with
    | process x => exact nomatch (h x).mp rfl
    | test | lock | check | block | waiting | ready | done => rfl

/-- A step of the distributor that does not end the callback gives it a frame more, or leaves what
it is at. -/
theorem Conserves.distributor_step (hw : p.Conserves gone) (hc : p.Carries codec constructed)
    {a : StreamDistributor.Action StreamFrame} {d : StreamDistributor StreamFrame}
    (h : p.distributor.Step a d) (hends : endsCallback p.rtspSlot a = none) :
    Conserves gone { p with distributor := d } := by
  obtain ⟨units, hunits, hsum⟩ := hw
  refine ⟨units, hunits, fun nal => ?_⟩
  have hold := hsum nal
  rcases StreamDistributor.worker_cases (k := p.rtspSlot) h with
    ⟨x, hready, hprocess, hleft⟩ | ⟨hleft, ⟨ok, rfl, -⟩ | hsame⟩
  · have hidle : p.callback = .idle := by
      by_contra hne
      obtain ⟨y, hy⟩ := exists_process hc hne
      rw [show p.place = .ready from hready] at hy
      cases hy
    have hbefore : p.inHand = [] := by
      unfold inHand
      rw [hidle, show p.place = .ready from hready]
      rfl
    have hafter : inHand { p with distributor := d } = unitsOf p.codec x.1 := by
      show hand p.codec (d.workerOf p.rtspSlot).place p.callback = _
      rw [hidle, hprocess]
      exact List.append_nil _
    have hgiven : given { p with distributor := d } = p.given ++ [x] := hleft
    rw [hbefore] at hold
    rw [hafter, hgiven, List.flatMap_append, List.flatMap_singleton, List.count_append]
    have hnone : ([] : List RtspNalUnit).count nal = 0 := rfl
    dsimp only
    omega
  · have hends : (if p.rtspSlot = p.rtspSlot then some ok else none) = none := hends
    rw [if_pos rfl] at hends
    cases hends
  · have hgiven : given { p with distributor := d } = p.given := hleft
    have hhand : inHand { p with distributor := d } = p.inHand := by
      have hplace : (d.workerOf p.rtspSlot).place.inHand = p.place.inHand := inHand_congr hsame
      show hand p.codec (d.workerOf p.rtspSlot).place p.callback = hand p.codec p.place p.callback
      cases p.callback with
      | idle =>
        unfold hand
        rw [hplace]
      | gathered | active | returned => rfl
    rw [hhand, hgiven]
    exact hold

/-- The callback ends: normally, with nothing left in hand, or with an exception, and what it had in
hand is lost. -/
theorem Conserves.finish (hw : p.Conserves gone) {ok : Bool}
    (hok : p.callback = .returned ∨ ok = false) {d : StreamDistributor StreamFrame}
    (h : p.distributor.Step (.slot p.rtspSlot (.finish ok)) d) :
    Conserves (gone ++ if some ok = some false then p.inHand else [])
      { p with distributor := d, callback := .idle } := by
  obtain ⟨htest, hleft⟩ := StreamDistributor.workerOf_finish h
  refine hw.move rfl rfl hleft fun nal => ?_
  have hafter : inHand { p with distributor := d, callback := .idle } = [] := by
    show hand p.codec (d.workerOf p.rtspSlot).place .idle = []
    rw [htest]
    rfl
  rw [hafter]
  dsimp only
  split_ifs with hfalse
  · rfl
  · have hreturned : p.callback = .returned := hok.resolve_right fun h => hfalse (h ▸ rfl)
    have hbefore : p.inHand = [] := by
      unfold inHand
      rw [hreturned]
      rfl
    rw [hbefore]
    rfl

theorem Conserves.distribute (hw : p.Conserves gone) (hc : p.Carries codec constructed)
    {a : StreamDistributor.Action StreamFrame} (h : p.distribute a = some p') :
    p'.Conserves (gone ++ p.lost (.distribute a)) := by
  unfold StreamPath.distribute at h
  unfold lost
  dsimp only
  split at h
  · cases h
  split at h
  · rename_i hends
    obtain ⟨d, hd, rfl⟩ := Option.map_eq_some_iff.mp h
    rw [hends, if_neg nofun, List.append_nil]
    exact hw.distributor_step hc (.of_step hd) hends
  · rename_i ok hends
    split_ifs at h with hok
    obtain ⟨d, hd, rfl⟩ := Option.map_eq_some_iff.mp h
    rw [endsCallback_eq_some hends] at hd
    rw [hends]
    exact hw.finish hok (.of_step hd)

theorem Conserves.push (hw : p.Conserves gone) (h : p.push = some p') : p'.Conserves gone := by
  unfold StreamPath.push at h
  cases hf : p.fetcher with
  | idle | clockRead now =>
    rw [hf] at h
    cases h
  | built frame =>
    rw [hf] at h
    obtain ⟨d, hd, rfl⟩ := Option.map_eq_some_iff.mp h
    have hworker : d.workerOf p.rtspSlot = p.distributor.workerOf p.rtspSlot := by
      rcases StreamDistributor.workerOf_step (k := p.rtspSlot)
        (StreamDistributor.Step.of_step hd) with heq | ⟨-, b, hb, -⟩
      · exact heq
      · cases hb
    obtain ⟨units, hunits, hsum⟩ := hw
    refine ⟨units, hunits, ?_⟩
    unfold inHand place given at hsum ⊢
    dsimp only
    rw [hworker]
    exact hsum

theorem Conserves.step (hw : p.Conserves gone) (hc : p.Carries codec constructed) {a : Action}
    (h : p.step a = some p') : p'.Conserves (gone ++ p.lost a) := by
  cases a with
  | readClock now =>
    have h : p.readClock now = some p' := h
    unfold StreamPath.readClock at h
    split at h <;> cases h
    rw [show p.lost (.readClock now) = [] from rfl, List.append_nil]
    exact hw
  | push =>
    rw [show p.lost .push = [] from rfl, List.append_nil]
    exact hw.push h
  | distribute a => exact hw.distribute hc h
  | onFrame =>
    rw [show p.lost .onFrame = [] from rfl, List.append_nil]
    exact hw.onFrame h
  | check => exact hw.check h
  | enqueue => exact hw.enqueue hc.wf h
  | register s | unregister s =>
    cases h
    rw [show p.lost _ = [] from rfl, List.append_nil]
    exact hw
  | deliver src =>
    cases h
    rw [show p.lost (.deliver src) = [] from rfl, List.append_nil]
    exact hw.deliver hc.wf src

/-! ## The frames that are not given -/

/-- The frames that the RTSP consumer was offered and has not been given: dropped, cleared, waiting,
or not appended to its queue yet. -/
def notGiven (p : StreamPath) : List (StreamFrame × ℕ) :=
  let worker := p.distributor.workerOf p.rtspSlot
  worker.ledger.dropped ++ worker.ledger.cleared ++ worker.queue ++
    p.distributor.push.owes p.rtspSlot

theorem given_append_notGiven (hi : p.distributor.Inv) :
    (p.given ++ p.notGiven).Perm p.offers := by
  unfold given notGiven offers
  cases hk : p.distributor.heap[p.rtspSlot]? with
  | none =>
    have hnot : p.rtspSlot ∉ p.distributor.push.rest := fun hm =>
      Nat.not_lt.mpr (List.getElem?_eq_none_iff.mp hk) (hi.rest_lt _ hm)
    have howes : p.distributor.push.owes p.rtspSlot = [] := by
      cases hp : p.distributor.push with
      | idle => rfl
      | walking | notifying =>
        rw [hp] at hnot
        exact if_neg hnot
    unfold StreamDistributor.offersTo StreamDistributor.workerOf
    rw [hk, howes]
    exact .refl _
  | some slot =>
    have hbalanced := (hi.wf _ slot hk).worker.balanced.partition
    rw [StreamDistributor.offersTo_of_some hk, StreamDistributor.workerOf_of_some hk,
      hi.offered_eq _ slot hk]
    dsimp only
    rw [← List.append_assoc, ← List.append_assoc, ← List.append_assoc]
    exact hbalanced.append_right _

end StreamPath

namespace Pipeline

variable {w w' : Pipeline} {a : Action}

/-- The NAL units of a stream that a step loses. -/
def loses (t : StreamType) (w : Pipeline) : Action → List RtspNalUnit
  | .construct _ _ _ _ => []
  | .on t' a => if t' = t then (w.path t).lost a else []

/-- The NAL units of a stream that a run loses. -/
def lost (t : StreamType) : Pipeline → List Action → List RtspNalUnit := machine.collect (loses t)

theorem conserves_step {t : StreamType} {codec : Option CodecType} {frames : List StreamFrame}
    {gone : List RtspNalUnit} (hw : (w.path t).Conserves gone)
    (hc : (w.path t).Carries codec frames) (h : w.step a = some w') :
    (w'.path t).Conserves (gone ++ loses t w a) := by
  cases a with
  | construct t' channel codecType data =>
    show (w'.path t).Conserves (gone ++ [])
    rw [List.append_nil]
    have h : w.construct t' channel codecType data = some w' := h
    unfold Pipeline.construct at h
    split at h <;> cases h
    dsimp only
    by_cases ht : t = t'
    · subst ht
      rw [Function.update_self]
      exact hw
    · rw [Function.update_of_ne ht]
      exact hw
  | on t' a =>
    obtain ⟨p, hp, rfl⟩ := Option.map_eq_some_iff.mp h
    unfold loses
    dsimp only
    by_cases ht : t' = t
    · subst ht
      rw [Function.update_self, if_pos rfl]
      exact hw.step hc hp
    · rw [Function.update_of_ne (Ne.symm ht), if_neg ht, List.append_nil]
      exact hw

/-- **Every NAL unit is accounted for.** In every run, however the streams interleave: every frame
that the RTSP consumer of a stream has been offered was given to `on_frame`, dropped, cleared, or is
still to be appended to its queue or taken from it; and every NAL unit of a frame given has been
delivered whole or truncated, is queued or in hand, or was lost because no source was active, the
frame queue was full or `on_frame` threw. Each is in one of these places only. -/
theorem nals_conserved (path : StreamType → SlotId × Option CodecType × ℕ) {as : List Action}
    (hrun : machine.run (new path) as = some w) (t : StreamType) :
    ((w.path t).given ++ (w.path t).notGiven).Perm (w.path t).offers ∧
      ∃ units, List.Forall₂ StreamPath.Carried ((w.path t).delivered.map Prod.fst) units ∧
        (units ++ (w.path t).queue.nals.map Prod.fst ++ (w.path t).inHand ++
          lost t (new path) as).Perm
            ((w.path t).given.flatMap fun x => StreamPath.unitsOf (path t).2.1 x.1) := by
  have hrun : (∃ frames, (w.path t).Carries (path t).2.1 frames) ∧
      (w.path t).Conserves (lost t (new path) as) := by
    refine Machine.keep_collect
      (J := fun gone w => (∃ frames, (w.path t).Carries (path t).2.1 frames) ∧
        (w.path t).Conserves gone)
      (C := fun _ => True) ⟨⟨[], StreamPath.carries_new ..⟩, StreamPath.conserves_new ..⟩ ?_
      (fun _ _ => trivial) hrun
    rintro gone w a w' ⟨⟨frames, hc⟩, hw⟩ - h
    exact ⟨⟨_, carries_step hc h⟩, conserves_step hw hc h⟩
  obtain ⟨⟨frames, hc⟩, units, hunits, hsum⟩ := hrun
  refine ⟨StreamPath.given_append_notGiven hc.distributor, units, hunits, ?_⟩
  rw [List.perm_iff_count]
  intro nal
  have hnal := hsum nal
  rw [hc.codec_eq] at hnal
  rw [List.count_append, List.count_append, List.count_append]
  exact hnal

/-- A frame of the sub stream that `on_frame` gets while no source is active. -/
def noSource : List Action :=
  let data := (RtspServer.onePack .videoSub .h264 0 0x41 0x9a).data
  [.on .videoSub (.distribute (.addConsumer ⟨5⟩)), .on .videoSub (.distribute (.link 0)),
    .on .videoSub (.readClock 9), .construct .videoSub .chn1 .h264 data, .on .videoSub .push] ++
    List.replicate 3 (.on .videoSub (.distribute .continuePush)) ++
    List.replicate 4 (.on .videoSub (.distribute (.slot 0 .work))) ++
    [.on .videoSub .onFrame, .on .videoSub .check,
      .on .videoSub (.distribute (.slot 0 (.finish true)))]

/-- Its NAL unit is lost. -/
theorem nals_conserved_noSource :
    ∃ w units, machine.run (new fun _ => (0, some .h264, 5)) noSource = some w ∧
      (units ++ (w.path .videoSub).queue.nals.map Prod.fst ++ (w.path .videoSub).inHand ++
        lost .videoSub (new fun _ => (0, some .h264, 5)) noSource).Perm
          ((w.path .videoSub).given.flatMap fun x => StreamPath.unitsOf (some .h264) x.1) ∧
      (lost .videoSub (new fun _ => (0, some .h264, 5)) noSource).length = 1 := by
  obtain ⟨w, hw⟩ : ∃ w, machine.run (new fun _ => (0, some .h264, 5)) noSource = some w :=
    Option.isSome_iff_exists.mp (by decide +kernel)
  obtain ⟨-, units, -, hperm⟩ := nals_conserved _ hw .videoSub
  exact ⟨w, units, hw, hperm, by decide +kernel⟩

end Pipeline

end Eye
