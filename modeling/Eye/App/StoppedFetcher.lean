import Eye.App.Camera

/-!
# A fetcher that has been stopped

`StreamFetcher::stop` joins the fetch thread, which looks at `running_` between two frames only. So
a stop waits for the frame in flight: `stopped_quiet` says that once it has returned, nothing of the
driver is held, nothing is half-way to the distributor, and until the next start nothing comes
after.
-/

namespace Eye

theorem StreamDistributor.Step.push_frame {φ : Type} {d d' : StreamDistributor φ}
    {a : StreamDistributor.Action φ} (h : d.Step a d') (hne : ∀ frame, a ≠ .push frame) :
    d'.pushes = d.pushes ∧ (d.push = .idle → d'.push = .idle) := by
  cases h with
  | push frame => exact absurd rfl (hne frame)
  | pushEnd => exact ⟨rfl, fun _ => rfl⟩
  | enqueue hp | notifyOne hp =>
    refine ⟨rfl, fun h => ?_⟩
    rw [hp] at h
    cases h
  | addConsumer | link | removeNone | remove | destroy | destroyNext | destroyed | slot =>
    exact ⟨rfl, id⟩

namespace StreamPath

variable {p p' : StreamPath}

/-- A step that is neither of the fetch thread leaves the frame it is at, and begins no push. -/
theorem step_frame {a : Action} (h : p.step a = some p') (hclock : ∀ now, a ≠ .readClock now)
    (hpush : a ≠ .push) :
    p'.fetcher = p.fetcher ∧ p'.distributor.pushes = p.distributor.pushes ∧
      (p.distributor.push = .idle → p'.distributor.push = .idle) := by
  cases a with
  | readClock now => exact absurd rfl (hclock now)
  | push => exact absurd rfl hpush
  | distribute a =>
    have h : p.distribute a = some p' := h
    have hstep : ∀ d, p.distributor.step a = some d → (∀ frame, a ≠ .push frame) →
        d.pushes = p.distributor.pushes ∧ (p.distributor.push = .idle → d.push = .idle) :=
      fun d hd hne => (StreamDistributor.Step.of_step hd).push_frame hne
    unfold distribute at h
    split at h
    · cases h
    rename_i hne
    split at h
    · obtain ⟨d, hd, rfl⟩ := Option.map_eq_some_iff.mp h
      exact ⟨rfl, hstep d hd hne⟩
    · split_ifs at h
      obtain ⟨d, hd, rfl⟩ := Option.map_eq_some_iff.mp h
      exact ⟨rfl, hstep d hd hne⟩
  | onFrame =>
    have h : p.onFrame = some p' := h
    unfold StreamPath.onFrame at h
    split at h
    · split at h <;> cases h <;> exact ⟨rfl, rfl, id⟩
    · cases h
  | check =>
    have h : p.check = some p' := h
    unfold StreamPath.check at h
    split at h <;> cases h
    exact ⟨rfl, rfl, id⟩
  | enqueue =>
    have h : p.enqueue = some p' := h
    unfold StreamPath.enqueue at h
    split at h <;> cases h
    exact ⟨rfl, rfl, id⟩
  | register | unregister =>
    cases h
    exact ⟨rfl, rfl, id⟩
  | deliver src =>
    cases h
    unfold StreamPath.deliver
    split <;> exact ⟨rfl, rfl, id⟩

theorem step_readClock {now : UInt64} (h : p.step (.readClock now) = some p') :
    p' = { p with fetcher := .clockRead now } := by
  have h : p.readClock now = some p' := h
  unfold StreamPath.readClock at h
  split at h <;> cases h
  rfl

theorem step_push (h : p.step .push = some p') :
    p'.fetcher = .idle ∧ p'.distributor.pushes = p.distributor.pushes + 1 := by
  have h : p.push = some p' := h
  unfold StreamPath.push at h
  split at h
  · obtain ⟨d, hd, rfl⟩ := Option.map_eq_some_iff.mp h
    cases StreamDistributor.Step.of_step hd
    exact ⟨rfl, rfl⟩
  all_goals cases h

end StreamPath

namespace StreamFetcher

variable {f f' : StreamFetcher} {a : Action}

/-- The thread has been joined, or was never started, or has ended. -/
def Gone (f : StreamFetcher) : Prop :=
  f.thread = none ∨ ∃ byItself, f.thread = some (.ended byItself)

/-- The owner is not in `start`. -/
def NotStarting (f : StreamFetcher) : Prop := f.owner ≠ .starting ∧ f.owner ≠ .assigning

/-- Only the thread itself leaves the body of its loop. -/
theorem thread_body (h : f.step a = some f') (hbody : f.thread = some .body) (hne : a ≠ .fetch) :
    f'.thread = some .body := by
  obtain ⟨-, h⟩ := Option.ite_none_left_eq_some.mp h
  cases a with
  | fetch => exact absurd rfl hne
  | start | stop | destruct =>
    obtain ⟨-, h⟩ := Option.ite_none_right_eq_some.mp h
    cases h
    exact hbody
  | getFd fd =>
    obtain ⟨hentry, -⟩ := Option.ite_none_right_eq_some.mp h
    rw [hbody] at hentry
    cases hentry
  | owner =>
    have h : f.continueCall = some f' := h
    unfold continueCall at h
    rw [hbody] at h
    cases ho : f.owner <;> rw [ho] at h <;> cases h <;> rfl

theorem gone_step (hg : f.Gone) (ho : f.NotStarting) (h : f.step a = some f') (hne : a ≠ .start) :
    f'.Gone ∧ f'.NotStarting := by
  obtain ⟨-, h⟩ := Option.ite_none_left_eq_some.mp h
  cases a with
  | start => exact absurd rfl hne
  | stop | destruct =>
    obtain ⟨-, h⟩ := Option.ite_none_right_eq_some.mp h
    cases h
    refine ⟨hg, ?_⟩
    unfold NotStarting
    dsimp only
    split_ifs <;> exact ⟨nofun, nofun⟩
  | getFd fd =>
    obtain ⟨hentry, -⟩ := Option.ite_none_right_eq_some.mp h
    rcases hg with hg | ⟨b, hg⟩ <;> rw [hg] at hentry <;> cases hentry
  | fetch =>
    have h : f.continueRun = some f' := h
    unfold continueRun at h
    rcases hg with hg | ⟨b, hg⟩ <;> rw [hg] at h <;> cases h
  | owner =>
    have hback : ∀ destructor, stopped destructor ≠ .starting ∧ stopped destructor ≠ .assigning :=
      fun destructor => by cases destructor <;> exact ⟨nofun, nofun⟩
    have h : f.continueCall = some f' := h
    unfold continueCall at h
    cases howner : f.owner with
    | idle | destroyed =>
      rw [howner] at h
      cases h
    | starting => exact absurd howner ho.1
    | assigning => exact absurd howner ho.2
    | stopping destructor =>
      rw [howner] at h
      cases h
      exact ⟨hg, nofun, nofun⟩
    | joining destructor =>
      rw [howner] at h
      rcases hg with hg | ⟨b, hg⟩ <;> rw [hg] at h <;> cases h
      · exact ⟨.inl rfl, hback destructor⟩
      · exact ⟨.inl rfl, hback destructor⟩
    | destroying =>
      rw [howner] at h
      rcases hg with hg | ⟨b, hg⟩ <;> rw [hg] at h <;> cases h
      · exact ⟨.inl rfl, nofun, nofun⟩
      · exact ⟨.inr ⟨b, rfl⟩, nofun, nofun⟩

end StreamFetcher

namespace Camera

variable {w w' : Camera} {a : Action} {t t' : StreamType} {channel : VencChannel}
  {codec : CodecType}

/-- The frame that the fetch thread has on its way to the distributor. -/
def Built : FetchStage → Fetcher → Prop
  | .head, f | .done, f => f = .idle
  | .fetched _, f => ∀ frame, f ≠ .built frame
  | .constructed _, f | .released, f => ∃ frame, f = .built frame

/-- Outside the body nothing is on the way, and no push is in progress before the body ends. -/
structure Placed (w : Camera) (t : StreamType) : Prop where
  head : (w.fetcher t).thread ≠ some .body → w.stage t = .head
  push : w.stage t ≠ .done → (w.pipeline.path t).distributor.push = .idle
  built : Built (w.stage t) (w.pipeline.path t).fetcher

theorem placed_new (currentStream : StreamType → VencStream) (rtspSlot : StreamType → SlotId)
    (added : StreamType → Bool) (frameQueueSize : ℕ) (t : StreamType) :
    (new currentStream rtspSlot added frameQueueSize).Placed t :=
  ⟨fun _ => rfl, fun _ => rfl, rfl⟩

theorem Placed.other (hw : w.Placed t) (hfetcher : w'.fetcher t = w.fetcher t)
    (hstage : w'.stage t = w.stage t) (hpath : w'.pipeline.path t = w.pipeline.path t) :
    w'.Placed t := by
  refine ⟨?_, ?_, ?_⟩
  · rw [hfetcher, hstage]
    exact hw.head
  · rw [hstage, hpath]
    exact hw.push
  · rw [hstage, hpath]
    exact hw.built

theorem Placed.fetcherStep (hw : w.Placed t) {b : StreamFetcher.Action}
    (h : w.fetcherStep t' b = some w') : w'.Placed t := by
  obtain ⟨f, hf, hcases⟩ := fetcherStep_cases h
  by_cases ht : t = t'
  · subst ht
    rcases hcases with ⟨rfl, hbody, hdone, hpush, rfl⟩ | ⟨hnot, rfl⟩
    · have hbuilt := hw.built
      rw [hdone] at hbuilt
      refine ⟨fun _ => Function.update_self .., fun _ => hpush, ?_⟩
      dsimp only
      rw [Function.update_self]
      exact hbuilt
    · refine ⟨fun hthread => hw.head fun hbody => hthread ?_, hw.push, hw.built⟩
      dsimp only
      rw [Function.update_self]
      exact StreamFetcher.thread_body hf hbody fun hb => hnot ⟨hbody, hb⟩
  · rcases hcases with ⟨-, -, -, -, rfl⟩ | ⟨-, rfl⟩
    · exact hw.other (Function.update_of_ne ht ..) (Function.update_of_ne ht ..) rfl
    · exact hw.other (Function.update_of_ne ht ..) rfl rfl

theorem Placed.fetchFrame (hw : w.Placed t) {o : Outcomes} (h : w.fetchFrame t' o = some w') :
    w'.Placed t := by
  unfold Camera.fetchFrame at h
  split at h
  case h_2 => cases h
  rename_i _ _ _ hhead hbody
  by_cases ht : t = t'
  · subst ht
    have hpush : (w.pipeline.path t).distributor.push = .idle := hw.push (by rw [hhead]; nofun)
    have hbuilt := hw.built
    rw [hhead] at hbuilt
    split_ifs at h
    · obtain ⟨r, -, rfl⟩ := Option.map_eq_some_iff.mp h
      refine ⟨fun hthread => absurd hbody hthread, fun _ => hpush, ?_⟩
      dsimp only
      rw [Function.update_self]
      cases r.1 with
      | none => exact hbuilt
      | some frame =>
        intro built hb
        rw [show (w.pipeline.path t).fetcher = .idle from hbuilt] at hb
        cases hb
    · cases h
      refine ⟨fun hthread => absurd hbody hthread, fun _ => hpush, ?_⟩
      dsimp only
      rw [Function.update_self]
      exact hbuilt
  · split_ifs at h
    · obtain ⟨r, -, rfl⟩ := Option.map_eq_some_iff.mp h
      exact hw.other rfl (Function.update_of_ne ht ..) rfl
    · cases h
      exact hw.other rfl (Function.update_of_ne ht ..) rfl

/-- Only at the head of its body can the thread have left it. -/
theorem Placed.thread_ne (hw : w.Placed t) (hne : w.stage t ≠ .head) :
    (w.fetcher t).thread = some .body := by
  by_contra hthread
  exact hne (hw.head hthread)

theorem Placed.construct (hw : w.Placed t) (h : w.construct t' = some w') : w'.Placed t := by
  unfold Camera.construct at h
  split at h
  case h_2 => cases h
  rename_i _ _ frame _ hstage
  obtain ⟨f, -, h⟩ := Option.bind_eq_some_iff.mp h
  obtain ⟨data, -, h⟩ := Option.bind_eq_some_iff.mp h
  obtain ⟨pipeline, hpipeline, rfl⟩ := Option.map_eq_some_iff.mp h
  unfold Pipeline.construct at hpipeline
  split at hpipeline <;> cases hpipeline
  by_cases ht : t = t'
  · subst ht
    have hne : w.stage t ≠ .head := by
      rw [hstage]
      nofun
    have hpush := hw.push (by rw [hstage]; nofun)
    refine ⟨fun hthread => absurd (hw.thread_ne hne) hthread, fun _ => ?_, ?_⟩
    · dsimp only
      rw [Function.update_self]
      exact hpush
    · dsimp only
      rw [Function.update_self, Function.update_self]
      exact ⟨_, rfl⟩
  · exact hw.other rfl (Function.update_of_ne ht ..) (Function.update_of_ne ht ..)

theorem Placed.releaseFrame (hw : w.Placed t) {ok : Bool} (h : w.releaseFrame t' ok = some w') :
    w'.Placed t := by
  unfold Camera.releaseFrame at h
  split at h
  case h_2 | h_3 | h_4 | h_5 => cases h
  rename_i f hstage
  obtain ⟨s, -, rfl⟩ := Option.map_eq_some_iff.mp h
  by_cases ht : t = t'
  · subst ht
    have hne : w.stage t ≠ .head := by
      rw [hstage]
      nofun
    have hbuilt := hw.built
    rw [hstage] at hbuilt
    refine ⟨fun hthread => absurd (hw.thread_ne hne) hthread,
      fun _ => hw.push (by rw [hstage]; nofun), ?_⟩
    dsimp only
    rw [Function.update_self]
    exact hbuilt
  · exact hw.other rfl (Function.update_of_ne ht ..) rfl

/-- What a step on the way of a stream does to the place of its fetch thread. -/
theorem nextStage_cases {stage stage' : FetchStage} {b : StreamPath.Action}
    (h : nextStage stage b = some stage') :
    (∃ frame now, stage = .fetched frame ∧ b = .readClock now ∧ stage' = stage) ∨
      (stage = .released ∧ b = .push ∧ stage' = .done) ∨
      (∀ now, b ≠ .readClock now) ∧ b ≠ .push ∧ stage' = stage := by
  cases b with
  | readClock now =>
    cases stage <;> cases h
    exact .inl ⟨_, now, rfl, rfl, rfl⟩
  | push =>
    cases stage <;> cases h
    exact .inr (.inl ⟨rfl, rfl, rfl⟩)
  | distribute | onFrame | check | enqueue | register | unregister | deliver =>
    refine .inr (.inr ⟨nofun, nofun, ?_⟩)
    cases stage <;> cases h <;> rfl

theorem Placed.on (hw : w.Placed t) {b : StreamPath.Action} (h : w.step (.on t' b) = some w') :
    w'.Placed t := by
  obtain ⟨stage, hnext, h⟩ := Option.bind_eq_some_iff.mp h
  obtain ⟨pipeline, hpipeline, rfl⟩ := Option.map_eq_some_iff.mp h
  obtain ⟨p, hp, rfl⟩ := Option.map_eq_some_iff.mp hpipeline
  by_cases ht : t = t'
  swap
  · exact hw.other rfl (Function.update_of_ne ht ..) (Function.update_of_ne ht ..)
  subst ht
  have hbuilt := hw.built
  rcases nextStage_cases hnext with ⟨frame, now, hstage, rfl, rfl⟩ | ⟨hstage, rfl, rfl⟩ |
    ⟨hclock, hpush, rfl⟩
  · rw [StreamPath.step_readClock hp]
    refine ⟨?_, ?_, ?_⟩ <;> dsimp only <;> rw [Function.update_self]
    · exact hw.head
    · rw [Function.update_self]
      exact hw.push
    · rw [Function.update_self, hstage]
      exact fun _ => nofun
  · have hne : w.stage t ≠ .head := by
      rw [hstage]
      nofun
    refine ⟨fun hthread => absurd (hw.thread_ne hne) hthread, fun hdone => ?_, ?_⟩
    · dsimp only at hdone
      rw [Function.update_self] at hdone
      exact absurd rfl hdone
    · dsimp only
      rw [Function.update_self, Function.update_self]
      exact (StreamPath.step_push hp).1
  · obtain ⟨hfetcher, -, hidle⟩ := StreamPath.step_frame hp hclock hpush
    refine ⟨?_, ?_, ?_⟩ <;> dsimp only <;> rw [Function.update_self]
    · exact hw.head
    · rw [Function.update_self]
      exact fun hne => hidle (hw.push hne)
    · rw [Function.update_self, hfetcher]
      exact hbuilt

theorem Placed.step (hw : w.Placed t) (h : w.step a = some w') : w'.Placed t := by
  cases a with
  | fetcher t' b => exact hw.fetcherStep h
  | fetchFrame t' o => exact hw.fetchFrame h
  | construct t' => exact hw.construct h
  | releaseFrame t' ok => exact hw.releaseFrame h
  | on t' b => exact hw.on h

/-! ## Every frame is pushed -/

/-- The frames that are fetched and not yet pushed. -/
def inFlight : FetchStage → ℕ
  | .head | .done => 0
  | .fetched _ | .constructed _ | .released => 1

/-- As many frames have been pushed as fetched, but for the one in flight. -/
def Counted (w : Camera) (t : StreamType) (fetched : List (List DriverPack)) : Prop :=
  fetched.length = (w.pipeline.path t).distributor.pushes + inFlight (w.stage t)

variable {streams : List (List DriverPack)} {served : Option CodecType}

theorem Counted.other (hw : w.Counted t streams) (hstage : w'.stage t = w.stage t)
    (hpath : w'.pipeline.path t = w.pipeline.path t) : w'.Counted t streams := by
  unfold Counted
  rw [hstage, hpath]
  exact hw

theorem Counted.fetcherStep (hw : w.Counted t streams) {b : StreamFetcher.Action}
    (h : w.fetcherStep t' b = some w') : w'.Counted t streams := by
  obtain ⟨f, -, ⟨-, -, hdone, -, rfl⟩ | ⟨-, rfl⟩⟩ := fetcherStep_cases h
  · by_cases ht : t = t'
    · subst ht
      unfold Counted at hw ⊢
      rw [hdone] at hw
      dsimp only
      rw [Function.update_self]
      exact hw
    · exact hw.other (Function.update_of_ne ht ..) rfl
  · exact hw.other rfl rfl

theorem Counted.fetchFrame (hf : fetcherOf t = some (channel, codec)) (hw : w.Counted t streams)
    (hfollows : Follows t codec served streams w) {o : Outcomes} (ho : o.Valid)
    (h : w.fetchFrame t o = some w') :
    w'.Counted t (streams ++ if o.ready then o.fetched else []) := by
  unfold Camera.fetchFrame at h
  rw [hf] at h
  split at h
  case h_2 => cases h
  rename_i _ _ hcodec hhead _
  cases hcodec
  unfold Counted at hw ⊢
  rw [hhead] at hw
  split_ifs at h ⊢
  · obtain ⟨_, _, -, -, hat⟩ := hfollows
    rw [hhead] at hat
    obtain ⟨result, s', hfetch, hcases⟩ :
        ∃ result s', (w.fetch t).fetchFrame codec o = some (result, s') ∧ _ :=
      FetchState.fetchFrame_cases hat.1 ho
    rw [hfetch] at h
    cases h
    dsimp only
    rw [Function.update_self, List.length_append, hw]
    rcases hcases with ⟨rfl, -, hnone⟩ | ⟨frame, packs, rfl, -, hone⟩
    · rw [hnone]
      rfl
    · rw [hone]
      rfl
  · cases h
    dsimp only
    rw [Function.update_self, List.append_nil]
    exact hw

theorem Counted.step (hf : fetcherOf t = some (channel, codec)) (hw : w.Counted t streams)
    (hfollows : Follows t codec served streams w) (ha : a.Valid) (h : w.step a = some w') :
    w'.Counted t (streams ++ fetches t w a) := by
  cases a with
  | fetcher t' b =>
    show w'.Counted t (streams ++ [])
    rw [List.append_nil]
    exact hw.fetcherStep h
  | fetchFrame t' o =>
    by_cases ht : t' = t
    · subst ht
      have hfetches : fetches t' w (.fetchFrame t' o) = if o.ready then o.fetched else [] := by
        simp [fetches]
      rw [hfetches]
      exact hw.fetchFrame hf hfollows ha h
    · have hfetches : fetches t w (.fetchFrame t' o) = [] := if_neg fun hand => ht hand.1
      rw [hfetches, List.append_nil]
      have h : w.fetchFrame t' o = some w' := h
      unfold Camera.fetchFrame at h
      split at h
      case h_2 => cases h
      split_ifs at h
      · obtain ⟨r, -, rfl⟩ := Option.map_eq_some_iff.mp h
        exact hw.other (Function.update_of_ne (Ne.symm ht) ..) rfl
      · cases h
        exact hw.other (Function.update_of_ne (Ne.symm ht) ..) rfl
  | construct t' =>
    show w'.Counted t (streams ++ [])
    rw [List.append_nil]
    have h : w.construct t' = some w' := h
    unfold Camera.construct at h
    split at h
    case h_2 => cases h
    rename_i _ _ frame _ hstage
    obtain ⟨f, -, h⟩ := Option.bind_eq_some_iff.mp h
    obtain ⟨data, -, h⟩ := Option.bind_eq_some_iff.mp h
    obtain ⟨pipeline, hpipeline, rfl⟩ := Option.map_eq_some_iff.mp h
    unfold Pipeline.construct at hpipeline
    split at hpipeline <;> cases hpipeline
    by_cases ht : t = t'
    · subst ht
      unfold Counted at hw ⊢
      rw [hstage] at hw
      dsimp only
      rw [Function.update_self, Function.update_self]
      exact hw
    · exact hw.other (Function.update_of_ne ht ..) (Function.update_of_ne ht ..)
  | releaseFrame t' ok =>
    show w'.Counted t (streams ++ [])
    rw [List.append_nil]
    have h : w.releaseFrame t' ok = some w' := h
    unfold Camera.releaseFrame at h
    split at h
    case h_2 | h_3 | h_4 | h_5 => cases h
    rename_i f hstage
    obtain ⟨s, -, rfl⟩ := Option.map_eq_some_iff.mp h
    by_cases ht : t = t'
    · subst ht
      unfold Counted at hw ⊢
      rw [hstage] at hw
      dsimp only
      rw [Function.update_self]
      exact hw
    · exact hw.other (Function.update_of_ne ht ..) rfl
  | on t' b =>
    show w'.Counted t (streams ++ [])
    rw [List.append_nil]
    obtain ⟨stage, hnext, h⟩ := Option.bind_eq_some_iff.mp h
    obtain ⟨pipeline, hpipeline, rfl⟩ := Option.map_eq_some_iff.mp h
    obtain ⟨p, hp, rfl⟩ := Option.map_eq_some_iff.mp hpipeline
    by_cases ht : t = t'
    swap
    · exact hw.other (Function.update_of_ne ht ..) (Function.update_of_ne ht ..)
    subst ht
    unfold Counted at hw ⊢
    dsimp only
    rw [Function.update_self, Function.update_self]
    rcases nextStage_cases hnext with ⟨frame, now, -, rfl, rfl⟩ | ⟨hstage, rfl, rfl⟩ |
      ⟨hclock, hpush, rfl⟩
    · rw [StreamPath.step_readClock hp]
      exact hw
    · rw [hstage] at hw
      rw [(StreamPath.step_push hp).2, hw]
      rfl
    · rw [(StreamPath.step_frame hp hclock hpush).2.1]
      exact hw

/-! ## After the stop -/

/-- The thread of the stream is gone, its owner is not about to start another, and since `start`
nothing has been fetched and no push begun. -/
structure QuietSince (start w : Camera) (t : StreamType) : Prop where
  placed : w.Placed t
  gone : (w.fetcher t).Gone
  notStarting : (w.fetcher t).NotStarting
  fetch_eq : w.fetch t = start.fetch t
  pushes_eq : (w.pipeline.path t).distributor.pushes = (start.pipeline.path t).distributor.pushes

theorem Placed.head_of_gone (hw : w.Placed t) (hg : (w.fetcher t).Gone) : w.stage t = .head := by
  refine hw.head fun hbody => ?_
  rcases hg with hg | ⟨b, hg⟩ <;> rw [hg] at hbody <;> cases hbody

variable {start : Camera}

theorem QuietSince.step (hw : start.QuietSince w t) (h : w.step a = some w')
    (hne : a ≠ .fetcher t .start) : start.QuietSince w' t := by
  have hplaced := hw.placed.step h
  have hhead := hw.placed.head_of_gone hw.gone
  cases a with
  | fetcher t' b =>
    obtain ⟨f, hf, hcases⟩ := fetcherStep_cases h
    by_cases ht : t = t'
    · subst ht
      obtain ⟨hg, hs⟩ := StreamFetcher.gone_step hw.gone hw.notStarting hf fun hb => hne (hb ▸ rfl)
      have hself : w'.fetcher t = f := by
        rcases hcases with ⟨-, -, -, -, rfl⟩ | ⟨-, rfl⟩ <;> exact Function.update_self ..
      rw [← hself] at hg hs
      rcases hcases with ⟨-, -, -, -, rfl⟩ | ⟨-, rfl⟩ <;>
        exact ⟨hplaced, hg, hs, hw.fetch_eq, hw.pushes_eq⟩
    · have hother : w'.fetcher t = w.fetcher t := by
        rcases hcases with ⟨-, -, -, -, rfl⟩ | ⟨-, rfl⟩ <;> exact Function.update_of_ne ht ..
      have hg := hw.gone
      have hs := hw.notStarting
      rw [← hother] at hg hs
      rcases hcases with ⟨-, -, -, -, rfl⟩ | ⟨-, rfl⟩ <;>
        exact ⟨hplaced, hg, hs, hw.fetch_eq, hw.pushes_eq⟩
  | fetchFrame t' o =>
    have h : w.fetchFrame t' o = some w' := h
    unfold Camera.fetchFrame at h
    split at h
    case h_2 => cases h
    rename_i _ _ _ _ hbody
    have ht : t ≠ t' := by
      rintro rfl
      rcases hw.gone with hg | ⟨b, hg⟩ <;> rw [hg] at hbody <;> cases hbody
    split_ifs at h
    · obtain ⟨r, -, rfl⟩ := Option.map_eq_some_iff.mp h
      exact ⟨hplaced, hw.gone, hw.notStarting, (Function.update_of_ne ht ..).trans hw.fetch_eq,
        hw.pushes_eq⟩
    · cases h
      exact ⟨hplaced, hw.gone, hw.notStarting, hw.fetch_eq, hw.pushes_eq⟩
  | construct t' =>
    have h : w.construct t' = some w' := h
    unfold Camera.construct at h
    split at h
    case h_2 => cases h
    rename_i _ _ _ _ hstage
    have ht : t ≠ t' := by
      rintro rfl
      rw [hhead] at hstage
      cases hstage
    obtain ⟨f, -, h⟩ := Option.bind_eq_some_iff.mp h
    obtain ⟨data, -, h⟩ := Option.bind_eq_some_iff.mp h
    obtain ⟨pipeline, hpipeline, rfl⟩ := Option.map_eq_some_iff.mp h
    unfold Pipeline.construct at hpipeline
    split at hpipeline <;> cases hpipeline
    refine ⟨hplaced, hw.gone, hw.notStarting, hw.fetch_eq, ?_⟩
    dsimp only
    rw [Function.update_of_ne ht]
    exact hw.pushes_eq
  | releaseFrame t' ok =>
    have h : w.releaseFrame t' ok = some w' := h
    unfold Camera.releaseFrame at h
    split at h
    case h_2 | h_3 | h_4 | h_5 => cases h
    rename_i f hstage
    have ht : t ≠ t' := by
      rintro rfl
      rw [hhead] at hstage
      cases hstage
    obtain ⟨s, -, rfl⟩ := Option.map_eq_some_iff.mp h
    exact ⟨hplaced, hw.gone, hw.notStarting, (Function.update_of_ne ht ..).trans hw.fetch_eq,
      hw.pushes_eq⟩
  | on t' b =>
    obtain ⟨stage, hnext, h⟩ := Option.bind_eq_some_iff.mp h
    obtain ⟨pipeline, hpipeline, rfl⟩ := Option.map_eq_some_iff.mp h
    obtain ⟨p, hp, rfl⟩ := Option.map_eq_some_iff.mp hpipeline
    refine ⟨hplaced, hw.gone, hw.notStarting, hw.fetch_eq, ?_⟩
    dsimp only
    by_cases ht : t = t'
    · subst ht
      rw [Function.update_self]
      rw [hhead] at hnext
      rcases nextStage_cases hnext with ⟨frame, now, hstage, -⟩ | ⟨hstage, -⟩ | ⟨hclock, hpush, -⟩
      · cases hstage
      · cases hstage
      · exact (StreamPath.step_frame hp hclock hpush).2.1.trans hw.pushes_eq
    · rw [Function.update_of_ne ht]
      exact hw.pushes_eq

/-- **A stopped fetcher is quiet.** In every run with a driver that keeps its promises: when the
fetch thread of a stream has been joined, or has ended, every stream that it had fetched for a frame
has been pushed, nothing of the driver is held, and no push is in progress. Until the fetcher is
started again it stays so, whatever all others do. -/
theorem stopped_quiet (currentStream : StreamType → VencStream) (rtspSlot : StreamType → SlotId)
    (added : StreamType → Bool) (frameQueueSize : ℕ) (hf : fetcherOf t = some (channel, codec))
    {as bs : List Action} (has : ∀ a ∈ as, a.Valid)
    (hstart : machine.run (new currentStream rtspSlot added frameQueueSize) as = some start)
    (hgone : (start.fetcher t).Gone) (howner : (start.fetcher t).NotStarting)
    (hbs : ∀ b ∈ bs, b ≠ .fetcher t .start) (hrun : machine.run start bs = some w) :
    (start.fetch t).Idle ∧
      (fetched t (new currentStream rtspSlot added frameQueueSize) as).length =
        (start.pipeline.path t).distributor.pushes ∧
      w.fetch t = start.fetch t ∧
      (w.pipeline.path t).distributor.pushes = (start.pipeline.path t).distributor.pushes ∧
      (w.pipeline.path t).distributor.push = .idle ∧ (w.pipeline.path t).fetcher = .idle := by
  have hplaced : start.Placed t :=
    Machine.keep_run (J := fun w => w.Placed t)
      (placed_new currentStream rtspSlot added frameQueueSize t) (fun _ _ _ hw h => hw.step h)
      hstart
  have hcounted : Follows t codec (if added t then RtspServer.streamCodec t else none)
        (fetched t (new currentStream rtspSlot added frameQueueSize) as) start ∧
      start.Counted t (fetched t (new currentStream rtspSlot added frameQueueSize) as) :=
    Machine.keep_collect
      (J := fun streams w => Follows t codec _ streams w ∧ w.Counted t streams) (C := Action.Valid)
      ⟨follows_new currentStream rtspSlot added frameQueueSize t codec, rfl⟩
      (fun _ _ _ _ hw ha h => ⟨hw.1.step hf ha h, hw.2.step hf hw.1 ha h⟩) has hstart
  have hhead := hplaced.head_of_gone hgone
  have hquiet : start.QuietSince w t :=
    Machine.keep_run_of (J := fun w => start.QuietSince w t) (C := fun b => b ≠ .fetcher t .start)
      ⟨hplaced, hgone, howner, rfl, rfl⟩ (fun _ _ _ hw hne h => hw.step h hne) hbs hrun
  obtain ⟨⟨frames, made, -, -, hat⟩, hcount⟩ := hcounted
  unfold Counted at hcount
  rw [hhead] at hat hcount
  have hend := hquiet.placed.head_of_gone hquiet.gone
  have hbuilt := hquiet.placed.built
  rw [hend] at hbuilt
  exact ⟨hat.1, hcount, hquiet.fetch_eq, hquiet.pushes_eq,
    hquiet.placed.push (by rw [hend]; nofun), hbuilt⟩

/-- The fetcher of the sub stream is stopped while its thread is about to fetch a frame. -/
def stoppedInBody : List Action :=
  started.map (.fetcher .videoSub) ++
    [.fetcher .videoSub .stop, .fetcher .videoSub .owner,
      .fetchFrame .videoSub (FetchState.outcomes 1 true (some [twoNals])),
      .on .videoSub (.readClock 9), .construct .videoSub, .releaseFrame .videoSub true,
      .on .videoSub .push, .on .videoSub (.distribute .continuePush),
      .fetcher .videoSub .fetch, .fetcher .videoSub .fetch, .fetcher .videoSub .owner]

/-- The main stream goes on; the sub stream is stopped once more. -/
def goesOn : List Action :=
  .fetcher .videoSub .stop :: started.map (.fetcher .videoMain) ++
    [.fetchFrame .videoMain (FetchState.outcomes 0 true none)]

theorem stopped_quiet_stoppedInBody :
    ∃ start w,
      machine.run (new (fun _ => ⟨some 5, 5⟩) (fun _ => 0) (fun _ => true) 5) stoppedInBody =
        some start ∧
      machine.run start goesOn = some w ∧
      (start.fetch .videoSub).Idle ∧
      (start.pipeline.path .videoSub).distributor.pushes = 1 ∧
      (w.pipeline.path .videoSub).distributor.pushes = 1 := by
  have hvalid : ∀ a ∈ stoppedInBody, a.Valid := by
    intro a ha
    unfold stoppedInBody at ha
    simp only [List.mem_append, List.mem_map, List.mem_cons, List.not_mem_nil, or_false] at ha
    rcases ha with ⟨_, -, rfl⟩ | rfl | rfl | rfl | rfl | rfl | rfl | rfl | rfl | rfl | rfl | rfl
    case inr.inr.inr.inl =>
      intro _ _ hcur hstream
      cases hcur
      cases hstream
      decide
    all_goals trivial
  have hno : ∀ b ∈ goesOn, b ≠ .fetcher .videoSub .start := by
    intro b hb
    unfold goesOn started at hb
    simp only [List.cons_append, List.map_cons, List.map_nil, List.nil_append, List.mem_cons,
      List.not_mem_nil, or_false] at hb
    rcases hb with rfl | rfl | rfl | rfl | rfl | rfl | rfl <;> nofun
  obtain ⟨start, hstart⟩ : ∃ start,
      machine.run (new (fun _ => ⟨some 5, 5⟩) (fun _ => 0) (fun _ => true) 5) stoppedInBody =
        some start := Option.isSome_iff_exists.mp (by decide +kernel)
  have hrun : machine.run start goesOn =
      machine.run (new (fun _ => ⟨some 5, 5⟩) (fun _ => 0) (fun _ => true) 5)
        (stoppedInBody ++ goesOn) := by
    rw [Machine.run_append, hstart, Option.bind_some]
  obtain ⟨w, hw⟩ : ∃ w, machine.run start goesOn = some w := by
    rw [hrun]
    exact Option.isSome_iff_exists.mp (by decide +kernel)
  have hend : (machine.run (new (fun _ => ⟨some 5, 5⟩) (fun _ => 0) (fun _ => true) 5)
      stoppedInBody).map (fun w => ((w.fetcher .videoSub).thread, (w.fetcher .videoSub).owner,
        (w.pipeline.path .videoSub).distributor.pushes)) = some (none, .idle, 1) := by
    decide +kernel
  rw [hstart, Option.map_some, Option.some.injEq, Prod.mk.injEq, Prod.mk.injEq] at hend
  obtain ⟨hthread, howner, hpushes⟩ := hend
  have hnot : (start.fetcher .videoSub).NotStarting := by
    unfold StreamFetcher.NotStarting
    rw [howner]
    exact ⟨nofun, nofun⟩
  obtain ⟨hidle, -, -, hsame, -, -⟩ :=
    stopped_quiet (t := .videoSub) _ _ _ _ rfl hvalid hstart (.inl hthread) hnot hno hw
  exact ⟨start, w, hstart, hw, hidle, hpushes, hsame.trans hpushes⟩

end Camera

end Eye
