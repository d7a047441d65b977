import Eye.Rtsp.EventLoopWf

/-!
# No lost wakeup

A source that waits for data while its queue holds some is about to be served: `noLostWakeup`.

`Watched` is the invariant. Its first part says where the request of a waiting source is kept:
in `awaiting_frame_`, in a task or in the `deliver_frame` that runs. Its second part says why a
non-empty queue will be looked at; each step hands this duty on, from the push to the trigger, from
the trigger to the walk over the queues, from the walk to a task, and from the task to the pop.
-/

namespace Eye

/-- The handler that runs has yet to look at the queue of stream `t` for the source, or has just
taken a NAL unit from it. -/
def Handler.looks (s : SourceId) (t : StreamType) : Handler → Prop
  | .delivering s' | .popped s' _ => s' = s
  | .triggered rest => t ∈ rest
  | .idle | .emptied _ => False

namespace EventLoop

variable {w w' : EventLoop} {a : Action} {s r : SourceId} {src x : RtspStreamSource}
  {t : StreamType} {q : RtspFrameQueue RtspNalUnit}

/-- Something that is still to run will look at the queue of stream `t` for the source. -/
def Pending (w : EventLoop) (s : SourceId) (t : StreamType) : Prop :=
  s ∈ w.tasks ∨ w.trigger = true ∨ OnFrame.pushed t ∈ w.calls

/-- The invariant, for a source that is being read: where its request is kept, and who looks at
its queue. -/
structure WatchedAt (w : EventLoop) (s : SourceId) (src : RtspStreamSource) : Prop where
  awaiting : src.awaitingFrame = true ∨ s ∈ w.tasks ∨ w.handler.delivers s
  served : ∀ q, w.queue src.streamType = some q → q.queue ≠ [] →
    w.Pending s src.streamType ∨ w.handler.looks s src.streamType

/-- Every source that is being read is watched. -/
def Watched (w : EventLoop) : Prop :=
  ∀ s src, w.sources s = some src → src.isCurrentlyAwaitingData = true → w.WatchedAt s src

/-- A step that leaves a source alone and loses nothing it waits for keeps it watched. -/
theorem WatchedAt.mono (h : w.WatchedAt r x) (htasks : r ∈ w.tasks → r ∈ w'.tasks)
    (hqueue : ∀ q', w'.queue x.streamType = some q' → q'.queue ≠ [] →
      ∃ q, w.queue x.streamType = some q ∧ q.queue ≠ [])
    (hpending : w.Pending r x.streamType →
      w'.Pending r x.streamType ∨ w'.handler.looks r x.streamType)
    (hdelivers : w.handler.delivers r → w'.handler.delivers r)
    (hlooks : w.handler.looks r x.streamType → w'.handler.looks r x.streamType) :
    w'.WatchedAt r x := by
  constructor
  · rcases h.awaiting with h | h | h
    · exact .inl h
    · exact .inr (.inl (htasks h))
    · exact .inr (.inr (hdelivers h))
  · intro q' hq' hne
    obtain ⟨q, hq, hne⟩ := hqueue q' hq' hne
    rcases h.served q hq hne with h | h
    · exact hpending h
    · exact .inr (hlooks h)

/-- Between two handlers only what is pending can serve a source. -/
theorem WatchedAt.of_idle (h : w.WatchedAt r x) (hh : w.handler = .idle)
    (htasks : r ∈ w.tasks → r ∈ w'.tasks)
    (hqueue : ∀ q', w'.queue x.streamType = some q' → q'.queue ≠ [] →
      ∃ q, w.queue x.streamType = some q ∧ q.queue ≠ [])
    (htrigger : w'.trigger = w.trigger) (hcalls : w'.calls = w.calls) : w'.WatchedAt r x := by
  refine h.mono htasks hqueue (fun hp => .inl ?_) (fun hd => ?_) (fun hl => ?_)
  · rcases hp with hp | hp | hp
    · exact .inl (htasks hp)
    · exact .inr (.inl (htrigger.trans hp))
    · exact .inr (.inr (hcalls ▸ hp))
  · rw [hh] at hd
    exact hd.elim
  · rw [hh] at hl
    exact hl.elim

theorem watched_new (server : RtspServer) : (new server).Watched := fun _ _ hs => nomatch hs

theorem nonempty_mapQueue {f : RtspFrameQueue RtspNalUnit → RtspFrameQueue RtspNalUnit}
    (hf : ∀ q, w.queue t = some q → (f q).queue ≠ [] → q.queue ≠ []) (t' : StreamType)
    (q' : RtspFrameQueue RtspNalUnit) (hq' : (w.mapQueue t f).queue t' = some q')
    (hne : q'.queue ≠ []) : ∃ q, w.queue t' = some q ∧ q.queue ≠ [] := by
  rw [queue_mapQueue] at hq'
  split_ifs at hq' with ht
  · obtain ⟨q, hq, rfl⟩ := Option.map_eq_some_iff.mp hq'
    exact ⟨q, ht ▸ hq, hf q hq hne⟩
  · exact ⟨q', hq', hne⟩

/-! ## The steps of the event thread -/

theorem Watched.of_idle (hw : w.Watched) (hh : w.handler = .idle) {o : Option RtspStreamSource}
    (ho : ∀ x, o = some x → x.isCurrentlyAwaitingData = true → w'.WatchedAt s x)
    (hsources : w'.sources = Function.update w.sources s o)
    (htasks : ∀ r, r ≠ s → r ∈ w.tasks → r ∈ w'.tasks)
    (hqueue : ∀ t q', w'.queue t = some q' → q'.queue ≠ [] →
      ∃ q, w.queue t = some q ∧ q.queue ≠ [])
    (htrigger : w'.trigger = w.trigger) (hcalls : w'.calls = w.calls) : w'.Watched := by
  intro r x hx ha
  rw [hsources, Function.update_apply] at hx
  split_ifs at hx with hr
  · rw [hr]
    exact ho x hx ha
  · exact (hw r x hx ha).of_idle hh (htasks r hr) (hqueue _) htrigger hcalls

theorem Watched.enterDeliverFrame (hw : w.Watched) (hh : w.handler = .idle)
    (htasks : ∀ r, r ≠ s → r ∈ w.tasks → r ∈ w'.tasks)
    (hsources : w'.sources = w.sources) (hqueue : ∀ t, w'.queue t = w.queue t)
    (htrigger : w'.trigger = w.trigger) (hcalls : w'.calls = w.calls) :
    (w'.enterDeliverFrame s src).Watched := by
  unfold EventLoop.enterDeliverFrame
  split_ifs with ha
  · refine hw.of_idle hh (o := some src) (fun x _ _ => ⟨.inr (.inr rfl), fun _ _ _ => .inr rfl⟩)
      (by rw [← hsources]; rfl) htasks (fun t q' hq' hne => ?_) htrigger hcalls
    exact ⟨q', (hqueue t).symm.trans hq', hne⟩
  · refine hw.of_idle hh (o := some { src with awaitingFrame := false }) (fun x hx hxa => ?_)
      (by rw [← hsources]; rfl) htasks (fun t q' hq' hne => ?_) htrigger hcalls
    · cases hx
      exact absurd hxa ha
    · exact ⟨q', (hqueue t).symm.trans hq', hne⟩

/-- The trigger hands its duty on to the walk over the queues. -/
theorem Watched.handleFrameTrigger (hw : w.Watched) (hh : w.handler = .idle) :
    w.handleFrameTrigger.Watched := by
  intro r x hx ha
  have h := hw r x hx ha
  constructor
  · rcases h.awaiting with h | h | h
    · exact .inl h
    · exact .inr (.inl h)
    · rw [hh] at h
      exact h.elim
  · intro q hq hne
    rcases h.served q hq hne with (hp | hp | hp) | hl
    · exact .inl (.inl hp)
    · refine .inr (List.mem_filter.mpr ⟨StreamType.mem_all _, ?_⟩)
      have hq : w.queue x.streamType = some q := hq
      rw [hq]
      rfl
    · exact .inl (.inr (.inr hp))
    · rw [hh] at hl
      exact hl.elim

theorem Watched.pop (hwf : w.Wf) (hw : w.Watched) (hh : w.handler = .delivering s)
    (hs : w.sources s = some src) (hq : w.queue src.streamType = some q) :
    (w.pop s src q).Watched := by
  have hqwf := hwf.linked.wf _ q hq
  have hother : ∀ r, r ≠ s → ¬ w.handler.delivers r ∧ ∀ t, ¬ w.handler.looks r t := by
    intro r hr
    rw [hh]
    exact ⟨fun h => hr h.symm, fun _ h => hr h.symm⟩
  have hqueue := nonempty_mapQueue (w := w) (t := src.streamType) (f := fun _ => q.popNalUnit.2)
    (fun q₁ hq₁ hne h => by
      rw [hq] at hq₁
      cases hq₁
      rw [RtspFrameQueue.popNalUnit_nil h] at hne
      exact hne h)
  intro r x hx ha
  unfold EventLoop.pop at hx ⊢
  rcases RtspFrameQueue.nals_popNalUnit hqwf with ⟨hnone, hnil, heq⟩ | ⟨nal, hsome, -⟩
  · rw [hnone] at hx ⊢
    have hx : w.sources r = some x := hx
    have h := hw r x hx ha
    by_cases hr : r = s
    · refine ⟨.inr (.inr hr.symm), ?_⟩
      intro q' hq' hne
      -- the pop found nothing, so the queue is empty now
      rw [hr, hs] at hx
      cases hx
      have hq' : (w.mapQueue src.streamType fun _ => q.popNalUnit.2).queue src.streamType =
        some q' := hq'
      rw [queue_mapQueue, if_pos rfl, hq, Option.map_some, heq] at hq'
      cases hq'
      exact absurd ((RtspFrameQueue.nals_eq_nil hqwf).mp hnil) hne
    · exact h.mono id (hqueue _) .inl (fun hd => absurd hd (hother r hr).1)
        (fun hl => absurd hl ((hother r hr).2 _))
  · rw [hsome] at hx ⊢
    have hx : w.sources r = some x := hx
    have h := hw r x hx ha
    by_cases hr : r = s
    · exact ⟨.inr (.inr hr.symm), fun _ _ _ => .inr hr.symm⟩
    · exact h.mono id (hqueue _) .inl (fun hd => absurd hd (hother r hr).1)
        (fun hl => absurd hl ((hother r hr).2 _))

theorem Watched.keepWaiting (hw : w.Watched) (hh : w.handler = .emptied s)
    (hs : w.sources s = some src) : (w.keepWaiting s src).Watched := by
  intro r x hx ha
  have hx : Function.update w.sources s (some { src with awaitingFrame := true }) r = some x := hx
  rw [Function.update_apply] at hx
  split_ifs at hx with hr
  · cases hx
    have h := hw s src hs ha
    refine ⟨.inl rfl, fun q hq hne => .inl ?_⟩
    rcases h.served q hq hne with hp | hl
    · exact hr ▸ hp
    · rw [hh] at hl
      exact hl.elim
  · refine (hw r x hx ha).mono id (fun q hq hne => ⟨q, hq, hne⟩) .inl (fun hd => ?_) (fun hl => ?_)
    · rw [hh] at hd
      exact hr hd.symm
    · rw [hh] at hl
      exact hl.elim

theorem Watched.complete {nal : RtspNalUnit} (hw : w.Watched) (hh : w.handler = .popped s nal) :
    (w.complete s src nal).Watched := by
  intro r x hx ha
  have hx : Function.update w.sources s (some (src.fill nal).afterGetting) r = some x := hx
  rw [Function.update_apply] at hx
  split_ifs at hx with hr
  · cases hx
    exact absurd ha Bool.false_ne_true
  · refine (hw r x hx ha).mono id (fun q hq hne => ⟨q, hq, hne⟩) .inl (fun hd => ?_) (fun hl => ?_)
    · rw [hh] at hd
      exact hr hd.symm
    · rw [hh] at hl
      exact hr hl.symm

theorem WatchedAt.pass {rest : List StreamType} (h : w.WatchedAt r x)
    (hh : w.handler = .triggered (t :: rest)) (ht : x.streamType ≠ t)
    (hh' : w'.handler = .triggered rest) (htasks : r ∈ w.tasks → r ∈ w'.tasks)
    (hqueue : ∀ t, w'.queue t = w.queue t) (htrigger : w'.trigger = w.trigger)
    (hcalls : w'.calls = w.calls) : w'.WatchedAt r x := by
  refine h.mono htasks (fun q hq hne => ⟨q, hqueue _ ▸ hq, hne⟩) (fun hp => .inl ?_) (fun hd => ?_)
    (fun hl => ?_)
  · rcases hp with hp | hp | hp
    · exact .inl (htasks hp)
    · exact .inr (.inl (htrigger.trans hp))
    · exact .inr (.inr (hcalls ▸ hp))
  · rw [hh] at hd
    exact hd.elim
  · rw [hh] at hl
    rw [hh']
    exact (List.mem_cons.mp hl).resolve_left ht

/-- The walk hands its duty for one queue on to the tasks it schedules. -/
theorem Watched.notifyActiveSources {rest : List StreamType} (hwf : w.Wf) (hw : w.Watched)
    (hh : w.handler = .triggered (t :: rest)) :
    Watched { w.notifyActiveSources t with handler := .triggered rest } := by
  intro r x hx ha
  cases hq : w.queue t with
  | none =>
    rw [notifyActiveSources_of_none hq] at hx ⊢
    have hne : x.streamType ≠ t := hwf.streamType_ne hx fun q hq' => by
      rw [hq] at hq'
      cases hq'
    exact (hw r x hx ha).pass hh hne rfl id (fun _ => rfl) rfl rfl
  | some q =>
    rw [notifyActiveSources_eq hwf.linked hq] at hx ⊢
    obtain ⟨y, hy, rfl⟩ := Option.map_eq_some_iff.mp hx
    rw [quiet_isCurrentlyAwaitingData] at ha
    have h := hw r y hy ha
    by_cases hr : r ∈ q.activeSources
    · -- a task is scheduled unless there was one already
      have htask : r ∈ w.tasks ++ q.activeSources.filter w.isAwaiting := by
        rcases h.awaiting with haw | ht | hd
        · refine List.mem_append.mpr (.inr (List.mem_filter.mpr ⟨hr, ?_⟩))
          unfold isAwaiting
          rw [hy]
          exact haw
        · exact List.mem_append.mpr (.inl ht)
        · rw [hh] at hd
          exact hd.elim
      exact ⟨.inr (.inl htask), fun _ _ _ => .inl (.inl htask)⟩
    · have hyq : quiet q.activeSources r y = y := if_neg hr
      rw [hyq]
      have hne : y.streamType ≠ t := hwf.streamType_ne hy fun q' hq' => by
        rw [hq] at hq'
        cases hq'
        exact hr
      exact h.pass hh hne rfl (fun ht => List.mem_append.mpr (.inl ht)) (fun _ => rfl) rfl rfl

/-! ## The steps of the workers -/

theorem Watched.onFrame (hw : w.Watched) (frame : StreamFrame) : (w.onFrame frame).Watched := by
  have hcalls : ∀ {t call}, OnFrame.pushed t ∈ w.calls → OnFrame.pushed t ∈ call :: w.calls :=
    fun hm => List.mem_cons_of_mem _ hm
  unfold EventLoop.onFrame
  split_ifs
  · exact hw
  · cases w.server.stream frame.type with
    | none =>
      intro r x hx ha
      exact (hw r x hx ha).mono id (fun q hq hne => ⟨q, hq, hne⟩)
        (fun hp => .inl (hp.imp id (Or.imp id hcalls))) id id
    | some entry =>
      intro r x hx ha
      exact (hw r x hx ha).mono id (fun q hq hne => ⟨q, hq, hne⟩)
        (fun hp => .inl (hp.imp id (Or.imp id hcalls))) id id

/-- A push makes the worker itself the one that has to see to the source. -/
theorem Watched.push {i : ℕ} {nals : RtspAccessUnit RtspNalUnit} (hw : w.Watched)
    (hc : w.calls[i]? = some (.active t nals)) :
    Watched { w.mapQueue t fun q => q.pushAccessUnit nals with
      calls := w.calls.set i (.pushed t) } := by
  have hi : i < w.calls.length := (List.getElem?_eq_some_iff.mp hc).1
  intro r x hx ha
  have h := hw r x hx ha
  have hcalls : ∀ {t'}, OnFrame.pushed t' ∈ w.calls →
      OnFrame.pushed t' ∈ w.calls.set i (.pushed t) :=
    fun hm => mem_calls_set hc (by rintro ⟨⟩) hm _
  by_cases ht : x.streamType = t
  · refine ⟨h.awaiting, fun _ _ _ => .inl (.inr (.inr ?_))⟩
    rw [ht]
    exact List.mem_set hi _
  · refine h.mono id (fun q' hq' hne => ?_) (fun hp => .inl (hp.imp id (Or.imp id hcalls))) id id
    have hq' : (w.mapQueue t fun q => q.pushAccessUnit nals).queue x.streamType = some q' := hq'
    rw [queue_mapQueue, if_neg ht] at hq'
    exact ⟨q', hq', hne⟩

theorem Watched.step (hwf : w.Wf) (hw : w.Watched) (h : Step w a w') : w'.Watched := by
  cases h with
  | getNextFrame hh hs hna =>
    exact hw.enterDeliverFrame hh (fun _ _ => id) rfl (fun _ => rfl) rfl rfl
  | fire hh ht hs =>
    exact hw.enterDeliverFrame hh (fun r hr hm => (List.mem_erase_of_ne hr).mpr hm) rfl
      (fun _ => rfl) rfl rfl
  | stopGettingFrames hh hs =>
    refine hw.of_idle hh (fun x hx ha => ?_) rfl (fun _ _ => id) (fun _ q hq hne => ⟨q, hq, hne⟩)
      rfl rfl
    cases hx
    exact absurd ha Bool.false_ne_true
  | createNew hh hq =>
    refine hw.of_idle hh (fun x hx ha => ?_) rfl (fun _ _ => id)
      (nonempty_mapQueue fun _ _ => id) rfl rfl
    cases hx
    exact absurd ha Bool.false_ne_true
  | destroy hh hs =>
    exact hw.of_idle hh (o := none) (fun x hx _ => nomatch hx) rfl (fun _ _ => id)
      (nonempty_mapQueue fun _ _ => id) rfl rfl
  | handleFrameTrigger hh ht => exact hw.handleFrameTrigger hh
  | pop hh hs hq => exact hw.pop hwf hh hs hq
  | keepWaiting hh hs => exact hw.keepWaiting hh hs
  | complete hh hs => exact hw.complete hh
  | leave hh =>
    intro r x hx ha
    refine (hw r x hx ha).mono id (fun q hq hne => ⟨q, hq, hne⟩) .inl (fun hd => ?_) (fun hl => ?_)
    · rw [hh] at hd
      exact hd.elim
    · rw [hh] at hl
      exact absurd hl List.not_mem_nil
  | notify hh => exact hw.notifyActiveSources hwf hh
  | onFrame frame => exact hw.onFrame frame
  | check hc hq =>
    intro r x hx ha
    exact (hw r x hx ha).mono id (fun q hq hne => ⟨q, hq, hne⟩)
      (fun hp => .inl (hp.imp id (Or.imp id fun hm => mem_calls_set hc (by rintro ⟨⟩) hm _))) id id
  | push hc => exact hw.push hc
  | triggerEvent hc =>
    intro r x hx ha
    refine ⟨(hw r x hx ha).awaiting, fun _ _ _ => .inl (.inr (.inl ?_))⟩
    show (w.trigger || w.server.scheduler) = true
    rw [hwf.scheduler, Bool.or_true]

theorem watched_of_reachable (hw : machine.Reachable w) : w.Wf ∧ w.Watched := by
  refine hw.invariant (I := fun w => w.Wf ∧ w.Watched) (fun w h0 => ?_) (fun w a w' hi h => ?_)
  · obtain ⟨server, hready, rfl⟩ := h0
    exact ⟨wf_new hready, watched_new server⟩
  · have h := Step.of_step h
    exact ⟨hi.1.step h, hi.2.step hi.1 h⟩

/-- **No lost wakeup.** In every reachable state, a source that is being read and whose queue holds
a NAL unit is served: a `deliver_frame` task is scheduled for it, or the trigger is pending or its
handler still has the queue before it, or an `on_frame` call for the stream is between its push and
its `triggerEvent`. The last case is a state inside a handler: `deliver_frame` runs for the source
and its pop is still to come, or has just taken a NAL unit. -/
theorem noLostWakeup (hw : machine.Reachable w) (hs : w.sources s = some src)
    (ha : src.isCurrentlyAwaitingData = true) (hq : w.queue src.streamType = some q)
    (hne : q.nals ≠ []) :
    s ∈ w.tasks ∨
      (w.trigger = true ∨ ∃ rest, w.handler = .triggered rest ∧ src.streamType ∈ rest) ∨
      OnFrame.pushed src.streamType ∈ w.calls ∨
      w.handler = .delivering s ∨ ∃ nal, w.handler = .popped s nal := by
  obtain ⟨hwf, hwatched⟩ := watched_of_reachable hw
  have hne : q.queue ≠ [] :=
    fun h => hne ((RtspFrameQueue.nals_eq_nil (hwf.linked.wf _ q hq)).mpr h)
  rcases (hwatched s src hs ha).served q hq hne with (h | h | h) | h
  · exact .inl h
  · exact .inr (.inl (.inl h))
  · exact .inr (.inr (.inl h))
  · cases hh : w.handler with
    | delivering s' =>
      rw [hh] at h
      exact .inr (.inr (.inr (.inl (congrArg _ h))))
    | popped s' nal =>
      rw [hh] at h
      exact .inr (.inr (.inr (.inr ⟨nal, congrArg (Handler.popped · nal) h⟩)))
    | triggered rest =>
      rw [hh] at h
      exact .inr (.inl (.inr ⟨rest, rfl, h⟩))
    | idle | emptied s' =>
      rw [hh] at h
      exact h.elim

/-- A source finds its queue empty, and a worker pushes a frame. -/
def pushRun : List Action :=
  [.createNew .videoMain, .getNextFrame 0 1500, .resume, .resume,
    .onFrame (RtspServer.onePack .videoMain .h265 40 0x26 0x01), .onFrameStep 0, .onFrameStep 0]

theorem pushRun_isSome : (machine.run (new mainOnly) pushRun).isSome = true := by decide +kernel

/-- The state the run ends in: the trigger has not been set yet. -/
def pushedMain : EventLoop := (machine.run (new mainOnly) pushRun).get pushRun_isSome

theorem noLostWakeup_pushedMain :
    ∃ src q, pushedMain.sources 0 = some src ∧ src.isCurrentlyAwaitingData = true ∧
      pushedMain.queue src.streamType = some q ∧ q.nals ≠ [] ∧
      (0 ∈ pushedMain.tasks ∨
        (pushedMain.trigger = true ∨
          ∃ rest, pushedMain.handler = .triggered rest ∧ src.streamType ∈ rest) ∨
        OnFrame.pushed src.streamType ∈ pushedMain.calls ∨
        pushedMain.handler = .delivering 0 ∨ ∃ nal, pushedMain.handler = .popped 0 nal) := by
  have hreach : machine.Reachable pushedMain :=
    Machine.Reachable.run (.init ⟨_, mainOnly_ready, rfl⟩) (Option.some_get pushRun_isSome).symm
  have hcheck : (pushedMain.sources 0).any (fun src => src.isCurrentlyAwaitingData &&
      (pushedMain.queue src.streamType).any fun q => !q.nals.isEmpty) = true := by decide +kernel
  obtain ⟨src, hs, hcheck⟩ := (Option.any_eq_true _ _).mp hcheck
  rw [Bool.and_eq_true] at hcheck
  obtain ⟨q, hq, hne⟩ := (Option.any_eq_true _ _).mp hcheck.2
  have hne : q.nals ≠ [] := by simpa using hne
  exact ⟨src, q, hs, hcheck.1, hq, hne, noLostWakeup hreach hs hcheck.1 hq hne⟩

/-- The run goes on until the task fires: `deliver_frame` has not popped yet. -/
def firedRun : List Action :=
  pushRun ++ [.onFrameStep 0, .handleFrameTrigger, .resume, .resume, .fire 0]

theorem firedRun_isSome : (machine.run (new mainOnly) firedRun).isSome = true := by decide +kernel

/-- The state in which `deliver_frame` has the pop before it. -/
def firedMain : EventLoop := (machine.run (new mainOnly) firedRun).get firedRun_isSome

/-- Inside `deliver_frame` nothing is scheduled, pending or in progress for the source. -/
theorem noLostWakeup_delivering :
    ¬ ∀ (w : EventLoop) (s : SourceId) (src : RtspStreamSource) (q : RtspFrameQueue RtspNalUnit),
      machine.Reachable w → w.sources s = some src → src.isCurrentlyAwaitingData = true →
      w.queue src.streamType = some q → q.nals ≠ [] →
      s ∈ w.tasks ∨ (w.trigger = true ∨ ∃ rest, w.handler = .triggered rest) ∨
        OnFrame.pushed src.streamType ∈ w.calls := by
  intro h
  have hreach : machine.Reachable firedMain :=
    Machine.Reachable.run (.init ⟨_, mainOnly_ready, rfl⟩) (Option.some_get firedRun_isSome).symm
  have hcheck : (firedMain.sources 0).any (fun src => src.isCurrentlyAwaitingData &&
      (firedMain.queue src.streamType).any fun q => !q.nals.isEmpty) = true := by decide +kernel
  obtain ⟨src, hs, hcheck⟩ := (Option.any_eq_true _ _).mp hcheck
  rw [Bool.and_eq_true] at hcheck
  obtain ⟨q, hq, hne⟩ := (Option.any_eq_true _ _).mp hcheck.2
  have hne : q.nals ≠ [] := by simpa using hne
  have htasks : firedMain.tasks = [] := by decide +kernel
  have htrigger : firedMain.trigger = false := by decide +kernel
  have hhandler : firedMain.handler = .delivering 0 := by decide +kernel
  have hcalls : firedMain.calls = [] := by decide +kernel
  rcases h _ _ _ _ hreach hs hcheck.1 hq hne with h | (h | ⟨rest, h⟩) | h
  · rw [htasks] at h
    cases h
  · rw [htrigger] at h
    cases h
  · rw [hhandler] at h
    cases h
  · rw [hcalls] at h
    cases h

end EventLoop

end Eye
