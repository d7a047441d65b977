import Eye.Rtsp.EventLoopWf

/-!
# Requests and their answers

What the trace of a source can look like: `Answering` is the protocol between a source and the sink
that reads it, `answering_trace` says that every run of the event loop follows it. A NAL unit is
popped only for an outstanding request, the next event of the source is then the completion of that
request, and the completion carries the popped NAL unit.
-/

namespace Eye

/-- Where a source is in the protocol: no request, one that is outstanding, or one for which a NAL
unit has been popped. -/
inductive Phase
  | idle
  | outstanding (maxSize : UInt32)
  | popped (maxSize : UInt32) (nal : RtspNalUnit)

/-- The protocol between a source and its sink: the traces that lead to each phase. -/
inductive Answering : List Event → Phase → Prop
  | nil : Answering [] .idle
  | requested {l : List Event} (maxSize : UInt32) : Answering l .idle →
      Answering (l ++ [.requested maxSize]) (.outstanding maxSize)
  | stopped {l : List Event} : Answering l .idle → Answering (l ++ [.stopped]) .idle
  | withdrawn {l : List Event} {maxSize : UInt32} : Answering l (.outstanding maxSize) →
      Answering (l ++ [.stopped]) .idle
  | popped {l : List Event} {maxSize : UInt32} (nal : RtspNalUnit) :
      Answering l (.outstanding maxSize) → Answering (l ++ [.popped nal]) (.popped maxSize nal)
  | completed {l : List Event} {maxSize : UInt32} {nal : RtspNalUnit} {d : Delivery} :
      Answering l (.popped maxSize nal) → RtspStreamSource.Answers maxSize nal d →
      Answering (l ++ [.completed d]) .idle

/-- The NAL unit that has been popped and not handed downstream. -/
def Phase.inFlight : Phase → List RtspNalUnit
  | .popped _ nal => [nal]
  | .idle | .outstanding _ => []

namespace EventLoop

variable {w w' : EventLoop} {a : Action} {s : SourceId} {src : RtspStreamSource}

/-- The phase a source is in, by its fields and the handler that runs. -/
def phase (handler : Handler) (s : SourceId) (src : RtspStreamSource) : Phase :=
  if src.isCurrentlyAwaitingData then
    match handler with
    | .popped s' nal => if s' = s then .popped src.fMaxSize nal else .outstanding src.fMaxSize
    | _ => .outstanding src.fMaxSize
  else .idle

theorem phase_of_not_awaiting (handler : Handler) (s : SourceId)
    (h : src.isCurrentlyAwaitingData = false) : phase handler s src = .idle := by
  unfold phase
  rw [h, if_neg Bool.false_ne_true]

theorem phase_of_awaiting {handler : Handler} (hh : ∀ nal, handler ≠ .popped s nal)
    (h : src.isCurrentlyAwaitingData = true) :
    phase handler s src = .outstanding src.fMaxSize := by
  unfold phase
  rw [if_pos h]
  cases handler with
  | popped s' nal =>
    have hne : s' ≠ s := fun he => hh nal (he ▸ rfl)
    exact if_neg hne
  | idle | delivering | emptied | triggered => rfl

theorem phase_popped {nal : RtspNalUnit} (h : src.isCurrentlyAwaitingData = true) :
    phase (.popped s nal) s src = .popped src.fMaxSize nal := by
  unfold phase
  rw [if_pos h]
  exact if_pos rfl

/-- Only `deliver_frame` of the source itself, with a NAL unit popped, is a phase of its own. -/
theorem phase_congr {handler handler' : Handler} (hh : ∀ nal, handler ≠ .popped s nal)
    (hh' : ∀ nal, handler' ≠ .popped s nal) : phase handler s src = phase handler' s src := by
  cases h : src.isCurrentlyAwaitingData with
  | true => rw [phase_of_awaiting hh h, phase_of_awaiting hh' h]
  | false => rw [phase_of_not_awaiting _ _ h, phase_of_not_awaiting _ _ h]

/-- The invariant: the trace of every source follows the protocol. -/
structure Logged (w : EventLoop) : Prop where
  answering : ∀ s src, w.sources s = some src → Answering (w.trace s) (phase w.handler s src)
  fresh : ∀ s, w.nextSource ≤ s → w.trace s = []

/-- A step that concerns one source, in whose trace it may log something. -/
theorem Logged.of_source (hl : w.Logged) {o : Option RtspStreamSource}
    (ho : ∀ x, o = some x → Answering (w'.trace s) (phase w'.handler s x))
    (hsources : w'.sources = Function.update w.sources s o)
    (htrace : ∀ r, r ≠ s → w'.trace r = w.trace r)
    (hphase : ∀ r x, r ≠ s → phase w'.handler r x = phase w.handler r x)
    (hnext : w.nextSource ≤ w'.nextSource) (hs : s < w'.nextSource) : w'.Logged := by
  constructor
  · intro r x hx
    rw [hsources, Function.update_apply] at hx
    split_ifs at hx with he
    · rw [he]
      exact ho x hx
    · rw [htrace r he, hphase r x he]
      exact hl.answering r x hx
  · intro r hr
    have hne : r ≠ s := Nat.ne_of_gt (Nat.lt_of_lt_of_le hs hr)
    rw [htrace r hne]
    exact hl.fresh r (Nat.le_trans hnext hr)

/-- A step that logs nothing and leaves every source in its phase. -/
theorem Logged.mono (hl : w.Logged)
    (hsources : ∀ r x', w'.sources r = some x' →
      ∃ x, w.sources r = some x ∧ phase w'.handler r x' = phase w.handler r x)
    (htrace : w'.trace = w.trace) (hnext : w'.nextSource = w.nextSource) : w'.Logged := by
  constructor
  · intro r x' hx'
    obtain ⟨x, hx, hp⟩ := hsources r x' hx'
    rw [htrace, hp]
    exact hl.answering r x hx
  · intro r hr
    rw [htrace]
    exact hl.fresh r (hnext ▸ hr)

theorem trace_log_self (w : EventLoop) (s : SourceId) (e : Event) :
    (w.log s e).trace s = w.trace s ++ [e] := Function.update_self ..

theorem trace_log_of_ne (w : EventLoop) {s r : SourceId} (hr : r ≠ s) (e : Event) :
    (w.log s e).trace r = w.trace r := Function.update_of_ne hr ..

theorem lt_nextSource (hwf : w.Wf) (hs : w.sources s = some src) : s < w.nextSource := by
  by_contra h
  rw [hwf.linked.fresh s (Nat.le_of_not_lt h)] at hs
  cases hs

theorem Logged.getNextFrame (hwf : w.Wf) (hl : w.Logged) (hh : w.handler = .idle)
    (hs : w.sources s = some src) (hna : src.isCurrentlyAwaitingData = false) (maxSize : UInt32) :
    (w.getNextFrame s src maxSize).Logged := by
  have hlt := lt_nextSource hwf hs
  have hbefore := hl.answering s src hs
  rw [phase_of_not_awaiting _ _ hna] at hbefore
  refine hl.of_source (s := s) (o := some (src.getNextFrame maxSize)) (fun x hx => ?_) rfl
    (fun r hr => trace_log_of_ne w hr _)
    (fun r x hr => phase_congr (by rintro _ ⟨⟩) (by simp [hh])) (Nat.le_refl _) hlt
  cases hx
  show Answering ((w.log s (.requested maxSize)).trace s) _
  rw [trace_log_self, phase_of_awaiting (by rintro _ ⟨⟩) rfl]
  exact .requested maxSize hbefore

theorem Logged.fire (hwf : w.Wf) (hl : w.Logged) (hh : w.handler = .idle)
    (hs : w.sources s = some src) : (w.fire s src).Logged := by
  have hlt := lt_nextSource hwf hs
  have hbefore := hl.answering s src hs
  have hidle : ∀ r nal, w.handler ≠ .popped r nal := by simp [hh]
  unfold EventLoop.fire EventLoop.enterDeliverFrame
  split_ifs with ha
  · refine hl.of_source (s := s) (o := some src) (fun x hx => ?_) rfl (fun _ _ => rfl)
      (fun r x _ => phase_congr (by rintro _ ⟨⟩) (hidle r)) (Nat.le_refl _)
      hlt
    cases hx
    rw [phase_congr (by rintro _ ⟨⟩) (hidle s)]
    exact hbefore
  · rw [Bool.not_eq_true] at ha
    refine hl.of_source (s := s) (o := some { src with awaitingFrame := false })
      (fun x hx => ?_) rfl (fun _ _ => rfl) (fun _ _ _ => rfl) (Nat.le_refl _) hlt
    cases hx
    exact hbefore

theorem Logged.stopGettingFrames (hwf : w.Wf) (hl : w.Logged) (hh : w.handler = .idle)
    (hs : w.sources s = some src) : (w.stopGettingFrames s src).Logged := by
  have hlt := lt_nextSource hwf hs
  have hbefore := hl.answering s src hs
  refine hl.of_source (s := s) (o := some src.stopGettingFrames) (fun x hx => ?_) rfl
    (fun r hr => trace_log_of_ne w hr _) (fun _ _ _ => rfl) (Nat.le_refl _) hlt
  cases hx
  show Answering ((w.log s .stopped).trace s) _
  rw [trace_log_self, phase_of_not_awaiting _ _ rfl]
  cases ha : src.isCurrentlyAwaitingData with
  | true =>
    rw [phase_of_awaiting (by simp [hh]) ha] at hbefore
    exact .withdrawn hbefore
  | false =>
    rw [phase_of_not_awaiting _ _ ha] at hbefore
    exact .stopped hbefore

theorem Logged.pop {q : RtspFrameQueue RtspNalUnit} (hwf : w.Wf) (hl : w.Logged)
    (hh : w.handler = .delivering s) (hs : w.sources s = some src) : (w.pop s src q).Logged := by
  have hlt := lt_nextSource hwf hs
  have hbefore := hl.answering s src hs
  have ha : src.isCurrentlyAwaitingData = true :=
    hwf.isCurrentlyAwaitingData (by rw [hh]; rfl) hs
  have hnot : ∀ r nal, w.handler ≠ .popped r nal := by simp [hh]
  unfold EventLoop.pop
  cases q.popNalUnit.1 with
  | none =>
    refine hl.mono (fun r x hx => ⟨x, hx, phase_congr ?_ (hnot r)⟩) rfl rfl
    intro _ h
    exact nomatch h
  | some nal =>
    rw [phase_of_awaiting (hnot s) ha] at hbefore
    refine hl.of_source (s := s) (o := some src) (fun x hx => ?_) ?_
      (fun r hr => trace_log_of_ne _ hr _) (fun r x hr => phase_congr (fun nal h => ?_) (hnot r))
      (Nat.le_refl _) hlt
    · cases hx
      show Answering (((w.mapQueue src.streamType _).log s (.popped nal)).trace s) _
      rw [trace_log_self, phase_popped ha]
      exact .popped nal hbefore
    · exact (Function.update_eq_self_iff.mpr hs.symm).symm
    · cases h
      exact hr rfl

theorem Logged.complete {nal : RtspNalUnit} (hwf : w.Wf) (hl : w.Logged)
    (hh : w.handler = .popped s nal) (hs : w.sources s = some src) :
    (w.complete s src nal).Logged := by
  have hlt := lt_nextSource hwf hs
  have hbefore := hl.answering s src hs
  have ha : src.isCurrentlyAwaitingData = true :=
    hwf.isCurrentlyAwaitingData (by rw [hh]; rfl) hs
  rw [hh, phase_popped ha] at hbefore
  refine hl.of_source (s := s) (o := some (src.fill nal).afterGetting) (fun x hx => ?_) rfl
    (fun r hr => trace_log_of_ne w hr _) (fun r x hr => phase_congr (by rintro _ ⟨⟩) ?_)
    (Nat.le_refl _) hlt
  · cases hx
    show Answering ((w.log s (.completed (src.fill nal).delivery)).trace s) _
    rw [trace_log_self, phase_of_not_awaiting _ _ rfl]
    exact .completed hbefore (src.answers_delivery nal)
  · rw [hh]
    intro nal' h
    cases h
    exact hr rfl

theorem Logged.step (hwf : w.Wf) (hl : w.Logged) (h : Step w a w') : w'.Logged := by
  cases h with
  | getNextFrame hh hs hna => exact hl.getNextFrame hwf hh hs hna _
  | stopGettingFrames hh hs => exact hl.stopGettingFrames hwf hh hs
  | @createNew t q codec hh hq =>
    refine hl.of_source (s := w.nextSource) (o := some (.new t codec)) (fun x hx => ?_) rfl
      (fun _ _ => rfl) (fun _ _ _ => rfl) (Nat.le_succ _) (Nat.lt_succ_self _)
    cases hx
    have htrace : (w.createNew t codec).trace w.nextSource = [] := hl.fresh _ (Nat.le_refl _)
    rw [htrace, phase_of_not_awaiting _ _ rfl]
    exact .nil
  | @destroy s src hh hs =>
    have hlt := lt_nextSource hwf hs
    exact hl.of_source (s := s) (o := none) (fun _ hx => (nomatch hx)) rfl (fun _ _ => rfl)
      (fun _ _ _ => rfl) (Nat.le_refl _) hlt
  | fire hh ht hs => exact hl.fire hwf hh hs
  | handleFrameTrigger hh | leave hh =>
    exact hl.mono (fun r x hx => ⟨x, hx, phase_congr (by rintro _ ⟨⟩) (by simp [hh])⟩) rfl rfl
  | pop hh hs hq => exact hl.pop hwf hh hs
  | @keepWaiting s src hh hs =>
    have hlt := lt_nextSource hwf hs
    have hnot : ∀ r nal, w.handler ≠ .popped r nal := by simp [hh]
    refine hl.of_source (s := s) (o := some { src with awaitingFrame := true }) (fun x hx => ?_) rfl
      (fun _ _ => rfl) (fun r x _ => phase_congr (by rintro _ ⟨⟩) (hnot r)) (Nat.le_refl _)
      hlt
    cases hx
    have hbefore := hl.answering s src hs
    rw [phase_congr (by rintro _ ⟨⟩) (hnot s)]
    exact hbefore
  | complete hh hs => exact hl.complete hwf hh hs
  | @notify t rest hh =>
    have hnot : ∀ r nal, w.handler ≠ .popped r nal := by simp [hh]
    cases hq : w.queue t with
    | none =>
      rw [notifyActiveSources_of_none hq]
      exact hl.mono (fun r x hx => ⟨x, hx, phase_congr (by rintro _ ⟨⟩) (hnot r)⟩) rfl rfl
    | some q =>
      rw [notifyActiveSources_eq hwf.linked hq]
      refine hl.mono (fun r x' hx' => ?_) rfl rfl
      obtain ⟨x, hx, rfl⟩ := Option.map_eq_some_iff.mp hx'
      refine ⟨x, hx, ?_⟩
      rw [phase_congr (by rintro _ ⟨⟩) (hnot r)]
      unfold phase
      rw [quiet_isCurrentlyAwaitingData, quiet_fMaxSize]
  | onFrame frame =>
    unfold EventLoop.onFrame
    split_ifs
    · exact hl
    · split <;> exact ⟨hl.answering, hl.fresh⟩
  | check | push | triggerEvent => exact ⟨hl.answering, hl.fresh⟩

/-- A source waits, is notified of a frame, and its task pops and delivers the NAL unit. -/
def deliveryRun : List Action :=
  [.createNew .videoMain, .getNextFrame 0 1, .resume, .resume,
    .onFrame (RtspServer.onePack .videoMain .h265 40 0x26 0x01), .onFrameStep 0, .onFrameStep 0,
    .onFrameStep 0, .handleFrameTrigger, .resume, .resume, .fire 0, .resume, .resume]

theorem deliveryRun_isSome : (machine.run (new mainOnly) deliveryRun).isSome = true := by
  decide +kernel

/-- The state the run ends in. -/
def delivered : EventLoop := (machine.run (new mainOnly) deliveryRun).get deliveryRun_isSome

end EventLoop

end Eye
