import Eye.Rtsp.EventLoop

/-!
# What the event loop keeps

`Linked`: the sources of a queue are the sources of its stream that have not been destroyed, each
once. `Wf` adds that `deliver_frame` runs only for a source that is being read; every step keeps it.

`foldl_notify` says at once what `notify_active_sources` does to all sources.
-/

namespace Eye

namespace EventLoop

variable {w w' : EventLoop} {a : Action} {s : SourceId} {src src' : RtspStreamSource}
  {t : StreamType} {q : RtspFrameQueue RtspNalUnit}

/-! ## Queues and sources -/

/-- The queues and the sources point at each other. -/
structure Linked (queues : StreamType → Option (RtspFrameQueue RtspNalUnit))
    (sources : SourceId → Option RtspStreamSource) (next : SourceId) : Prop where
  wf : ∀ t q, queues t = some q → q.Wf
  nodup : ∀ t q, queues t = some q → q.activeSources.Nodup
  active : ∀ t q, queues t = some q → ∀ s ∈ q.activeSources,
    ∃ src, sources s = some src ∧ src.streamType = t
  registered : ∀ s src, sources s = some src →
    ∃ q, queues src.streamType = some q ∧ s ∈ q.activeSources
  fresh : ∀ s, next ≤ s → sources s = none

namespace Linked

variable {queues : StreamType → Option (RtspFrameQueue RtspNalUnit)}
  {sources : SourceId → Option RtspStreamSource} {next : SourceId}

theorem mapSources (h : Linked queues sources next)
    (f : SourceId → RtspStreamSource → RtspStreamSource)
    (hf : ∀ s src, (f s src).streamType = src.streamType) :
    Linked queues (fun s => (sources s).map (f s)) next := by
  refine ⟨h.wf, h.nodup, ?_, ?_, ?_⟩
  · intro t q hq s hs
    obtain ⟨src, hsrc, ht⟩ := h.active t q hq s hs
    exact ⟨f s src, by rw [hsrc, Option.map_some], (hf s src).trans ht⟩
  · intro s src hs
    obtain ⟨src₀, hsrc, rfl⟩ := Option.map_eq_some_iff.mp hs
    rw [hf]
    exact h.registered s src₀ hsrc
  · intro s hs
    rw [h.fresh s hs, Option.map_none]

theorem setSource (h : Linked queues sources next) (hs : sources s = some src)
    (ht : src'.streamType = src.streamType) :
    Linked queues (Function.update sources s (some src')) next := by
  have heq : Function.update sources s (some src') = fun r => (sources r).map fun x =>
      if r = s then { src' with streamType := x.streamType } else x := by
    funext r
    rw [Function.update_apply]
    split_ifs with hr
    · rw [hr, hs, Option.map_some, ← ht]
    · rw [Option.map_id']
  rw [heq]
  exact h.mapSources _ fun r x => by split_ifs <;> rfl

theorem mem_activeSources (h : Linked queues sources next) (hs : sources s = some src)
    (hq : queues src.streamType = some q) : s ∈ q.activeSources := by
  obtain ⟨q₁, h₁, hm⟩ := h.registered s src hs
  rw [hq] at h₁
  cases h₁
  exact hm

theorem update {q' : RtspFrameQueue RtspNalUnit} {sources' : SourceId → Option RtspStreamSource}
    {next' : SourceId} (h : Linked queues sources next) (hwf : q'.Wf)
    (hnodup : q'.activeSources.Nodup)
    (hactive : ∀ s ∈ q'.activeSources, ∃ src, sources' s = some src ∧ src.streamType = t)
    (hother : ∀ s src, sources s = some src → src.streamType ≠ t → sources' s = some src)
    (hregistered : ∀ s src, sources' s = some src →
      src.streamType = t ∧ s ∈ q'.activeSources ∨ src.streamType ≠ t ∧ sources s = some src)
    (hfresh : ∀ s, next' ≤ s → sources' s = none) :
    Linked (Function.update queues t (some q')) sources' next' := by
  refine ⟨?_, ?_, ?_, ?_, hfresh⟩
  · intro t₁ q₁ h₁
    rw [Function.update_apply] at h₁
    split_ifs at h₁
    · cases h₁
      exact hwf
    · exact h.wf t₁ q₁ h₁
  · intro t₁ q₁ h₁
    rw [Function.update_apply] at h₁
    split_ifs at h₁
    · cases h₁
      exact hnodup
    · exact h.nodup t₁ q₁ h₁
  · intro t₁ q₁ h₁ s hs
    rw [Function.update_apply] at h₁
    split_ifs at h₁ with ht
    · cases h₁
      rw [ht]
      exact hactive s hs
    · obtain ⟨src, hsrc, rfl⟩ := h.active t₁ q₁ h₁ s hs
      exact ⟨src, hother s src hsrc ht, rfl⟩
  · intro s src hs
    rcases hregistered s src hs with ⟨rfl, hm⟩ | ⟨ht, hs⟩
    · exact ⟨q', Function.update_self .., hm⟩
    · obtain ⟨q₁, h₁, hm⟩ := h.registered s src hs
      exact ⟨q₁, (Function.update_of_ne ht ..).trans h₁, hm⟩

theorem setQueue (h : Linked queues sources next) (q' : RtspFrameQueue RtspNalUnit)
    (hq : queues t = some q) (hwf : q'.Wf) (hact : q'.activeSources = q.activeSources) :
    Linked (Function.update queues t (some q')) sources next := by
  refine h.update hwf (hact ▸ h.nodup t q hq) (fun s hs => h.active t q hq s (hact ▸ hs))
    (fun _ _ hs _ => hs) (fun s src hs => ?_) h.fresh
  by_cases ht : src.streamType = t
  · exact .inl ⟨ht, hact ▸ h.mem_activeSources hs (ht ▸ hq)⟩
  · exact .inr ⟨ht, hs⟩

theorem createNew (h : Linked queues sources next) (hq : queues t = some q) (codec : CodecType) :
    Linked (Function.update queues t (some (q.registerSource next)))
      (Function.update sources next (some (.new t codec))) (next + 1) := by
  have hnew : ∀ s src, sources s = some src → s ≠ next := by
    rintro s src hs rfl
    rw [h.fresh s (Nat.le_refl _)] at hs
    cases hs
  have hactive : ∀ s ∈ q.activeSources, ∃ src, sources s = some src ∧ src.streamType = t :=
    h.active t q hq
  refine h.update ⟨(h.wf t q hq).ne_nil, (h.wf t q hq).length_le⟩ ?_ (fun s hs => ?_)
    (fun s src hs _ => ?_) (fun s src hs => ?_) (fun s hs => ?_)
  · refine List.nodup_append.mpr ⟨h.nodup t q hq, List.nodup_singleton _, ?_⟩
    rintro s hs _ hm rfl
    obtain ⟨src, hsrc, -⟩ := hactive s hs
    exact hnew s src hsrc (List.mem_singleton.mp hm)
  · rcases List.mem_append.mp hs with hs | hs
    · obtain ⟨src, hsrc, ht⟩ := hactive s hs
      exact ⟨src, (Function.update_of_ne (hnew s src hsrc) ..).trans hsrc, ht⟩
    · rw [List.mem_singleton.mp hs]
      exact ⟨_, Function.update_self .., rfl⟩
  · exact (Function.update_of_ne (hnew s src hs) ..).trans hs
  · rw [Function.update_apply] at hs
    split_ifs at hs with he
    · cases hs
      exact .inl ⟨rfl, List.mem_append.mpr (.inr (List.mem_singleton.mpr he))⟩
    · by_cases ht : src.streamType = t
      · exact .inl ⟨ht, List.mem_append.mpr (.inl (h.mem_activeSources hs (ht ▸ hq)))⟩
      · exact .inr ⟨ht, hs⟩
  · have hne : s ≠ next := by
      rintro rfl
      exact Nat.not_succ_le_self _ hs
    rw [Function.update_of_ne hne]
    exact h.fresh s (Nat.le_of_succ_le hs)

theorem destroy (h : Linked queues sources next) (hs : sources s = some src)
    (hq : queues src.streamType = some q) :
    Linked (Function.update queues src.streamType (some (q.unregisterSource s)))
      (Function.update sources s none) next := by
  have hnodup := h.nodup _ q hq
  have hmem : ∀ r, r ∈ (q.unregisterSource s).activeSources ↔ r ≠ s ∧ r ∈ q.activeSources :=
    fun r => hnodup.mem_erase_iff
  refine h.update ⟨(h.wf _ q hq).ne_nil, (h.wf _ q hq).length_le⟩ (hnodup.erase s)
    (fun r hr => ?_) (fun r x hx ht => ?_) (fun r x hx => ?_) (fun r hr => ?_)
  · obtain ⟨hne, hm⟩ := (hmem r).mp hr
    obtain ⟨x, hx, ht⟩ := h.active _ q hq r hm
    exact ⟨x, (Function.update_of_ne hne ..).trans hx, ht⟩
  · have hne : r ≠ s := by
      rintro rfl
      rw [hs] at hx
      cases hx
      exact ht rfl
    exact (Function.update_of_ne hne ..).trans hx
  · rw [Function.update_apply] at hx
    split_ifs at hx with he
    by_cases ht : x.streamType = src.streamType
    · exact .inl ⟨ht, (hmem r).mpr ⟨he, h.mem_activeSources hx (ht ▸ hq)⟩⟩
    · exact .inr ⟨ht, hx⟩
  · rw [Function.update_apply]
    split_ifs
    · rfl
    · exact h.fresh r hr

end Linked

/-! ## Notifying a queue's sources -/

/-- The source has asked to be notified. -/
def isAwaiting (w : EventLoop) (s : SourceId) : Bool :=
  (w.sources s).any fun src => src.awaitingFrame

/-- What `notify_frame_available` does to the fields of a source, for each source of `l`. -/
def quiet (l : List SourceId) (s : SourceId) (src : RtspStreamSource) : RtspStreamSource :=
  if s ∈ l then { src with awaitingFrame := false } else src

theorem quiet_streamType (l : List SourceId) (s : SourceId) (src : RtspStreamSource) :
    (quiet l s src).streamType = src.streamType := by
  unfold quiet
  split_ifs <;> rfl

theorem quiet_isCurrentlyAwaitingData (l : List SourceId) (s : SourceId) (src : RtspStreamSource) :
    (quiet l s src).isCurrentlyAwaitingData = src.isCurrentlyAwaitingData := by
  unfold quiet
  split_ifs <;> rfl

theorem quiet_fMaxSize (l : List SourceId) (s : SourceId) (src : RtspStreamSource) :
    (quiet l s src).fMaxSize = src.fMaxSize := by
  unfold quiet
  split_ifs <;> rfl

theorem notify_eq (w : EventLoop) (s : SourceId) :
    w.notify s =
      { w with
        sources := fun r => (w.sources r).map (quiet [s] r)
        tasks := w.tasks ++ [s].filter w.isAwaiting } := by
  have hother : ∀ r x, r ≠ s → quiet [s] r x = x := fun r x hr => if_neg (by simpa using hr)
  unfold notify isAwaiting
  cases hs : w.sources s with
  | none =>
    have : (fun r => (w.sources r).map (quiet [s] r)) = w.sources := by
      funext r
      by_cases hr : r = s
      · rw [hr, hs, Option.map_none]
      · cases w.sources r with
        | none => rfl
        | some x => rw [Option.map_some, hother r x hr]
    rw [this, List.filter_singleton, hs]
    simp
  | some src =>
    have : Function.update w.sources s (some src.notifyFrameAvailable.1) =
        fun r => (w.sources r).map (quiet [s] r) := by
      funext r
      rw [Function.update_apply]
      split_ifs with hr
      · rw [hr, hs, Option.map_some]
        unfold RtspStreamSource.notifyFrameAvailable quiet
        cases hf : src.awaitingFrame
        · cases src
          cases hf
          simp
        · simp
      · cases w.sources r with
        | none => rfl
        | some x => rw [Option.map_some, hother r x hr]
    unfold setSource
    dsimp only
    rw [this, List.filter_singleton, hs]
    unfold RtspStreamSource.notifyFrameAvailable
    cases hf : src.awaitingFrame <;> simp [hf]

/-- Notifying several sources schedules a task for each that was awaiting a frame. -/
theorem foldl_notify {l : List SourceId} (hl : l.Nodup) (w : EventLoop) :
    l.foldl notify w =
      { w with
        sources := fun r => (w.sources r).map (quiet l r)
        tasks := w.tasks ++ l.filter w.isAwaiting } := by
  induction l generalizing w with
  | nil =>
    have : (fun r => (w.sources r).map (quiet [] r)) = w.sources := by
      funext r
      cases w.sources r <;> rfl
    rw [List.foldl_nil, this, List.filter_nil, List.append_nil]
  | cons s l ih =>
    obtain ⟨hs, hl⟩ := List.nodup_cons.mp hl
    rw [List.foldl_cons, ih hl, notify_eq]
    have hsources : (fun r => ((w.sources r).map (quiet [s] r)).map (quiet l r)) =
        fun r => (w.sources r).map (quiet (s :: l) r) := by
      funext r
      rw [Option.map_map]
      congr 1
      funext x
      unfold quiet
      by_cases h1 : r = s <;> by_cases h2 : r ∈ l <;> simp [h1, h2]
    have hfilter : l.filter (isAwaiting
        { w with
          sources := fun r => (w.sources r).map (quiet [s] r)
          tasks := w.tasks ++ [s].filter w.isAwaiting }) = l.filter w.isAwaiting := by
      refine List.filter_congr fun r hr => ?_
      have hne : r ≠ s := fun he => hs (he ▸ hr)
      show ((w.sources r).map (quiet [s] r)).any _ = (w.sources r).any _
      cases w.sources r with
      | none => rfl
      | some x =>
        have : quiet [s] r x = x := if_neg (by simpa using hne)
        rw [Option.map_some, this]
    rw [hfilter]
    dsimp only
    rw [hsources, List.append_assoc, ← List.filter_append, List.singleton_append]

theorem notifyActiveSources_eq (hl : Linked w.server.frameQueues w.sources w.nextSource)
    (hq : w.queue t = some q) :
    w.notifyActiveSources t =
      { w with
        sources := fun r => (w.sources r).map (quiet q.activeSources r)
        tasks := w.tasks ++ q.activeSources.filter w.isAwaiting } := by
  unfold notifyActiveSources
  rw [hq]
  exact foldl_notify (hl.nodup t q hq) w

theorem notifyActiveSources_of_none (hq : w.queue t = none) : w.notifyActiveSources t = w := by
  unfold notifyActiveSources
  rw [hq]

/-! ## What every step keeps -/

/-- Queues and sources are linked, and the source that `deliver_frame` runs for is being read. -/
structure Wf (w : EventLoop) : Prop where
  linked : Linked w.server.frameQueues w.sources w.nextSource
  delivering : ∀ s, w.handler.delivers s →
    ∃ src, w.sources s = some src ∧ src.isCurrentlyAwaitingData = true
  scheduler : w.server.scheduler = true

theorem wf_new {server : RtspServer} (h : server.Ready) : (new server).Wf := by
  refine ⟨⟨fun t q hq => (h.queues t q hq).1, fun t q hq => ?_, fun t q hq s hs => ?_,
    fun s src hs => (nomatch hs), fun _ _ => rfl⟩, fun _ h => h.elim, h.scheduler⟩
  · rw [(h.queues t q hq).2]
    exact List.nodup_nil
  · rw [(h.queues t q hq).2] at hs
    cases hs

theorem Wf.isCurrentlyAwaitingData (hw : w.Wf) (hd : w.handler.delivers s)
    (hs : w.sources s = some src) : src.isCurrentlyAwaitingData = true := by
  obtain ⟨x, hx, ha⟩ := hw.delivering s hd
  rw [hs] at hx
  cases hx
  exact ha

theorem Wf.streamType_ne (hw : w.Wf) (hs : w.sources s = some src)
    (hno : ∀ q, w.queue t = some q → s ∉ q.activeSources) : src.streamType ≠ t := by
  rintro rfl
  obtain ⟨q, hq, hm⟩ := hw.linked.registered s src hs
  exact hno q hq hm

theorem frameQueues_mapQueue (hq : w.queue t = some q)
    (f : RtspFrameQueue RtspNalUnit → RtspFrameQueue RtspNalUnit) :
    (w.mapQueue t f).server.frameQueues = Function.update w.server.frameQueues t (some (f q)) := by
  have : w.server.frameQueues t = some q := hq
  unfold mapQueue
  dsimp only
  rw [this, Option.map_some]

theorem mapQueue_of_none (hq : w.queue t = none)
    (f : RtspFrameQueue RtspNalUnit → RtspFrameQueue RtspNalUnit) : w.mapQueue t f = w := by
  have : w.server.frameQueues t = none := hq
  unfold mapQueue
  rw [this, Option.map_none, ← this, Function.update_eq_self]

theorem queue_mapQueue (w : EventLoop) (t : StreamType)
    (f : RtspFrameQueue RtspNalUnit → RtspFrameQueue RtspNalUnit) (t' : StreamType) :
    (w.mapQueue t f).queue t' = if t' = t then (w.queue t).map f else w.queue t' :=
  Function.update_apply ..

/-- Between two handlers, `deliver_frame` may begin. -/
theorem Wf.enterDeliverFrame (hw : w.Wf) (hs : w.sources s = some src)
    (ht : src'.streamType = src.streamType) (hh : w.handler = .idle) :
    (w.enterDeliverFrame s src').Wf := by
  unfold EventLoop.enterDeliverFrame
  split_ifs with ha
  · refine ⟨hw.linked.setSource hs ht, ?_, hw.scheduler⟩
    intro r hr
    cases hr
    exact ⟨src', Function.update_self .., ha⟩
  · refine ⟨hw.linked.setSource hs ht, ?_, hw.scheduler⟩
    intro r hr
    have hr : w.handler.delivers r := hr
    rw [hh] at hr
    exact hr.elim

theorem Wf.pop (hw : w.Wf) (hh : w.handler = .delivering s)
    (hq : w.queue src.streamType = some q) : (w.pop s src q).Wf := by
  have hlinked := hw.linked.setQueue q.popNalUnit.2 hq (hw.linked.wf _ q hq).popNalUnit
    (RtspFrameQueue.popNalUnit_activeSources q)
  rw [← frameQueues_mapQueue hq fun _ => q.popNalUnit.2] at hlinked
  have hd : ∃ x, w.sources s = some x ∧ x.isCurrentlyAwaitingData = true :=
    hw.delivering s (by rw [hh]; rfl)
  unfold EventLoop.pop
  cases q.popNalUnit.1 with
  | none =>
    refine ⟨hlinked, ?_, hw.scheduler⟩
    intro r hr
    cases hr
    exact hd
  | some nal =>
    refine ⟨hlinked, ?_, hw.scheduler⟩
    intro r hr
    cases hr
    exact hd

theorem Wf.notifyActiveSources {rest : List StreamType} (hw : w.Wf) :
    Wf { w.notifyActiveSources t with handler := .triggered rest } := by
  cases hq : w.queue t with
  | none =>
    rw [notifyActiveSources_of_none hq]
    exact ⟨hw.linked, fun _ hr => hr.elim, hw.scheduler⟩
  | some q =>
    rw [notifyActiveSources_eq hw.linked hq]
    exact ⟨hw.linked.mapSources _ (quiet_streamType _), fun _ hr => hr.elim, hw.scheduler⟩

theorem Wf.onFrame (hw : w.Wf) (frame : StreamFrame) : (w.onFrame frame).Wf := by
  unfold EventLoop.onFrame
  split_ifs
  · exact hw
  · cases w.server.stream frame.type with
    | none => exact ⟨hw.linked, hw.delivering, hw.scheduler⟩
    | some entry => exact ⟨hw.linked, hw.delivering, hw.scheduler⟩

theorem Wf.push (hw : w.Wf) {nals : RtspAccessUnit RtspNalUnit} {calls : List OnFrame} :
    Wf { w.mapQueue t fun q => q.pushAccessUnit nals with calls := calls } := by
  cases hq : w.queue t with
  | none =>
    rw [mapQueue_of_none hq]
    exact ⟨hw.linked, hw.delivering, hw.scheduler⟩
  | some q =>
    have hlinked := hw.linked.setQueue (q.pushAccessUnit nals) hq
      ((hw.linked.wf t q hq).pushAccessUnit nals)
      (RtspFrameQueue.pushAccessUnit_activeSources q nals)
    rw [← frameQueues_mapQueue hq fun q => q.pushAccessUnit nals] at hlinked
    exact ⟨hlinked, hw.delivering, hw.scheduler⟩

theorem Wf.step (hw : w.Wf) (h : Step w a w') : w'.Wf := by
  have hidle : ∀ {w₁ : EventLoop}, w₁.handler = .idle → ∀ r, w₁.handler.delivers r →
      ∃ src, w₁.sources r = some src ∧ src.isCurrentlyAwaitingData = true := by
    intro w₁ h₁ r hr
    rw [h₁] at hr
    exact hr.elim
  cases h with
  | getNextFrame hh hs | fire hh ht hs =>
    exact Wf.enterDeliverFrame ⟨hw.linked, hw.delivering, hw.scheduler⟩ hs rfl hh
  | stopGettingFrames hh hs => exact ⟨hw.linked.setSource hs rfl, hidle hh, hw.scheduler⟩
  | @createNew t q codec hh hq =>
    refine ⟨?_, hidle hh, hw.scheduler⟩
    have hlinked := hw.linked.createNew hq codec
    rw [← frameQueues_mapQueue hq fun q => q.registerSource w.nextSource] at hlinked
    exact hlinked
  | destroy hh hs =>
    refine ⟨?_, hidle hh, hw.scheduler⟩
    obtain ⟨q, hq, -⟩ := hw.linked.registered _ _ hs
    have hlinked := hw.linked.destroy hs hq
    rw [← frameQueues_mapQueue (w := w) hq fun q => q.unregisterSource _] at hlinked
    exact hlinked
  | handleFrameTrigger hh ht => exact ⟨hw.linked, fun r hr => hr.elim, hw.scheduler⟩
  | pop hh hs hq => exact hw.pop hh hq
  | keepWaiting hh hs => exact ⟨hw.linked.setSource hs rfl, hidle rfl, hw.scheduler⟩
  | complete hh hs =>
    exact ⟨hw.linked.setSource hs (RtspStreamSource.fill_streamType ..), hidle rfl, hw.scheduler⟩
  | leave hh => exact ⟨hw.linked, hidle rfl, hw.scheduler⟩
  | notify hh => exact hw.notifyActiveSources
  | onFrame frame => exact hw.onFrame frame
  | check hc hq => exact ⟨hw.linked, hw.delivering, hw.scheduler⟩
  | push hc => exact hw.push
  | triggerEvent hc => exact ⟨hw.linked, hw.delivering, hw.scheduler⟩

/-! ## A server to start from -/

/-- A server with the main stream only. -/
def mainOnly : RtspServer :=
  ((LiveServer.new.start 8554 .started).addStream .videoMain "main" true).2.server

theorem mainOnly_ready : mainOnly.Ready := by
  have h0 : LiveServer.machine.Reachable LiveServer.new := .init rfl
  exact LiveServer.ready ((h0.step (.start 8554 .started) rfl).step
    (.addStream .videoMain "main" true) rfl) rfl

/-! ## One worker alone -/

theorem onFrame_of_not_stream {frame : StreamFrame} (hr : w.server.running = true)
    (hst : w.server.stream frame.type = none) :
    w.onFrame frame = { w with calls := .skipped :: w.calls } := by
  unfold onFrame
  rw [if_neg (by simp [hr]), hst]

theorem onFrame_of_stream {frame : StreamFrame} {codec : CodecType} {cache : ParameterSetCache}
    (hr : w.server.running = true) (hst : w.server.stream frame.type = some (codec, q, cache)) :
    w.onFrame frame =
      { w with
        server :=
          { w.server with
            parameterSets := Function.update w.server.parameterSets frame.type
              (some (RtspServer.gather codec cache frame).cache) }
        calls := .gathered frame.type (RtspServer.gather codec cache frame).accessUnitNals ::
          w.calls } := by
  unfold onFrame
  rw [if_neg (by simp [hr]), hst]

/-- A worker that nobody interrupts does in `on_frame` what `process_frame_nals` does, and sets the
trigger. -/
theorem onFrame_alone (hr : w.server.running = true) (frame : StreamFrame) :
    ∃ k, machine.run w (.onFrame frame :: List.replicate k (.onFrameStep 0)) =
      some { w with
        server := w.server.processFrameNals frame
        trigger := w.trigger || w.server.scheduler } := by
  cases hst : w.server.stream frame.type with
  | none =>
    refine ⟨1, ?_⟩
    rw [RtspServer.processFrameNals_of_not_stream hst]
    show (Machine.run machine (w.onFrame frame) [.onFrameStep 0]) = _
    rw [onFrame_of_not_stream hr hst]
    rfl
  | some entry =>
    obtain ⟨codec, q, cache⟩ := entry
    obtain ⟨h1, h2, h3⟩ := RtspServer.stream_eq_some.mp hst
    have h0 := onFrame_of_stream hr hst
    set g := RtspServer.gather codec cache frame
    have hq : w.queue frame.type = some q := h2
    have hcheck : (w.onFrame frame).onFrameStep 0 = some { w.onFrame frame with
        calls := (if q.hasActiveSources && !g.accessUnitNals.isEmpty then
          OnFrame.active frame.type g.accessUnitNals else .skipped) :: w.calls } := by
      rw [h0]
      exact onFrameStep_gathered rfl hq
    have hframe : w.server.processFrameNals frame =
        { w.server with
          frameQueues := Function.update w.server.frameQueues frame.type
            (some (if q.hasActiveSources && !g.accessUnitNals.isEmpty then
              q.pushAccessUnit g.accessUnitNals else q))
          parameterSets := Function.update w.server.parameterSets frame.type (some g.cache) } := by
      unfold RtspServer.processFrameNals
      rw [h1, h2, h3]
    rw [hframe]
    cases hc : q.hasActiveSources && !g.accessUnitNals.isEmpty with
    | true =>
      rw [hc, if_pos rfl] at hcheck
      refine ⟨3, ?_⟩
      have hpush : some (q.pushAccessUnit g.accessUnitNals) =
          (w.server.frameQueues frame.type).map fun q => q.pushAccessUnit g.accessUnitNals := by
        rw [h2, Option.map_some]
      show ((w.onFrame frame).onFrameStep 0).bind _ = _
      rw [hcheck, h0, if_pos rfl, Option.bind_some, hpush]
      rfl
    | false =>
      rw [hc, if_neg Bool.false_ne_true] at hcheck
      refine ⟨2, ?_⟩
      show ((w.onFrame frame).onFrameStep 0).bind _ = _
      rw [hcheck, h0, if_neg Bool.false_ne_true, Option.bind_some, ← h2, Function.update_eq_self]
      rfl

end EventLoop

end Eye
