import Eye.Rtsp.Sessions
import Eye.Rtsp.StreamSource

/-!
# The event loop and the stream workers

The state that the event thread of live555 and the worker threads share, and every atomic step of
either. The event thread runs one handler at a time: a call into a source, a `deliver_frame` task or
`handle_frame_trigger`. Workers are inside `on_frame`, any number of them at once. Where a handler
touches a frame queue it takes a step of its own, because workers can come in between.

`afterGetting` is the last thing `deliver_frame` does, so whatever the downstream callback calls is
a further step of the event thread. A task that is fired for a destroyed source, and `getNextFrame`
on a source that is being read already, have no step.

`Step` lists the outcomes of `step`, one constructor for each.
-/

namespace Eye

/-- What the event thread is in: nothing, `deliver_frame` of a source (before its pop, after a pop
that found nothing, after a pop), or `handle_frame_trigger` with some queues still to notify. -/
inductive Handler
  | idle
  | delivering (s : SourceId)
  | emptied (s : SourceId)
  | popped (s : SourceId) (nal : RtspNalUnit)
  | triggered (rest : List StreamType)
  deriving DecidableEq

/-- The handler is `deliver_frame` of that source. -/
def Handler.delivers (s : SourceId) : Handler → Prop
  | .delivering s' | .emptied s' | .popped s' _ => s' = s
  | .idle | .triggered _ => False

/-- Where a worker is in `on_frame`: before `has_active_sources`, before the push, between the push
and `triggerEvent`, and before `triggerEvent` without a push. -/
inductive OnFrame
  | gathered (t : StreamType) (nals : RtspAccessUnit RtspNalUnit)
  | active (t : StreamType) (nals : RtspAccessUnit RtspNalUnit)
  | pushed (t : StreamType)
  | skipped
  deriving DecidableEq

/-- What happens to the requests of one source. -/
inductive Event
  | requested (maxSize : UInt32)
  | popped (nal : RtspNalUnit)
  | completed (d : Delivery)
  | stopped
  deriving DecidableEq

/-- The server, its sources by their pointers (`none` once destroyed), the scheduled
`deliver_frame` tasks, whether the frame event trigger is pending, what the threads are doing, and
what has happened to the requests of each source. -/
structure EventLoop where
  server : RtspServer
  sources : SourceId → Option RtspStreamSource
  nextSource : SourceId
  tasks : List SourceId
  trigger : Bool
  handler : Handler
  calls : List OnFrame
  trace : SourceId → List Event

namespace EventLoop

/-- The event loop of a server without clients. -/
def new (server : RtspServer) : EventLoop where
  server := server
  sources := fun _ => none
  nextSource := 0
  tasks := []
  trigger := false
  handler := .idle
  calls := []
  trace := fun _ => []

/-! ## The steps -/

def queue (w : EventLoop) (t : StreamType) : Option (RtspFrameQueue RtspNalUnit) :=
  w.server.frameQueues t

def setSource (w : EventLoop) (s : SourceId) (src : Option RtspStreamSource) : EventLoop :=
  { w with sources := Function.update w.sources s src }

def mapQueue (w : EventLoop) (t : StreamType)
    (f : RtspFrameQueue RtspNalUnit → RtspFrameQueue RtspNalUnit) : EventLoop :=
  { w with
    server :=
      { w.server with
        frameQueues := Function.update w.server.frameQueues t ((w.server.frameQueues t).map f) } }

def log (w : EventLoop) (s : SourceId) (e : Event) : EventLoop :=
  { w with trace := Function.update w.trace s (w.trace s ++ [e]) }

/-- `deliver_frame` up to its pop. -/
def enterDeliverFrame (w : EventLoop) (s : SourceId) (src : RtspStreamSource) : EventLoop :=
  if src.isCurrentlyAwaitingData then { w.setSource s (some src) with handler := .delivering s }
  else w.setSource s (some { src with awaitingFrame := false })

/-- `FramedSource::getNextFrame` on a source that is not being read. -/
def getNextFrame (w : EventLoop) (s : SourceId) (src : RtspStreamSource) (maxSize : UInt32) :
    EventLoop :=
  (w.log s (.requested maxSize)).enterDeliverFrame s (src.getNextFrame maxSize)

/-- `FramedSource::stopGettingFrames` -/
def stopGettingFrames (w : EventLoop) (s : SourceId) (src : RtspStreamSource) : EventLoop :=
  (w.log s .stopped).setSource s (some src.stopGettingFrames)

/-- `RtspStreamSource::createNew` for a stream with that codec. -/
def createNew (w : EventLoop) (t : StreamType) (codec : CodecType) : EventLoop :=
  { (w.setSource w.nextSource (some (.new t codec))).mapQueue t
      fun q => q.registerSource w.nextSource with
    nextSource := w.nextSource + 1 }

/-- `RtspStreamSource::~RtspStreamSource` -/
def destroy (w : EventLoop) (s : SourceId) (src : RtspStreamSource) : EventLoop :=
  (w.setSource s none).mapQueue src.streamType fun q => q.unregisterSource s

/-- A scheduled `deliver_frame` task fires. -/
def fire (w : EventLoop) (s : SourceId) (src : RtspStreamSource) : EventLoop :=
  ({ w with tasks := w.tasks.erase s }).enterDeliverFrame s src

/-- The pop of `deliver_frame`. -/
def pop (w : EventLoop) (s : SourceId) (src : RtspStreamSource) (q : RtspFrameQueue RtspNalUnit) :
    EventLoop :=
  let w := w.mapQueue src.streamType fun _ => q.popNalUnit.2
  match q.popNalUnit.1 with
  | none => { w with handler := .emptied s }
  | some nal => { w.log s (.popped nal) with handler := .popped s nal }

/-- The rest of `deliver_frame` after a pop that found nothing. -/
def keepWaiting (w : EventLoop) (s : SourceId) (src : RtspStreamSource) : EventLoop :=
  { w.setSource s (some { src with awaitingFrame := true }) with handler := .idle }

/-- The rest of `deliver_frame` after a pop. -/
def complete (w : EventLoop) (s : SourceId) (src : RtspStreamSource) (nal : RtspNalUnit) :
    EventLoop :=
  let src := src.fill nal
  { (w.log s (.completed src.delivery)).setSource s (some src.afterGetting) with handler := .idle }

/-- The loop body of `notify_active_sources`, with the `scheduleDelayedTask` it may lead to. -/
def notify (w : EventLoop) (s : SourceId) : EventLoop :=
  match w.sources s with
  | none => w
  | some src =>
    { w.setSource s (some src.notifyFrameAvailable.1) with
      tasks := if src.notifyFrameAvailable.2 then w.tasks ++ [s] else w.tasks }

/-- `RtspFrameQueue::notify_active_sources` -/
def notifyActiveSources (w : EventLoop) (t : StreamType) : EventLoop :=
  match w.queue t with
  | none => w
  | some q => q.activeSources.foldl notify w

/-- `handle_frame_trigger` begins: the trigger is no longer pending. -/
def handleFrameTrigger (w : EventLoop) : EventLoop :=
  { w with
    trigger := false
    handler := .triggered (StreamType.all.filter fun t => (w.queue t).isSome) }

/-- A worker enters `on_frame` and gathers the NAL units of its frame. -/
def onFrame (w : EventLoop) (frame : StreamFrame) : EventLoop :=
  if w.server.running = false then w
  else
    match w.server.stream frame.type with
    | none => { w with calls := .skipped :: w.calls }
    | some (codec, _, cache) =>
      let g := RtspServer.gather codec cache frame
      { w with
        server :=
          { w.server with
            parameterSets := Function.update w.server.parameterSets frame.type (some g.cache) }
        calls := .gathered frame.type g.accessUnitNals :: w.calls }

/-- The `i`-th worker inside `on_frame` goes on. -/
def onFrameStep (w : EventLoop) (i : ℕ) : Option EventLoop :=
  match w.calls[i]? with
  | none => none
  | some (.gathered t nals) =>
    match w.queue t with
    | none => none
    | some q =>
      let call := if q.hasActiveSources && !nals.isEmpty then OnFrame.active t nals else .skipped
      some { w with calls := w.calls.set i call }
  | some (.active t nals) =>
    some { w.mapQueue t fun q => q.pushAccessUnit nals with calls := w.calls.set i (.pushed t) }
  | some (.pushed _) | some .skipped =>
    some { w with trigger := w.trigger || w.server.scheduler, calls := w.calls.eraseIdx i }

/-- What the event thread is given to do, its next step in a handler, and the workers' steps. -/
inductive Action
  | getNextFrame (s : SourceId) (maxSize : UInt32)
  | stopGettingFrames (s : SourceId)
  | createNew (t : StreamType)
  | destroy (s : SourceId)
  | fire (s : SourceId)
  | handleFrameTrigger
  | resume
  | onFrame (frame : StreamFrame)
  | onFrameStep (i : ℕ)

/-- The event thread starts a handler, or a call into a source. -/
def beginHandler (w : EventLoop) : Action → Option EventLoop
  | .getNextFrame s maxSize =>
    (w.sources s).bind fun src =>
      if src.isCurrentlyAwaitingData then none else some (w.getNextFrame s src maxSize)
  | .stopGettingFrames s => (w.sources s).map (w.stopGettingFrames s)
  | .createNew t =>
    (w.queue t).bind fun _ => (w.server.streamCodecs t).map (w.createNew t)
  | .destroy s => (w.sources s).map (w.destroy s)
  | .fire s => if s ∈ w.tasks then (w.sources s).map (w.fire s) else none
  | .handleFrameTrigger => if w.trigger then some w.handleFrameTrigger else none
  | .resume | .onFrame _ | .onFrameStep _ => none

/-- The event thread goes on in its handler. -/
def resume (w : EventLoop) : Option EventLoop :=
  match w.handler with
  | .idle => none
  | .delivering s =>
    (w.sources s).bind fun src => (w.queue src.streamType).map (w.pop s src)
  | .emptied s => (w.sources s).map (w.keepWaiting s)
  | .popped s nal => (w.sources s).map fun src => w.complete s src nal
  | .triggered [] => some { w with handler := .idle }
  | .triggered (t :: rest) => some { w.notifyActiveSources t with handler := .triggered rest }

def step (w : EventLoop) : Action → Option EventLoop
  | .onFrame frame => some (w.onFrame frame)
  | .onFrameStep i => w.onFrameStep i
  | .resume => w.resume
  | a => if w.handler = .idle then w.beginHandler a else none

/-- All runs of the event thread and the workers. -/
def machine : Machine EventLoop Action where
  init w := ∃ server : RtspServer, server.Ready ∧ w = new server
  step := step

/-! ## What a step can do -/

/-- The outcomes of `step`. -/
inductive Step (w : EventLoop) : Action → EventLoop → Prop
  | getNextFrame {s maxSize src} : w.handler = .idle → w.sources s = some src →
      src.isCurrentlyAwaitingData = false →
      Step w (.getNextFrame s maxSize) (w.getNextFrame s src maxSize)
  | stopGettingFrames {s src} : w.handler = .idle → w.sources s = some src →
      Step w (.stopGettingFrames s) (w.stopGettingFrames s src)
  | createNew {t q codec} : w.handler = .idle → w.queue t = some q →
      Step w (.createNew t) (w.createNew t codec)
  | destroy {s src} : w.handler = .idle → w.sources s = some src →
      Step w (.destroy s) (w.destroy s src)
  | fire {s src} : w.handler = .idle → s ∈ w.tasks → w.sources s = some src →
      Step w (.fire s) (w.fire s src)
  | handleFrameTrigger : w.handler = .idle → w.trigger = true →
      Step w .handleFrameTrigger w.handleFrameTrigger
  | pop {s src q} : w.handler = .delivering s → w.sources s = some src →
      w.queue src.streamType = some q → Step w .resume (w.pop s src q)
  | keepWaiting {s src} : w.handler = .emptied s → w.sources s = some src →
      Step w .resume (w.keepWaiting s src)
  | complete {s nal src} : w.handler = .popped s nal → w.sources s = some src →
      Step w .resume (w.complete s src nal)
  | leave : w.handler = .triggered [] → Step w .resume { w with handler := .idle }
  | notify {t rest} : w.handler = .triggered (t :: rest) →
      Step w .resume { w.notifyActiveSources t with handler := .triggered rest }
  | onFrame (frame : StreamFrame) : Step w (.onFrame frame) (w.onFrame frame)
  | check {i t nals q} : w.calls[i]? = some (.gathered t nals) → w.queue t = some q →
      Step w (.onFrameStep i)
        { w with
          calls := w.calls.set i
            (if q.hasActiveSources && !nals.isEmpty then .active t nals else .skipped) }
  | push {i t nals} : w.calls[i]? = some (.active t nals) →
      Step w (.onFrameStep i)
        { w.mapQueue t fun q => q.pushAccessUnit nals with calls := w.calls.set i (.pushed t) }
  | triggerEvent {i call} : w.calls[i]? = some call → (∀ t nals, call ≠ .gathered t nals) →
      (∀ t nals, call ≠ .active t nals) →
      Step w (.onFrameStep i)
        { w with trigger := w.trigger || w.server.scheduler, calls := w.calls.eraseIdx i }

variable {w w' : EventLoop} {a : Action} {s : SourceId} {src src' : RtspStreamSource}
  {t : StreamType} {q : RtspFrameQueue RtspNalUnit}

theorem onFrameStep_gathered {i : ℕ} {nals : RtspAccessUnit RtspNalUnit}
    (hc : w.calls[i]? = some (.gathered t nals)) (hq : w.queue t = some q) :
    w.onFrameStep i = some { w with
      calls := w.calls.set i
        (if q.hasActiveSources && !nals.isEmpty then .active t nals else .skipped) } := by
  unfold onFrameStep
  simp only [hc, hq]

theorem Step.of_onFrameStep {i : ℕ} (h : w.onFrameStep i = some w') :
    Step w (.onFrameStep i) w' := by
  cases hc : w.calls[i]? with
  | none =>
    unfold onFrameStep at h
    rw [hc] at h
    cases h
  | some call =>
    cases call with
    | gathered t nals =>
      cases hq : w.queue t with
      | none =>
        unfold onFrameStep at h
        simp only [hc, hq] at h
        cases h
      | some q =>
        rw [onFrameStep_gathered hc hq] at h
        cases h
        exact .check hc hq
    | active t nals =>
      unfold onFrameStep at h
      rw [hc] at h
      cases h
      exact .push hc
    | pushed t =>
      unfold onFrameStep at h
      rw [hc] at h
      cases h
      exact .triggerEvent hc (fun _ _ h => nomatch h) (fun _ _ h => nomatch h)
    | skipped =>
      unfold onFrameStep at h
      rw [hc] at h
      cases h
      exact .triggerEvent hc (fun _ _ h => nomatch h) (fun _ _ h => nomatch h)

theorem Step.of_resume (h : w.resume = some w') : Step w .resume w' := by
  unfold resume at h
  cases hh : w.handler with
  | idle =>
    rw [hh] at h
    cases h
  | delivering s =>
    simp only [hh] at h
    obtain ⟨src, hs, h⟩ := Option.bind_eq_some_iff.mp h
    obtain ⟨q, hq, rfl⟩ := Option.map_eq_some_iff.mp h
    exact .pop hh hs hq
  | emptied s =>
    simp only [hh] at h
    obtain ⟨src, hs, rfl⟩ := Option.map_eq_some_iff.mp h
    exact .keepWaiting hh hs
  | popped s nal =>
    simp only [hh] at h
    obtain ⟨src, hs, rfl⟩ := Option.map_eq_some_iff.mp h
    exact .complete hh hs
  | triggered rest =>
    cases rest with
    | nil =>
      simp only [hh] at h
      cases h
      exact .leave hh
    | cons t rest =>
      simp only [hh] at h
      cases h
      exact .notify hh

theorem Step.of_beginHandler (hh : w.handler = .idle) (h : w.beginHandler a = some w') :
    Step w a w' := by
  cases a with
  | getNextFrame s maxSize =>
    obtain ⟨src, hs, h⟩ := Option.bind_eq_some_iff.mp h
    split_ifs at h with ha
    cases h
    exact .getNextFrame hh hs (by simpa using ha)
  | stopGettingFrames s =>
    obtain ⟨src, hs, rfl⟩ := Option.map_eq_some_iff.mp h
    exact .stopGettingFrames hh hs
  | createNew t =>
    obtain ⟨q, hq, h⟩ := Option.bind_eq_some_iff.mp h
    obtain ⟨codec, -, rfl⟩ := Option.map_eq_some_iff.mp h
    exact .createNew hh hq
  | destroy s =>
    obtain ⟨src, hs, rfl⟩ := Option.map_eq_some_iff.mp h
    exact .destroy hh hs
  | fire s =>
    rw [beginHandler] at h
    split_ifs at h with ht
    obtain ⟨src, hs, rfl⟩ := Option.map_eq_some_iff.mp h
    exact .fire hh ht hs
  | handleFrameTrigger =>
    rw [beginHandler] at h
    split_ifs at h with ht
    cases h
    exact .handleFrameTrigger hh ht
  | resume | onFrame | onFrameStep => cases h

theorem Step.of_step (h : w.step a = some w') : Step w a w' := by
  cases a with
  | onFrame frame =>
    cases h
    exact .onFrame frame
  | onFrameStep i => exact .of_onFrameStep h
  | resume => exact .of_resume h
  | getNextFrame | stopGettingFrames | createNew | destroy | fire | handleFrameTrigger =>
    unfold step at h
    split_ifs at h with hh
    exact .of_beginHandler hh h

end EventLoop

end Eye
