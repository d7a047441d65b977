import Mathlib.Data.List.Basic
import Eye.Rtsp.Sessions

/-!
# The end of the process

When `main` returns, `~RtspServer` calls `stop` while the consumers that `main` has registered still
have their workers: the consumer manager was constructed first and so is destroyed last. This is
`stop` one step at a time, with the calls of `on_frame` that the workers make.

`deletedUnused`: `triggerEvent` is not called on a deleted scheduler if no call of `on_frame` is
between its test of `scheduler_` and `triggerEvent` when `stop` deletes the scheduler, and none
makes that test before `stop` has set the pointer to null; a run that ends with no call in between
has no other way. `deletedUnused_of_quiet`: unregistering the consumers before `stop` is enough.
-/

namespace Eye

/-- Where a worker is in `on_frame`. What it does with the queue and the cache it has found, it does
to objects that its own pointers keep alive. -/
inductive OnFrameCall
  /-- `running_` has been found true. -/
  | entered (t : StreamType)
  | codecFound (t : StreamType)
  | queueFound (t : StreamType)
  /-- The stream is in all three maps. -/
  | streamFound
  /-- `process_frame_nals` has returned. -/
  | processed
  /-- `scheduler_` has been found not to be null. -/
  | tested
  deriving DecidableEq

/-- What `stop` does next. -/
inductive StopStep
  | notCalled
  | setWatchVariable
  | clearRunning
  | joinEventThread
  | closeSessions
  | clearFrameQueues
  | clearParameterSets
  | clearStreamCodecs
  | closeServer
  | reclaimEnv
  | deleteScheduler
  | nullScheduler
  | returned
  deriving DecidableEq

/-- The server at the end of the process. `scheduler` of the server says that the pointer is not
null, `schedulerDeleted` that the object is gone, `usedDeleted` that `triggerEvent` has been called
on it since. -/
structure Teardown where
  live : LiveServer
  watchVariable : Bool
  eventThread : Bool
  stop : StopStep
  calls : List OnFrameCall
  trigger : Bool
  schedulerDeleted : Bool
  usedDeleted : Bool

namespace Teardown

/-- The server as `main` leaves it. -/
def new (live : LiveServer) : Teardown := ⟨live, false, true, .notCalled, [], false, false, false⟩

/-- Replaces the server. -/
def setServer (w : Teardown) (server : RtspServer) : Teardown :=
  { w with live := { w.live with server := server } }

/-- The next step of `stop`. -/
def continueStop (w : Teardown) : Option Teardown :=
  let server := w.live.server
  match w.stop with
  | .notCalled | .returned => none
  | .setWatchVariable => some { w with watchVariable := true, stop := .clearRunning }
  | .clearRunning =>
    some { w.setServer { server with running := false } with stop := .joinEventThread }
  | .joinEventThread => if w.eventThread then none else some { w with stop := .closeSessions }
  | .closeSessions =>
    let w := { w with live := server.sessionList.foldl LiveServer.closeSession w.live }
    some { w.setServer { server with sessions := fun _ => none } with stop := .clearFrameQueues }
  | .clearFrameQueues =>
    some { w.setServer { server with frameQueues := fun _ => none } with
      stop := .clearParameterSets }
  | .clearParameterSets =>
    some { w.setServer { server with parameterSets := fun _ => none } with
      stop := .clearStreamCodecs }
  | .clearStreamCodecs =>
    some { w.setServer { server with streamCodecs := fun _ => none } with stop := .closeServer }
  | .closeServer =>
    let w := if server.rtspServer then { w with live := w.live.closeMediaServer } else w
    some { w.setServer { server with rtspServer := false } with stop := .reclaimEnv }
  | .reclaimEnv => some { w.setServer { server with env := false } with stop := .deleteScheduler }
  | .deleteScheduler =>
    if server.scheduler then some { w with schedulerDeleted := true, stop := .nullScheduler }
    else some { w with stop := .returned }
  | .nullScheduler =>
    some { w.setServer { server with scheduler := false } with stop := .returned }

/-- A look-up of `process_frame_nals`, which returns if nothing is found. -/
def lookUp (found : Bool) (next : OnFrameCall) : OnFrameCall := if found then next else .processed

/-- The next step of the `i`-th call of `on_frame`. -/
def continueCall (w : Teardown) (i : ℕ) : Option Teardown :=
  let server := w.live.server
  match w.calls[i]? with
  | none => none
  | some (.entered t) =>
    some { w with calls := w.calls.set i (lookUp (server.streamCodecs t).isSome (.codecFound t)) }
  | some (.codecFound t) =>
    some { w with calls := w.calls.set i (lookUp (server.frameQueues t).isSome (.queueFound t)) }
  | some (.queueFound t) =>
    some { w with calls := w.calls.set i (lookUp (server.parameterSets t).isSome .streamFound) }
  | some .streamFound => some { w with calls := w.calls.set i .processed }
  | some .processed =>
    if server.scheduler then some { w with calls := w.calls.set i .tested }
    else some { w with calls := w.calls.eraseIdx i }
  | some .tested =>
    -- `triggerEvent`, through the pointer that the test has read
    some { w with
      trigger := true
      calls := w.calls.eraseIdx i
      usedDeleted := w.usedDeleted || w.schedulerDeleted }

/-- `exit` is the first step of `stop`, `onFrame` that of a call of `on_frame`. -/
inductive Action
  | exit
  | continueStop
  | eventLoopEnds
  | onFrame (frame : StreamFrame)
  | continueCall (i : ℕ)

def step (w : Teardown) : Action → Option Teardown
  | .exit =>
    if w.stop = .notCalled then
      some { w with stop := if w.live.server.running then .setWatchVariable else .returned }
    else none
  | .continueStop => w.continueStop
  | .eventLoopEnds =>
    if w.watchVariable && w.eventThread then some { w with eventThread := false } else none
  | .onFrame frame =>
    some { w with
      calls := if w.live.server.running then .entered frame.type :: w.calls else w.calls }
  | .continueCall i => w.continueCall i

/-- All interleavings of `stop` with any number of workers. -/
def machine : Machine Teardown Action where
  init w := ∃ live, w = new live
  step := step

/-- `triggerEvent` has not been called on a deleted scheduler. -/
def DeletedUnused (w : Teardown) : Prop := w.usedDeleted = false

/-- `stop` deletes the scheduler while no call is between the test of `scheduler_` and
`triggerEvent`, and no call tests `scheduler_` between its deletion and the store of null. -/
def Clear (w : Teardown) : Action → Prop
  | .continueStop =>
    w.stop = .deleteScheduler → w.live.server.scheduler = true → .tested ∉ w.calls
  | .continueCall i =>
    w.calls[i]? = some .processed → w.stop ≠ .nullScheduler
  | .exit | .eventLoopEnds | .onFrame _ => True

instance (w : Teardown) : (a : Action) → Decidable (w.Clear a)
  | .continueStop => inferInstanceAs (Decidable (_ → _ → _))
  | .continueCall _ => inferInstanceAs (Decidable (_ → _))
  | .exit | .eventLoopEnds | .onFrame _ => .isTrue trivial

/-- `stop` clears `running_` while no call of `on_frame` is in progress. -/
def Quiet (w : Teardown) : Action → Prop
  | .continueStop => w.stop = .clearRunning → w.calls = []
  | .exit | .eventLoopEnds | .onFrame _ | .continueCall _ => True

variable {w w' : Teardown} {a : Action} {i : ℕ} {c : OnFrameCall}

/-- One after the other, without workers, the steps of `stop` leave the server that it leaves as a
whole. -/
theorem stop_alone {live : LiveServer} (hr : live.server.running = true)
    (hs : live.server.scheduler = true) (hstop : live.stopping = false) :
    machine.run (new live)
        ([.exit, .continueStop, .eventLoopEnds] ++ List.replicate 10 .continueStop) =
      some { new live with
        live := live.stopStreams.stopServer
        watchVariable := true
        eventThread := false
        stop := .returned
        schedulerDeleted := true } := by
  rw [LiveServer.stopStreams_of_running hr]
  obtain ⟨⟨rtspServer, env, scheduler, running, sessions, queues, sets, codecs, config⟩, table,
    created, destroyed, stopping⟩ := live
  simp only at hr hs hstop
  subst hr hs hstop
  -- `closeMediaServer` only if there is a media server
  cases rtspServer <;>
    simp [machine, Machine.run_cons, step, continueStop, setServer, new, List.replicate,
      LiveServer.foldl_closeSession, LiveServer.stopServer, RtspServer.clearStreams,
      RtspServer.closeServer, LiveServer.closeMediaServer, LiveServer.listed] <;>
    rfl

/-! ## What a step can do -/

/-- `stop` deletes the scheduler, or forgets it, or does something else. -/
theorem continueStop_cases (h : w.continueStop = some w') :
    w'.calls = w.calls ∧ w'.usedDeleted = w.usedDeleted ∧
      ((w.stop = .deleteScheduler ∧ w.live.server.scheduler = true ∧ w'.stop = .nullScheduler ∧
          w'.live = w.live ∧ w'.schedulerDeleted = true) ∨
        (w.stop = .nullScheduler ∧ w'.stop = .returned ∧ w'.live.server.scheduler = false ∧
          w'.schedulerDeleted = w.schedulerDeleted) ∨
        (w.stop ≠ .nullScheduler ∧ w.stop ≠ .returned ∧ w'.stop ≠ .nullScheduler ∧
          w'.schedulerDeleted = w.schedulerDeleted ∧
          (w.stop = .deleteScheduler → w.live.server.scheduler = false))) := by
  unfold continueStop at h
  cases hs : w.stop with
  | notCalled | returned =>
    rw [hs] at h
    cases h
  | setWatchVariable | clearRunning | closeSessions | clearFrameQueues | clearParameterSets
  | clearStreamCodecs | reclaimEnv =>
    rw [hs] at h
    cases h
    exact ⟨rfl, rfl, .inr (.inr ⟨nofun, nofun, nofun, rfl, nofun⟩)⟩
  | joinEventThread =>
    rw [hs] at h
    dsimp only at h
    split_ifs at h
    cases h
    exact ⟨rfl, rfl, .inr (.inr ⟨nofun, nofun, nofun, rfl, nofun⟩)⟩
  | closeServer =>
    rw [hs] at h
    dsimp only at h
    split_ifs at h <;> cases h <;>
      exact ⟨rfl, rfl, .inr (.inr ⟨nofun, nofun, nofun, rfl, nofun⟩)⟩
  | deleteScheduler =>
    rw [hs] at h
    dsimp only at h
    split_ifs at h with hd <;> cases h
    · exact ⟨rfl, rfl, .inl ⟨rfl, hd, rfl, rfl, rfl⟩⟩
    · exact ⟨rfl, rfl, .inr (.inr ⟨nofun, nofun, nofun, rfl, fun _ => by simpa using hd⟩)⟩
  | nullScheduler =>
    rw [hs] at h
    cases h
    exact ⟨rfl, rfl, .inr (.inl ⟨rfl, rfl, rfl, rfl⟩)⟩

theorem lookUp_ne_tested {found : Bool} (hc : c ≠ .tested) : lookUp found c ≠ .tested := by
  unfold lookUp
  split_ifs
  · exact hc
  · nofun

/-- A call triggers the event, or finds the scheduler, or does something else. -/
theorem continueCall_cases (h : w.continueCall i = some w') :
    ∃ c, w.calls[i]? = some c ∧ w'.live = w.live ∧ w'.stop = w.stop ∧
      w'.schedulerDeleted = w.schedulerDeleted ∧
      ((c = .tested ∧ w'.calls = w.calls.eraseIdx i ∧
          w'.usedDeleted = (w.usedDeleted || w.schedulerDeleted)) ∨
        (c = .processed ∧ w.live.server.scheduler = true ∧ w'.calls = w.calls.set i .tested ∧
          w'.usedDeleted = w.usedDeleted) ∨
        (c ≠ .tested ∧ (c = .processed → w.live.server.scheduler = false) ∧
          (w'.calls = w.calls.eraseIdx i ∨ ∃ x, w'.calls = w.calls.set i x ∧ x ≠ .tested) ∧
          w'.usedDeleted = w.usedDeleted)) := by
  unfold continueCall at h
  cases hc : w.calls[i]? with
  | none =>
    rw [hc] at h
    cases h
  | some c =>
    refine ⟨c, rfl, ?_⟩
    cases c with
    | entered t | codecFound t | queueFound t =>
      rw [hc] at h
      cases h
      exact ⟨rfl, rfl, rfl, .inr (.inr ⟨nofun, nofun, .inr ⟨_, rfl, lookUp_ne_tested nofun⟩, rfl⟩)⟩
    | streamFound =>
      rw [hc] at h
      cases h
      exact ⟨rfl, rfl, rfl, .inr (.inr ⟨nofun, nofun, .inr ⟨_, rfl, nofun⟩, rfl⟩)⟩
    | processed =>
      rw [hc] at h
      dsimp only at h
      split_ifs at h with hs <;> cases h
      · exact ⟨rfl, rfl, rfl, .inr (.inl ⟨rfl, hs, rfl, rfl⟩)⟩
      · exact ⟨rfl, rfl, rfl, .inr (.inr ⟨nofun, fun _ => by simpa using hs, .inl rfl, rfl⟩)⟩
    | tested =>
      rw [hc] at h
      cases h
      exact ⟨rfl, rfl, rfl, .inl ⟨rfl, rfl, rfl⟩⟩

/-! ## What every step keeps -/

/-- How the pointer, the object and the steps of `stop` hang together. -/
structure Phase (w : Teardown) : Prop where
  null : w.stop = .nullScheduler → w.schedulerDeleted = true ∧ w.live.server.scheduler = true
  deleted : w.schedulerDeleted = true →
    w.stop = .nullScheduler ∨ w.stop = .returned ∧ w.live.server.scheduler = false

theorem phase_new (live : LiveServer) : (new live).Phase := ⟨nofun, nofun⟩

theorem Phase.step (hp : w.Phase) (h : w.step a = some w') : w'.Phase := by
  cases a with
  | exit =>
    obtain ⟨hs, h⟩ := Option.ite_none_right_eq_some.mp h
    cases h
    have hdel : w.schedulerDeleted = false := by
      by_contra hd
      rcases hp.deleted (by simpa using hd) with hd | ⟨hd, -⟩ <;> simp [hs] at hd
    constructor
    · intro hn
      dsimp only at hn
      split_ifs at hn
    · intro hd
      simp [hdel] at hd
  | continueStop =>
    obtain ⟨-, -, h | h | h⟩ := continueStop_cases h
    · obtain ⟨hs, hsched, hs', hlive, hdel⟩ := h
      exact ⟨fun _ => ⟨hdel, by rw [hlive, hsched]⟩, fun _ => .inl hs'⟩
    · obtain ⟨-, hs', hsched, -⟩ := h
      refine ⟨?_, fun _ => .inr ⟨hs', hsched⟩⟩
      intro hn
      simp [hs'] at hn
    · obtain ⟨hn, hr, hn', hdel, -⟩ := h
      refine ⟨fun hnull => absurd hnull hn', ?_⟩
      intro hd
      rcases hp.deleted (hdel ▸ hd) with hnull | ⟨hret, -⟩
      · exact absurd hnull hn
      · exact absurd hret hr
  | eventLoopEnds =>
    obtain ⟨-, h⟩ := Option.ite_none_right_eq_some.mp h
    cases h
    exact ⟨hp.null, hp.deleted⟩
  | onFrame frame =>
    cases h
    exact ⟨hp.null, hp.deleted⟩
  | continueCall i =>
    obtain ⟨c, -, hlive, hs, hdel, -⟩ := continueCall_cases h
    exact ⟨by rw [hs, hdel, hlive]; exact hp.null, by rw [hs, hdel, hlive]; exact hp.deleted⟩

/-- The scheduler has not been used once deleted, and no call is about to. -/
structure Inv (w : Teardown) : Prop where
  phase : w.Phase
  untested : w.schedulerDeleted = true → .tested ∉ w.calls
  unused : w.usedDeleted = false

theorem inv_new (live : LiveServer) : (new live).Inv := ⟨phase_new live, nofun, rfl⟩

theorem Inv.step (hi : w.Inv) (hc : w.Clear a) (h : w.step a = some w') : w'.Inv := by
  have hphase := hi.phase.step h
  cases a with
  | exit =>
    obtain ⟨-, h⟩ := Option.ite_none_right_eq_some.mp h
    cases h
    exact ⟨hphase, hi.untested, hi.unused⟩
  | continueStop =>
    obtain ⟨hcalls, hused, h⟩ := continueStop_cases h
    refine ⟨hphase, ?_, hused.trans hi.unused⟩
    intro hd
    rw [hcalls]
    rcases h with ⟨hs, hsched, -⟩ | ⟨hs, -⟩ | ⟨-, -, -, hdel, -⟩
    · exact hc hs hsched
    · exact hi.untested (hi.phase.null hs).1
    · exact hi.untested (hdel ▸ hd)
  | eventLoopEnds =>
    obtain ⟨-, h⟩ := Option.ite_none_right_eq_some.mp h
    cases h
    exact ⟨hphase, hi.untested, hi.unused⟩
  | onFrame frame =>
    cases h
    refine ⟨hphase, ?_, hi.unused⟩
    intro hd
    have huntested := hi.untested hd
    dsimp only
    split_ifs
    · simp [huntested]
    · exact huntested
  | continueCall i =>
    obtain ⟨c, hi', hlive, hs, hdel, h⟩ := continueCall_cases h
    have hget : c = .tested → w.schedulerDeleted = false := by
      intro ht
      by_contra hd
      exact hi.untested (by simpa using hd) (ht ▸ List.mem_of_getElem? hi')
    refine ⟨hphase, ?_, ?_⟩
    · intro hd
      rw [hdel] at hd
      rcases h with ⟨-, hcalls, -⟩ | ⟨hproc, hsched, -⟩ | ⟨-, -, hcalls | ⟨x, hcalls, hx⟩, -⟩
      · rw [hcalls]
        intro hm
        exact hi.untested hd (List.mem_of_mem_eraseIdx hm)
      · -- the pointer is not null, so `stop` is about to set it
        rcases hi.phase.deleted hd with hnull | ⟨-, hnull⟩
        · exact absurd hnull (hc (hproc ▸ hi'))
        · simp [hsched] at hnull
      · rw [hcalls]
        intro hm
        exact hi.untested hd (List.mem_of_mem_eraseIdx hm)
      · rw [hcalls]
        intro hm
        rcases List.mem_or_eq_of_mem_set hm with hm | hm
        · exact hi.untested hd hm
        · exact hx hm.symm
    · rcases h with ⟨ht, -, hused⟩ | ⟨-, -, -, hused⟩ | ⟨-, -, -, hused⟩
      · simp [hused, hi.unused, hget ht]
      · exact hused.trans hi.unused
      · exact hused.trans hi.unused

/-! ## What a step that is not clear leads to -/

/-- The scheduler has been deleted, and a call is about to use it. -/
structure Doomed (w : Teardown) : Prop where
  deleted : w.schedulerDeleted = true
  tested : .tested ∈ w.calls

theorem Inv.doomed (hi : w.Inv) (hc : ¬ w.Clear a) (h : w.step a = some w') : w'.Doomed := by
  cases a with
  | exit | eventLoopEnds | onFrame => exact absurd trivial hc
  | continueStop =>
    unfold Clear at hc
    rw [Classical.not_imp, Classical.not_imp, Classical.not_not] at hc
    obtain ⟨hs, hsched, ht⟩ := hc
    obtain ⟨hcalls, -, ⟨-, -, -, -, hdel⟩ | ⟨hs', -⟩ | ⟨-, -, -, -, hnull⟩⟩ := continueStop_cases h
    · exact ⟨hdel, hcalls ▸ ht⟩
    · simp [hs] at hs'
    · simp [hnull hs] at hsched
  | continueCall i =>
    unfold Clear at hc
    rw [Classical.not_imp, Classical.not_not] at hc
    obtain ⟨hproc, hs⟩ := hc
    obtain ⟨hdeleted, hsched⟩ := hi.phase.null hs
    obtain ⟨c, hi', hlive, -, hdel, h⟩ := continueCall_cases h
    rw [hproc] at hi'
    cases hi'
    rcases h with ⟨ht, -⟩ | ⟨-, -, hcalls, -⟩ | ⟨-, hnull, -⟩
    · cases ht
    · refine ⟨hdel.trans hdeleted, ?_⟩
      rw [hcalls]
      exact List.mem_set (List.getElem?_eq_some_iff.mp hproc).1 _
    · simp [hnull rfl] at hsched

theorem Doomed.step (hd : w.Doomed) (h : w.step a = some w') (hunused : w'.DeletedUnused) :
    w'.Doomed := by
  obtain ⟨hdel, ht⟩ := hd
  cases a with
  | exit | eventLoopEnds =>
    obtain ⟨-, h⟩ := Option.ite_none_right_eq_some.mp h
    cases h
    exact ⟨hdel, ht⟩
  | continueStop =>
    obtain ⟨hcalls, -, h⟩ := continueStop_cases h
    refine ⟨?_, hcalls ▸ ht⟩
    rcases h with ⟨-, -, -, -, hdel'⟩ | ⟨-, -, -, hdel'⟩ | ⟨-, -, -, hdel', -⟩
    · exact hdel'
    · exact hdel'.trans hdel
    · exact hdel'.trans hdel
  | onFrame frame =>
    cases h
    refine ⟨hdel, ?_⟩
    dsimp only
    split_ifs <;> simp [ht]
  | continueCall i =>
    obtain ⟨c, hi, -, -, hdel', h⟩ := continueCall_cases h
    refine ⟨hdel'.trans hdel, ?_⟩
    rcases h with ⟨-, -, hused⟩ | ⟨-, -, hcalls, -⟩ | ⟨hne, -, hcalls, -⟩
    · -- the call has used it
      have hnot : w'.usedDeleted = false := hunused
      simp [hdel, hnot] at hused
    · rw [hcalls]
      exact List.mem_set (List.getElem?_eq_some_iff.mp hi).1 _
    · rcases hcalls with hcalls | ⟨x, hcalls, -⟩ <;> rw [hcalls]
      · exact mem_calls_eraseIdx hi hne ht
      · exact mem_calls_set hi hne ht x

/-! ## Whole runs -/

/-- **The deleted scheduler.** Whatever `main` has left, and however `stop` and the workers
interleave: if every step is clear, `triggerEvent` is never called on a deleted scheduler; and in
a run that ends with no call between its test of `scheduler_` and `triggerEvent`, only then. -/
theorem deletedUnused (live : LiveServer) (as : List Action) :
    (machine.Along Clear (new live) as → machine.Always DeletedUnused (new live) as) ∧
      ∀ t, machine.run (new live) as = some t → .tested ∉ t.calls →
        machine.Always DeletedUnused (new live) as → machine.Along Clear (new live) as := by
  constructor
  · intro h
    exact h.always (inv_new live) (fun _ _ _ hi hc hs => hi.step hc hs) fun _ hi => hi.unused
  · intro t hrun hret halways
    exact Machine.along_of_always halways (inv_new live) (fun _ _ _ hi hc hs => hi.step hc hs)
      (fun _ _ _ hi hc hs _ => hi.doomed hc hs) (fun _ _ _ hd hs hp => hd.step hs hp) hrun
      fun hd => hret hd.tested

/-- The server with the two streams of `main`. -/
def started : LiveServer :=
  (((LiveServer.new.start 8554 .started).addStream .videoMain "main" true).2.addStream .videoSub
    "sub" true).2

/-- A call of `on_frame` up to its test of `scheduler_`. -/
def upToTest : List Action :=
  .onFrame (RtspServer.onePack .videoSub .h264 41 0x41 0x9a) :: List.replicate 5 (.continueCall 0)

/-- A worker has found the scheduler when `main` returns; `stop` deletes it before the worker calls
`triggerEvent`. -/
def slipThrough : List Action :=
  upToTest ++ [.exit, .continueStop, .eventLoopEnds] ++ List.replicate 9 .continueStop ++
    [.continueCall 0]

theorem deletedUnused_broken :
    ∃ w, machine.run (new started) slipThrough = some w ∧ w.stop = .nullScheduler ∧
      ¬ machine.Always DeletedUnused (new started) slipThrough := by
  refine ⟨_, rfl, rfl, ?_⟩
  intro h
  have := h.last rfl
  cases this

/-- The worker returns before `stop` comes to the scheduler. -/
def inTime : List Action :=
  upToTest ++ [.exit, .continueStop, .eventLoopEnds, .continueCall 0] ++
    List.replicate 10 .continueStop

theorem deletedUnused_inTime :
    machine.Always DeletedUnused (new started) inTime ∧
      ∃ t, machine.run (new started) inTime = some t ∧ t.stop = .returned ∧
        machine.Along Clear (new started) inTime := by
  have h := (deletedUnused started inTime).1 (Machine.Along.of_checks (by decide))
  exact ⟨h, _, rfl, rfl, (deletedUnused started inTime).2 _ rfl (by decide) h⟩

/-! ## Unregistering first -/

/-- `stop` has closed the gate behind the last call, or has not come to the gate. -/
def Gate (w : Teardown) : Prop :=
  (w.live.server.running = false ∧ w.calls = []) ∨
    (w.live.server.running = true ∧
      (w.stop = .notCalled ∨ w.stop = .setWatchVariable ∨ w.stop = .clearRunning))

theorem gate_new (live : LiveServer) : (new live).Gate := by
  cases h : live.server.running with
  | false => exact .inl ⟨h, rfl⟩
  | true => exact .inr ⟨h, .inl rfl⟩

theorem running_of_continueStop (h : w.continueStop = some w')
    (hr : w.live.server.running = false) : w'.live.server.running = false := by
  unfold continueStop at h
  cases hs : w.stop with
  | notCalled | returned =>
    rw [hs] at h
    cases h
  | clearRunning =>
    rw [hs] at h
    cases h
    rfl
  | setWatchVariable | closeSessions | clearFrameQueues | clearParameterSets | clearStreamCodecs
  | reclaimEnv | nullScheduler =>
    rw [hs] at h
    cases h
    exact hr
  | joinEventThread | closeServer | deleteScheduler =>
    rw [hs] at h
    dsimp only at h
    split_ifs at h <;> cases h <;> exact hr

theorem Gate.step (hg : w.Gate) (hc : w.Quiet a) (h : w.step a = some w') : w'.Gate := by
  cases a with
  | exit =>
    obtain ⟨-, h⟩ := Option.ite_none_right_eq_some.mp h
    cases h
    rcases hg with hg | ⟨hr, -⟩
    · exact .inl hg
    · exact .inr ⟨hr, .inr (.inl (if_pos hr))⟩
  | continueStop =>
    have hcalls := (continueStop_cases h).1
    rcases hg with ⟨hr, hempty⟩ | ⟨hr, hs | hs | hs⟩
    · exact .inl ⟨running_of_continueStop h hr, hcalls.trans hempty⟩
    · have h : w.continueStop = some w' := h
      rw [continueStop, hs] at h
      cases h
    · have h : w.continueStop = some w' := h
      rw [continueStop, hs] at h
      cases h
      exact .inr ⟨hr, .inr (.inr rfl)⟩
    · have hempty := hc hs
      have h : w.continueStop = some w' := h
      rw [continueStop, hs] at h
      cases h
      exact .inl ⟨rfl, hempty⟩
  | eventLoopEnds =>
    obtain ⟨-, h⟩ := Option.ite_none_right_eq_some.mp h
    cases h
    exact hg
  | onFrame frame =>
    cases h
    rcases hg with ⟨hr, hempty⟩ | hg
    · refine .inl ⟨hr, ?_⟩
      simp [hr, hempty]
    · exact .inr hg
  | continueCall i =>
    obtain ⟨c, hi, hlive, hs, -⟩ := continueCall_cases h
    rcases hg with ⟨-, hempty⟩ | hg
    · simp [hempty] at hi
    · refine .inr ?_
      rw [hlive, hs]
      exact hg

/-- With the gate closed behind the last call, the rest of `stop` is alone. -/
theorem Gate.clear (hg : w.Gate) (a : Action) : w.Clear a := by
  cases a with
  | exit | eventLoopEnds | onFrame => trivial
  | continueStop =>
    intro hs _
    rcases hg with ⟨-, hempty⟩ | ⟨-, h | h | h⟩
    · simp [hempty]
    all_goals simp [hs] at h
  | continueCall i =>
    intro hi hs
    rcases hg with ⟨-, hempty⟩ | ⟨-, h | h | h⟩
    · simp [hempty] at hi
    all_goals simp [hs] at h

/-- The order that the design gives is enough: a `stop` that clears `running_` while no worker is in
`on_frame`, as after the consumers have been unregistered. -/
theorem deletedUnused_of_quiet {live : LiveServer} {as : List Action}
    (h : machine.Along Quiet (new live) as) : machine.Always DeletedUnused (new live) as := by
  have hclear : machine.Along Clear (new live) as :=
    h.imp (gate_new live) (fun _ _ _ hg hc hs => hg.step hc hs) fun _ a _ hg _ _ => hg.clear a
  exact hclear.always (inv_new live) (fun _ _ _ hi hc hs => hi.step hc hs) fun _ hi => hi.unused

end Teardown

end Eye
