import Eye.Rtsp.EventLoopWf

/-!
# Deferred deliveries

`notify_frame_available` throws away the token of the task it schedules, so nothing takes the task
back when its source is destroyed. `noDanglingTask_iff`: that is harmless exactly in the runs that
destroy no source with a task.
-/

namespace Eye

namespace EventLoop

variable {w w' : EventLoop} {a : Action}

/-- Every scheduled `deliver_frame` task refers to a source that has not been destroyed. -/
def NoDanglingTask (w : EventLoop) : Prop := ∀ s ∈ w.tasks, (w.sources s).isSome = true

/-- The action destroys no source that has a task. -/
def SparesTasks (w : EventLoop) : Action → Prop
  | .destroy s => s ∉ w.tasks
  | _ => True

instance (w : EventLoop) : (a : Action) → Decidable (w.SparesTasks a)
  | .destroy s => inferInstanceAs (Decidable (s ∉ w.tasks))
  | .getNextFrame .. | .stopGettingFrames _ | .createNew _ | .fire _ | .handleFrameTrigger
  | .resume | .onFrame _ | .onFrameStep _ => .isTrue trivial

theorem NoDanglingTask.mono (hn : w.NoDanglingTask)
    (hsources : ∀ s, (w.sources s).isSome = true → (w'.sources s).isSome = true)
    (htasks : ∀ s ∈ w'.tasks, s ∈ w.tasks ∨ (w'.sources s).isSome = true) : w'.NoDanglingTask := by
  intro s hs
  rcases htasks s hs with h | h
  · exact hsources s (hn s h)
  · exact h

theorem isSome_update {sources : SourceId → Option RtspStreamSource} {s : SourceId}
    {src : RtspStreamSource} (r : SourceId) (h : (sources r).isSome = true) :
    (Function.update sources s (some src) r).isSome = true := by
  rw [Function.update_apply]
  split_ifs
  · rfl
  · exact h

theorem NoDanglingTask.enterDeliverFrame {s : SourceId} {src : RtspStreamSource}
    (hn : w.NoDanglingTask) : (w.enterDeliverFrame s src).NoDanglingTask := by
  unfold EventLoop.enterDeliverFrame
  split_ifs <;> exact hn.mono isSome_update fun _ => .inl

theorem NoDanglingTask.notifyActiveSources {t : StreamType} {rest : List StreamType} (hwf : w.Wf)
    (hn : w.NoDanglingTask) :
    NoDanglingTask { w.notifyActiveSources t with handler := .triggered rest } := by
  cases hq : w.queue t with
  | none =>
    rw [notifyActiveSources_of_none hq]
    exact hn
  | some q =>
    rw [notifyActiveSources_eq hwf.linked hq]
    have hmap : ∀ s, (w.sources s).isSome = true →
        ((w.sources s).map (quiet q.activeSources s)).isSome = true := fun s h => by
      rw [Option.isSome_map]
      exact h
    refine hn.mono hmap fun s hs => ?_
    rcases List.mem_append.mp hs with hs | hs
    · exact .inl hs
    · obtain ⟨src, hsrc, -⟩ := hwf.linked.active t q hq s (List.mem_filter.mp hs).1
      refine .inr (hmap s ?_)
      rw [hsrc]
      rfl

theorem NoDanglingTask.step (hwf : w.Wf) (hn : w.NoDanglingTask) (hc : w.SparesTasks a)
    (h : Step w a w') : w'.NoDanglingTask := by
  cases h with
  | getNextFrame hh hs hna => exact NoDanglingTask.enterDeliverFrame hn
  | fire hh ht hs =>
    exact NoDanglingTask.enterDeliverFrame fun s hs => hn s (List.mem_of_mem_erase hs)
  | stopGettingFrames | createNew | keepWaiting | complete =>
    exact hn.mono isSome_update fun _ => .inl
  | @destroy s src hh hs =>
    intro r hr
    have hne : r ≠ s := by
      rintro rfl
      exact hc hr
    show (Function.update w.sources s none r).isSome = true
    rw [Function.update_of_ne hne]
    exact hn r hr
  | pop hh hs hq =>
    unfold EventLoop.pop
    split <;> exact hn
  | notify hh => exact hn.notifyActiveSources hwf
  | onFrame frame =>
    unfold EventLoop.onFrame
    split_ifs
    · exact hn
    · split <;> exact hn
  | handleFrameTrigger | leave | check | push | triggerEvent => exact hn

theorem NoDanglingTask.not_step (hc : ¬ w.SparesTasks a) (h : Step w a w') :
    ¬ w'.NoDanglingTask := by
  cases h with
  | @destroy s src hh hs =>
    intro hn
    have hnone := hn s (not_not.mp hc)
    have : (w.destroy s src).sources s = none := Function.update_self ..
    rw [this] at hnone
    exact Bool.false_ne_true hnone
  | getNextFrame | stopGettingFrames | createNew | fire | handleFrameTrigger | pop | keepWaiting
  | complete | leave | notify | onFrame | check | push | triggerEvent => exact absurd trivial hc

/-- **Deferred deliveries outlive their source exactly when it is destroyed under them.** A run of
the event loop keeps every scheduled task on a living source if and only if no step destroys a
source that has a task. -/
theorem noDanglingTask_iff {server : RtspServer} (hs : server.Ready) (as : List Action) :
    machine.Always NoDanglingTask (new server) as ↔ machine.Along SparesTasks (new server) as :=
  Machine.always_iff_along (I := fun w => w.Wf ∧ w.NoDanglingTask)
    ⟨wf_new hs, fun _ h => absurd h List.not_mem_nil⟩
    (fun _ _ _ hi hc h => ⟨hi.1.step (.of_step h), hi.2.step hi.1 hc (.of_step h)⟩)
    (fun _ hi => hi.2) (fun _ _ _ _ hc h => NoDanglingTask.not_step hc (.of_step h))

/-- A client waits for a frame, a frame arrives, the trigger handler schedules the delivery, and the
client's session is closed before it fires. -/
def teardownRun : List Action :=
  [.createNew .videoMain, .getNextFrame 0 1500, .resume, .resume,
    .onFrame (RtspServer.onePack .videoMain .h265 40 0x26 0x01), .onFrameStep 0, .onFrameStep 0,
    .onFrameStep 0, .handleFrameTrigger, .resume, .resume, .destroy 0]

/-- Before the teardown a delivery is pending, for a source that lives. -/
theorem noDanglingTask_iff_waiting :
    (machine.run (new mainOnly) (teardownRun.take 11)).map EventLoop.tasks = some [0] ∧
      machine.Along SparesTasks (new mainOnly) (teardownRun.take 11) ∧
      machine.Always NoDanglingTask (new mainOnly) (teardownRun.take 11) := by
  have hspares : machine.Along SparesTasks (new mainOnly) (teardownRun.take 11) :=
    .of_checks (by decide +kernel)
  exact ⟨by decide +kernel, hspares, (noDanglingTask_iff mainOnly_ready _).mpr hspares⟩

theorem teardownRun_isSome : (machine.run (new mainOnly) teardownRun).isSome = true := by
  decide +kernel

theorem teardownRun_dangling :
    (∃ w, machine.run (new mainOnly) teardownRun = some w ∧ w.tasks = [0] ∧ w.sources 0 = none) ∧
      ¬ machine.Always NoDanglingTask (new mainOnly) teardownRun := by
  have htasks : ((machine.run (new mainOnly) teardownRun).get teardownRun_isSome).tasks = [0] := by
    decide +kernel
  have hnone : ((machine.run (new mainOnly) teardownRun).get teardownRun_isSome).sources 0 =
      none := by decide +kernel
  have hrun := (Option.some_get teardownRun_isSome).symm
  refine ⟨⟨_, hrun, htasks, hnone⟩, ?_⟩
  intro hall
  have h := hall.last hrun 0 (by rw [htasks]; exact List.mem_singleton.mpr rfl)
  rw [hnone] at h
  exact Bool.false_ne_true h

end EventLoop

end Eye
