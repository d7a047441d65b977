import Eye.Lib.Potential
import Eye.Rtsp.NoLostWakeup

/-!
# The event loop comes to rest

What happens once no more frames arrive and no client connects, stops or leaves: the workers finish
the `on_frame` calls they are in, the event thread runs its handlers and tasks, and the clients go
on asking for frames as they like. Every such run is finite, `work` bounds it, and where it cannot
go on, every source waits and its queue is empty (`delivered_at_rest`). So whatever was queued has
been delivered, or dropped for lack of room; nothing is stuck and nothing spins.

`work` is a potential. A NAL unit in a queue pays for its delivery and for the request that follows;
a source that is not being read pays for its next request; a pending trigger pays for a walk over
all sources, each of which may be given a task.
-/

namespace Eye

namespace EventLoop

/-- The actions that serve what is there already: new requests, tasks, handlers, and the further
steps of `on_frame`. -/
def Action.Serves : Action → Prop
  | .getNextFrame _ _ | .fire _ | .handleFrameTrigger | .resume | .onFrameStep _ => True
  | .stopGettingFrames _ | .createNew _ | .destroy _ | .onFrame _ => False

instance (a : Action) : Decidable a.Serves := by
  cases a <;> first | exact isTrue trivial | exact isFalse id

/-- None of these actions is enabled. -/
def AtRest (w : EventLoop) : Prop := ∀ a : Action, a.Serves → w.step a = none

/-! ## The potential -/

/-- How many sources the queue of a stream has. -/
def listeners (w : EventLoop) (t : StreamType) : ℕ :=
  match w.queue t with
  | none => 0
  | some q => q.activeSources.length

/-- How many NAL units the queue of a stream holds. -/
def queued (w : EventLoop) (t : StreamType) : ℕ :=
  match w.queue t with
  | none => 0
  | some q => q.nals.length

/-- A source that is not being read. -/
def unread : Option RtspStreamSource → ℕ
  | none => 0
  | some src => if src.isCurrentlyAwaitingData then 0 else 1

/-- What a walk over the queues of these streams costs, with the tasks that come of it. -/
def walkCost (w : EventLoop) (rest : List StreamType) : ℕ :=
  1 + (rest.map fun t => 1 + 4 * w.listeners t).sum

/-- What a pending trigger costs. -/
def triggerCost (w : EventLoop) : ℕ := 1 + w.walkCost StreamType.all

/-- What the trigger costs, if it is pending. -/
def pendingCost (w : EventLoop) : Bool → ℕ
  | true => w.triggerCost
  | false => 0

/-- What is left of a handler. -/
def handlerCost (w : EventLoop) : Handler → ℕ
  | .idle => 0
  | .delivering _ => 3
  | .emptied _ => 1
  | .popped _ _ => 5
  | .triggered rest => w.walkCost rest

/-- What is left of an `on_frame` call, given what its trigger costs. -/
def callCost (trigger : ℕ) : OnFrame → ℕ
  | .gathered _ nals => 3 + trigger + 5 * nals.length
  | .active _ nals => 2 + trigger + 5 * nals.length
  | .pushed _ | .skipped => 1 + trigger

/-- The NAL units in all queues. -/
def queuedCount (w : EventLoop) : ℕ := (StreamType.all.map w.queued).sum

/-- The sources that are not being read. -/
def unreadCount (w : EventLoop) : ℕ :=
  ((List.range w.nextSource).map fun s => unread (w.sources s)).sum

/-- An upper bound for the steps that are left. -/
def work (w : EventLoop) : ℕ :=
  5 * w.queuedCount + 4 * w.unreadCount + 4 * w.tasks.length +
    w.pendingCost w.trigger + w.handlerCost w.handler +
    (w.calls.map (callCost w.triggerCost)).sum

variable {w w' : EventLoop} {a : Action} {s : SourceId} {src src' : RtspStreamSource}
  {t : StreamType} {q q' : RtspFrameQueue RtspNalUnit}

theorem walkCost_lt_triggerCost {rest : List StreamType} (h : rest.Sublist StreamType.all) :
    w.walkCost rest < w.triggerCost := by
  have := (h.map fun t => 1 + 4 * w.listeners t).sum_le_sum (fun _ _ => Nat.zero_le _)
  unfold triggerCost walkCost
  omega

theorem unread_le_one (o : Option RtspStreamSource) : unread o ≤ 1 := by
  unfold unread
  split
  · exact Nat.zero_le _
  · split_ifs <;> omega

theorem unreadCount_update (hw : w.Wf) (hs : w.sources s = some src)
    (hsources : w'.sources = Function.update w.sources s (some src'))
    (hnext : w'.nextSource = w.nextSource) :
    w'.unreadCount + unread (some src) = w.unreadCount + unread (some src') := by
  have hmem : s ∈ List.range w.nextSource := by
    rw [List.mem_range]
    by_contra hge
    rw [hw.linked.fresh s (Nat.le_of_not_lt hge)] at hs
    cases hs
  have hupdate : (fun r => unread (w'.sources r)) =
      Function.update (fun r => unread (w.sources r)) s (unread (some src')) := by
    funext r
    rw [hsources, Function.update_apply, Function.update_apply]
    split_ifs <;> rfl
  unfold unreadCount
  rw [hnext, hupdate, ← hs]
  exact sum_map_update List.nodup_range hmem _ _

theorem queuedCount_mapQueue (hq : w.queue t = some q)
    (f : RtspFrameQueue RtspNalUnit → RtspFrameQueue RtspNalUnit) :
    (w.mapQueue t f).queuedCount + q.nals.length = w.queuedCount + (f q).nals.length := by
  have hupdate : (w.mapQueue t f).queued = Function.update w.queued t (f q).nals.length := by
    funext t'
    unfold queued
    rw [queue_mapQueue, Function.update_apply]
    split_ifs with ht
    · rw [hq]
      rfl
    · rfl
  have hqueued : w.queued t = q.nals.length := by
    unfold queued
    rw [hq]
  unfold queuedCount
  rw [hupdate, ← hqueued]
  exact sum_map_update (by decide) (StreamType.mem_all t) _ _

theorem listeners_mapQueue {f : RtspFrameQueue RtspNalUnit → RtspFrameQueue RtspNalUnit}
    (hf : ∀ q, w.queue t = some q → (f q).activeSources = q.activeSources) :
    (w.mapQueue t f).listeners = w.listeners := by
  funext t'
  unfold listeners
  rw [queue_mapQueue]
  split_ifs with ht
  · rw [ht]
    cases hq : w.queue t with
    | none => rfl
    | some q => exact congrArg List.length (hf q hq)
  · rfl

/-- The costs are the same, so it is enough to count. -/
theorem work_lt_of_count (hlisteners : w'.listeners = w.listeners)
    (h : 5 * w'.queuedCount + 4 * w'.unreadCount + 4 * w'.tasks.length +
      w.pendingCost w'.trigger + w.handlerCost w'.handler +
      (w'.calls.map (callCost w.triggerCost)).sum < w.work) : w'.work < w.work := by
  have hwalk : w'.walkCost = w.walkCost := by
    funext rest
    unfold walkCost
    rw [hlisteners]
  have htrigger : w'.triggerCost = w.triggerCost := by
    unfold triggerCost
    rw [hwalk]
  have hhandler : w'.handlerCost w'.handler = w.handlerCost w'.handler := by
    cases w'.handler with
    | triggered rest => exact congrFun hwalk rest
    | idle | delivering s | emptied s | popped s nal => rfl
  have hpending : w'.pendingCost w'.trigger = w.pendingCost w'.trigger := by
    cases w'.trigger with
    | true => exact htrigger
    | false => rfl
  unfold work at h ⊢
  rw [htrigger, hhandler, hpending]
  exact h

/-! ## Every step lowers it -/

theorem enterDeliverFrame_cases (w : EventLoop) (s : SourceId) (src : RtspStreamSource) :
    ∃ src' handler,
      w.enterDeliverFrame s src = { w.setSource s (some src') with handler := handler } ∧
      unread (some src') = unread (some src) ∧ (handler = .delivering s ∨ handler = w.handler) := by
  unfold enterDeliverFrame
  split_ifs
  · exact ⟨src, _, rfl, rfl, .inl rfl⟩
  · exact ⟨_, _, rfl, rfl, .inr rfl⟩

/-- `deliver_frame` begins for a source that is paid for: by a task, or by a request that is new. -/
theorem work_enterDeliverFrame_lt (hw : w.Wf) (hh : w.handler = .idle) (hs : w.sources s = some src)
    {tasks : List SourceId} {trace : SourceId → List Event}
    (hpaid : 4 * unread (some src') + 4 * tasks.length + 4 ≤
      4 * unread (some src) + 4 * w.tasks.length) :
    (({ w with tasks := tasks, trace := trace } : EventLoop).enterDeliverFrame s src').work <
      w.work := by
  obtain ⟨src₁, handler, heq, hunread, hhandler⟩ :=
    enterDeliverFrame_cases { w with tasks := tasks, trace := trace } s src'
  rw [heq]
  refine work_lt_of_count rfl ?_
  have hcount : unreadCount { ({ w with tasks := tasks, trace := trace } : EventLoop).setSource s
      (some src₁) with handler := handler } + unread (some src) =
      w.unreadCount + unread (some src₁) := unreadCount_update hw hs rfl rfl
  have hcost : w.handlerCost handler ≤ 3 := by
    rcases hhandler with rfl | rfl
    · exact Nat.le_refl 3
    · show w.handlerCost w.handler ≤ 3
      rw [hh]
      exact Nat.zero_le 3
  have hzero : w.handlerCost w.handler = 0 := by
    rw [hh]
    rfl
  have hqueued : queuedCount { ({ w with tasks := tasks, trace := trace } : EventLoop).setSource s
      (some src₁) with handler := handler } = w.queuedCount := rfl
  rw [hqueued]
  unfold work
  dsimp only [setSource] at hcount ⊢
  omega

theorem work_pop_lt (hw : w.Wf) (hh : w.handler = .delivering s)
    (hq : w.queue src.streamType = some q) : (w.pop s src q).work < w.work := by
  have hlisteners := listeners_mapQueue (w := w) (t := src.streamType)
    (f := fun _ => q.popNalUnit.2) fun q' hq' => by
      cases hq.symm.trans hq'
      exact RtspFrameQueue.popNalUnit_activeSources q
  have hcount := queuedCount_mapQueue hq fun _ => q.popNalUnit.2
  have hcost : w.handlerCost w.handler = 3 := by
    rw [hh]
    rfl
  unfold EventLoop.pop
  rcases RtspFrameQueue.nals_popNalUnit (hw.linked.wf _ q hq) with
    ⟨hnone, -, hsame⟩ | ⟨nal, hsome, hcons⟩
  · simp only [hnone]
    refine work_lt_of_count hlisteners ?_
    rw [hsame] at hcount ⊢
    show 5 * (w.mapQueue src.streamType fun _ => q).queuedCount + 4 * w.unreadCount +
      4 * w.tasks.length + w.pendingCost w.trigger + 1 +
      (w.calls.map (callCost w.triggerCost)).sum < w.work
    unfold work
    omega
  · simp only [hsome]
    refine work_lt_of_count hlisteners ?_
    show 5 * (w.mapQueue src.streamType fun _ => q.popNalUnit.2).queuedCount + 4 * w.unreadCount +
      4 * w.tasks.length + w.pendingCost w.trigger + 5 +
      (w.calls.map (callCost w.triggerCost)).sum < w.work
    rw [hcons, List.length_cons] at hcount
    unfold work
    omega

/-- The end of `deliver_frame`; the source may be read again. -/
theorem work_afterPop_lt (hw : w.Wf) (hs : w.sources s = some src)
    {trace : SourceId → List Event}
    (hpaid : 4 * unread (some src') < 4 * unread (some src) + w.handlerCost w.handler) :
    work { ({ w with trace := trace } : EventLoop).setSource s (some src') with handler := .idle } <
      w.work := by
  refine work_lt_of_count rfl ?_
  have hcount : unreadCount { ({ w with trace := trace } : EventLoop).setSource s (some src') with
      handler := .idle } + unread (some src) = w.unreadCount + unread (some src') :=
    unreadCount_update hw hs rfl rfl
  show 5 * w.queuedCount + 4 * unreadCount { ({ w with trace := trace } : EventLoop).setSource s
    (some src') with handler := .idle } + 4 * w.tasks.length + w.pendingCost w.trigger + 0 +
      (w.calls.map (callCost w.triggerCost)).sum < w.work
  unfold work
  omega

/-- The sources of one queue are notified, and each may get a task. -/
theorem work_notify_lt (hw : w.Wf) {rest : List StreamType}
    (hh : w.handler = .triggered (t :: rest)) :
    work { w.notifyActiveSources t with handler := .triggered rest } < w.work := by
  have hcost : w.handlerCost w.handler = w.walkCost rest + 1 + 4 * w.listeners t := by
    rw [hh]
    show w.walkCost (t :: rest) = _
    unfold walkCost
    rw [List.map_cons, List.sum_cons]
    omega
  cases hq : w.queue t with
  | none =>
    rw [notifyActiveSources_of_none hq]
    refine work_lt_of_count rfl ?_
    show 5 * w.queuedCount + 4 * w.unreadCount + 4 * w.tasks.length + w.pendingCost w.trigger +
      w.walkCost rest + (w.calls.map (callCost w.triggerCost)).sum < w.work
    unfold work
    omega
  | some q =>
    rw [notifyActiveSources_eq hw.linked hq]
    refine work_lt_of_count rfl ?_
    have hunread : ((List.range w.nextSource).map fun r =>
        unread ((w.sources r).map (quiet q.activeSources r))).sum = w.unreadCount := by
      unfold unreadCount
      congr 2
      funext r
      cases w.sources r with
      | none => rfl
      | some src =>
        show (if (quiet q.activeSources r src).isCurrentlyAwaitingData then 0 else 1) = _
        rw [quiet_isCurrentlyAwaitingData]
        rfl
    have hlisteners : w.listeners t = q.activeSources.length := by
      unfold listeners
      rw [hq]
    have hfilter := List.length_filter_le w.isAwaiting q.activeSources
    show 5 * w.queuedCount + 4 * ((List.range w.nextSource).map fun r =>
        unread ((w.sources r).map (quiet q.activeSources r))).sum +
      4 * (w.tasks ++ q.activeSources.filter w.isAwaiting).length + w.pendingCost w.trigger +
      w.walkCost rest + (w.calls.map (callCost w.triggerCost)).sum < w.work
    rw [hunread, List.length_append]
    unfold work
    omega

/-! ## The steps of `on_frame` -/

theorem work_call_lt {i : ℕ} {call call' : OnFrame} (hc : w.calls[i]? = some call)
    (hcost : callCost w.triggerCost call' < callCost w.triggerCost call) :
    work { w with calls := w.calls.set i call' } < w.work := by
  refine work_lt_of_count rfl ?_
  have hset := sum_map_set hc (callCost w.triggerCost) call'
  show 5 * w.queuedCount + 4 * w.unreadCount + 4 * w.tasks.length + w.pendingCost w.trigger +
    w.handlerCost w.handler + ((w.calls.set i call').map (callCost w.triggerCost)).sum < w.work
  unfold work
  omega

theorem work_push_lt (hw : w.Wf) {i : ℕ} {nals : RtspAccessUnit RtspNalUnit}
    (hc : w.calls[i]? = some (.active t nals)) :
    work { w.mapQueue t fun q => q.pushAccessUnit nals with calls := w.calls.set i (.pushed t) } <
      w.work := by
  have hlisteners := listeners_mapQueue (w := w) (t := t)
    (f := fun q => q.pushAccessUnit nals) fun q _ =>
      RtspFrameQueue.pushAccessUnit_activeSources q nals
  have hset := sum_map_set hc (callCost w.triggerCost) (.pushed t)
  have hqueued : (w.mapQueue t fun q => q.pushAccessUnit nals).queuedCount ≤
      w.queuedCount + nals.length := by
    cases hq : w.queue t with
    | none =>
      rw [mapQueue_of_none hq]
      omega
    | some q =>
      have hcount := queuedCount_mapQueue hq fun q => q.pushAccessUnit nals
      obtain ⟨kept, hkept, hnals⟩ := RtspFrameQueue.nals_pushAccessUnit (hw.linked.wf t q hq) nals
      have hle := hkept.length_le
      rw [hnals, List.length_append] at hcount
      omega
  refine work_lt_of_count hlisteners ?_
  show 5 * (w.mapQueue t fun q => q.pushAccessUnit nals).queuedCount + 4 * w.unreadCount +
    4 * w.tasks.length + w.pendingCost w.trigger + w.handlerCost w.handler +
    ((w.calls.set i (.pushed t)).map (callCost w.triggerCost)).sum < w.work
  unfold work
  unfold callCost at hset ⊢
  dsimp only at hset
  omega

theorem work_triggerEvent_lt {i : ℕ} {call : OnFrame} (hc : w.calls[i]? = some call)
    (trigger : Bool) :
    work { w with trigger := w.trigger || trigger, calls := w.calls.eraseIdx i } < w.work := by
  refine work_lt_of_count rfl ?_
  have herase := sum_map_eraseIdx hc (callCost w.triggerCost)
  have hcall : 1 + w.triggerCost ≤ callCost w.triggerCost call := by
    cases call with
    | gathered t nals | active t nals =>
      unfold callCost
      dsimp only
      omega
    | pushed t | skipped => exact Nat.le_refl _
  have hpending :
      w.pendingCost (w.trigger || trigger) ≤ w.pendingCost w.trigger + w.triggerCost := by
    cases w.trigger with
    | true => exact Nat.le_add_right _ _
    | false =>
      cases trigger with
      | true => exact Nat.le_add_left _ _
      | false => exact Nat.zero_le _
  show 5 * w.queuedCount + 4 * w.unreadCount + 4 * w.tasks.length +
    w.pendingCost (w.trigger || trigger) + w.handlerCost w.handler +
    ((w.calls.eraseIdx i).map (callCost w.triggerCost)).sum < w.work
  unfold work
  omega

/-! ## At rest -/

theorem work_lt (hw : w.Wf) (ha : a.Serves) (h : Step w a w') : w'.work < w.work := by
  cases h with
  | getNextFrame hh hs hread =>
    refine work_enterDeliverFrame_lt hw hh hs ?_
    unfold unread
    dsimp only [RtspStreamSource.getNextFrame, log]
    rw [hread, if_pos rfl, if_neg Bool.false_ne_true]
    omega
  | fire hh ht hs =>
    refine work_enterDeliverFrame_lt hw hh hs ?_
    have hpos := List.length_pos_of_mem ht
    rw [List.length_erase_of_mem ht]
    omega
  | handleFrameTrigger hh ht =>
    refine work_lt_of_count rfl ?_
    have hwalk : w.walkCost (StreamType.all.filter fun t => (w.queue t).isSome) < w.triggerCost :=
      walkCost_lt_triggerCost List.filter_sublist
    have hpending : w.pendingCost w.trigger = w.triggerCost := by
      rw [ht]
      rfl
    show 5 * w.queuedCount + 4 * w.unreadCount + 4 * w.tasks.length + 0 +
      w.walkCost (StreamType.all.filter fun t => (w.queue t).isSome) +
      (w.calls.map (callCost w.triggerCost)).sum < w.work
    unfold work
    omega
  | pop hh hs hq => exact work_pop_lt hw hh hq
  | keepWaiting hh hs =>
    refine work_afterPop_lt hw hs ?_
    rw [hh]
    exact Nat.lt_succ_self _
  | complete hh hs =>
    refine work_afterPop_lt hw hs ?_
    rw [hh]
    exact Nat.lt_of_le_of_lt (Nat.mul_le_mul_left 4 (unread_le_one _))
      (Nat.lt_add_left _ (Nat.lt_succ_self 4))
  | leave hh =>
    refine work_lt_of_count rfl ?_
    have hcost : w.handlerCost w.handler = 1 := by
      rw [hh]
      rfl
    show 5 * w.queuedCount + 4 * w.unreadCount + 4 * w.tasks.length + w.pendingCost w.trigger + 0 +
      (w.calls.map (callCost w.triggerCost)).sum < w.work
    unfold work
    omega
  | notify hh => exact work_notify_lt hw hh
  | @check i t nals q hc hq =>
    refine work_call_lt hc ?_
    split_ifs <;> unfold callCost <;> dsimp only <;> omega
  | push hc => exact work_push_lt hw hc
  | triggerEvent hc => exact work_triggerEvent_lt hc _
  | stopGettingFrames | createNew | destroy | onFrame => exact ha.elim

theorem AtRest.handler (hrest : w.AtRest) (hw : w.Wf) : w.handler = .idle := by
  have hnone : w.resume = none := hrest .resume trivial
  unfold resume at hnone
  cases hh : w.handler with
  | idle => rfl
  | delivering s =>
    obtain ⟨src, hs, -⟩ := hw.delivering s (by rw [hh]; rfl)
    obtain ⟨q, hq, -⟩ := hw.linked.registered s src hs
    have hq : w.queue src.streamType = some q := hq
    simp only [hh, hs, hq, Option.bind_some, Option.map_some, reduceCtorEq] at hnone
  | emptied s | popped s nal =>
    obtain ⟨src, hs, -⟩ := hw.delivering s (by rw [hh]; rfl)
    simp only [hh, hs, Option.map_some, reduceCtorEq] at hnone
  | triggered rest =>
    rw [hh] at hnone
    cases rest <;> cases hnone

theorem AtRest.delivered (hrest : w.AtRest) (hw : w.Wf) (hwatched : w.Watched)
    (hs : w.sources s = some src) :
    src.isCurrentlyAwaitingData = true ∧ ∀ q, w.queue src.streamType = some q → q.nals = [] := by
  have hidle := hrest.handler hw
  have hbegin : ∀ a : Action, a.Serves → (∀ i, a ≠ .onFrameStep i) → a ≠ .resume →
      w.beginHandler a = none := by
    intro a ha hcall hresume
    have hnone := hrest a ha
    cases a with
    | getNextFrame | fire | handleFrameTrigger =>
      simp only [EventLoop.step] at hnone
      rw [if_pos hidle] at hnone
      exact hnone
    | resume => exact absurd rfl hresume
    | onFrameStep i => exact absurd rfl (hcall i)
    | stopGettingFrames | createNew | destroy | onFrame => exact ha.elim
  have hread : src.isCurrentlyAwaitingData = true := by
    have hnone := hbegin (.getNextFrame s 0) trivial (by rintro _ ⟨⟩) (by rintro ⟨⟩)
    simp only [beginHandler] at hnone
    rw [hs, Option.bind_some] at hnone
    by_contra hread
    rw [if_neg hread] at hnone
    cases hnone
  refine ⟨hread, fun q hq => ?_⟩
  rw [RtspFrameQueue.nals_eq_nil (hw.linked.wf _ q hq)]
  by_contra hne
  rcases (hwatched s src hs hread).served q hq hne with (htask | htrigger | hcall) | hlooks
  · have hnone := hbegin (.fire s) trivial (by rintro _ ⟨⟩) (by rintro ⟨⟩)
    simp only [beginHandler] at hnone
    rw [if_pos htask, hs] at hnone
    cases hnone
  · have hnone := hbegin .handleFrameTrigger trivial (by rintro _ ⟨⟩) (by rintro ⟨⟩)
    simp only [beginHandler] at hnone
    rw [if_pos htrigger] at hnone
    cases hnone
  · obtain ⟨i, hi⟩ := List.mem_iff_getElem?.mp hcall
    have hnone : w.onFrameStep i = none := hrest (.onFrameStep i) trivial
    unfold onFrameStep at hnone
    rw [hi] at hnone
    cases hnone
  · rw [hidle] at hlooks
    exact hlooks

/-- **Delivery comes to an end.** From every reachable state, a run of actions that only serve what
is there takes at most `work` steps. Where none of them is left, every source that lives has an
outstanding request and there is nothing in its queue; and this is reached, whatever was done
first. -/
theorem delivered_at_rest (hw : machine.Reachable w) {as : List Action}
    (has : ∀ a ∈ as, a.Serves) (hrun : machine.run w as = some w') :
    as.length ≤ w.work ∧
      (w'.AtRest → ∀ s src, w'.sources s = some src → src.isCurrentlyAwaitingData = true ∧
        ∀ q, w'.queue src.streamType = some q → q.nals = []) ∧
      ∃ bs w'', (∀ a ∈ bs, a.Serves) ∧ machine.run w' bs = some w'' ∧ w''.AtRest := by
  have hstep : ∀ (w : EventLoop) a w', w.Wf → a.Serves → machine.step w a = some w' → w'.Wf :=
    fun _ _ _ hi _ h => hi.step (.of_step h)
  have hlower : ∀ (w : EventLoop) a w', w.Wf → a.Serves → machine.step w a = some w' →
      w'.work < w.work := fun _ _ _ hi ha h => work_lt hi ha (.of_step h)
  obtain ⟨hwf, hwatched⟩ := watched_of_reachable (hw.run hrun)
  refine ⟨?_, ?_, ?_⟩
  · have hlength :=
      Machine.length_add_potential_le (watched_of_reachable hw).1 hstep hlower has hrun
    omega
  · intro hrest s src hs
    exact hrest.delivered hwf hwatched hs
  · exact Machine.exists_run_stuck hwf hstep hlower

/-- The frame that `pushRun` pushes goes to the source, which asks for another one. -/
def serveRun : List Action :=
  [.onFrameStep 0, .handleFrameTrigger, .resume, .resume, .fire 0, .resume, .resume,
    .getNextFrame 0 1500, .resume, .resume]

theorem serveRun_isSome : (machine.run pushedMain serveRun).isSome = true := by decide +kernel

/-- The state in which the source waits for the next frame. -/
def servedMain : EventLoop := (machine.run pushedMain serveRun).get serveRun_isSome

theorem atRest_of_idle (hw : w.Wf) (hh : w.handler = .idle) (htasks : w.tasks = [])
    (htrigger : w.trigger = false) (hcalls : w.calls = [])
    (hread : ∀ s < w.nextSource, ∀ src ∈ w.sources s, src.isCurrentlyAwaitingData = true) :
    w.AtRest := by
  intro a ha
  cases a with
  | getNextFrame s maxSize =>
    show (if w.handler = .idle then w.beginHandler (.getNextFrame s maxSize) else none) = none
    rw [if_pos hh]
    simp only [beginHandler]
    cases hs : w.sources s with
    | none => rfl
    | some src =>
      have hlt : s < w.nextSource := by
        by_contra hge
        rw [hw.linked.fresh s (Nat.le_of_not_lt hge)] at hs
        cases hs
      rw [Option.bind_some, if_pos (hread s hlt src hs)]
  | fire s =>
    show (if w.handler = .idle then w.beginHandler (.fire s) else none) = none
    rw [if_pos hh]
    simp only [beginHandler]
    rw [htasks, if_neg List.not_mem_nil]
  | handleFrameTrigger =>
    show (if w.handler = .idle then w.beginHandler .handleFrameTrigger else none) = none
    rw [if_pos hh]
    simp only [beginHandler]
    rw [htrigger, if_neg Bool.false_ne_true]
  | resume =>
    show w.resume = none
    unfold resume
    rw [hh]
  | onFrameStep i =>
    show w.onFrameStep i = none
    unfold onFrameStep
    rw [hcalls, List.getElem?_nil]
  | stopGettingFrames | createNew | destroy | onFrame => exact ha.elim

/-- In that state nothing is left to do, and the queue is empty. -/
theorem delivered_at_rest_pushedMain :
    serveRun.length ≤ pushedMain.work ∧ servedMain.AtRest ∧
      ∃ src, servedMain.sources 0 = some src ∧ src.isCurrentlyAwaitingData = true ∧
        ∀ q, servedMain.queue src.streamType = some q → q.nals = [] := by
  have hreach : machine.Reachable pushedMain :=
    Machine.Reachable.run (.init ⟨_, mainOnly_ready, rfl⟩) (Option.some_get pushRun_isSome).symm
  have hrun : machine.run pushedMain serveRun = some servedMain :=
    (Option.some_get serveRun_isSome).symm
  have hwf := (watched_of_reachable (hreach.run hrun)).1
  have hrest : servedMain.AtRest :=
    atRest_of_idle hwf (by decide +kernel) (by decide +kernel) (by decide +kernel)
      (by decide +kernel) (by decide +kernel)
  obtain ⟨src, hs⟩ := Option.isSome_iff_exists.mp
    (show (servedMain.sources 0).isSome = true by decide +kernel)
  obtain ⟨hlength, hserved, -⟩ := delivered_at_rest hreach (by decide) hrun
  exact ⟨hlength, hrest, src, hs, hserved hrest 0 src hs⟩

end EventLoop

end Eye
