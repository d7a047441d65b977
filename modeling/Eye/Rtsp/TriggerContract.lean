import Eye.Rtsp.EventLoopWf

/-!
# live555's rule for `triggerEvent`

The header asks two things of the threads that call `triggerEvent`: one event trigger is used by one
thread only, and it is not used again until the event of the last call has been handled. `Respected`
says this of a history. `main` registers `on_frame` with the distributors of both streams, so that
two workers call it, and there is one event trigger for both.

`respected_iff`: a run respects the rule if the frames all belong to one stream and no worker comes
to `triggerEvent` while an event is outstanding, and, if it ends with no call in progress, only
then. For the second it is enough that each frame comes when no call is in progress and no event
outstanding.
-/

namespace Eye

/-- What happens to the frame event trigger: a worker, named by the stream it works for, calls
`triggerEvent`; `handle_frame_trigger` returns. -/
inductive TriggerEvent
  | called (worker : StreamType)
  | handled
  deriving DecidableEq

def TriggerEvent.worker? : TriggerEvent → Option StreamType
  | .called worker => some worker
  | .handled => none

/-- The rule. -/
structure Respected (h : List TriggerEvent) : Prop where
  oneThread : ∀ t t', .called t ∈ h → .called t' ∈ h → t = t'
  handledFirst : ∀ before between after t t',
    h = before ++ .called t :: (between ++ .called t' :: after) → .handled ∈ between

/-! ## Histories -/

variable {h : List TriggerEvent} {t t' : StreamType}

/-- Every call in it has been handled. -/
def AllHandled (h : List TriggerEvent) : Prop :=
  ∀ before after t, h = before ++ .called t :: after → .handled ∈ after

theorem allHandled_handled (h : List TriggerEvent) : AllHandled (h ++ [.handled]) := by
  intro before after t heq
  rcases List.eq_nil_or_concat after with rfl | ⟨after', e, rfl⟩
  · obtain ⟨-, he⟩ := List.append_inj' heq rfl
    cases he
  · rw [List.concat_eq_append, ← List.cons_append, ← List.append_assoc] at heq
    obtain ⟨-, he⟩ := List.append_inj' heq rfl
    rw [List.concat_eq_append, ← he]
    exact List.mem_append_right _ List.mem_cons_self

/-- One more event: it is the later of the two, or they were there before. -/
theorem split_concat {e x y : TriggerEvent} {before between after : List TriggerEvent}
    (heq : h ++ [e] = before ++ x :: (between ++ y :: after)) :
    (e = y ∧ h = before ++ x :: between) ∨
      ∃ after', h = before ++ x :: (between ++ y :: after') := by
  rcases List.eq_nil_or_concat after with rfl | ⟨after', e', rfl⟩
  · rw [← List.cons_append, ← List.append_assoc] at heq
    obtain ⟨hh, he⟩ := List.append_inj' heq rfl
    cases he
    exact .inl ⟨rfl, hh⟩
  · have hlast : before ++ x :: (between ++ y :: after'.concat e') =
        before ++ x :: (between ++ y :: after') ++ [e'] := by simp
    rw [hlast] at heq
    exact .inr ⟨after', (List.append_inj' heq rfl).1⟩

theorem respected_nil : Respected [] := by
  constructor
  · intro t t' ht
    cases ht
  · intro before between after t t' heq
    simp at heq

theorem Respected.handled (hr : Respected h) : Respected (h ++ [.handled]) := by
  constructor
  · intro t t' ht ht'
    exact hr.oneThread t t' (by simpa using ht) (by simpa using ht')
  · intro before between after t t' heq
    rcases split_concat heq with ⟨he, -⟩ | ⟨after', hh⟩
    · cases he
    · exact hr.handledFirst before between after' t t' hh

theorem Respected.called (hr : Respected h) (hs : AllHandled h)
    (ht : ∀ t', .called t' ∈ h → t' = t) : Respected (h ++ [.called t]) := by
  have hall : ∀ t', .called t' ∈ h ++ [.called t] → t' = t := by
    intro t' ht'
    rcases List.mem_append.mp ht' with ht' | ht'
    · exact ht t' ht'
    · simpa using ht'
  constructor
  · intro t₁ t₂ h₁ h₂
    rw [hall t₁ h₁, hall t₂ h₂]
  · intro before between after t₁ t₂ heq
    rcases split_concat heq with ⟨-, hh⟩ | ⟨after', hh⟩
    · exact hs before between t₁ hh
    · exact hr.handledFirst before between after' t₁ t₂ hh

theorem not_respected_twice (h : List TriggerEvent) (t t' : StreamType) :
    ¬ Respected (h ++ [.called t] ++ [.called t']) := by
  intro hr
  have := hr.handledFirst h [] [] t t' (by simp)
  cases this

/-! ## The system -/

/-- A call to `on_frame` that has only `triggerEvent` left. -/
def OnFrame.atTrigger : OnFrame → Bool
  | .pushed _ | .skipped => true
  | .gathered .. | .active .. => false

/-- `handle_frame_trigger` is running. -/
def Handler.handling : Handler → Bool
  | .triggered _ => true
  | .idle | .delivering _ | .emptied _ | .popped .. => false

/-- The event loop with the workers that `main` gives it: `callers` says whose worker is in each of
the calls in progress. -/
structure Wired where
  loop : EventLoop
  callers : List StreamType
  history : List TriggerEvent

namespace Wired

open EventLoop (Action)

def new (server : RtspServer) : Wired := ⟨.new server, [], []⟩

/-- The streams that `main` registers `on_frame` for. -/
def consumed : List StreamType := [.videoMain, .videoSub]

/-- A worker is in one call at a time. -/
def Enabled (w : Wired) : Action → Prop
  | .onFrame frame => frame.type ∈ consumed ∧ frame.type ∉ w.callers
  | _ => True

/-- The `i`-th call goes on to `triggerEvent`. -/
def triggers (w : Wired) (i : ℕ) : Bool := (w.loop.calls[i]?).any OnFrame.atTrigger

/-- Whose calls are in progress after a step. -/
def nextCallers (w : Wired) : Action → List StreamType
  | .onFrame frame =>
    if w.loop.server.running = false then w.callers else frame.type :: w.callers
  | .onFrameStep i => if w.triggers i then w.callers.eraseIdx i else w.callers
  | _ => w.callers

/-- What a step does to the frame event trigger. -/
def triggerEvents (w : Wired) : Action → List TriggerEvent
  | .onFrameStep i =>
    if w.triggers i && w.loop.server.scheduler then (w.callers[i]?).toList.map .called else []
  | .resume => if w.loop.handler = .triggered [] then [.handled] else []
  | _ => []

instance (w : Wired) (a : Action) : Decidable (w.Enabled a) :=
  match a with
  | .onFrame _ => inferInstanceAs (Decidable (_ ∧ _))
  | .getNextFrame .. | .stopGettingFrames _ | .createNew _ | .destroy _ | .fire _
  | .handleFrameTrigger | .resume | .onFrameStep _ => inferInstanceAs (Decidable True)

def step (w : Wired) (a : Action) : Option Wired :=
  if w.Enabled a then
    (w.loop.step a).map fun loop => ⟨loop, w.nextCallers a, w.history ++ w.triggerEvents a⟩
  else none

/-- All runs of the event thread and the two workers. -/
def machine : Machine Wired Action where
  init w := ∃ server : RtspServer, server.Ready ∧ w = new server
  step := step

/-- An event that has not been handled: it is pending, or its handler is running. -/
def Outstanding (w : Wired) : Prop := w.loop.trigger = true ∨ w.loop.handler.handling = true

instance (w : Wired) : Decidable w.Outstanding := inferInstanceAs (Decidable (_ ∨ _))

/-- The streams that `on_frame` has been given frames of. -/
def given (w : Wired) : List StreamType := w.callers ++ w.history.filterMap TriggerEvent.worker?

/-- The frames all belong to one stream, and a worker comes to `triggerEvent` when no event is
outstanding. -/
def InTurn (w : Wired) : Action → Prop
  | .onFrame frame => ∀ t ∈ w.given, t = frame.type
  | .onFrameStep i => w.triggers i = true → ¬ w.Outstanding
  | _ => True

/-- The frames all belong to one stream, and each comes when no call is in progress and no event
outstanding. -/
def GivenInTurn (w : Wired) : Action → Prop
  | .onFrame frame => (∀ t ∈ w.given, t = frame.type) ∧ w.callers = [] ∧ ¬ w.Outstanding
  | _ => True

instance (w : Wired) (a : Action) : Decidable (w.GivenInTurn a) :=
  match a with
  | .onFrame _ => inferInstanceAs (Decidable (_ ∧ _ ∧ _))
  | .getNextFrame .. | .stopGettingFrames _ | .createNew _ | .destroy _ | .fire _
  | .handleFrameTrigger | .resume | .onFrameStep _ => inferInstanceAs (Decidable True)

instance (w : Wired) (a : Action) : Decidable (w.InTurn a) :=
  match a with
  | .onFrame _ => inferInstanceAs (Decidable (∀ _ ∈ _, _))
  | .onFrameStep _ => inferInstanceAs (Decidable (_ → _))
  | .getNextFrame .. | .stopGettingFrames _ | .createNew _ | .destroy _ | .fire _
  | .handleFrameTrigger | .resume => inferInstanceAs (Decidable True)

end Wired

/-! ## The event loop and its trigger -/

namespace EventLoop

variable {w w' : EventLoop} {a : Action}

theorem foldl_notify_frame (l : List SourceId) (w : EventLoop) :
    (l.foldl notify w).server = w.server ∧ (l.foldl notify w).trigger = w.trigger ∧
      (l.foldl notify w).calls = w.calls := by
  induction l generalizing w with
  | nil => exact ⟨rfl, rfl, rfl⟩
  | cons s l ih =>
    obtain ⟨h1, h2, h3⟩ := ih (w.notify s)
    rw [List.foldl_cons, h1, h2, h3]
    unfold notify
    cases w.sources s with
    | none => exact ⟨rfl, rfl, rfl⟩
    | some src => exact ⟨rfl, rfl, rfl⟩

theorem notifyActiveSources_frame (w : EventLoop) (t : StreamType) :
    (w.notifyActiveSources t).server = w.server ∧
      (w.notifyActiveSources t).trigger = w.trigger ∧
        (w.notifyActiveSources t).calls = w.calls := by
  unfold notifyActiveSources
  cases w.queue t with
  | none => exact ⟨rfl, rfl, rfl⟩
  | some q => exact foldl_notify_frame q.activeSources w

/-- What a step does to the trigger: `triggerEvent` sets it, `handle_frame_trigger` begins, it
returns, or nothing. -/
inductive TriggerStep (w w' : EventLoop) : Action → Prop
  | triggerEvent {i : ℕ} {call : OnFrame} : w.calls[i]? = some call → call.atTrigger = true →
      w'.trigger = (w.trigger || w.server.scheduler) → w'.handler = w.handler →
      TriggerStep w w' (.onFrameStep i)
  | handleFrameTrigger : w.handler = .idle → w.trigger = true → w'.trigger = false →
      w'.handler.handling = true → TriggerStep w w' .handleFrameTrigger
  | leave : w.handler = .triggered [] → w'.trigger = w.trigger → w'.handler = .idle →
      TriggerStep w w' .resume
  | bystander {a : Action} : (a = .resume → w.handler ≠ .triggered []) →
      (∀ i, a = .onFrameStep i → (w.calls[i]?).any OnFrame.atTrigger = false) →
      w'.trigger = w.trigger → w'.handler.handling = w.handler.handling → TriggerStep w w' a

theorem enterDeliverFrame_frame (w : EventLoop) (s : SourceId) (src : RtspStreamSource) :
    (w.enterDeliverFrame s src).server = w.server ∧
      (w.enterDeliverFrame s src).trigger = w.trigger ∧
        (w.enterDeliverFrame s src).calls = w.calls ∧
          (w.handler.handling = false → (w.enterDeliverFrame s src).handler.handling = false) := by
  unfold enterDeliverFrame
  split_ifs
  · exact ⟨rfl, rfl, rfl, fun _ => rfl⟩
  · exact ⟨rfl, rfl, rfl, id⟩

theorem Step.triggerStep (h : Step w a w') : TriggerStep w w' a := by
  cases h with
  | getNextFrame hh hs _ | fire hh _ hs =>
    refine .bystander (fun h => nomatch h) (fun _ h => nomatch h)
      (enterDeliverFrame_frame ..).2.1 ?_
    rw [hh]
    exact (enterDeliverFrame_frame ..).2.2.2 (by show w.handler.handling = false; rw [hh]; rfl)
  | stopGettingFrames | createNew | destroy =>
    exact .bystander (fun h => nomatch h) (fun _ h => nomatch h) rfl rfl
  | handleFrameTrigger hh ht => exact .handleFrameTrigger hh ht rfl rfl
  | @pop s src q hh _ _ =>
    refine .bystander (fun _ => by simp [hh]) (fun _ h => nomatch h) ?_ ?_
    · unfold EventLoop.pop
      cases q.popNalUnit.1 <;> rfl
    · unfold EventLoop.pop
      rw [hh]
      cases q.popNalUnit.1 <;> rfl
  | keepWaiting hh | complete hh =>
    refine .bystander (fun _ => by simp [hh]) (fun _ h => nomatch h) rfl ?_
    rw [hh]
    rfl
  | leave hh => exact .leave hh rfl rfl
  | @notify t rest hh =>
    refine .bystander (fun _ => by simp [hh]) (fun _ h => nomatch h)
      (notifyActiveSources_frame w t).2.1 ?_
    rw [hh]
    rfl
  | onFrame frame =>
    refine .bystander (fun h => nomatch h) (fun _ h => nomatch h) ?_ ?_
    · unfold EventLoop.onFrame
      split_ifs
      · rfl
      · split <;> rfl
    · unfold EventLoop.onFrame
      split_ifs
      · rfl
      · split <;> rfl
  | check hc _ | push hc =>
    refine .bystander (fun h => nomatch h) ?_ rfl rfl
    intro i hi
    cases hi
    rw [hc]
    rfl
  | triggerEvent hc hg ha =>
    refine .triggerEvent hc ?_ rfl rfl
    rename_i call
    cases call with
    | gathered t nals => exact absurd rfl (hg t nals)
    | active t nals => exact absurd rfl (ha t nals)
    | pushed | skipped => rfl

theorem Step.server_flags (h : Step w a w') :
    w'.server.running = w.server.running ∧ w'.server.scheduler = w.server.scheduler := by
  cases h with
  | @getNextFrame s maxSize src =>
    have hserver : (w.getNextFrame s src maxSize).server = w.server :=
      (enterDeliverFrame_frame ..).1
    rw [hserver]
    exact ⟨rfl, rfl⟩
  | @fire s src =>
    have hserver : (w.fire s src).server = w.server := (enterDeliverFrame_frame ..).1
    rw [hserver]
    exact ⟨rfl, rfl⟩
  | pop =>
    unfold EventLoop.pop
    split <;> exact ⟨rfl, rfl⟩
  | notify =>
    dsimp only
    rw [(notifyActiveSources_frame ..).1]
    exact ⟨rfl, rfl⟩
  | onFrame =>
    unfold EventLoop.onFrame
    split_ifs
    · exact ⟨rfl, rfl⟩
    · split <;> exact ⟨rfl, rfl⟩
  | stopGettingFrames | createNew | destroy | handleFrameTrigger | keepWaiting | complete | leave
  | check | push | triggerEvent => exact ⟨rfl, rfl⟩

/-- How many calls are in progress after a step. -/
def callsAfter (w : EventLoop) : Action → ℕ
  | .onFrame _ => if w.server.running = false then w.calls.length else w.calls.length + 1
  | .onFrameStep i =>
    if (w.calls[i]?).any OnFrame.atTrigger then w.calls.length - 1 else w.calls.length
  | _ => w.calls.length

theorem callsAfter_onFrameStep {i : ℕ} {call : OnFrame} (hc : w.calls[i]? = some call) :
    w.callsAfter (.onFrameStep i) =
      if call.atTrigger then w.calls.length - 1 else w.calls.length := by
  unfold callsAfter
  simp only [hc, Option.any_some]

theorem Step.length_calls (h : Step w a w') : w'.calls.length = w.callsAfter a := by
  cases h with
  | @getNextFrame s maxSize src =>
    exact congrArg List.length (enterDeliverFrame_frame ..).2.2.1
  | @fire s src =>
    exact congrArg List.length (enterDeliverFrame_frame ..).2.2.1
  | @pop s src q =>
    show (w.pop s src q).calls.length = w.calls.length
    unfold EventLoop.pop
    cases q.popNalUnit.1 <;> rfl
  | notify =>
    exact congrArg List.length (notifyActiveSources_frame ..).2.2
  | onFrame frame =>
    unfold EventLoop.onFrame callsAfter
    dsimp only
    split_ifs
    · rfl
    · split <;> rfl
  | check hc | push hc =>
    rw [callsAfter_onFrameStep hc]
    exact List.length_set
  | @triggerEvent i call hc hg ha =>
    have hat : call.atTrigger = true := by
      cases call with
      | gathered t nals => exact absurd rfl (hg t nals)
      | active t nals => exact absurd rfl (ha t nals)
      | pushed | skipped => rfl
    rw [callsAfter_onFrameStep hc, if_pos hat]
    exact List.length_eraseIdx_of_lt (List.getElem?_eq_some_iff.mp hc).1
  | stopGettingFrames | createNew | destroy | handleFrameTrigger | keepWaiting | complete | leave =>
    rfl

end EventLoop

/-! ## Two workers -/

namespace Wired

open EventLoop (Action)

variable {w w' : Wired} {a : Action} {server : RtspServer} {t : StreamType}

theorem step_spec (h : w.step a = some w') :
    w.Enabled a ∧ w.loop.step a = some w'.loop ∧ w'.callers = w.nextCallers a ∧
      w'.history = w.history ++ w.triggerEvents a := by
  unfold step at h
  split_ifs at h with he
  obtain ⟨loop, hl, rfl⟩ := Option.map_eq_some_iff.mp h
  exact ⟨he, hl, rfl, rfl⟩

/-- The event loop of the two workers runs as one with any workers does. -/
theorem reachable_loop (h : machine.Reachable w) : EventLoop.machine.Reachable w.loop := by
  induction h with
  | init h =>
    obtain ⟨server, hs, rfl⟩ := h
    exact .init ⟨server, hs, rfl⟩
  | step a _ hstep ih => exact .step a ih (step_spec hstep).2.1

/-- What every step keeps. -/
structure Inv (w : Wired) : Prop where
  running : w.loop.server.running = true
  scheduler : w.loop.server.scheduler = true
  length : w.callers.length = w.loop.calls.length

theorem inv_new (hs : server.Ready) : (new server).Inv := ⟨hs.running, hs.scheduler, rfl⟩

theorem Inv.caller (hi : w.Inv) {i : ℕ} (ht : w.triggers i = true) :
    ∃ t, w.callers[i]? = some t ∧ w.nextCallers (.onFrameStep i) = w.callers.eraseIdx i ∧
      w.triggerEvents (.onFrameStep i) = [.called t] := by
  have hlt : i < w.callers.length := by
    rw [hi.length]
    by_contra hge
    unfold triggers at ht
    rw [List.getElem?_eq_none (by omega)] at ht
    cases ht
  refine ⟨w.callers[i], List.getElem?_eq_getElem hlt, if_pos ht, ?_⟩
  unfold triggerEvents
  simp [ht, hi.scheduler, hlt]

theorem Inv.step (hi : w.Inv) (h : w.step a = some w') : w'.Inv := by
  obtain ⟨-, hl, hcallers, -⟩ := step_spec h
  have hstep := EventLoop.Step.of_step hl
  obtain ⟨hrun, hsched⟩ := hstep.server_flags
  refine ⟨hrun.trans hi.running, hsched.trans hi.scheduler, ?_⟩
  rw [hcallers, hstep.length_calls]
  cases a with
  | onFrame frame =>
    unfold nextCallers EventLoop.callsAfter
    dsimp only
    split_ifs
    · exact hi.length
    · exact congrArg (· + 1) hi.length
  | onFrameStep i =>
    by_cases ht : w.triggers i = true
    · obtain ⟨t, hget, hcallers, -⟩ := hi.caller ht
      rw [hcallers, List.length_eraseIdx_of_lt (List.getElem?_eq_some_iff.mp hget).1, hi.length]
      exact (if_pos ht).symm
    · unfold nextCallers EventLoop.callsAfter
      dsimp only
      rw [if_neg ht, hi.length]
      exact (if_neg ht).symm
  | getNextFrame | stopGettingFrames | createNew | destroy | fire | handleFrameTrigger | resume =>
    exact hi.length

theorem mem_given : t ∈ w.given ↔ t ∈ w.callers ∨ .called t ∈ w.history := by
  unfold given
  rw [List.mem_append, List.mem_filterMap]
  apply or_congr_right
  constructor
  · rintro ⟨e, he, ht⟩
    cases e with
    | called worker =>
      cases ht
      exact he
    | handled => cases ht
  · intro h
    exact ⟨_, h, rfl⟩

/-- What a step does to the calls, to the trigger and to the history. -/
inductive Effect (w w' : Wired) : Action → Prop
  | enter (frame : StreamFrame) : w'.callers = frame.type :: w.callers →
      w'.history = w.history → w'.loop.trigger = w.loop.trigger →
      w'.loop.handler.handling = w.loop.handler.handling → Effect w w' (.onFrame frame)
  | trigger {i : ℕ} {t : StreamType} : w.triggers i = true → w.callers[i]? = some t →
      w'.callers = w.callers.eraseIdx i → w'.history = w.history ++ [.called t] →
      w'.loop.trigger = true → w'.loop.handler.handling = w.loop.handler.handling →
      Effect w w' (.onFrameStep i)
  | handle : w'.callers = w.callers → w'.history = w.history → w.loop.trigger = true →
      w'.loop.trigger = false → w'.loop.handler.handling = true → Effect w w' .handleFrameTrigger
  | leave : w'.callers = w.callers → w'.history = w.history ++ [.handled] →
      w'.loop.trigger = w.loop.trigger → w.loop.handler.handling = true →
      w'.loop.handler.handling = false → Effect w w' .resume
  | other {a : Action} : (∀ frame, a ≠ .onFrame frame) →
      (∀ i, a = .onFrameStep i → w.triggers i = false) → w'.callers = w.callers →
      w'.history = w.history → w'.loop.trigger = w.loop.trigger →
      w'.loop.handler.handling = w.loop.handler.handling → Effect w w' a

theorem Inv.effect (hi : w.Inv) (h : w.step a = some w') : Effect w w' a := by
  obtain ⟨-, hl, hcallers, hhist⟩ := step_spec h
  cases (EventLoop.Step.of_step hl).triggerStep with
  | @triggerEvent i call hc hat htrig hhandler =>
    have ht : w.triggers i = true := by
      unfold triggers
      rw [hc]
      exact hat
    obtain ⟨t, hget, hnext, hevents⟩ := hi.caller ht
    refine .trigger ht hget (hcallers.trans hnext) (hhist.trans (by rw [hevents])) ?_
      (congrArg Handler.handling hhandler)
    rw [htrig, hi.scheduler, Bool.or_true]
  | handleFrameTrigger _ ht ht' hh' =>
    exact .handle hcallers (hhist.trans (List.append_nil _)) ht ht' hh'
  | leave hh htrig hh' =>
    have hevents : w.triggerEvents .resume = [.handled] := if_pos hh
    refine .leave hcallers (hhist.trans (by rw [hevents])) htrig ?_ ?_
    · rw [hh]
      rfl
    · rw [hh']
      rfl
  | bystander hresume hstep htrig hhandling =>
    cases a with
    | onFrame frame =>
      have hnext : w.nextCallers (.onFrame frame) = frame.type :: w.callers :=
        if_neg (by simp [hi.running])
      exact .enter frame (hcallers.trans hnext) (hhist.trans (List.append_nil _)) htrig hhandling
    | onFrameStep i =>
      have ht : w.triggers i = false := hstep i rfl
      have hnext : w.nextCallers (.onFrameStep i) = w.callers := if_neg (by simp [ht])
      have hevents : w.triggerEvents (.onFrameStep i) = [] := if_neg (by simp [ht])
      refine .other (fun _ h => nomatch h) ?_ (hcallers.trans hnext) ?_ htrig hhandling
      · rintro _ ⟨⟩
        exact ht
      · rw [hhist, hevents, List.append_nil]
    | resume =>
      have hevents : w.triggerEvents .resume = [] := if_neg (hresume rfl)
      refine .other (fun _ h => nomatch h) (fun _ h => nomatch h) hcallers ?_ htrig hhandling
      rw [hhist, hevents, List.append_nil]
    | getNextFrame | stopGettingFrames | createNew | destroy | fire | handleFrameTrigger =>
      exact .other (fun _ h => nomatch h) (fun _ h => nomatch h) hcallers
        (hhist.trans (List.append_nil _)) htrig hhandling

theorem Inv.given_mono (hi : w.Inv) (h : w.step a = some w') (ht : t ∈ w.given) :
    t ∈ w'.given := by
  rw [mem_given] at ht ⊢
  cases hi.effect h with
  | enter frame hc hh =>
    rw [hc, hh]
    exact ht.imp_left (List.mem_cons_of_mem _)
  | @trigger i t' _ hget hc hh =>
    rw [hc, hh]
    rcases ht with ht | ht
    · by_cases heq : t' = t
      · right
        rw [heq]
        exact List.mem_append_right _ List.mem_cons_self
      · exact .inl (mem_calls_eraseIdx hget heq ht)
    · exact .inr (List.mem_append_left _ ht)
  | leave hc hh =>
    rw [hc, hh]
    exact ht.imp_right (List.mem_append_left _)
  | handle hc hh | other _ _ hc hh =>
    rw [hc, hh]
    exact ht

theorem Inv.given_cases (hi : w.Inv) (h : w.step a = some w') (ht : t ∈ w'.given) :
    t ∈ w.given ∨ ∃ frame, a = .onFrame frame ∧ t = frame.type := by
  rw [mem_given] at ht ⊢
  cases hi.effect h with
  | enter frame hc hh =>
    rw [hc, hh] at ht
    rcases ht with ht | ht
    · rcases List.mem_cons.mp ht with rfl | ht
      · exact .inr ⟨frame, rfl, rfl⟩
      · exact .inl (.inl ht)
    · exact .inl (.inr ht)
  | trigger _ hget hc hh =>
    rw [hc, hh] at ht
    left
    rcases ht with ht | ht
    · exact .inl (List.mem_of_mem_eraseIdx ht)
    · rcases List.mem_append.mp ht with ht | ht
      · exact .inr ht
      · cases List.mem_singleton.mp ht
        exact .inl (List.mem_of_getElem? hget)
  | leave hc hh =>
    rw [hc, hh] at ht
    exact .inl (ht.imp_right fun ht => by simpa using ht)
  | handle hc hh | other _ _ hc hh =>
    rw [hc, hh] at ht
    exact .inl ht

/-! ## Runs in turn -/

/-- The invariant of the runs that respect the rule. -/
structure Orderly (w : Wired) : Prop extends Inv w where
  respected : Respected w.history
  one : ∀ t ∈ w.given, ∀ t' ∈ w.given, t = t'
  settled : ¬ w.Outstanding → AllHandled w.history
  unsettled : w.Outstanding → ∃ h t, w.history = h ++ [.called t]
  exclusive : w.loop.trigger = true → w.loop.handler.handling = false

theorem orderly_new (hs : server.Ready) : (new server).Orderly where
  toInv := inv_new hs
  respected := respected_nil
  one t ht := nomatch ht
  settled _ before after t h := by
    simp [new] at h
  unsettled h := by
    rcases h with h | h <;> cases h
  exclusive h := nomatch h

theorem Orderly.one_step (ho : w.Orderly) (hc : w.InTurn a) (h : w.step a = some w') :
    ∀ t ∈ w'.given, ∀ t' ∈ w'.given, t = t' := by
  intro t ht t' ht'
  rcases ho.given_cases h ht with ht | ⟨frame, rfl, rfl⟩
  · rcases ho.given_cases h ht' with ht' | ⟨frame, rfl, rfl⟩
    · exact ho.one t ht t' ht'
    · exact hc t ht
  · rcases ho.given_cases h ht' with ht' | ⟨frame', he, rfl⟩
    · exact (hc t' ht').symm
    · cases he
      rfl

theorem Orderly.step (ho : w.Orderly) (hc : w.InTurn a) (h : w.step a = some w') :
    w'.Orderly := by
  have hone := ho.one_step hc h
  have hi := ho.toInv.step h
  cases ho.effect h with
  | enter _ _ hh htrig hhandling | other _ _ _ hh htrig hhandling =>
    have hout : w'.Outstanding ↔ w.Outstanding := by
      unfold Outstanding
      rw [htrig, hhandling]
    refine ⟨hi, hh ▸ ho.respected, hone, ?_, ?_, ?_⟩
    · rw [hout, hh]
      exact ho.settled
    · rw [hout, hh]
      exact ho.unsettled
    · rw [htrig, hhandling]
      exact ho.exclusive
  | @trigger i t ht hget _ hh htrig hhandling =>
    have hnot := hc ht
    refine ⟨hi, ?_, hone, ?_, ?_, ?_⟩
    · rw [hh]
      apply ho.respected.called (ho.settled hnot)
      intro t' ht'
      apply ho.one
      · exact mem_given.mpr (.inr ht')
      · exact mem_given.mpr (.inl (List.mem_of_getElem? hget))
    · intro hout
      exact absurd (.inl htrig) hout
    · intro _
      exact ⟨_, t, hh⟩
    · intro _
      rw [hhandling]
      by_contra hhand
      exact hnot (.inr (by simpa using hhand))
  | handle _ hh ht ht' hh' =>
    refine ⟨hi, hh ▸ ho.respected, hone, ?_, ?_, ?_⟩
    · intro hout
      exact absurd (.inr hh') hout
    · intro _
      rw [hh]
      exact ho.unsettled (.inl ht)
    · rw [ht']
      intro h
      cases h
  | leave _ hh htrig hhand hhand' =>
    refine ⟨hi, hh ▸ ho.respected.handled, hone, ?_, ?_, ?_⟩
    · intro _
      rw [hh]
      exact allHandled_handled _
    · -- the handler ran, so nothing else was pending
      rintro (ht | ht)
      · rw [htrig] at ht
        have := ho.exclusive ht
        rw [hhand] at this
        cases this
      · rw [hhand'] at ht
        cases ht
    · intro _
      exact hhand'

/-- One call is in progress at most, and no event is outstanding until it triggers. -/
structure OneCall (w : Wired) : Prop where
  inv : w.Inv
  length_le : w.callers.length ≤ 1
  quiet : w.callers ≠ [] → ¬ w.Outstanding

theorem OneCall.step (ho : w.OneCall) (hc : w.GivenInTurn a) (h : w.step a = some w') :
    w'.OneCall := by
  have hi := ho.inv.step h
  have hle := ho.length_le
  cases ho.inv.effect h with
  | enter frame hcallers _ htrig hhandling =>
    obtain ⟨-, hnone, hquiet⟩ := hc
    refine ⟨hi, by rw [hcallers, hnone]; exact Nat.le_refl 1, fun _ => ?_⟩
    unfold Outstanding
    rw [htrig, hhandling]
    exact hquiet
  | trigger _ hget hcallers =>
    have hlt := (List.getElem?_eq_some_iff.mp hget).1
    have hlength : w'.callers.length = w.callers.length - 1 := by
      rw [hcallers, List.length_eraseIdx_of_lt hlt]
    refine ⟨hi, by omega, fun hne => ?_⟩
    exact absurd (List.length_eq_zero_iff.mp (by omega)) hne
  | handle hcallers _ htrig =>
    rw [← hcallers] at hle
    exact ⟨hi, hle, fun hne => absurd (.inl htrig) (ho.quiet (hcallers ▸ hne))⟩
  | leave hcallers _ _ hhand =>
    rw [← hcallers] at hle
    exact ⟨hi, hle, fun hne => absurd (.inr hhand) (ho.quiet (hcallers ▸ hne))⟩
  | other _ _ hcallers _ htrig hhandling =>
    rw [← hcallers] at hle
    refine ⟨hi, hle, fun hne => ?_⟩
    unfold Outstanding
    rw [htrig, hhandling]
    exact ho.quiet (hcallers ▸ hne)

/-- The call that comes to `triggerEvent` is the one in progress. -/
theorem OneCall.inTurn (ho : w.OneCall) (hc : w.GivenInTurn a) : w.InTurn a := by
  cases a with
  | onFrame frame => exact hc.1
  | onFrameStep i =>
    intro ht
    obtain ⟨t, hget, -⟩ := ho.inv.caller ht
    exact ho.quiet (List.ne_nil_of_mem (List.mem_of_getElem? hget))
  | getNextFrame | stopGettingFrames | createNew | destroy | fire | handleFrameTrigger
  | resume => exact trivial

/-! ## Out of turn -/

/-- `on_frame` has been given frames of two streams. -/
structure TwoStreams (w : Wired) : Prop where
  inv : w.Inv
  two : ∃ t ∈ w.given, ∃ t' ∈ w.given, t ≠ t'

theorem TwoStreams.step (hd : w.TwoStreams) (h : w.step a = some w') : w'.TwoStreams := by
  obtain ⟨t, ht, t', ht', hne⟩ := hd.two
  exact ⟨hd.inv.step h, t, hd.inv.given_mono h ht, t', hd.inv.given_mono h ht', hne⟩

/-- When all calls have returned, both workers have called `triggerEvent`. -/
theorem TwoStreams.not_respected (hd : w.TwoStreams) (hcalls : w.loop.calls = []) :
    ¬ Respected w.history := by
  intro hr
  have hempty : w.callers = [] := by
    apply List.length_eq_zero_iff.mp
    rw [hd.inv.length, hcalls]
    rfl
  have hcalled : ∀ t ∈ w.given, .called t ∈ w.history := by
    intro t ht
    rw [mem_given, hempty] at ht
    simpa using ht
  obtain ⟨t, ht, t', ht', hne⟩ := hd.two
  exact hne (hr.oneThread t t' (hcalled t ht) (hcalled t' ht'))

theorem Orderly.out_of_turn (ho : w.Orderly) (hc : ¬ w.InTurn a) (h : w.step a = some w')
    (hr : Respected w'.history) : w'.TwoStreams := by
  cases a with
  | onFrame frame =>
    unfold InTurn at hc
    push Not at hc
    obtain ⟨t, ht, hne⟩ := hc
    refine ⟨ho.toInv.step h, t, ho.given_mono h ht, frame.type, ?_, hne⟩
    rw [mem_given]
    cases ho.effect h with
    | enter _ hcallers =>
      rw [hcallers]
      exact .inl List.mem_cons_self
    | other hf => exact absurd rfl (hf frame)
  | onFrameStep i =>
    unfold InTurn at hc
    rw [Classical.not_imp, Classical.not_not] at hc
    obtain ⟨ht, hout⟩ := hc
    obtain ⟨h', t, hlast⟩ := ho.unsettled hout
    cases ho.effect h with
    | @trigger i t' _ _ _ hh =>
      rw [hh, hlast] at hr
      exact absurd hr (not_respected_twice h' t t')
    | other _ hi =>
      rw [hi i rfl] at ht
      cases ht
  | getNextFrame | stopGettingFrames | createNew | destroy | fire | handleFrameTrigger
  | resume => exact absurd trivial hc

/-- **The rule for `triggerEvent`.** In every run of the two workers and the event thread: if the
frames all belong to one stream and `triggerEvent` is only reached when no event is outstanding, the
rule is respected throughout; and in a run that ends with no call in progress, only then. It is
respected if each frame comes when no call is in progress and no event outstanding. -/
theorem respected_iff (hs : server.Ready) (as : List Action) :
    (machine.Along InTurn (new server) as →
        machine.Always (fun w => Respected w.history) (new server) as) ∧
      (∀ w, machine.run (new server) as = some w → w.loop.calls = [] →
        machine.Always (fun w => Respected w.history) (new server) as →
          machine.Along InTurn (new server) as) ∧
      (machine.Along GivenInTurn (new server) as →
        machine.Always (fun w => Respected w.history) (new server) as) := by
  have hrespected : machine.Along InTurn (new server) as →
      machine.Always (fun w => Respected w.history) (new server) as := fun h =>
    h.always (orderly_new hs) (fun _ _ _ ho hc hs => ho.step hc hs) fun _ ho => ho.respected
  refine ⟨hrespected, ?_, ?_⟩
  · intro w hrun hcalls halways
    exact Machine.along_of_always halways (orderly_new hs) (fun _ _ _ ho hc hs => ho.step hc hs)
      (fun _ _ _ ho hc hs hr => ho.out_of_turn hc hs hr) (fun _ _ _ hd hs _ => hd.step hs) hrun
      fun hd => hd.not_respected hcalls (halways.last hrun)
  · intro h
    have hstart : (new server).OneCall := ⟨inv_new hs, Nat.zero_le 1, fun hne => absurd rfl hne⟩
    exact hrespected (h.imp hstart (fun _ _ _ ho hc hs => ho.step hc hs)
      fun _ _ _ ho hc _ => ho.inTurn hc)

/-- The server with the two streams of `main`. -/
def mainAndSub : RtspServer :=
  (((LiveServer.new.start 8554 .started).addStream .videoMain "main" true).2.addStream .videoSub
    "sub" true).2.server

theorem mainAndSub_ready : mainAndSub.Ready := by
  have h0 : LiveServer.machine.Reachable LiveServer.new := .init rfl
  exact LiveServer.ready (((h0.step (.start 8554 .started) rfl).step
    (.addStream .videoMain "main" true) rfl).step (.addStream .videoSub "sub" true) rfl) rfl

/-- A whole call of `on_frame` that nobody interrupts, with a frame of the main stream, or the sub
stream. -/
def mainCall : List Action :=
  [.onFrame (RtspServer.onePack .videoMain .h265 40 0x40 0x01), .onFrameStep 0, .onFrameStep 0]

def subCall : List Action :=
  [.onFrame (RtspServer.onePack .videoSub .h264 41 0x41 0x9a), .onFrameStep 0, .onFrameStep 0]

/-- The event loop handles the event. -/
def handling : List Action := [.handleFrameTrigger, .resume, .resume, .resume]

/-- One worker after the other, the event handled in between; and two frames of one worker, the
second before the event of the first has been handled. -/
theorem respected_broken :
    (∃ w, machine.run (new mainAndSub) (mainCall ++ handling ++ subCall) = some w ∧
      w.history = [.called .videoMain, .handled, .called .videoSub] ∧
        ¬ machine.Always (fun w => Respected w.history) (new mainAndSub)
          (mainCall ++ handling ++ subCall)) ∧
      ∃ w, machine.run (new mainAndSub) (mainCall ++ mainCall) = some w ∧
        w.history = [.called .videoMain, .called .videoMain] ∧
          ¬ machine.Always (fun w => Respected w.history) (new mainAndSub)
            (mainCall ++ mainCall) := by
  constructor
  · refine ⟨_, rfl, rfl, ?_⟩
    intro h
    have hr := (h.last rfl).oneThread .videoMain .videoSub (by decide) (by decide)
    cases hr
  · refine ⟨_, rfl, rfl, ?_⟩
    intro h
    exact not_respected_twice [] .videoMain .videoMain (h.last rfl)

/-- Two frames of the main stream, the event of each handled. -/
theorem respected_handled :
    let as := mainCall ++ handling ++ mainCall ++ handling
    machine.Always (fun w => Respected w.history) (new mainAndSub) as ∧
      ∃ w, machine.run (new mainAndSub) as = some w ∧
        w.history = [.called .videoMain, .handled, .called .videoMain, .handled] ∧
          machine.Along InTurn (new mainAndSub) as := by
  intro as
  obtain ⟨-, hinTurn, hrespected⟩ := respected_iff mainAndSub_ready as
  have h := hrespected (Machine.Along.of_checks (by decide))
  exact ⟨h, _, rfl, rfl, hinTurn _ rfl rfl h⟩

end Wired

end Eye
