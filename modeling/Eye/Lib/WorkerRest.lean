import Eye.Lib.Worker

/-!
# How a worker comes to rest

A worker that nobody gives anything to works off its queue and stops. `toDo` is what it costs at
most, in its own steps, those of the pushes that have still to notify, and those of the stop. It
does not sleep while there is something in its queue, unless a notification is still to come
(`Attentive`). So where it cannot go on, it has emptied its queue or left its loop
(`Attentive.place_of_still`), and a stop that cannot go on either is the deadlock.
-/

namespace Worker

variable {α : Type} {p : Policy α} {w w' : Worker α} {a : Act α}

/-- The steps that only finish what has been begun. -/
def Act.finishes : Act α → Bool
  | .work | .finish _ | .notifyOne | .beginStop | .store | .notifyAll | .join | .clear => true
  | .spurious | .enqueue _ => false

/-- What the way to the wait costs. -/
def placeCost : Place α → ℕ
  | .waiting | .done => 0
  | .block | .ready => 1
  | .check => 2
  | .lock => 3
  | .test => 4
  | .process _ => 5

/-- What the stop costs; `notify_all` may send the worker around once more. -/
def stageCost : Stage → ℕ
  | .cleared => 0
  | .joined => 1
  | .joining => 2
  | .stored => 6
  | .begun => 7
  | .idle => 8

/-- A bound on the steps that finish what has been begun. -/
def toDo (w : Worker α) : ℕ :=
  6 * w.queue.length + placeCost w.place + 4 * w.owed + stageCost w.stage

theorem wake_cases (w : Worker α) :
    (w.place = .waiting ∧ w.wake = { w with place := .lock }) ∨
      (w.place ≠ .waiting ∧ w.wake = w) := by
  unfold wake
  cases hp : w.place with
  | waiting => exact .inl ⟨rfl, rfl⟩
  | test | lock | check | block | ready | process | done => exact .inr ⟨nofun, rfl⟩

theorem placeCost_wake (w : Worker α) : placeCost w.wake.place ≤ placeCost w.place + 3 := by
  rcases w.wake_cases with ⟨hp, hwake⟩ | ⟨-, hwake⟩ <;> rw [hwake]
  · rw [hp]
    exact Nat.le_refl _
  · exact Nat.le_add_right _ _

theorem Step.toDo_lt (h : Step p w a w') (ha : a.finishes = true) : w'.toDo < w.toDo := by
  unfold toDo
  cases h with
  | test hp =>
    rw [hp]
    cases w.running <;> simp [placeCost]
  | lock hp | block hp | leave hp =>
    rw [hp]
    simp [placeCost]
  | check hp =>
    rw [hp]
    dsimp only
    split_ifs <;> simp [placeCost]
  | pop hp hr hq =>
    rw [hp, hq, List.length_cons]
    simp only [placeCost]
    omega
  | finish ok hp =>
    rw [hp]
    simp [placeCost]
  | notifyOne ho =>
    have := placeCost_wake w
    dsimp only
    rw [wake_queue, wake_stage]
    omega
  | beginStop hs | store hs | join hs =>
    rw [hs]
    simp [stageCost]
  | notifyAll hs =>
    have := placeCost_wake w
    dsimp only
    rw [wake_queue, wake_owed, hs]
    simp only [stageCost]
    omega
  | clear hs =>
    rw [hs]
    simp only [List.length_nil, stageCost]
    omega
  | spurious | enqueue => cases ha

theorem Step.toDo_enqueue {x : α} (h : Step p w (.enqueue x) w') : w'.toDo ≤ w.toDo + 10 := by
  unfold toDo
  cases h with
  | enqueue x hm hroom =>
    have := (p.kept_sublist _ _ _ hroom).length_le
    simp only [List.length_append, List.length_singleton]
    omega

/-! ## The stop and the notifications -/

/-- The notifications that a step pays. -/
def Act.notified : Act α → ℕ
  | .notifyOne => 1
  | .work | .finish _ | .spurious | .enqueue _ | .beginStop | .store | .notifyAll | .join
  | .clear => 0

/-- Every element put in is a notification owed, until it is paid. -/
theorem Step.owed_add (h : Step p w a w') :
    w'.owed + a.notified = w.owed + a.adds.length := by
  cases h with
  | notifyOne ho =>
    show w.owed - 1 + 1 = w.owed + 0
    omega
  | notifyAll => exact congrArg (· + 0) (wake_owed w)
  | test | lock | check | block | leave | pop | finish | spurious | enqueue | beginStop | store
  | join | clear => rfl

theorem Step.stage_ne_idle (h : Step p w a w') (hs : w'.stage ≠ .idle) :
    w.stage ≠ .idle ∨ a = .beginStop := by
  cases h with
  | beginStop => exact .inr rfl
  | notifyOne => exact .inl (wake_stage w ▸ hs)
  | store h' | notifyAll h' | join h' | clear h' =>
    rw [h']
    exact .inl nofun
  | test | lock | check | block | leave | pop | finish | spurious | enqueue => exact .inl hs

theorem Step.stage_cleared (h : Step p w a w') (hs : w'.stage = .cleared) :
    w.stage = .cleared ∨ a = .clear := by
  cases h with
  | clear => exact .inr rfl
  | notifyOne => exact .inl ((wake_stage w).symm.trans hs)
  | beginStop | store | notifyAll | join => cases hs
  | test | lock | check | block | leave | pop | finish | spurious | enqueue => exact .inl hs

/-! ## A worker that does not sleep while there is work -/

/-- The worker blocks with an empty queue; while it waits, whoever has appended has still to notify;
past its wait it has an element to take, unless it is to leave. -/
structure Attentive (w : Worker α) : Prop where
  block : w.place = .block → w.queue = []
  waiting : w.place = .waiting → w.queue ≠ [] → 0 < w.owed
  ready : w.place = .ready → w.running = true → w.queue ≠ []

theorem attentive_new : (new : Worker α).Attentive := ⟨nofun, nofun, nofun⟩

theorem attentive_of_place (hblock : w.place ≠ .block) (hwaiting : w.place ≠ .waiting)
    (hready : w.place ≠ .ready) : w.Attentive :=
  ⟨fun h => absurd h hblock, fun h => absurd h hwaiting, fun h => absurd h hready⟩

theorem Attentive.wake (hw : w.Attentive) (owed : ℕ) (stage : Stage) :
    Attentive { w.wake with owed := owed, stage := stage } := by
  rcases w.wake_cases with ⟨-, hwake⟩ | ⟨hp, hwake⟩ <;> rw [hwake]
  · exact attentive_of_place nofun nofun nofun
  · exact ⟨hw.block, fun h => absurd h hp, hw.ready⟩

theorem Attentive.step (hi : w.Inv) (hw : w.Attentive) (h : Step p w a w') : w'.Attentive := by
  cases h with
  | test hp =>
    apply attentive_of_place <;> (dsimp only; split_ifs <;> nofun)
  | lock | leave | pop | finish | spurious => exact attentive_of_place nofun nofun nofun
  | check hp =>
    cases hcond : w.queue.isEmpty && w.running with
    | true =>
      rw [Bool.and_eq_true, List.isEmpty_iff] at hcond
      exact ⟨fun _ => hcond.1, nofun, nofun⟩
    | false =>
      refine ⟨nofun, nofun, fun _ hr hq => ?_⟩
      have hr : w.running = true := hr
      have hq : w.queue = [] := hq
      rw [hr, hq] at hcond
      cases hcond
  | block hp => exact ⟨nofun, fun _ hq => absurd (hw.block hp) hq, nofun⟩
  | enqueue x hm =>
    refine ⟨fun hp => ?_, fun _ _ => Nat.succ_pos _, fun hp => ?_⟩ <;>
      exact nomatch (congrArg Place.holdsMutex hp).symm.trans hm
  | notifyOne => exact hw.wake _ w.wake.stage
  | notifyAll => exact hw.wake w.wake.owed _
  | beginStop | join => exact ⟨hw.block, hw.waiting, hw.ready⟩
  | store => exact ⟨hw.block, hw.waiting, fun _ hr => nomatch hr⟩
  | clear hs =>
    have hr : w.running = false := by
      rw [hi.running_eq, hs]
      rfl
    exact ⟨fun _ => rfl, fun _ hq => absurd rfl hq, fun _ h => nomatch hr.symm.trans h⟩

/-- Only the end of a stop gives up what is in the queue. -/
def Kept (w : Worker α) : Prop := w.stage ≠ .cleared → w.ledger.cleared = []

theorem kept_new : (new : Worker α).Kept := fun _ => rfl

theorem Kept.step (hw : w.Kept) (h : Step p w a w') : w'.Kept := by
  intro hs
  have hne : a ≠ .clear := by
    rintro rfl
    cases h
    exact hs rfl
  rw [h.cleared_eq hne]
  apply hw
  intro hc
  apply hs
  cases h with
  | clear => exact absurd rfl hne
  | notifyOne => exact (wake_stage w).trans hc
  | beginStop h' | store h' | notifyAll h' | join h' => cases h'.symm.trans hc
  | test | lock | check | block | leave | pop | finish | spurious | enqueue => exact hc

/-- A worker that is not being stopped does not leave its loop. -/
def Stays (w : Worker α) : Prop := w.place = .done → w.running = false

theorem stays_new : (new : Worker α).Stays := nofun

theorem Stays.step (hw : w.Stays) (h : Step p w a w') : w'.Stays := by
  cases h with
  | test hp =>
    intro hdone
    dsimp only at hdone ⊢
    split_ifs at hdone with hr
    simpa using hr
  | leave hp hr => exact fun _ => hr
  | lock | pop | finish | spurious | block => nofun
  | check =>
    intro hdone
    dsimp only at hdone
    split_ifs at hdone
  | store => exact fun _ => rfl
  | enqueue | beginStop | join | clear => exact hw
  | notifyOne | notifyAll =>
    dsimp only
    rcases w.wake_cases with ⟨-, hwake⟩ | ⟨-, hwake⟩ <;> rw [hwake]
    · nofun
    · exact hw

/-- What every step keeps of a worker, for its rest. -/
structure Wakeful (w : Worker α) : Prop where
  inv : w.Inv
  attentive : w.Attentive
  kept : w.Kept
  stays : w.Stays
  left : w.LeftIfJoined

theorem wakeful_new : (new : Worker α).Wakeful :=
  ⟨inv_new, attentive_new, kept_new, stays_new, leftIfJoined_new⟩

theorem Wakeful.step (hw : w.Wakeful) (h : Step p w a w') : w'.Wakeful :=
  ⟨hw.inv.step h, hw.attentive.step hw.inv h, hw.kept.step h, hw.stays.step h, hw.left.step h⟩

/-! ## At rest -/

/-- The worker waits and everything put in has been taken or dropped, and it is not being stopped
unless by a stop that will wait for ever; or it has left its loop and been joined. -/
def Settled (w : Worker α) : Prop :=
  (w.place = .waiting ∧ w.queue = [] ∧
      (w.ledger.left ++ w.ledger.dropped).Perm w.ledger.entered ∧
      (w.stage = .idle ∨ w.Deadlocked)) ∨
    (w.place = .done ∧ (w.stage = .joined ∨ w.stage = .cleared))

theorem Attentive.not_holdsMutex (hw : w.Attentive) (hwork : w.step p .work = none) :
    w.place.holdsMutex = false := by
  rw [Worker.step, work] at hwork
  cases hp : w.place with
  | test | lock | waiting | process | done => rfl
  | check | block =>
    rw [hp] at hwork
    cases hwork
  | ready =>
    simp only [hp] at hwork
    split_ifs at hwork with hr
    cases hq : w.queue with
    | nil => exact absurd hq (hw.ready hp hr)
    | cons x rest =>
      rw [hq] at hwork
      cases hwork

/-- A worker that cannot go on by itself, and that nobody has still to notify, waits with an empty
queue or has left its loop. -/
theorem Attentive.place_of_still (hw : w.Attentive) (hwork : w.step p .work = none)
    (hfinish : w.step p (.finish true) = none) (howed : w.owed = 0) :
    (w.place = .waiting ∧ w.queue = []) ∨ w.place = .done := by
  have hmutex := hw.not_holdsMutex hwork
  rw [Worker.step, work] at hwork
  rw [Worker.step, Worker.finish] at hfinish
  cases hp : w.place with
  | waiting =>
    refine .inl ⟨rfl, ?_⟩
    by_contra hq
    have := hw.waiting hp hq
    omega
  | done => exact .inr rfl
  | test | lock =>
    rw [hp] at hwork
    cases hwork
  | process x =>
    rw [hp] at hfinish
    cases hfinish
  | check | block | ready =>
    rw [hp] at hmutex
    cases hmutex

/-- A stop that cannot go on either has returned, or is the deadlock. -/
theorem stage_of_still (hplace : w.place = .waiting ∨ w.place = .done) (howed : w.owed = 0)
    (hstore : w.step p .store = none) (hnotify : w.step p .notifyAll = none)
    (hjoin : w.step p .join = none) :
    w.Deadlocked ∨ w.stage = .idle ∨ w.stage = .joined ∨ w.stage = .cleared := by
  cases hs : w.stage with
  | idle => exact .inr (.inl rfl)
  | begun =>
    rw [Worker.step, if_pos hs] at hstore
    cases hstore
  | stored =>
    rw [Worker.step, if_pos hs] at hnotify
    cases hnotify
  | joining =>
    rcases hplace with hp | hp
    · exact .inl ⟨hs, hp, howed⟩
    · rw [Worker.step] at hjoin
      simp only [hs, hp, reduceCtorEq] at hjoin
  | joined => exact .inr (.inr (.inl rfl))
  | cleared => exact .inr (.inr (.inr rfl))

theorem Wakeful.settled (hw : w.Wakeful) (howed : w.owed = 0) (hwork : w.step p .work = none)
    (hfinish : w.step p (.finish true) = none) (hstore : w.step p .store = none)
    (hnotify : w.step p .notifyAll = none) (hjoin : w.step p .join = none) : w.Settled := by
  have hplace := hw.attentive.place_of_still hwork hfinish howed
  have hstage := stage_of_still (hplace.imp_left And.left) howed hstore hnotify hjoin
  rcases hplace with ⟨hp, hq⟩ | hp
  · have hjoined : ¬ (w.stage = .joined ∨ w.stage = .cleared) := fun hs => by
      have := hw.left hs
      rw [hp] at this
      cases this
    have hkept : w.ledger.cleared = [] := hw.kept fun hs => hjoined (.inr hs)
    have hpartition := hw.inv.balanced.partition
    rw [hq, hkept, List.append_nil, List.append_nil] at hpartition
    refine .inl ⟨hp, hq, hpartition, ?_⟩
    rcases hstage with hs | hs | hs
    · exact .inr hs
    · exact .inl hs
    · exact absurd hs hjoined
  · refine .inr ⟨hp, ?_⟩
    rcases hstage with ⟨-, hwaiting, -⟩ | hs | hs
    · rw [hp] at hwaiting
      cases hwaiting
    · have hr := hw.stays hp
      rw [hw.inv.running_eq, hs] at hr
      cases hr
    · exact hs

end Worker
