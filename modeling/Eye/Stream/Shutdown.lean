import Eye.Stream.DeliveryAccounts
import Eye.Stream.RecorderConsumer

/-!
# Stopping a worker

`remove_consumer` and the two destructors store `false` into the running flag, call `notify_all` and
join, without the mutex that the worker holds from the predicate of its wait until it blocks. A
notification that falls between the two is lost, and if no other is still to come the worker blocks
for ever and the join with it.

`noDeadlock_iff` says that this is the only way: a run stays clear of the deadlock, and of the
states from which the next step of a worker leads into it, exactly if the last notification that a
stopped worker can count on never falls there. The invariant is `Worker.Awake`, of every slot.
-/

namespace Eye

namespace StreamDistributor

variable {φ : Type} {d d' : StreamDistributor φ} {a : Action φ} {k : SlotId}
  {slot : ConsumerSlot φ}

/-- No thread that stops a slot waits for a worker that nobody will wake. -/
def NoDeadlock (d : StreamDistributor φ) : Prop :=
  ∀ (k : SlotId) (slot : ConsumerSlot φ), d.heap[k]? = some slot → ¬ slot.worker.Deadlocked

/-- There is no deadlock, and the next step of a worker leads into none. -/
def NoDeadlockAhead (d : StreamDistributor φ) : Prop :=
  d.NoDeadlock ∧ ∀ k d', d.step (.slot k .work) = some d' → d'.NoDeadlock

/-- The step is heard by the worker it is about. -/
def Heard (d : StreamDistributor φ) (a : Action φ) : Prop :=
  ∀ (k : SlotId) b (slot : ConsumerSlot φ), d.target a = some (k, b) → d.heap[k]? = some slot →
    slot.worker.Heard b

/-- The invariant: the slots are well formed and none can sleep through its stop. -/
structure Awake (d : StreamDistributor φ) : Prop where
  inv : d.Inv
  awake : ∀ (k : SlotId) (slot : ConsumerSlot φ), d.heap[k]? = some slot → slot.worker.Awake

theorem awake_new : (new : StreamDistributor φ).Awake := ⟨inv_new, fun _ _ h => nomatch h⟩

theorem Awake.noDeadlock (hw : d.Awake) : d.NoDeadlock :=
  fun k slot hk => (hw.awake k slot hk).not_deadlocked

theorem Awake.step (hw : d.Awake) (hc : d.Heard a) (h : d.step a = some d') : d'.Awake := by
  have hstep := Step.of_step h
  refine ⟨hw.inv.step hstep, ?_⟩
  intro j slot' hj
  rcases hstep.slot_cases hj with ⟨-, id, config, rfl⟩ | ⟨slot, hk, hm⟩
  · exact Worker.awake_new
  · have hawake := hw.awake j slot hk
    rcases hm.worker with heq | ⟨b, ht, -, hb⟩
    · rw [heq]
      exact hawake
    · exact hawake.step (hw.inv.wf j slot hk).worker (hc j b slot ht hk) hb

theorem Awake.noDeadlockAhead (hw : d.Awake) : d.NoDeadlockAhead := by
  refine ⟨hw.noDeadlock, fun k d' h => (hw.step ?_ h).noDeadlock⟩
  rintro _ _ slot ⟨⟩ -
  trivial

theorem Step.target_step {b : Worker.Act (φ × ℕ)} (h : Step d a d') (ht : d.target a = some (k, b))
    (hb : b ≠ .beginStop) (hk : d.heap[k]? = some slot) :
    ∃ worker, slot.worker.Step (.dropOldest slot.maxQueueSize) b worker ∧
      d'.heap[k]? = some { slot with worker := worker } := by
  have hlt := (List.getElem?_eq_some_iff.mp hk).1
  cases h with
  | enqueue hp hk' hw | notifyOne hp hk' hw =>
    rw [target, hp] at ht
    cases ht
    rw [hk'] at hk
    cases hk
    exact ⟨_, hw, List.getElem?_set_self hlt⟩
  | slot hk' ha hw =>
    cases ht
    rw [hk'] at hk
    cases hk
    exact ⟨_, hw, List.getElem?_set_self hlt⟩
  | remove hf hk' hw =>
    rw [target, hf] at ht
    cases ht
    exact absurd rfl hb
  | removeNone hf =>
    rw [target, hf] at ht
    cases ht
  | pushEnd hp =>
    rw [target, hp] at ht
    cases ht
  | destroyNext hd | destroyed hd =>
    rw [target, hd] at ht
    cases ht
    exact absurd rfl hb
  | addConsumer | link | push | destroy => cases ht

theorem step_slot {b : Worker.Act (φ × ℕ)} {worker : Worker (φ × ℕ)} (hk : d.heap[k]? = some slot)
    (hb : slot.allows b = true)
    (hw : slot.worker.step (.dropOldest slot.maxQueueSize) b = some worker) :
    d.step (.slot k b) = some { d with heap := d.heap.set k { slot with worker := worker } } := by
  show d.onSlot k _ = _
  rw [onSlot, hk, Option.bind_some, if_pos hb, ConsumerSlot.act, hw]
  rfl

/-- A step that is not heard is one step of the worker away from the deadlock. -/
theorem not_noDeadlockAhead (hi : d.Inv) (hc : ¬ d.Heard a) (h : d.step a = some d') :
    ¬ d'.NoDeadlockAhead := by
  unfold Heard at hc
  push Not at hc
  obtain ⟨k, b, slot, ht, hk, hb⟩ := hc
  have hne : b ≠ .beginStop := by
    rintro rfl
    exact hb trivial
  obtain ⟨worker, hw, hk'⟩ := (Step.of_step h).target_step ht hne hk
  obtain ⟨worker', hwork, hdead⟩ := Worker.deadlock_of_not_heard hb hw
  have hlinked : slot.linked = true := by
    by_contra hl
    have htest := (hi.wf k slot hk).unlinked (by simpa using hl)
    rw [Worker.place_of_not_heard hb] at htest
    cases htest
  have hlt := (List.getElem?_eq_some_iff.mp hk').1
  rintro ⟨-, hahead⟩
  exact hahead k _ (step_slot hk' hlinked hwork) k _ (List.getElem?_set_self hlt) hdead

end StreamDistributor

namespace RecorderConsumer

variable {r r' : RecorderConsumer} {a : Action}

/-- The destructor does not wait for a worker that nobody will wake. -/
def NoDeadlock (r : RecorderConsumer) : Prop := ¬ r.worker.Deadlocked

/-- There is no deadlock, and the next step of the worker does not lead into it. -/
def NoDeadlockAhead (r : RecorderConsumer) : Prop :=
  r.NoDeadlock ∧ ∀ r', r.step (.act .work) = some r' → r'.NoDeadlock

/-- The step is heard by the worker. -/
def Heard (r : RecorderConsumer) : Action → Prop
  | .onFrame _ => True
  | .act a => r.worker.Heard a

/-- The invariant: the worker cannot sleep through the destructor. -/
structure Awake (r : RecorderConsumer) : Prop where
  inv : r.worker.Inv
  awake : r.worker.Awake

theorem Awake.step (hw : r.Awake) (hc : r.Heard a) (h : r.step a = some r') : r'.Awake := by
  obtain ⟨b, ha, hstep, -⟩ := step_worker h
  refine ⟨hw.inv.step hstep, hw.awake.step hw.inv ?_ hstep⟩
  rcases ha with rfl | ⟨frame, x, rfl, rfl⟩
  · exact hc
  · trivial

theorem Awake.noDeadlockAhead (hw : r.Awake) : r.NoDeadlockAhead :=
  ⟨hw.awake.not_deadlocked, fun _ h => (hw.step (a := .act .work) trivial h).awake.not_deadlocked⟩

theorem step_act {b : Worker.Act (WriteEntry × ℕ)} {worker : Worker (WriteEntry × ℕ)}
    (hb : allows b = true) (hw : r.worker.step (policy r.maxQueueSize) b = some worker) :
    r.step (.act b) = some { r with worker := worker, file := r.file ++ r.written b } := by
  rw [step, if_pos hb, hw]
  rfl

theorem not_noDeadlockAhead (hc : ¬ r.Heard a) (h : r.step a = some r') : ¬ r'.NoDeadlockAhead := by
  obtain ⟨b, ha, hstep, -⟩ := step_worker h
  rcases ha with rfl | ⟨frame, x, rfl, -⟩
  · obtain ⟨worker, hwork, hdead⟩ := Worker.deadlock_of_not_heard hc hstep
    rintro ⟨-, hahead⟩
    exact hahead _ (step_act rfl hwork) hdead
  · exact absurd trivial hc

end RecorderConsumer

/-- **When stopping a worker cannot deadlock.** A run of the distributor, whoever removes consumers
and with its destructor, or of the recorder with its destructor, keeps clear of the deadlock exactly
if every last notification of a stopped worker is heard. -/
theorem noDeadlock_iff {φ : Type} :
    (∀ as : List (StreamDistributor.Action φ),
      StreamDistributor.machine.Always StreamDistributor.NoDeadlockAhead .new as ↔
        StreamDistributor.machine.Along StreamDistributor.Heard .new as) ∧
    ∀ (writeQueueSize : ℕ) (as : List RecorderConsumer.Action),
      (RecorderConsumer.machine writeQueueSize).Always RecorderConsumer.NoDeadlockAhead
          (.new writeQueueSize) as ↔
        (RecorderConsumer.machine writeQueueSize).Along RecorderConsumer.Heard
          (.new writeQueueSize) as := by
  constructor
  · intro as
    refine Machine.always_iff_along (I := StreamDistributor.Awake) ?_ ?_ ?_ ?_
    · exact StreamDistributor.awake_new
    · intro _ _ _ hw hc h
      exact hw.step hc h
    · intro _ hw
      exact hw.noDeadlockAhead
    · intro _ _ _ hw hc h
      exact StreamDistributor.not_noDeadlockAhead hw.inv hc h
  · intro writeQueueSize as
    refine Machine.always_iff_along (I := RecorderConsumer.Awake) ?_ ?_ ?_ ?_
    · exact ⟨Worker.inv_new, Worker.awake_new⟩
    · intro _ _ _ hw hc h
      exact hw.step hc h
    · intro _ hw
      exact hw.noDeadlockAhead
    · intro _ _ _ _ hc h
      exact RecorderConsumer.not_noDeadlockAhead hc h

/-- A slot is stopped by `stop` while its worker is between its predicate and its blocking. -/
def stopAtBlock (stop : List (StreamDistributor.Action ℕ)) : List (StreamDistributor.Action ℕ) :=
  [.addConsumer ⟨1⟩, .link 0, .slot 0 .work, .slot 0 .work, .slot 0 .work] ++ stop ++
    [.slot 0 .store, .slot 0 .notifyAll, .slot 0 .work]

/-- The same for the recorder. -/
def destroyAtBlock : List RecorderConsumer.Action :=
  [.act .work, .act .work, .act .work, .act .beginStop, .act .store, .act .notifyAll, .act .work]

/-- `remove_consumer`, `~StreamDistributor` and `~RecorderConsumer` can each wait for ever. -/
theorem stop_deadlocks :
    (∃ d, StreamDistributor.machine.run .new (stopAtBlock [.removeConsumer 0]) = some d ∧
      ¬ d.NoDeadlock) ∧
    (∃ d, StreamDistributor.machine.run .new (stopAtBlock [.destroy, .continueDestroy]) = some d ∧
      ¬ d.NoDeadlock) ∧
    ∃ r, (RecorderConsumer.machine 30).run (.new 30) destroyAtBlock = some r ∧ ¬ r.NoDeadlock := by
  refine ⟨⟨_, rfl, fun h => ?_⟩, ⟨_, rfl, fun h => ?_⟩, _, rfl, fun h => ?_⟩
  · exact h 0 _ rfl ⟨rfl, rfl, rfl⟩
  · exact h 0 _ rfl ⟨rfl, rfl, rfl⟩
  · exact h ⟨rfl, rfl, rfl⟩

end Eye
