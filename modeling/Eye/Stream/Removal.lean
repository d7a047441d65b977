import Eye.Stream.Isolation

/-!
# No callback after removal

`remove_consumer` unlinks the slot, stores its flag, notifies, joins the worker and clears the
queue, each under a lock of its own or none; a push that took its snapshot before still appends to
the queue of the removed slot at any time, also after the clear. The thread handle is stored under
the lock under which the slot becomes visible, so the call that finds the slot can join.

`no_callback_after_removal`: once the call has returned the callback is not running and is never
invoked again. The join ends only when the worker has left its loop (`Worker.LeftIfJoined`), and a
worker that has left its loop stays out of it whatever is appended to its queue
(`Worker.Step.done`).
-/

namespace Eye

namespace ConsumerSlot

variable {φ : Type}

/-- The callback of the slot is running. -/
def inCallback (slot : ConsumerSlot φ) : Prop := ∃ x, slot.worker.place = .process x

end ConsumerSlot

namespace StreamDistributor

variable {φ : Type} {d d' : StreamDistributor φ} {a : Action φ} {k : SlotId}
  {slot : ConsumerSlot φ}

/-- No worker that has been joined is still in its loop. -/
def LeftIfJoined (d : StreamDistributor φ) : Prop :=
  ∀ (k : SlotId) (slot : ConsumerSlot φ), d.heap[k]? = some slot → slot.worker.LeftIfJoined

theorem LeftIfJoined.step (hd : d.LeftIfJoined) (h : Step d a d') : d'.LeftIfJoined := by
  intro j slot' hj
  rcases h.slot_cases hj with ⟨-, id, config, rfl⟩ | ⟨slot, hs, hm⟩
  · exact Worker.leftIfJoined_new
  · rcases hm.worker with heq | ⟨b, -, -, hb⟩
    · rw [heq]
      exact hd j slot hs
    · exact (hd j slot hs).step hb

theorem leftIfJoined_of_reachable (hd : machine.Reachable d) : d.LeftIfJoined := by
  refine hd.invariant (I := LeftIfJoined) (fun d h0 => ?_) fun _ _ _ hi h => hi.step (.of_step h)
  rw [show d = new from h0]
  intro _ _ h
  exact nomatch h

theorem numbered_of_reachable (hd : machine.Reachable d) : d.Numbered := by
  refine hd.invariant (I := Numbered) (fun d h0 => ?_) fun _ _ _ hn h => hn.step (.of_step h)
  rw [show d = new from h0]
  exact numbered_new

/-- The slot has left its loop with `given` given to its callback. -/
def Ended (k : SlotId) (given : List (φ × ℕ)) (d : StreamDistributor φ) : Prop :=
  ∃ slot, d.heap[k]? = some slot ∧ slot.worker.place = .done ∧ slot.given = given

theorem Ended.step {given : List (φ × ℕ)} (he : Ended k given d) (h : Step d a d') :
    Ended k given d' := by
  obtain ⟨slot, hk, hp, hg⟩ := he
  obtain ⟨slot', hk', -⟩ := maxQueueSize_of_step h hk
  rcases h.slot_cases hk' with ⟨hnone, -⟩ | ⟨s, hs, hm⟩
  · rw [hk] at hnone
    cases hnone
  · rw [hk] at hs
    cases hs
    rcases hm.worker with heq | ⟨b, -, -, hb⟩
    · refine ⟨slot', hk', ?_, ?_⟩
      · rw [heq, hp]
      · unfold ConsumerSlot.given
        rw [heq]
        exact hg
    · obtain ⟨hp', hleft⟩ := hb.done hp
      exact ⟨slot', hk', hp', hleft.trans hg⟩

/-- The last step of `remove_consumer` finds the worker out of its loop. -/
theorem Step.cleared (hd : d.LeftIfJoined) (h : Step d (.slot k .clear) d') :
    ∃ slot, d'.heap[k]? = some slot ∧ slot.worker.place = .done := by
  cases h with
  | @slot _ _ slot worker hk ha hw =>
    cases hw with
    | clear hst =>
      exact ⟨_, List.getElem?_set_self (List.getElem?_eq_some_iff.mp hk).1, hd k slot hk (.inl hst)⟩

/-- **No callback after removal.** Take any run, `as`, in which fewer than 2^32 consumers are added,
a call of `remove_consumer` that unlinks slot `k` of consumer `id`, the steps `bs` up to the one
with which that call returns, and any further steps `cs`, those of pushes in flight among them.
In the end the callback of that consumer is not running and has been invoked no more often than when
the call returned. -/
theorem no_callback_after_removal {as bs cs : List (Action φ)} {d₀ d d' : StreamDistributor φ}
    {id : UInt32} {k : SlotId} (h₀ : machine.run new as = some d₀)
    (hfound : d₀.findConsumer id = some k)
    (hremove : machine.run d₀ (.removeConsumer id :: bs ++ [.slot k .clear]) = some d)
    (hlater : machine.run d cs = some d') (hadded : d'.heap.length < 2 ^ 32) :
    ∃ slot, d.heap[k]? = some slot ∧ slot.consumerId = id ∧
      ∀ (j : SlotId) (slot' : ConsumerSlot φ), d'.heap[j]? = some slot' → slot'.consumerId = id →
        j = k ∧ slot'.given = slot.given ∧ ¬ slot'.inCallback := by
  have hreach₀ : machine.Reachable d₀ := Machine.Reachable.run (.init rfl) h₀
  have hreach : machine.Reachable d := hreach₀.run hremove
  have hreach' : machine.Reachable d' := hreach.run hlater
  have hlen : d.heap.length ≤ d'.heap.length := length_le_of_run hlater
  have hlen₀ : d₀.heap.length ≤ d.heap.length := length_le_of_run hremove
  have hlinked := ((numbered_of_reachable hreach₀).findConsumer_eq
    (Nat.le_of_lt (Nat.lt_of_le_of_lt (Nat.le_trans hlen₀ hlen) hadded))).mp hfound
  -- the slot as the call returns
  rw [Machine.run_append, Option.bind_eq_some_iff] at hremove
  obtain ⟨d₁, h₁, hclear⟩ := hremove
  rw [Machine.run_singleton] at hclear
  have hclear : d₁.step (.slot k .clear) = some d := hclear
  obtain ⟨slot, hk, hdone⟩ :=
    (Step.of_step hclear).cleared (leftIfJoined_of_reachable (hreach₀.run h₁))
  have hid : slot.consumerId = id := by
    obtain ⟨-, s, hs, hsid⟩ := hlinked
    rw [(numbered_of_reachable hreach).id k slot hk, ← (numbered_of_reachable hreach₀).id k s hs,
      hsid]
  refine ⟨slot, hk, hid, ?_⟩
  intro j slot' hj hid'
  have hjk : j = k := by
    have hlt := (List.getElem?_eq_some_iff.mp hj).1
    have hklt := (List.getElem?_eq_some_iff.mp hk).1
    apply slotId_eq (Nat.lt_trans hlt hadded)
      (Nat.lt_trans (Nat.lt_of_lt_of_le hklt hlen) hadded)
    rw [← (numbered_of_reachable hreach').id j slot' hj,
      ← (numbered_of_reachable hreach).id k slot hk, hid, hid']
  subst hjk
  obtain ⟨s, hs, hp, hg⟩ : Ended j slot.given d' :=
    Machine.keep_run (J := Ended j slot.given) ⟨slot, hk, hdone, rfl⟩
      (fun _ _ _ he h => he.step (.of_step h)) hlater
  rw [hj] at hs
  cases hs
  refine ⟨rfl, hg, ?_⟩
  rintro ⟨x, hx⟩
  rw [hp] at hx
  cases hx

/-- The callback runs and a second push has taken its snapshot. -/
def secondPush : List (Action ℕ) :=
  [.addConsumer ⟨2⟩, .link 0, .push 7, .continuePush, .continuePush, .continuePush, .slot 0 .work,
    .slot 0 .work, .slot 0 .work, .slot 0 .work, .push 8]

/-- The removal waits for the callback to return. -/
def untilJoined : List (Action ℕ) :=
  [.slot 0 .store, .slot 0 .notifyAll, .slot 0 (.finish true), .slot 0 .work, .slot 0 .join]

/-- The second push appends its frame when the removal has returned. -/
theorem no_callback_after_removal_secondPush :
    ∃ (d₀ d d' : StreamDistributor ℕ) (slot slot' : ConsumerSlot ℕ),
      machine.run new secondPush = some d₀ ∧
      machine.run d₀ (.removeConsumer 0 :: untilJoined ++ [.slot 0 .clear]) = some d ∧
      machine.run d [.continuePush] = some d' ∧ d.heap[0]? = some slot ∧
      d'.heap[0]? = some slot' ∧ slot'.worker.queue = [(8, 1)] ∧ slot.given = [(7, 0)] ∧
      slot'.given = slot.given ∧ ¬ slot'.inCallback := by
  obtain ⟨d₀, d, d', slot, slot', h₀, h, h', hk, hk', hq, hg, hfound, hlen, hid⟩ :
      ∃ (d₀ d d' : StreamDistributor ℕ) (slot slot' : ConsumerSlot ℕ),
        machine.run new secondPush = some d₀ ∧
        machine.run d₀ (.removeConsumer 0 :: untilJoined ++ [.slot 0 .clear]) = some d ∧
        machine.run d [.continuePush] = some d' ∧ d.heap[0]? = some slot ∧
        d'.heap[0]? = some slot' ∧ slot'.worker.queue = [(8, 1)] ∧ slot.given = [(7, 0)] ∧
        d₀.findConsumer 0 = some 0 ∧ d'.heap.length = 1 ∧ slot'.consumerId = 0 :=
    ⟨_, _, _, _, _, rfl, rfl, rfl, rfl, rfl, rfl, rfl, rfl, rfl, rfl⟩
  obtain ⟨s, hs, -, hall⟩ := no_callback_after_removal h₀ hfound h h' (by omega)
  rw [hk] at hs
  cases hs
  exact ⟨d₀, d, d', slot, slot', h₀, h, h', hk, hk', hq, hg, (hall 0 slot' hk' hid).2⟩

end StreamDistributor

end Eye
