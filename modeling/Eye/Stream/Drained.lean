import Eye.Lib.Potential
import Eye.Lib.WorkerRest
import Eye.Stream.DeliveryAccounts
import Eye.Stream.RecorderShutdown
import Eye.Stream.Shutdown

/-!
# Consumers catch up

With no new frames, the consumers of a distributor work off their queues and the calls in progress
return. `drained_at_rest`: that takes at most `toDo` steps, and at its end everything a consumer was
offered has been given to its callback or dropped from its full queue. Only the deadlock of a stop
that was not heard is left over, and nothing else can be.

`recorded_at_rest` says the same of the recorder: all that was accepted and not dropped is in the
file, unless the destructor has been at work.
-/

namespace Eye

namespace ConsumerSlot

variable {φ : Type}

/-- All that was offered has been given to the callback or dropped, and the worker waits; or the
consumer is gone, and the call that stopped it has returned. -/
def Drained (slot : ConsumerSlot φ) : Prop :=
  (slot.worker.place = .waiting ∧ slot.worker.queue = [] ∧
      (slot.given ++ slot.worker.ledger.dropped).Perm slot.offered ∧
      (slot.worker.stage = .idle ∨ slot.worker.Deadlocked)) ∨
    (slot.worker.place = .done ∧ slot.worker.stage = if slot.removed then .cleared else .joined)

/-- What is left to do for one slot; `add_consumer` may have to start its worker. -/
def toDo (slot : ConsumerSlot φ) : ℕ := slot.worker.toDo + if slot.linked then 0 else 1

end ConsumerSlot

/-- What is left to do of a push. -/
def Push.toDo {φ : Type} : Push φ → ℕ
  | .idle => 0
  | .walking _ rest => 1 + 12 * rest.length
  | .notifying _ _ rest => 2 + 12 * rest.length

/-- The notifications that a push owes to a slot that it has appended to. -/
def Push.owed {φ : Type} (push : Push φ) (k : SlotId) : ℕ :=
  match push with
  | .notifying _ j _ => if j = k then 1 else 0
  | .idle | .walking _ _ => 0

namespace StreamDistributor

variable {φ : Type} {d d' : StreamDistributor φ} {a : Action φ} {k j : SlotId}
  {slot slot' : ConsumerSlot φ}

/-- The actions that only finish what has been begun: no new call, no spurious wakeup. -/
def Action.Finishes : Action φ → Prop
  | .link _ | .continuePush | .continueDestroy => True
  | .slot _ a => a.finishes = true
  | .addConsumer _ | .removeConsumer _ | .push _ | .destroy => False

instance (a : Action φ) : Decidable a.Finishes :=
  match a with
  | .link _ | .continuePush | .continueDestroy => isTrue trivial
  | .slot _ a => inferInstanceAs (Decidable (a.finishes = true))
  | .addConsumer _ | .removeConsumer _ | .push _ | .destroy => isFalse id

/-- None of these actions is enabled. -/
def AtRest (d : StreamDistributor φ) : Prop := ∀ a : Action φ, a.Finishes → d.step a = none

/-- What is left to do of the destructor. -/
def destroyToDo (d : StreamDistributor φ) : ℕ :=
  match d.destroying with
  | none => 0
  | some ks => ks.length

/-- A bound on the steps that finish what has been begun. -/
def toDo (d : StreamDistributor φ) : ℕ :=
  (d.heap.map ConsumerSlot.toDo).sum + d.push.toDo + d.destroyToDo

theorem sum_toDo_set (hk : d.heap[k]? = some slot) (slot' : ConsumerSlot φ) :
    ((d.heap.set k slot').map ConsumerSlot.toDo).sum + slot.toDo =
      (d.heap.map ConsumerSlot.toDo).sum + slot'.toDo :=
  sum_map_set hk ConsumerSlot.toDo slot'

theorem toDo_slot_lt {b : Worker.Act (φ × ℕ)} {worker : Worker (φ × ℕ)}
    (hw : slot.worker.Step (.dropOldest slot.maxQueueSize) b worker) (hb : b.finishes = true) :
    ConsumerSlot.toDo { slot with worker := worker } < slot.toDo := by
  have := hw.toDo_lt hb
  unfold ConsumerSlot.toDo
  dsimp only
  omega

theorem Step.toDo_lt (h : Step d a d') (ha : a.Finishes) : d'.toDo < d.toDo := by
  unfold toDo
  cases h with
  | @link k slot hk hl =>
    have hsum := sum_toDo_set hk { slot with linked := true }
    unfold ConsumerSlot.toDo at hsum
    dsimp only at hsum
    rw [hl, if_pos rfl, if_neg Bool.false_ne_true] at hsum
    show ((d.heap.set k { slot with linked := true }).map ConsumerSlot.toDo).sum + d.push.toDo +
      d.destroyToDo < _
    unfold ConsumerSlot.toDo
    omega
  | pushEnd hp =>
    rw [hp]
    show (d.heap.map ConsumerSlot.toDo).sum + 0 + d.destroyToDo < _
    simp only [Push.toDo]
    omega
  | @enqueue x k rest slot worker hp hk hw =>
    have hsum := sum_toDo_set hk { slot with worker := worker }
    have hcost := hw.toDo_enqueue
    have hslot : ConsumerSlot.toDo { slot with worker := worker } ≤ slot.toDo + 10 := by
      unfold ConsumerSlot.toDo
      dsimp only
      omega
    rw [hp]
    show ((d.heap.set k { slot with worker := worker }).map ConsumerSlot.toDo).sum +
      (2 + 12 * rest.length) + d.destroyToDo < _ + (1 + 12 * (k :: rest).length) + _
    rw [List.length_cons]
    omega
  | @notifyOne x k rest slot worker hp hk hw =>
    have hsum := sum_toDo_set hk { slot with worker := worker }
    have hslot := toDo_slot_lt hw rfl
    rw [hp]
    show ((d.heap.set k { slot with worker := worker }).map ConsumerSlot.toDo).sum +
      (1 + 12 * rest.length) + d.destroyToDo < _ + (2 + 12 * rest.length) + _
    omega
  | @destroyNext k rest slot worker hd hk hw =>
    have hsum := sum_toDo_set hk { slot with worker := worker }
    have hslot := toDo_slot_lt hw rfl
    show ((d.heap.set k { slot with worker := worker }).map ConsumerSlot.toDo).sum + d.push.toDo +
      d.destroyToDo < _
    omega
  | @destroyed k rest slot hd hk hst =>
    have hcost : d.destroyToDo = rest.length + 1 := by
      unfold destroyToDo
      rw [hd]
      rfl
    show (d.heap.map ConsumerSlot.toDo).sum + d.push.toDo + rest.length < _
    omega
  | @slot k b slot worker hk hb hw =>
    have hsum := sum_toDo_set hk { slot with worker := worker }
    have hslot := toDo_slot_lt hw ha
    show ((d.heap.set k { slot with worker := worker }).map ConsumerSlot.toDo).sum + d.push.toDo +
      d.destroyToDo < _
    omega
  | addConsumer | removeNone | remove | push | destroy => exact ha.elim

/-! ## What every step keeps -/

/-- What a slot needs for its rest: its worker does not sleep while there is work, a push that has
appended to it has still to notify, only a worker that runs is stopped, and only `remove_consumer`
clears. -/
structure SlotTended (push : Push φ) (k : SlotId) (slot : ConsumerSlot φ) : Prop where
  wakeful : slot.worker.Wakeful
  owed_eq : slot.worker.owed = push.owed k
  linked : slot.worker.stage ≠ .idle ∨ slot.removed = true → slot.linked = true
  removed : slot.worker.stage = .cleared → slot.removed = true

/-- The slot is one that the destructor can stop. -/
def Listed (d : StreamDistributor φ) (k : SlotId) : Prop :=
  ∃ slot, d.heap[k]? = some slot ∧ slot.linked = true ∧ slot.removed = false

/-- What every step keeps of a distributor, for its rest. -/
structure Tended (d : StreamDistributor φ) : Prop where
  inv : d.Inv
  slot : ∀ k slot, d.heap[k]? = some slot → SlotTended d.push k slot
  notifying : ∀ x k rest, d.push = .notifying x k rest → k < d.heap.length
  slots : ∀ k ∈ d.slots, d.Listed k
  destroying : ∀ ks, d.destroying = some ks → ∀ k ∈ ks, d.Listed k

theorem tended_new : (new : StreamDistributor φ).Tended where
  inv := inv_new
  slot _ _ h := nomatch h
  notifying _ _ _ h := nomatch h
  slots _ h := absurd h List.not_mem_nil
  destroying _ h := nomatch h

theorem slotTended_new (push : Push φ) (id : UInt32) (config : ConsumerConfig)
    (h : push.owed k = 0) : SlotTended push k (.new id config) := by
  refine ⟨Worker.wakeful_new, h.symm, ?_, nofun⟩
  rintro (h | h)
  · exact absurd rfl h
  · cases h

theorem SlotTended.step {push push' : Push φ} {b : Worker.Act (φ × ℕ)} {worker : Worker (φ × ℕ)}
    {removed : Bool} (hs : SlotTended push k slot)
    (hw : slot.worker.Step (.dropOldest slot.maxQueueSize) b worker)
    (howed : push'.owed k + b.notified = push.owed k + b.adds.length)
    (hlinked : b = .beginStop → slot.linked = true)
    (hremoved : removed = slot.removed ∨ b = .beginStop)
    (hcleared : b = .clear → slot.removed = true) :
    SlotTended push' k { slot with worker := worker, removed := removed } := by
  refine ⟨hs.wakeful.step hw, ?_, ?_, ?_⟩
  · have := hw.owed_add
    have := hs.owed_eq
    show worker.owed = push'.owed k
    omega
  · rintro (h | h)
    · rcases hw.stage_ne_idle h with h | rfl
      · exact hs.linked (.inl h)
      · exact hlinked rfl
    · rcases hremoved with hr | rfl
      · exact hs.linked (.inr (hr.symm.trans h))
      · exact hlinked rfl
  · intro h
    have hslot : slot.removed = true := by
      rcases hw.stage_cleared h with h | rfl
      · exact hs.removed h
      · exact hcleared rfl
    rcases hremoved with hr | rfl
    · exact hr.trans hslot
    · -- a stop that begins has not cleared anything
      cases hw
      cases h

theorem Listed.set (hl : d.Listed j) (hk : d.heap[k]? = some slot)
    (hheap : d'.heap = d.heap.set k slot') (hlinked : slot.linked = true → slot'.linked = true)
    (hremoved : slot'.removed = slot.removed) : d'.Listed j := by
  obtain ⟨s, hs, hsl, hsr⟩ := hl
  unfold Listed
  rw [hheap, getElem?_set_some hk]
  split_ifs with h
  · rw [h, hk] at hs
    cases hs
    exact ⟨slot', rfl, hlinked hsl, hremoved.trans hsr⟩
  · exact ⟨s, hs, hsl, hsr⟩

theorem Tended.set (hw : d.Tended) (hi : d'.Inv) (hk : d.heap[k]? = some slot)
    (hheap : d'.heap = d.heap.set k slot') (hslot : SlotTended d'.push k slot')
    (howed : ∀ j, j ≠ k → d'.push.owed j = d.push.owed j)
    (hnotifying : ∀ x j rest, d'.push = .notifying x j rest → j < d.heap.length)
    (hslots : ∀ j ∈ d'.slots, d'.Listed j)
    (hdestroying : ∀ ks, d'.destroying = some ks → ∀ j ∈ ks, d'.Listed j) : d'.Tended := by
  refine ⟨hi, ?_, ?_, hslots, hdestroying⟩
  · intro j s hj
    rw [hheap, getElem?_set_some hk] at hj
    split_ifs at hj with h
    · cases hj
      rwa [h]
    · have hs := hw.slot j s hj
      exact ⟨hs.wakeful, hs.owed_eq.trans (howed j h).symm, hs.linked, hs.removed⟩
  · intro x j rest hp
    rw [hheap, List.length_set]
    exact hnotifying x j rest hp

theorem Tended.setWorker (hw : d.Tended) (hi : d'.Inv) (hk : d.heap[k]? = some slot)
    {b : Worker.Act (φ × ℕ)} {worker : Worker (φ × ℕ)}
    (hstep : slot.worker.Step (.dropOldest slot.maxQueueSize) b worker)
    (hheap : d'.heap = d.heap.set k { slot with worker := worker })
    (howed : d'.push.owed k + b.notified = d.push.owed k + b.adds.length)
    (howed' : ∀ j, j ≠ k → d'.push.owed j = d.push.owed j)
    (hnotifying : ∀ x j rest, d'.push = .notifying x j rest → j < d.heap.length)
    (hlinked : b = .beginStop → slot.linked = true) (hcleared : b = .clear → slot.removed = true)
    (hslots : d'.slots = d.slots) (hdestroying : d'.destroying = d.destroying) : d'.Tended := by
  have hlisted : ∀ j, d.Listed j → d'.Listed j := fun j hl => hl.set hk hheap id rfl
  have hslot := (hw.slot k slot hk).step hstep howed hlinked (.inl rfl) hcleared
  refine hw.set hi hk hheap hslot howed' hnotifying ?_ ?_
  · intro j hj
    exact hlisted j (hw.slots j (hslots ▸ hj))
  · intro ks hks j hj
    exact hlisted j (hw.destroying ks (hdestroying ▸ hks) j hj)

theorem Tended.addConsumer (hw : d.Tended) (config : ConsumerConfig) :
    (d.addConsumer config).Tended := by
  have hlisted : ∀ j, d.Listed j → (d.addConsumer config).Listed j := by
    rintro j ⟨s, hs, hl, hr⟩
    have hlt := (List.getElem?_eq_some_iff.mp hs).1
    refine ⟨s, ?_, hl, hr⟩
    rw [getElem?_addConsumer, if_neg (by omega), hs]
  have hnew : d.push.owed d.heap.length = 0 := by
    unfold Push.owed
    cases hp : d.push with
    | notifying x j rest =>
      exact if_neg (Nat.ne_of_lt (hw.notifying x j rest hp))
    | idle | walking => rfl
  refine ⟨hw.inv.addConsumer config, ?_, ?_, fun j hj => hlisted j (hw.slots j hj),
    fun ks hks j hj => hlisted j (hw.destroying ks hks j hj)⟩
  · intro j s hj
    rw [getElem?_addConsumer] at hj
    split_ifs at hj with h
    · cases hj
      exact slotTended_new _ _ _ (h ▸ hnew)
    · exact hw.slot j s hj
  · intro x j rest hp
    show j < (d.heap ++ [ConsumerSlot.new d.nextConsumerId config]).length
    rw [List.length_append]
    exact Nat.lt_add_right _ (hw.notifying x j rest hp)

theorem Tended.link (hw : d.Tended) (hi : d'.Inv) (hk : d.heap[k]? = some slot)
    (hl : slot.linked = false)
    (hd : d' = { d with
      heap := d.heap.set k { slot with linked := true }, slots := d.slots ++ [k] }) :
    d'.Tended := by
  subst hd
  have hslot := hw.slot k slot hk
  have hremoved : slot.removed = false := by
    by_contra hr
    rw [hslot.linked (.inr (by simpa using hr))] at hl
    cases hl
  have hlisted : ∀ j, d.Listed j →
      Listed { d with
        heap := d.heap.set k { slot with linked := true }, slots := d.slots ++ [k] } j :=
    fun j hl => hl.set hk rfl (fun _ => rfl) rfl
  refine hw.set hi hk rfl ⟨hslot.wakeful, hslot.owed_eq, fun _ => rfl, hslot.removed⟩
    (fun _ _ => rfl) hw.notifying ?_ fun ks hks j hj => hlisted j (hw.destroying ks hks j hj)
  intro j hj
  rcases List.mem_append.mp hj with hj | hj
  · exact hlisted j (hw.slots j hj)
  · rw [List.mem_singleton.mp hj]
    refine ⟨{ slot with linked := true }, ?_, rfl, hremoved⟩
    exact List.getElem?_set_self (List.getElem?_eq_some_iff.mp hk).1

theorem Tended.remove (hw : d.Tended) (hi : d'.Inv) (hk : d.heap[k]? = some slot)
    (hmem : k ∈ d.slots) (hnone : d.destroying = none) {worker : Worker (φ × ℕ)}
    (hstep : slot.worker.Step (.dropOldest slot.maxQueueSize) .beginStop worker)
    (hd : d' = { d with
      heap := d.heap.set k { slot with worker := worker, removed := true }
      slots := d.slots.erase k }) : d'.Tended := by
  subst hd
  have hlinked : slot.linked = true := by
    obtain ⟨s, hs, hl, -⟩ := hw.slots k hmem
    rw [hk] at hs
    cases hs
    exact hl
  refine hw.set hi hk rfl ((hw.slot k slot hk).step hstep rfl (fun _ => hlinked) (.inr rfl) nofun)
    (fun _ _ => rfl) hw.notifying ?_ fun ks hks => nomatch hnone.symm.trans hks
  intro j hj
  -- the slot itself is no longer in `slots_`
  have hne : j ≠ k := by
    rintro rfl
    exact hw.inv.slots_nodup.not_mem_erase hj
  obtain ⟨s, hs, hl, hr⟩ := hw.slots j (List.mem_of_mem_erase hj)
  refine ⟨s, ?_, hl, hr⟩
  show (d.heap.set k _)[j]? = some s
  rw [getElem?_set_some hk, if_neg hne, hs]

theorem mem_slots_of_findConsumer {id : UInt32} (h : d.findConsumer id = some k) : k ∈ d.slots :=
  List.mem_of_find?_eq_some h

theorem destroying_of_removeConsumer {id : UInt32} (h : d.step (.removeConsumer id) = some d') :
    d.destroying = none := by
  rw [StreamDistributor.step] at h
  split_ifs at h with hd
  simpa using hd

theorem Tended.beginPush (hw : d.Tended) (hp : d.push = .idle) (frame : φ) :
    (d.beginPush frame).Tended := by
  have hget : ∀ j s', (d.beginPush frame).heap[j]? = some s' → ∃ s, d.heap[j]? = some s ∧
      s' = if j ∈ d.slots then { s with offered := s.offered ++ [(frame, d.pushes)] } else s := by
    intro j s' hj
    have hj : (d.heap.mapIdx _)[j]? = some s' := hj
    rw [List.getElem?_mapIdx] at hj
    obtain ⟨s, hs, rfl⟩ := Option.map_eq_some_iff.mp hj
    exact ⟨s, hs, rfl⟩
  have hlisted : ∀ j, d.Listed j → (d.beginPush frame).Listed j := by
    rintro j ⟨s, hs, hl, hr⟩
    unfold Listed
    show ∃ slot, (d.heap.mapIdx _)[j]? = some slot ∧ _
    rw [List.getElem?_mapIdx, hs, Option.map_some]
    refine ⟨_, rfl, ?_⟩
    split_ifs <;> exact ⟨hl, hr⟩
  refine ⟨hw.inv.beginPush hp frame, ?_, nofun, fun j hj => hlisted j (hw.slots j hj),
    fun ks hks j hj => hlisted j (hw.destroying ks hks j hj)⟩
  intro j s' hj
  obtain ⟨s, hs, rfl⟩ := hget j s' hj
  have hslot := hw.slot j s hs
  rw [hp] at hslot
  split_ifs <;> exact ⟨hslot.wakeful, hslot.owed_eq, hslot.linked, hslot.removed⟩

theorem Tended.step (hw : d.Tended) (h : d.step a = some d') : d'.Tended := by
  have hstep := Step.of_step h
  have hi := hw.inv.step hstep
  cases hstep with
  | addConsumer config => exact hw.addConsumer config
  | link hk hl => exact hw.link hi hk hl rfl
  | removeNone => exact hw
  | remove hf hk hb =>
    exact hw.remove hi hk (mem_slots_of_findConsumer hf) (destroying_of_removeConsumer h) hb rfl
  | push frame hp => exact hw.beginPush hp frame
  | pushEnd hp =>
    refine ⟨hi, ?_, ?_, hw.slots, hw.destroying⟩
    · intro j s hj
      have hslot := hw.slot j s hj
      rw [hp] at hslot
      exact ⟨hslot.wakeful, hslot.owed_eq, hslot.linked, hslot.removed⟩
    · rintro _ _ _ ⟨⟩
  | @enqueue x k rest slot worker hp hk hb =>
    refine hw.setWorker hi hk hb rfl ?_ ?_ ?_ ?_ ?_ rfl rfl
    · rw [hp]
      simp [Push.owed, Worker.Act.notified, Worker.Act.adds]
    · intro j hj
      rw [hp]
      exact if_neg (Ne.symm hj)
    · rintro _ _ _ ⟨⟩
      exact (List.getElem?_eq_some_iff.mp hk).1
    · rintro ⟨⟩
    · rintro ⟨⟩
  | @notifyOne x k rest slot worker hp hk hb =>
    refine hw.setWorker hi hk hb rfl ?_ ?_ ?_ ?_ ?_ rfl rfl
    · rw [hp]
      simp [Push.owed, Worker.Act.notified, Worker.Act.adds]
    · intro j hj
      rw [hp]
      exact (if_neg (Ne.symm hj)).symm
    · rintro _ _ _ ⟨⟩
    · rintro ⟨⟩
    · rintro ⟨⟩
  | destroy hd =>
    refine ⟨hi, hw.slot, hw.notifying, fun _ h => absurd h List.not_mem_nil, ?_⟩
    rintro _ ⟨⟩
    exact hw.slots
  | @destroyNext k rest slot worker hd hk hb =>
    refine hw.setWorker hi hk hb rfl rfl (fun _ _ => rfl) hw.notifying (fun _ => ?_) ?_ rfl rfl
    · obtain ⟨s, hs, hl, -⟩ := hw.destroying _ hd k List.mem_cons_self
      rw [hk] at hs
      cases hs
      exact hl
    · rintro ⟨⟩
  | destroyed hd hk hst =>
    refine ⟨hi, hw.slot, hw.notifying, hw.slots, ?_⟩
    rintro _ ⟨⟩ j hj
    exact hw.destroying _ hd j (List.mem_cons_of_mem _ hj)
  | @slot k b slot worker hk hallows hb =>
    refine hw.setWorker hi hk hb rfl ?_ (fun _ _ => rfl) hw.notifying ?_ ?_ rfl rfl
    · cases b with
      | enqueue | notifyOne => cases hallows
      | work | finish | spurious | beginStop | store | notifyAll | join | clear => rfl
    · rintro rfl
      cases hallows
    · rintro rfl
      exact hallows

/-! ## At rest -/

theorem AtRest.worker_step (hrest : d.AtRest) (hk : d.heap[k]? = some slot)
    {b : Worker.Act (φ × ℕ)} (hb : b.finishes = true) (hallows : slot.allows b = true) :
    slot.worker.step (.dropOldest slot.maxQueueSize) b = none := by
  cases hstep : slot.worker.step (.dropOldest slot.maxQueueSize) b with
  | none => rfl
  | some worker =>
    have hnone := hrest (.slot k b) hb
    rw [step_slot hk hallows hstep] at hnone
    cases hnone

theorem AtRest.work (hrest : d.AtRest) (hi : d.Inv) (hk : d.heap[k]? = some slot)
    (hp : slot.worker.place ≠ .test) :
    slot.worker.step (.dropOldest slot.maxQueueSize) .work = none := by
  have hlinked : slot.linked = true := by
    by_contra hl
    exact hp ((hi.wf k slot hk).unlinked (by simpa using hl))
  exact hrest.worker_step hk rfl hlinked

theorem AtRest.push (hrest : d.AtRest) (hw : d.Tended) : d.push = .idle := by
  have hnone : d.continuePush = none := hrest .continuePush trivial
  unfold continuePush at hnone
  cases hp : d.push with
  | idle => rfl
  | walking x rest =>
    rw [hp] at hnone
    cases rest with
    | nil => cases hnone
    | cons k rest =>
      have hlt := hw.inv.rest_lt k (by rw [hp]; exact List.mem_cons_self)
      have hk := List.getElem?_eq_getElem hlt
      have hmutex : d.heap[k].worker.place.holdsMutex = false := by
        by_cases htest : d.heap[k].worker.place = .test
        · rw [htest]
          rfl
        · exact (hw.slot k _ hk).wakeful.attentive.not_holdsMutex (hrest.work hw.inv hk htest)
      simp only [onSlot, hk, Option.bind_some, ConsumerSlot.act, Worker.step, hmutex,
        Bool.false_eq_true, if_false, Policy.dropOldest, Option.map_some, reduceCtorEq] at hnone
  | notifying x k rest =>
    rw [hp] at hnone
    have hlt := hw.notifying x k rest hp
    have hk := List.getElem?_eq_getElem hlt
    have howed : d.heap[k].worker.owed = 1 := by
      rw [(hw.slot k _ hk).owed_eq, hp]
      exact if_pos rfl
    simp only [onSlot, hk, Option.bind_some, ConsumerSlot.act, Worker.step, howed,
      Nat.one_ne_zero, if_false, Option.map_some, reduceCtorEq] at hnone

theorem AtRest.drained (hrest : d.AtRest) (hw : d.Tended) (hk : d.heap[k]? = some slot)
    (hl : slot.linked = true) : slot.Drained := by
  have hslot := hw.slot k slot hk
  have hidle := hrest.push hw
  have howed : slot.worker.owed = 0 := by rw [hslot.owed_eq, hidle]; rfl
  have hoffered := hw.inv.offered_eq k slot hk
  rw [hidle, show (Push.idle : Push φ).owes k = [] from rfl, List.append_nil] at hoffered
  rcases hslot.wakeful.settled howed (hrest.worker_step hk rfl hl) (hrest.worker_step hk rfl hl)
      (hrest.worker_step hk rfl rfl) (hrest.worker_step hk rfl rfl)
      (hrest.worker_step hk rfl rfl) with ⟨hp, hq, hperm, hs⟩ | ⟨hp, hs⟩
  · left
    rw [hoffered]
    exact ⟨hp, hq, hperm, hs⟩
  · refine .inr ⟨hp, ?_⟩
    rcases hs with hs | hs
    · cases hr : slot.removed with
      | false => exact hs
      | true =>
        -- `remove_consumer` has still to clear the queue
        have hnone := hrest.worker_step hk (b := .clear) rfl hr
        rw [Worker.step, if_pos ⟨hs, by rw [hp]; rfl⟩] at hnone
        cases hnone
    · rw [hslot.removed hs]
      exact hs

theorem AtRest.destroying (hrest : d.AtRest) (hw : d.Tended) (hno : d.NoDeadlock) :
    d.destroying = none ∨ d.destroying = some [] := by
  have hnone : d.continueDestroy = none := hrest .continueDestroy trivial
  unfold continueDestroy at hnone
  cases hd : d.destroying with
  | none => exact .inl rfl
  | some ks =>
    cases ks with
    | nil => exact .inr rfl
    | cons k rest =>
      obtain ⟨slot, hk, hl, hr⟩ := hw.destroying _ hd k List.mem_cons_self
      simp only [hd, hk, Option.bind_some] at hnone
      rcases hrest.drained hw hk hl with ⟨-, -, -, hs | hdead⟩ | ⟨-, hs⟩
      · simp only [hs, if_true, onSlot, hk, Option.bind_some, ConsumerSlot.act, Worker.step,
          Option.map_some, reduceCtorEq] at hnone
      · exact absurd hdead (hno k slot hk)
      · rw [hr] at hs
        have hs : slot.worker.stage = .joined := hs
        simp only [hs, reduceCtorEq, if_false, if_true] at hnone

theorem tended_of_reachable (hd : machine.Reachable d) : d.Tended := by
  refine hd.invariant (I := Tended) (fun d h0 => ?_) fun _ _ _ hw h => hw.step h
  rw [show d = new from h0]
  exact tended_new

/-- **Consumers catch up.** From every reachable state, a run in which nothing new is begun takes at
most `toDo` steps. Where nothing is left to do, no push is in progress, every consumer has been
given, or has dropped, all that it was offered, or is gone; and the destructor, if it was called,
has returned, unless a worker sleeps through its stop. Such a state is reached, whatever was done
first. -/
theorem drained_at_rest (hd : machine.Reachable d) {as : List (Action φ)}
    (has : ∀ a ∈ as, a.Finishes) (hrun : machine.run d as = some d') :
    as.length ≤ d.toDo ∧
      (d'.AtRest → d'.push = .idle ∧
        (∀ (k : SlotId) (slot : ConsumerSlot φ), d'.heap[k]? = some slot → slot.linked = true →
          slot.Drained) ∧
        (d'.NoDeadlock → d'.destroying = none ∨ d'.destroying = some [])) ∧
      ∃ bs d'', (∀ a ∈ bs, a.Finishes) ∧ machine.run d' bs = some d'' ∧ d''.AtRest := by
  have hlower : ∀ (d : StreamDistributor φ) a d', True → a.Finishes → machine.step d a = some d' →
      d'.toDo < d.toDo := fun _ _ _ _ ha h => (Step.of_step h).toDo_lt ha
  have hkeep : ∀ (d : StreamDistributor φ) a d', True → a.Finishes → machine.step d a = some d' →
      True := fun _ _ _ _ _ _ => trivial
  have hw := tended_of_reachable (hd.run hrun)
  refine ⟨?_, ?_, Machine.exists_run_stuck trivial hkeep hlower⟩
  · have := Machine.length_add_potential_le trivial hkeep hlower has hrun
    omega
  · intro hrest
    exact ⟨hrest.push hw, fun k slot hk hl => hrest.drained hw hk hl, hrest.destroying hw⟩

/-- A push has begun while another frame waits in the queue. -/
def pushedTwice : List (Action ℕ) :=
  [.addConsumer ⟨0⟩, .link 0, .push 7, .continuePush, .continuePush, .continuePush, .push 8]

/-- The push ends, and the worker takes the frame that is left, and waits again. -/
def catchesUp : List (Action ℕ) :=
  [.slot 0 .work, .continuePush, .continuePush, .continuePush, .slot 0 .work, .slot 0 .work,
    .slot 0 .work, .slot 0 (.finish true), .slot 0 .work, .slot 0 .work, .slot 0 .work,
    .slot 0 .work]

/-- The first frame gave way to the second, which has been given to the callback. -/
theorem drained_at_rest_pushedTwice :
    ∃ d d', machine.run new pushedTwice = some d ∧ machine.run d catchesUp = some d' ∧
      catchesUp.length ≤ d.toDo ∧ d'.AtRest ∧ d'.push = .idle ∧
      d'.heap.map (fun slot => (slot.given, slot.worker.ledger.dropped)) =
        [([(8, 1)], [(7, 0)])] ∧
      ∀ (k : SlotId) (slot : ConsumerSlot ℕ), d'.heap[k]? = some slot → slot.linked = true →
        slot.Drained := by
  have h : ∀ d d', machine.run new pushedTwice = some d → machine.run d catchesUp = some d' →
      d'.AtRest → catchesUp.length ≤ d.toDo ∧ d'.push = .idle ∧
        ∀ (k : SlotId) (slot : ConsumerSlot ℕ), d'.heap[k]? = some slot → slot.linked = true →
          slot.Drained := by
    intro d d' hd hrun hrest
    obtain ⟨hlength, hdrained, -⟩ :=
      drained_at_rest (Machine.Reachable.run (.init rfl) hd) (by decide) hrun
    exact ⟨hlength, (hdrained hrest).1, (hdrained hrest).2.1⟩
  have hend : ∀ d d', machine.run new pushedTwice = some d → machine.run d catchesUp = some d' →
      d'.AtRest := by
    rintro _ _ ⟨⟩ ⟨⟩ a ha
    cases a with
    | link k => cases k <;> rfl
    | continuePush | continueDestroy => rfl
    | slot k b =>
      cases k with
      | succ k => rfl
      | zero =>
        cases b with
        | spurious => cases ha
        | work | finish | beginStop | enqueue | notifyOne | store | notifyAll | join | clear => rfl
    | addConsumer | removeConsumer | push | destroy => exact ha.elim
  have hrest := hend _ _ rfl rfl
  obtain ⟨hlength, hpush, hdrained⟩ := h _ _ rfl rfl hrest
  exact ⟨_, _, rfl, rfl, hlength, hrest, hpush, rfl, hdrained⟩

end StreamDistributor

namespace RecorderConsumer

variable {n : ℕ} {r r' : RecorderConsumer} {a : Action}

/-- The actions that only finish what has been begun: no new frame, no call of the destructor, no
spurious wakeup. -/
def Action.Finishes : Action → Prop
  | .onFrame _ | .act .beginStop => False
  | .act a => a.finishes = true

instance : (a : Action) → Decidable a.Finishes
  | .onFrame _ | .act .beginStop => isFalse id
  | .act .work | .act (.finish _) | .act .spurious | .act (.enqueue _) | .act .notifyOne
  | .act .store | .act .notifyAll | .act .join | .act .clear =>
    inferInstanceAs (Decidable (_ = true))

/-- None of these actions is enabled. -/
def AtRest (r : RecorderConsumer) : Prop := ∀ a : Action, a.Finishes → r.step a = none

theorem toDo_lt (ha : a.Finishes) (h : r.step a = some r') : r'.worker.toDo < r.worker.toDo := by
  obtain ⟨b, hb, hstep, -⟩ := step_worker h
  rcases hb with rfl | ⟨frame, x, rfl, -⟩
  · refine hstep.toDo_lt ?_
    cases b with
    | beginStop => exact ha.elim
    | work | finish | spurious | enqueue | notifyOne | store | notifyAll | join | clear => exact ha
  · exact ha.elim

/-- The worker of a recorder is wakeful, and its queue is never given up. -/
theorem wakeful_of_run {as : List Action} (h : (machine n).run (new n) as = some r) :
    r.worker.Wakeful ∧ r.worker.stage ≠ .cleared := by
  refine Machine.keep_run (J := fun r => r.worker.Wakeful ∧ r.worker.stage ≠ .cleared)
    ⟨Worker.wakeful_new, show Stage.idle ≠ .cleared by nofun⟩ ?_ h
  rintro r a r' ⟨hw, hs⟩ h
  obtain ⟨b, hb, hstep, -⟩ := step_worker h
  refine ⟨hw.step hstep, fun hcleared => ?_⟩
  rcases hstep.stage_cleared hcleared with hs' | rfl
  · exact hs hs'
  · rcases hb with rfl | ⟨frame, x, -, hx⟩
    · cases h
    · cases hx

theorem AtRest.worker_step (hrest : r.AtRest) {b : Worker.Act (WriteEntry × ℕ)}
    (hb : Action.Finishes (.act b)) (hallows : allows b = true) :
    r.worker.step (policy r.maxQueueSize) b = none := by
  cases hstep : r.worker.step (policy r.maxQueueSize) b with
  | none => rfl
  | some worker =>
    have hnone := hrest (.act b) hb
    rw [step_act hallows hstep] at hnone
    cases hnone

theorem AtRest.recorded (hrest : r.AtRest) {as : List Action}
    (hrun : (machine n).run (new n) as = some r) :
    (r.NothingVanished ∧ (r.worker.stage = .idle ∨ ¬ r.NoDeadlock)) ∨ r.Destroyed := by
  obtain ⟨hw, hcleared⟩ := wakeful_of_run hrun
  have haccounts := (inv_of_run hrun).toAccounts
  have howed : r.worker.owed = 0 := by
    by_contra howed
    have hnone := hrest.worker_step (b := .notifyOne) rfl rfl
    rw [Worker.step, if_neg howed] at hnone
    cases hnone
  rcases hw.settled howed (hrest.worker_step rfl rfl) (hrest.worker_step rfl rfl)
      (hrest.worker_step rfl rfl) (hrest.worker_step rfl rfl) (hrest.worker_step rfl rfl) with
    ⟨hp, hq, -, hs⟩ | ⟨-, hs⟩
  · have hsum := haccounts.accepted_eq
    have hpart := haccounts.partition
    rw [hq, hp] at hsum hpart
    rw [show Place.waiting.inHand = ([] : List (WriteEntry × ℕ)) from rfl, List.append_nil,
      List.append_nil] at hpart
    exact .inl ⟨⟨hsum, haccounts.file_eq, hpart⟩, hs.imp_right fun hdead hno => hno hdead⟩
  · exact .inr (hs.resolve_right hcleared)

/-- **The recorder catches up.** In a run with no new frame and no call of the destructor, the
writer, the pushes and a destructor in progress take at most `toDo` steps. Where nothing is left to
do, every frame accepted is in the file, whole and in order, or was dropped from a full queue; or
the destructor has returned, or waits for a writer that sleeps through it. Such a state is reached,
whatever was done first. -/
theorem recorded_at_rest {as bs : List Action} (hrun : (machine n).run (new n) as = some r)
    (hbs : ∀ a ∈ bs, a.Finishes) (hrun' : (machine n).run r bs = some r') :
    bs.length ≤ r.worker.toDo ∧
      (r'.AtRest → (r'.NothingVanished ∧ (r'.worker.stage = .idle ∨ ¬ r'.NoDeadlock)) ∨
        r'.Destroyed) ∧
      ∃ cs r'', (∀ a ∈ cs, a.Finishes) ∧ (machine n).run r' cs = some r'' ∧ r''.AtRest := by
  have hlower : ∀ (r : RecorderConsumer) a r', True → a.Finishes →
      (machine n).step r a = some r' → r'.worker.toDo < r.worker.toDo :=
    fun _ _ _ _ ha h => toDo_lt ha h
  have hkeep : ∀ (r : RecorderConsumer) a r', True → a.Finishes → (machine n).step r a = some r' →
      True := fun _ _ _ _ _ _ => trivial
  refine ⟨?_, ?_, Machine.exists_run_stuck trivial hkeep hlower⟩
  · have := Machine.length_add_potential_le trivial hkeep hlower hbs hrun'
    omega
  · intro hrest
    have hwhole : (machine n).run (new n) (as ++ bs) = some r' := by
      rw [Machine.run_append, hrun]
      exact hrun'
    exact hrest.recorded hwhole

/-- The two pushes notify, and the writer, back from its first entry, takes the second and waits
again. -/
def secondWritten : List Action :=
  [.act .notifyOne, .act .notifyOne, .act .work, .act .work, .act .work, .act .work,
    .act (.finish true), .act .work, .act .work, .act .work, .act .work]

/-- The first frame and the IDR are in the file, and the writer waits again. -/
theorem recorded_at_rest_idrComes :
    ∃ r r', (machine 1).run (new 1) idrComes = some r ∧
      (machine 1).run r secondWritten = some r' ∧ secondWritten.length ≤ r.worker.toDo ∧
      r'.AtRest ∧ r'.file = [7, 7, 9, 9] ∧ (r'.NothingVanished ∨ r'.Destroyed) := by
  have h : ∀ r r', (machine 1).run (new 1) idrComes = some r →
      (machine 1).run r secondWritten = some r' → r'.AtRest →
      secondWritten.length ≤ r.worker.toDo ∧ (r'.NothingVanished ∨ r'.Destroyed) := by
    intro r r' hr hrun hrest
    obtain ⟨hlength, hrecorded, -⟩ := recorded_at_rest hr (by decide) hrun
    exact ⟨hlength, (hrecorded hrest).imp_left And.left⟩
  have hend : ∀ r r', (machine 1).run (new 1) idrComes = some r →
      (machine 1).run r secondWritten = some r' → r'.AtRest := by
    rintro _ _ ⟨⟩ ⟨⟩ a ha
    cases a with
    | onFrame => exact ha.elim
    | act b =>
      cases b with
      | finish ok => cases ok <;> rfl
      | spurious | beginStop | enqueue => cases ha
      | work | notifyOne | store | notifyAll | join | clear => rfl
  have hrest := hend _ _ rfl rfl
  obtain ⟨hlength, hrecorded⟩ := h _ _ rfl rfl hrest
  exact ⟨_, _, rfl, rfl, hlength, hrest, rfl, hrecorded⟩

end RecorderConsumer

end Eye
