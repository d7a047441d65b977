import Mathlib.Data.List.Nodup
import Eye.Stream.StreamDistributor

/-!
# The accounts of a distributor's deliveries

`accounts`: whatever the threads do, the queue of every slot is bounded, its callback gets frames of
the pushes that saw the slot, in order and once each, only the oldest frame of a full queue is
dropped, and every frame that was enqueued is accounted for.

`Step.slot_cases` looks at a step of the distributor from one slot: it is nothing or a step of that
slot's worker, so what holds of every worker holds of every slot. What ties the slots together is
kept in `Inv`: a slot has been offered what it has enqueued and what the push in progress still owes
it.
-/

namespace Eye

/-- The slots that a push has still to append to. -/
def Push.rest {φ : Type} : Push φ → List SlotId
  | .idle => []
  | .walking _ rest | .notifying _ _ rest => rest

/-- The frame that the push in progress has still to append to the queue of a slot. -/
def Push.owes {φ : Type} (push : Push φ) (k : SlotId) : List (φ × ℕ) :=
  match push with
  | .idle => []
  | .walking x rest | .notifying x _ rest => if k ∈ rest then [x] else []

namespace ConsumerSlot

variable {φ : Type}

/-- The frames given to the callback of the slot, in order. -/
def given (slot : ConsumerSlot φ) : List (φ × ℕ) := slot.worker.ledger.left

/-- What holds of a slot by itself. -/
structure Wf (slot : ConsumerSlot φ) : Prop where
  worker : slot.worker.Inv
  maxQueueSize_eq : slot.maxQueueSize = max 1 slot.config.maxQueueSize
  length_le : slot.worker.queue.length ≤ slot.maxQueueSize
  unlinked : slot.linked = false → slot.worker.place = .test

theorem wf_new (id : UInt32) (config : ConsumerConfig) : (new id config : ConsumerSlot φ).Wf := by
  refine ⟨Worker.inv_new, ?_, Nat.zero_le _, fun _ => rfl⟩
  show (if config.maxQueueSize = 0 then 1 else config.maxQueueSize) = max 1 config.maxQueueSize
  split_ifs <;> omega

theorem Wf.maxQueueSize_pos {slot : ConsumerSlot φ} (h : slot.Wf) : 0 < slot.maxQueueSize := by
  rw [h.maxQueueSize_eq]
  omega

/-- The accounts of one slot. -/
structure Accounts (slot : ConsumerSlot φ) : Prop where
  length_le : slot.worker.queue.length ≤ max 1 slot.config.maxQueueSize
  given_sublist : slot.given.Sublist slot.offered
  given_nodup : slot.given.Nodup
  enqueued_eq : slot.worker.ledger.entered.length =
    slot.worker.dropped + slot.given.length + slot.worker.queue.length +
      slot.worker.ledger.cleared.length
  consumed_eq : slot.worker.consumed = slot.worker.returned.length
  dropped_eq : slot.worker.dropped = slot.worker.ledger.dropped.length

end ConsumerSlot

namespace StreamDistributor

variable {φ : Type} {d d' : StreamDistributor φ} {a : Action φ} {k j : SlotId}
  {slot slot' : ConsumerSlot φ}

theorem getElem?_set_some (hk : d.heap[k]? = some slot) (slot' : ConsumerSlot φ) (j : SlotId) :
    (d.heap.set k slot')[j]? = if j = k then some slot' else d.heap[j]? := by
  have hlt := (List.getElem?_eq_some_iff.mp hk).1
  rw [List.getElem?_set]
  by_cases h : k = j
  · rw [if_pos h, if_pos h.symm, if_pos hlt]
  · rw [if_neg h, if_neg (Ne.symm h)]

theorem getElem?_addConsumer (d : StreamDistributor φ) (config : ConsumerConfig) (j : ℕ) :
    (d.addConsumer config).heap[j]? =
      if j = d.heap.length then some (.new d.nextConsumerId config) else d.heap[j]? := by
  show (d.heap ++ [ConsumerSlot.new d.nextConsumerId config])[j]? = _
  by_cases h : j = d.heap.length
  · rw [if_pos h, h, List.getElem?_concat_length]
  · rw [if_neg h]
    by_cases hlt : j < d.heap.length
    · rw [List.getElem?_append_left hlt]
    · rw [List.getElem?_eq_none (by simp; omega), List.getElem?_eq_none (by omega)]

/-! ## One slot -/

/-- A slot keeps its configuration, and its worker stands still or takes a step among `may`, one of
its own only if it is linked. -/
structure Moves (may : Worker.Act (φ × ℕ) → Prop) (slot slot' : ConsumerSlot φ) : Prop where
  config_eq : slot'.config = slot.config
  maxQueueSize_eq : slot'.maxQueueSize = slot.maxQueueSize
  linked : slot.linked = true → slot'.linked = true
  worker : slot'.worker = slot.worker ∨
    ∃ b, may b ∧ (b.isOwn = true → slot.linked = true) ∧
      slot.worker.Step (.dropOldest slot.maxQueueSize) b slot'.worker

/-- What a step of the distributor is for one slot: it is allocated, or it moves. -/
def SlotMove (may : Worker.Act (φ × ℕ) → Prop) (slot : Option (ConsumerSlot φ))
    (slot' : ConsumerSlot φ) : Prop :=
  (slot = none ∧ ∃ id config, slot' = .new id config) ∨ ∃ s, slot = some s ∧ Moves may s slot'

variable {may : Worker.Act (φ × ℕ) → Prop}

theorem Moves.refl (slot : ConsumerSlot φ) : Moves may slot slot := ⟨rfl, rfl, id, .inl rfl⟩

theorem moves_of_step {b : Worker.Act (φ × ℕ)} {worker : Worker (φ × ℕ)} {removed : Bool}
    (hw : slot.worker.Step (.dropOldest slot.maxQueueSize) b worker) (hb : may b)
    (hown : b.isOwn = true → slot.linked = true) :
    Moves may slot { slot with worker := worker, removed := removed } :=
  ⟨rfl, rfl, id, .inr ⟨b, hb, hown, hw⟩⟩

theorem SlotMove.refl (slot : ConsumerSlot φ) : SlotMove may (some slot) slot :=
  .inr ⟨slot, rfl, .refl slot⟩

theorem slotMove_set {s' : ConsumerSlot φ} (hk : d.heap[k]? = some slot)
    (hj : (d.heap.set k slot')[j]? = some s') (hm : j = k → Moves may slot slot') :
    SlotMove may d.heap[j]? s' := by
  rw [getElem?_set_some hk] at hj
  split_ifs at hj with h
  · cases hj
    rw [h, hk]
    exact .inr ⟨slot, rfl, hm h⟩
  · rw [hj]
    exact .refl s'

/-- Seen from one slot, a step of the distributor is a step of that slot or nothing. -/
theorem Step.slot_cases (h : Step d a d') (hj : d'.heap[j]? = some slot') :
    SlotMove (fun b => d.target a = some (j, b)) d.heap[j]? slot' := by
  cases h with
  | addConsumer config =>
    rw [getElem?_addConsumer] at hj
    split_ifs at hj with h
    · cases hj
      exact .inl ⟨List.getElem?_eq_none (by omega), _, _, rfl⟩
    · rw [hj]
      exact .refl slot'
  | link hk hl => exact slotMove_set hk hj fun _ => ⟨rfl, rfl, fun _ => rfl, .inl rfl⟩
  | remove hf hk hw =>
    refine slotMove_set hk hj fun he => moves_of_step hw ?_ fun h => nomatch h
    rw [target, hf, Option.map_some, he]
  | enqueue hp hk hw | notifyOne hp hk hw =>
    refine slotMove_set hk hj fun he => moves_of_step hw ?_ fun h => nomatch h
    rw [target, hp, he]
  | destroyNext hd hk hw =>
    refine slotMove_set hk hj fun he => moves_of_step hw ?_ fun h => nomatch h
    rw [target, hd, he]
  | @slot k b slot worker hk hb hw =>
    refine slotMove_set hk hj fun he => moves_of_step hw ?_ fun h => ?_
    · rw [target, he]
    · cases b with
      | work | finish | spurious => exact hb
      | enqueue | notifyOne | beginStop | store | notifyAll | join | clear => cases h
  | push frame hp =>
    have hj : (d.heap.mapIdx _)[j]? = some slot' := hj
    rw [List.getElem?_mapIdx] at hj
    obtain ⟨s, hs, rfl⟩ := Option.map_eq_some_iff.mp hj
    rw [hs]
    refine .inr ⟨s, rfl, ?_⟩
    split_ifs
    · exact ⟨rfl, rfl, id, .inl rfl⟩
    · exact .refl s
  | removeNone | pushEnd | destroy | destroyed =>
    rw [show d.heap[j]? = some slot' from hj]
    exact .refl slot'

theorem wf_of_moves (hw : slot.Wf) (hm : Moves may slot slot') : slot'.Wf := by
  have hcap := hw.maxQueueSize_pos
  have hlinked : slot'.linked = false → slot.linked = false := by
    intro h
    by_contra hl
    rw [hm.linked (by simpa using hl)] at h
    cases h
  refine ⟨?_, by rw [hm.maxQueueSize_eq, hm.config_eq, hw.maxQueueSize_eq], ?_, ?_⟩
  · rcases hm.worker with heq | ⟨b, -, -, hstep⟩
    · exact heq ▸ hw.worker
    · exact hw.worker.step hstep
  · rw [hm.maxQueueSize_eq]
    rcases hm.worker with heq | ⟨b, -, -, hstep⟩
    · exact heq ▸ hw.length_le
    · exact hstep.length_le hcap hw.length_le
  · intro h
    have hl := hlinked h
    rcases hm.worker with heq | ⟨b, -, hown, hstep⟩
    · rw [heq]
      exact hw.unlinked hl
    · refine hstep.place_test (hw.unlinked hl) ?_
      by_contra hb
      rw [hown (by simpa using hb)] at hl
      cases hl

theorem wf_of_slotMove (hw : ∀ s, d.heap[j]? = some s → s.Wf)
    (hm : SlotMove may d.heap[j]? slot') : slot'.Wf := by
  rcases hm with ⟨-, id, config, rfl⟩ | ⟨s, hs, hm⟩
  · exact ConsumerSlot.wf_new id config
  · exact wf_of_moves (hw s hs) hm

/-- What every step keeps of the distributor as a whole. -/
structure Inv (d : StreamDistributor φ) : Prop where
  wf : ∀ (k : SlotId) (slot : ConsumerSlot φ), d.heap[k]? = some slot → slot.Wf
  slots_nodup : d.slots.Nodup
  slots_linked : ∀ k ∈ d.slots, ∃ slot : ConsumerSlot φ, d.heap[k]? = some slot ∧ slot.linked = true
  rest_nodup : d.push.rest.Nodup
  rest_lt : ∀ k ∈ d.push.rest, k < d.heap.length
  offered_eq : ∀ (k : SlotId) (slot : ConsumerSlot φ), d.heap[k]? = some slot →
    slot.offered = slot.worker.ledger.entered ++ d.push.owes k
  offered_nodup : ∀ (k : SlotId) (slot : ConsumerSlot φ), d.heap[k]? = some slot →
    slot.offered.Nodup
  serial_lt : ∀ (k : SlotId) (slot : ConsumerSlot φ), d.heap[k]? = some slot →
    ∀ x ∈ slot.offered, x.2 < d.pushes

theorem inv_new : (new : StreamDistributor φ).Inv := by
  refine ⟨?_, List.nodup_nil, ?_, List.nodup_nil, ?_, ?_, ?_, ?_⟩
  · intro _ _ h
    exact nomatch h
  · intro _ h
    exact absurd h List.not_mem_nil
  · intro _ h
    exact absurd h List.not_mem_nil
  · intro _ _ h
    exact nomatch h
  · intro _ _ h
    exact nomatch h
  · intro _ _ h
    exact nomatch h

theorem owes_of_mem {x : φ × ℕ} {rest : List SlotId} (h : k ∈ rest) :
    (Push.walking x rest).owes k = [x] := if_pos h

theorem owes_of_not_mem {x : φ × ℕ} {rest : List SlotId} (h : k ∉ rest) :
    (Push.walking x rest).owes k = [] := if_neg h

theorem Inv.set (hi : d.Inv) (hk : d.heap[k]? = some slot) (hheap : d'.heap = d.heap.set k slot')
    (hpushes : d'.pushes = d.pushes) (hm : Moves may slot slot')
    (ho : slot'.offered = slot.offered)
    (hnodup : d'.slots.Nodup) (hslots : ∀ j ∈ d'.slots, j ∈ d.slots ∨ (j = k ∧ slot'.linked = true))
    (hrnodup : d'.push.rest.Nodup) (hrest : ∀ j ∈ d'.push.rest, j ∈ d.push.rest)
    (howes : ∀ j, j ≠ k → d'.push.owes j = d.push.owes j)
    (hentered : slot'.worker.ledger.entered ++ d'.push.owes k =
      slot.worker.ledger.entered ++ d.push.owes k) : d'.Inv := by
  have hget : ∀ j s', d'.heap[j]? = some s' →
      (j = k ∧ s' = slot') ∨ (j ≠ k ∧ d.heap[j]? = some s') := by
    intro j s' hj
    rw [hheap, getElem?_set_some hk] at hj
    split_ifs at hj with h
    · exact .inl ⟨h, (Option.some.inj hj).symm⟩
    · exact .inr ⟨h, hj⟩
  refine ⟨?_, hnodup, ?_, hrnodup, ?_, ?_, ?_, ?_⟩
  · intro j s' hj
    rcases hget j s' hj with ⟨rfl, rfl⟩ | ⟨hne, hj⟩
    · exact wf_of_moves (hi.wf j slot hk) hm
    · exact hi.wf j s' hj
  · intro j hj
    rw [hheap, getElem?_set_some hk]
    split_ifs with h
    · rcases hslots j hj with hj | ⟨-, hj⟩
      · obtain ⟨s, hs, hsl⟩ := hi.slots_linked j hj
        rw [h, hk] at hs
        cases hs
        exact ⟨slot', rfl, hm.linked hsl⟩
      · exact ⟨slot', rfl, hj⟩
    · exact hi.slots_linked j ((hslots j hj).resolve_right fun hjk => h hjk.1)
  · intro j hj
    rw [hheap, List.length_set]
    exact hi.rest_lt j (hrest j hj)
  · intro j s' hj
    rcases hget j s' hj with ⟨rfl, rfl⟩ | ⟨hne, hj⟩
    · rw [ho, hentered]
      exact hi.offered_eq j slot hk
    · rw [howes j hne]
      exact hi.offered_eq j s' hj
  · intro j s' hj
    rcases hget j s' hj with ⟨rfl, rfl⟩ | ⟨hne, hj⟩
    · rw [ho]
      exact hi.offered_nodup j slot hk
    · exact hi.offered_nodup j s' hj
  · intro j s' hj
    rw [hpushes]
    rcases hget j s' hj with ⟨rfl, rfl⟩ | ⟨hne, hj⟩
    · rw [ho]
      exact hi.serial_lt j slot hk
    · exact hi.serial_lt j s' hj

theorem Inv.setWorker (hi : d.Inv) (hk : d.heap[k]? = some slot) {worker : Worker (φ × ℕ)}
    {b : Worker.Act (φ × ℕ)} (hw : slot.worker.Step (.dropOldest slot.maxQueueSize) b worker)
    (hb : b.adds = []) (hown : b.isOwn = true → slot.linked = true) :
    Inv { d with heap := d.heap.set k { slot with worker := worker } } := by
  have hm : Moves (fun _ => True) slot { slot with worker := worker } :=
    moves_of_step hw trivial hown
  refine hi.set hk rfl rfl hm rfl hi.slots_nodup (fun _ => .inl) hi.rest_nodup (fun _ => id)
    (fun _ _ => rfl) ?_
  show worker.ledger.entered ++ _ = _
  rw [hw.entered_eq, hb, List.append_nil]

/-- A push takes its snapshot: it owes its frame to every slot that it has seen. -/
theorem Inv.beginPush (hi : d.Inv) (hp : d.push = .idle) (frame : φ) : (d.beginPush frame).Inv := by
  have hget : ∀ j s', (d.beginPush frame).heap[j]? = some s' → ∃ s, d.heap[j]? = some s ∧
      s' = if j ∈ d.slots then { s with offered := s.offered ++ [(frame, d.pushes)] } else s := by
    intro j s' hj
    have hj : (d.heap.mapIdx _)[j]? = some s' := hj
    rw [List.getElem?_mapIdx] at hj
    obtain ⟨s, hs, rfl⟩ := Option.map_eq_some_iff.mp hj
    exact ⟨s, hs, rfl⟩
  refine ⟨?_, hi.slots_nodup, ?_, hi.slots_nodup, ?_, ?_, ?_, ?_⟩
  · intro j s' hj
    exact wf_of_slotMove (hi.wf j) ((Step.push frame hp).slot_cases hj)
  · intro j hj
    have hj : j ∈ d.slots := hj
    obtain ⟨s, hs, hl⟩ := hi.slots_linked j hj
    refine ⟨{ s with offered := s.offered ++ [(frame, d.pushes)] }, ?_, hl⟩
    show (d.heap.mapIdx _)[j]? = _
    rw [List.getElem?_mapIdx, hs, Option.map_some, if_pos hj]
  · intro j hj
    have hj : j ∈ d.slots := hj
    obtain ⟨s, hs, -⟩ := hi.slots_linked j hj
    show j < (d.heap.mapIdx _).length
    rw [List.length_mapIdx]
    exact (List.getElem?_eq_some_iff.mp hs).1
  · intro j s' hj
    obtain ⟨s, hs, rfl⟩ := hget j s' hj
    have hold := hi.offered_eq j s hs
    rw [hp, show (Push.idle : Push φ).owes j = [] from rfl, List.append_nil] at hold
    have howes : (d.beginPush frame).push = .walking (frame, d.pushes) d.slots := rfl
    rw [howes]
    split_ifs with h
    · rw [owes_of_mem h]
      dsimp only
      rw [hold]
    · rw [owes_of_not_mem h, List.append_nil]
      exact hold
  · intro j s' hj
    obtain ⟨s, hs, rfl⟩ := hget j s' hj
    split_ifs with h
    · refine List.nodup_append.mpr ⟨hi.offered_nodup j s hs, List.nodup_singleton _, ?_⟩
      rintro x hx _ hm rfl
      rw [List.mem_singleton.mp hm] at hx
      have hlt := hi.serial_lt j s hs _ hx
      simp at hlt
    · exact hi.offered_nodup j s hs
  · intro j s' hj
    obtain ⟨s, hs, rfl⟩ := hget j s' hj
    intro x hx
    show x.2 < d.pushes + 1
    have hold : x ∈ s.offered → x.2 < d.pushes + 1 := by
      intro hx
      have hlt := hi.serial_lt j s hs x hx
      omega
    split_ifs at hx with h
    · rcases List.mem_append.mp hx with hx | hx
      · exact hold hx
      · simp [List.mem_singleton.mp hx]
    · exact hold hx

theorem Inv.addConsumer (hi : d.Inv) (config : ConsumerConfig) : (d.addConsumer config).Inv := by
  have hget : ∀ j s', (d.addConsumer config).heap[j]? = some s' →
      d.heap[j]? = some s' ∨ (j = d.heap.length ∧ s' = .new d.nextConsumerId config) := by
    intro j s' hj
    rw [getElem?_addConsumer] at hj
    split_ifs at hj with h
    · exact .inr ⟨h, (Option.some.inj hj).symm⟩
    · exact .inl hj
  refine ⟨?_, hi.slots_nodup, ?_, hi.rest_nodup, ?_, ?_, ?_, ?_⟩
  · intro j s' hj
    exact wf_of_slotMove (hi.wf j) ((Step.addConsumer config).slot_cases hj)
  · intro j hj
    obtain ⟨s, hs, hl⟩ := hi.slots_linked j hj
    refine ⟨s, ?_, hl⟩
    have hlt := (List.getElem?_eq_some_iff.mp hs).1
    rw [getElem?_addConsumer, if_neg (by omega), hs]
  · intro j hj
    show j < (d.heap ++ [ConsumerSlot.new d.nextConsumerId config]).length
    rw [List.length_append]
    exact Nat.lt_add_right _ (hi.rest_lt j hj)
  · intro j s' hj
    rcases hget j s' hj with hj | ⟨rfl, rfl⟩
    · exact hi.offered_eq j s' hj
    · -- a push in progress has not seen the new slot
      have hnot : d.heap.length ∉ d.push.rest := fun hm => Nat.lt_irrefl _ (hi.rest_lt _ hm)
      have howes : d.push.owes d.heap.length = [] := by
        cases hp : d.push with
        | idle => rfl
        | walking | notifying =>
          rw [hp] at hnot
          exact if_neg hnot
      show [] = [] ++ d.push.owes d.heap.length
      rw [howes, List.append_nil]
  · intro j s' hj
    rcases hget j s' hj with hj | ⟨-, rfl⟩
    · exact hi.offered_nodup j s' hj
    · exact List.nodup_nil
  · intro j s' hj
    rcases hget j s' hj with hj | ⟨-, rfl⟩
    · exact hi.serial_lt j s' hj
    · intro _ hx
      exact absurd hx List.not_mem_nil

theorem Inv.link (hi : d.Inv) (hk : d.heap[k]? = some slot) (hl : slot.linked = false) :
    Inv { d with
      heap := d.heap.set k { slot with linked := true }
      slots := d.slots ++ [k] } := by
  have hm : Moves (fun _ => True) slot { slot with linked := true } :=
    ⟨rfl, rfl, fun _ => rfl, .inl rfl⟩
  refine hi.set hk rfl rfl hm rfl ?_ ?_ hi.rest_nodup (fun _ => id) (fun _ _ => rfl) rfl
  · refine List.nodup_append.mpr ⟨hi.slots_nodup, List.nodup_singleton _, ?_⟩
    rintro j hj _ hm rfl
    obtain ⟨s, hs, hsl⟩ := hi.slots_linked j hj
    rw [List.mem_singleton.mp hm, hk] at hs
    cases hs
    rw [hl] at hsl
    exact Bool.false_ne_true hsl
  · intro j hj
    rcases List.mem_append.mp hj with hj | hj
    · exact .inl hj
    · exact .inr ⟨List.mem_singleton.mp hj, rfl⟩

/-- The push appends its frame to the queue of the next slot and owes it no longer. -/
theorem Inv.enqueue (hi : d.Inv) {x : φ × ℕ} {rest : List SlotId} {worker : Worker (φ × ℕ)}
    (hp : d.push = .walking x (k :: rest)) (hk : d.heap[k]? = some slot)
    (hw : slot.worker.Step (.dropOldest slot.maxQueueSize) (.enqueue x) worker) :
    Inv { d with
      heap := d.heap.set k { slot with worker := worker }
      push := .notifying x k rest } := by
  have hnodup := hi.rest_nodup
  rw [hp] at hnodup
  obtain ⟨hnot, hrest⟩ := List.nodup_cons.mp hnodup
  have hm : Moves (fun _ => True) slot { slot with worker := worker } :=
    moves_of_step hw trivial fun h => nomatch h
  refine hi.set hk rfl rfl hm rfl hi.slots_nodup (fun _ => .inl) hrest (fun j hj => ?_)
    (fun j hj => ?_) ?_
  · rw [hp]
    exact List.mem_cons_of_mem _ hj
  · rw [hp]
    have hiff : j ∈ k :: rest ↔ j ∈ rest := by
      rw [List.mem_cons]
      exact or_iff_right hj
    show (if j ∈ rest then [x] else []) = if j ∈ k :: rest then [x] else []
    simp only [hiff]
  · show worker.ledger.entered ++ (if k ∈ rest then [x] else []) = _
    rw [hp, owes_of_mem List.mem_cons_self, hw.entered_eq, if_neg hnot, List.append_nil]
    rfl

theorem Inv.notifyOne (hi : d.Inv) {x : φ × ℕ} {rest : List SlotId} {worker : Worker (φ × ℕ)}
    (hp : d.push = .notifying x k rest) (hk : d.heap[k]? = some slot)
    (hw : slot.worker.Step (.dropOldest slot.maxQueueSize) .notifyOne worker) :
    Inv { d with
      heap := d.heap.set k { slot with worker := worker }
      push := .walking x rest } := by
  have hnodup := hi.rest_nodup
  rw [hp] at hnodup
  have hm : Moves (fun _ => True) slot { slot with worker := worker } :=
    moves_of_step hw trivial fun h => nomatch h
  refine hi.set hk rfl rfl hm rfl hi.slots_nodup (fun _ => .inl) hnodup (fun j hj => ?_)
    (fun j hj => ?_) ?_
  · rw [hp]
    exact hj
  · rw [hp]
    rfl
  · show worker.ledger.entered ++ (Push.walking x rest).owes k = _
    rw [hp, hw.entered_eq, show Worker.Act.notifyOne.adds = ([] : List (φ × ℕ)) from rfl,
      List.append_nil]
    rfl

theorem Inv.step (hi : d.Inv) (h : Step d a d') : d'.Inv := by
  cases h with
  | addConsumer config => exact hi.addConsumer config
  | link hk hl => exact hi.link hk hl
  | removeNone => exact hi
  | @remove consumerId k slot worker hf hk hw =>
    have hm : Moves (fun _ => True) slot { slot with worker := worker, removed := true } :=
      moves_of_step hw trivial fun h => nomatch h
    refine hi.set hk rfl rfl hm rfl (hi.slots_nodup.erase k)
      (fun j hj => .inl (List.mem_of_mem_erase hj)) hi.rest_nodup (fun _ => id) (fun _ _ => rfl) ?_
    show worker.ledger.entered ++ d.push.owes k = _
    rw [hw.entered_eq, show Worker.Act.beginStop.adds = ([] : List (φ × ℕ)) from rfl,
      List.append_nil]
  | push frame hp => exact hi.beginPush hp frame
  | @pushEnd x hp =>
    refine ⟨hi.wf, hi.slots_nodup, hi.slots_linked, List.nodup_nil,
      fun _ h => absurd h List.not_mem_nil, ?_, hi.offered_nodup, hi.serial_lt⟩
    intro j s hj
    have hold := hi.offered_eq j s hj
    rw [hp, owes_of_not_mem List.not_mem_nil] at hold
    exact hold
  | enqueue hp hk hw => exact hi.enqueue hp hk hw
  | notifyOne hp hk hw => exact hi.notifyOne hp hk hw
  | destroy hd =>
    exact ⟨hi.wf, List.nodup_nil, fun _ h => absurd h List.not_mem_nil, hi.rest_nodup, hi.rest_lt,
      hi.offered_eq, hi.offered_nodup, hi.serial_lt⟩
  | destroyNext hd hk hw => exact hi.setWorker hk hw rfl fun h => nomatch h
  | destroyed hd hk hst =>
    exact ⟨hi.wf, hi.slots_nodup, hi.slots_linked, hi.rest_nodup, hi.rest_lt, hi.offered_eq,
      hi.offered_nodup, hi.serial_lt⟩
  | @slot k b slot worker hk hb hw =>
    cases b with
    | work | finish | spurious => exact hi.setWorker hk hw rfl fun _ => hb
    | store | notifyAll | join | clear => exact hi.setWorker hk hw rfl fun h => nomatch h
    | enqueue | notifyOne | beginStop => cases hb

theorem inv_of_reachable (hd : machine.Reachable d) : d.Inv := by
  refine hd.invariant (I := Inv) (fun d h0 => ?_) (fun _ _ _ hi h => hi.step (.of_step h))
  rw [show d = new from h0]
  exact inv_new

theorem Inv.slot_accounts (hi : d.Inv) (hk : d.heap[k]? = some slot) : slot.Accounts := by
  have hwf := hi.wf k slot hk
  have hoff := hi.offered_eq k slot hk
  have hsub : slot.given.Sublist slot.offered := by
    rw [hoff]
    exact hwf.worker.balanced.left_sublist.trans (List.sublist_append_left _ _)
  refine ⟨hwf.maxQueueSize_eq ▸ hwf.length_le, hsub, hsub.nodup (hi.offered_nodup k slot hk), ?_,
    hwf.worker.consumed_eq, hwf.worker.dropped_eq⟩
  rw [hwf.worker.dropped_eq]
  exact hwf.worker.balanced.length_eq

/-- A consumer of size zero gets two frames before its worker looks, and its callback returns from
the second. -/
def twoPushes : List (Action ℕ) :=
  [.addConsumer ⟨0⟩, .link 0, .push 7, .continuePush, .continuePush, .continuePush, .push 8,
    .continuePush, .continuePush, .continuePush, .slot 0 .work, .slot 0 .work, .slot 0 .work,
    .slot 0 .work, .slot 0 (.finish true)]

end StreamDistributor

end Eye
