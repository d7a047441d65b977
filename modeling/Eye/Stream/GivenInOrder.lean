import Eye.Stream.Isolation

/-!
# What a consumer is given, in order

The worker of a slot, and what one step of the distributor does to it. Of what the slot has been
offered, its worker has been given a part, in the same order (`given_sublist`); `worker_cases` says
how it is given one frame more.
-/

namespace Eye.StreamDistributor

variable {φ : Type} {d d' : StreamDistributor φ} {a : Action φ} {k : SlotId}

/-- The worker of a slot; one that has not begun, where the slot does not exist yet. -/
def workerOf (d : StreamDistributor φ) (k : SlotId) : Worker (φ × ℕ) :=
  match d.heap[k]? with
  | none => .new
  | some slot => slot.worker

theorem workerOf_of_some {slot : ConsumerSlot φ} (hk : d.heap[k]? = some slot) :
    d.workerOf k = slot.worker := by
  unfold workerOf
  rw [hk]

theorem given_sublist (hi : d.Inv) (k : SlotId) :
    (d.workerOf k).ledger.left.Sublist (d.offersTo k) := by
  cases hk : d.heap[k]? with
  | none =>
    unfold workerOf
    rw [hk]
    exact List.nil_sublist _
  | some slot =>
    rw [workerOf_of_some hk, offersTo_of_some hk]
    exact (hi.slot_accounts hk).given_sublist

theorem offersTo_lt (hi : d.Inv) : ∀ x ∈ d.offersTo k, x.2 < d.pushes := by
  intro x hx
  cases hk : d.heap[k]? with
  | none =>
    unfold offersTo at hx
    rw [hk] at hx
    exact absurd hx List.not_mem_nil
  | some slot =>
    rw [offersTo_of_some hk] at hx
    exact hi.serial_lt k slot hk x hx

/-- Seen from one slot, a step of the distributor is a step of its worker or nothing. -/
theorem workerOf_step (h : Step d a d') :
    d'.workerOf k = d.workerOf k ∨ ∃ cap b, d.target a = some (k, b) ∧
      (d.workerOf k).Step (.dropOldest cap) b (d'.workerOf k) := by
  cases hk' : d'.heap[k]? with
  | none =>
    have hk : d.heap[k]? = none := by
      have hle := length_le_of_step h
      rw [List.getElem?_eq_none_iff] at hk' ⊢
      omega
    left
    unfold workerOf
    rw [hk, hk']
  | some slot' =>
    rw [workerOf_of_some hk']
    rcases h.slot_cases hk' with ⟨hk, id, config, rfl⟩ | ⟨slot, hk, hm⟩
    · left
      unfold workerOf
      rw [hk]
      rfl
    · rw [workerOf_of_some hk]
      rcases hm.worker with heq | ⟨b, hb, -, hstep⟩
      · exact .inl heq
      · exact .inr ⟨slot.maxQueueSize, b, hb, hstep⟩

theorem target_finish {ok : Bool} (h : d.target a = some (k, .finish ok)) :
    a = .slot k (.finish ok) := by
  cases a with
  | addConsumer | link | push | destroy => cases h
  | removeConsumer id =>
    obtain ⟨j, -, hj⟩ := Option.map_eq_some_iff.mp h
    cases hj
  | continuePush =>
    rw [target] at h
    split at h <;> cases h
  | continueDestroy =>
    rw [target] at h
    split at h <;> cases h
  | slot j b =>
    cases h
    rfl

/-- A step gives the callback of a slot a frame, or ends it, or leaves both what it has been given
and what it works on. -/
theorem worker_cases (h : Step d a d') :
    (∃ x, (d.workerOf k).place = .ready ∧ (d'.workerOf k).place = .process x ∧
        (d'.workerOf k).ledger.left = (d.workerOf k).ledger.left ++ [x]) ∨
      ((d'.workerOf k).ledger.left = (d.workerOf k).ledger.left ∧
        ((∃ ok, a = .slot k (.finish ok) ∧ (d'.workerOf k).place = .test) ∨
          ∀ x, (d'.workerOf k).place = .process x ↔ (d.workerOf k).place = .process x)) := by
  rcases workerOf_step h with heq | ⟨cap, b, hb, hstep⟩
  · rw [heq]
    exact .inr ⟨rfl, .inr fun _ => Iff.rfl⟩
  · rcases hstep.left_cases with hpop | ⟨hleft, ⟨ok, x, rfl, -, htest⟩ | hsame⟩
    · exact .inl hpop
    · exact .inr ⟨hleft, .inl ⟨ok, target_finish hb, htest⟩⟩
    · exact .inr ⟨hleft, .inr hsame⟩

/-- Once a callback has ended, the worker is back at its test. -/
theorem workerOf_finish {ok : Bool} (h : Step d (.slot k (.finish ok)) d') :
    (d'.workerOf k).place = .test ∧
      (d'.workerOf k).ledger.left = (d.workerOf k).ledger.left := by
  cases h with
  | @slot _ _ slot worker hk hb hw =>
    have hk' : (d.heap.set k { slot with worker := worker })[k]? =
        some { slot with worker := worker } := by
      rw [getElem?_set_some hk, if_pos rfl]
    rw [workerOf_of_some hk, workerOf_of_some hk']
    cases hw with
    | finish ok hp => exact ⟨rfl, rfl⟩

end Eye.StreamDistributor
