import Eye.Stream.RecorderAccounts

/-!
# Queue sizes of the recorder

`StreamDistributor::add_consumer` and `RtspFrameQueue` take a queue size of 0 for 1.
`RecorderConsumer` does not: with a size of 0 the queue is full while it is empty, and the first
frame has `try_drop_frame` take an entry out of an empty queue.

`safeRun_iff`: a run is safe exactly if the size is not 0 or no frame comes as far as the queue.
-/

namespace Eye

namespace RecorderConsumer

/-- `on_frame` has made the entry of that frame and gets the mutex. -/
def Locks (r : RecorderConsumer) (frame : StreamFrame) : Prop :=
  (assemble frame).isSome = true ∧ r.worker.place.holdsMutex = false

/-- The action has `on_frame` call `try_drop_frame`. -/
def CallsTryDropFrame (r : RecorderConsumer) : Action → Prop
  | .onFrame frame => r.Locks frame ∧ r.maxQueueSize ≤ r.worker.queue.length
  | .act _ => False

/-- `try_drop_frame` is not called, or there is an entry that it can take out. -/
def DropsExisting (r : RecorderConsumer) (a : Action) : Prop :=
  r.CallsTryDropFrame a → r.worker.queue ≠ [] ∧ (tryDropFrame r.worker.queue).isSome = true

/-- The action does not have `on_frame` come to the queue. -/
def KeepsOff (r : RecorderConsumer) : Action → Prop
  | .onFrame frame => ¬ r.Locks frame
  | .act _ => True

/-- The run of a recorder with a queue of that size is safe. -/
structure SafeRun (writeQueueSize : ℕ) (as : List Action) : Prop where
  length_le : (machine writeQueueSize).Always
    (fun r => r.worker.queue.length ≤ max 1 writeQueueSize) (new writeQueueSize) as
  drops : (machine writeQueueSize).Attempted DropsExisting (new writeQueueSize) as

variable {n : ℕ} {r : RecorderConsumer} {as : List Action}

theorem Inv.dropsExisting (hi : r.Inv n) (hn : 1 ≤ n) (a : Action) : r.DropsExisting a := by
  intro h
  cases a with
  | act b => exact absurd h id
  | onFrame frame =>
    have hfull := h.2
    rw [hi.size_eq] at hfull
    have hne : r.worker.queue ≠ [] := List.length_pos_iff.mp (Nat.lt_of_lt_of_le hn hfull)
    exact ⟨hne, tryDropFrame_isSome hne⟩

theorem Inv.dropsExisting_iff (hi : r.Inv 0) (a : Action) : r.DropsExisting a ↔ r.KeepsOff a := by
  have hq : r.worker.queue = [] := List.length_eq_zero_iff.mp (Nat.le_zero.mp hi.length_le)
  unfold DropsExisting
  cases a with
  | act b => simp [CallsTryDropFrame, KeepsOff]
  | onFrame frame => simp [CallsTryDropFrame, KeepsOff, hq, hi.size_eq]

theorem always_length_le (n : ℕ) (as : List Action) :
    (machine n).Always (fun r => r.worker.queue.length ≤ max 1 n) (new n) as :=
  Machine.always_of_invariant (inv_new n) (fun _ _ _ hi h => hi.step h)
    fun _ hi => Nat.le_trans hi.length_le (Nat.le_max_right 1 n)

/-- The first frame of a recorder without room. -/
theorem not_safeRun_zero {frame : StreamFrame} (hframe : (assemble frame).isSome = true) :
    ¬ SafeRun 0 [.onFrame frame] := by
  intro h
  exact (h.drops.1 ⟨⟨hframe, rfl⟩, Nat.le_refl 0⟩).1 rfl

/-- **Queue sizes.** A run is safe exactly if the size is not 0 or no frame ever comes to the queue;
so all runs are exactly if the size is not 0. -/
theorem safeRun_iff (n : ℕ) :
    (∀ as, SafeRun n as ↔ 1 ≤ n ∨ (machine n).Attempted KeepsOff (new n) as) ∧
      ((∀ as, SafeRun n as) ↔ 1 ≤ n) := by
  have hiff : ∀ as, SafeRun n as ↔ 1 ≤ n ∨ (machine n).Attempted KeepsOff (new n) as := by
    intro as
    rcases Nat.eq_zero_or_pos n with rfl | hn
    · have hcongr : (machine 0).Attempted DropsExisting (new 0) as ↔
          (machine 0).Attempted KeepsOff (new 0) as :=
        Machine.attempted_congr (inv_new 0) (fun _ _ _ hi h => hi.step h)
          fun _ a hi => hi.dropsExisting_iff a
      constructor
      · intro h
        exact .inr (hcongr.mp h.drops)
      · rintro (h | h)
        · exact absurd h (Nat.not_succ_le_zero 0)
        · exact ⟨always_length_le 0 as, hcongr.mpr h⟩
    · refine ⟨fun _ => .inl hn, fun _ => ⟨always_length_le n as, ?_⟩⟩
      exact Machine.attempted_of_invariant (inv_new n) (fun _ _ _ hi h => hi.step h)
        fun _ a hi => hi.dropsExisting hn a
  refine ⟨hiff, ?_, fun hn as => (hiff as).mpr (.inl hn)⟩
  intro h
  rcases Nat.eq_zero_or_pos n with rfl | hn
  · have hframe : (assemble (twoPacks .pSlice 7)).isSome = true := rfl
    exact absurd (h _) (not_safeRun_zero hframe)
  · exact hn

/-- A frame of two bytes comes to a recorder with a queue of size 0. -/
theorem dropFrom_empty : ¬ SafeRun 0 [.onFrame (twoPacks .pSlice 7)] := not_safeRun_zero rfl

end RecorderConsumer

end Eye
