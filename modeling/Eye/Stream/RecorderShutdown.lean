import Eye.Stream.RecorderAccounts

/-!
# What the recorder leaves behind

`~RecorderConsumer` stores the flag, notifies and joins. The writer looks at the flag before it
looks at the queue and leaves its loop with whatever is still queued; neither it nor the destructor
writes or counts these entries.

`destroyed_accounts` says what has become of every accepted frame when the destructor returns, and
that none has vanished exactly if the queue is empty then.
-/

namespace Eye

namespace RecorderConsumer

variable {n : ℕ} {r r' : RecorderConsumer} {a : Action}

/-- `~RecorderConsumer` has joined the writer. -/
def Destroyed (r : RecorderConsumer) : Prop := r.worker.stage = .joined

/-- Every accepted frame has been written or counted: the counters add up, and the entries that are
in the file, whole and in order, are all but the dropped ones. -/
def NothingVanished (r : RecorderConsumer) : Prop :=
  r.accepted = r.worker.consumed + r.worker.dropped ∧
    r.file = r.worker.returned.flatMap (fun e => e.1.data) ∧
    (r.worker.returned ++ r.worker.ledger.dropped).Perm r.worker.ledger.entered

theorem leftIfJoined_of_run {as : List Action} (h : (machine n).run (new n) as = some r) :
    r.worker.LeftIfJoined := by
  refine Machine.keep_run (J := fun r => r.worker.LeftIfJoined) Worker.leftIfJoined_new ?_ h
  intro r a r' hw h
  obtain ⟨b, -, hstep, -⟩ := step_worker h
  exact hw.step hstep

theorem Destroyed.inHand_eq (hd : r.Destroyed) (hw : r.worker.LeftIfJoined) :
    r.worker.place.inHand = [] := by
  rw [hw (.inl hd)]
  rfl

/-- **What the destructor leaves.** When it returns, every accepted frame has been written, counted
as dropped, or is still in the queue; those in the queue were accepted after all that were written;
the file holds the written ones, whole and in order. None has vanished exactly if the queue is
empty. -/
theorem destroyed_accounts {as : List Action} (hrun : (machine n).run (new n) as = some r)
    (hd : r.Destroyed) :
    r.accepted = r.worker.consumed + r.worker.dropped + r.worker.queue.length ∧
      r.file = r.worker.returned.flatMap (fun e => e.1.data) ∧
      (r.worker.returned ++ r.worker.ledger.dropped ++ r.worker.queue).Perm
        r.worker.ledger.entered ∧
      (r.worker.returned ++ r.worker.queue).Sublist r.worker.ledger.entered ∧
      r.worker.ledger.entered = (as.flatMap accepts).zipIdx ∧
      (r.NothingVanished ↔ r.worker.queue = []) := by
  have hi := inv_of_run hrun
  have haccounts := hi.toAccounts
  have hhand := hd.inHand_eq (leftIfJoined_of_run hrun)
  have hsum := haccounts.accepted_eq
  have hpart := haccounts.partition
  have horder := haccounts.order
  rw [hhand, List.length_nil, Nat.add_zero] at hsum
  rw [hhand, List.append_nil] at hpart horder
  refine ⟨hsum, haccounts.file_eq, hpart, horder, entered_of_run (inv_new n) hrun, ?_⟩
  constructor
  · rintro ⟨h, -, -⟩
    apply List.length_eq_zero_iff.mp
    omega
  · intro hq
    rw [hq, List.length_nil, Nat.add_zero] at hsum
    rw [hq, List.append_nil] at hpart
    exact ⟨hsum, haccounts.file_eq, hpart⟩

/-- The destructor comes while an IDR waits. -/
def destroyAtOnce : List Action :=
  [.onFrame (twoPacks .idrSlice 9), .act .notifyOne, .act .beginStop, .act .store, .act .notifyAll,
    .act .work, .act .join]

theorem destroyed_accounts_destroyAtOnce :
    ∃ r, (machine 30).run (new 30) destroyAtOnce = some r ∧ r.Destroyed ∧ r.file = [] ∧
      r.worker.queue = [(⟨[9, 9], true⟩, 0)] ∧
      r.accepted = r.worker.consumed + r.worker.dropped + 1 := by
  obtain ⟨r, hrun, hd, hfile, hq⟩ :
      ∃ r, (machine 30).run (new 30) destroyAtOnce = some r ∧ r.Destroyed ∧ r.file = [] ∧
        r.worker.queue = [(⟨[9, 9], true⟩, 0)] := ⟨_, rfl, rfl, rfl, rfl⟩
  have hsum := (destroyed_accounts hrun hd).1
  rw [hq] at hsum
  exact ⟨r, hrun, hd, hfile, hq, hsum⟩

theorem frame_vanishes :
    ¬ ∀ (n : ℕ) (as : List Action) (r : RecorderConsumer), 1 ≤ n →
      (machine n).run (new n) as = some r → r.Destroyed → r.NothingVanished := by
  intro h
  obtain ⟨r, hrun, hd, ha, hc, hdrop⟩ :
      ∃ r, (machine 30).run (new 30) destroyAtOnce = some r ∧ r.Destroyed ∧ r.accepted = 1 ∧
        r.worker.consumed = 0 ∧ r.worker.dropped = 0 := ⟨_, rfl, rfl, rfl, rfl, rfl⟩
  have hsum := (h 30 destroyAtOnce r (by omega) hrun hd).1
  omega

end RecorderConsumer

end Eye
