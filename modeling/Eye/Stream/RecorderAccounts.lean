import Mathlib.Data.List.Nodup
import Eye.Stream.RecorderConsumer

/-!
# The accounts of the recorder

`recorder_accounts`: whatever the threads do, the queue is bounded, every accepted frame is in one
place (written, dropped, queued, or in the hands of the writer), the file holds the written entries
whole and in the order they were accepted, and an entry is dropped only by the frame that needs its
room: the oldest without an IDR, or the oldest of all if each has one.

The ledger of the worker follows the entries; entries carry the number of their frame, so an entry
cannot be in the file twice.
-/

namespace Eye

namespace RecorderConsumer

/-! ## What an entry holds -/

/-- The bytes that a pack points to. -/
def packBytes (pk : FramePack) : List UInt8 := (pk.data.map ByteVec.bytes).getD []

/-- A pack without data has no length. -/
def NullIsEmpty (pk : FramePack) : Prop := pk.data = none → pk.len = 0

instance (pk : FramePack) : Decidable (NullIsEmpty pk) := inferInstanceAs (Decidable (_ → _))

theorem appendPack_eq (bytes : List UInt8) (pk : FramePack) :
    appendPack bytes pk = if NullIsEmpty pk then some (bytes ++ packBytes pk) else none := by
  unfold appendPack packBytes
  cases hd : pk.data with
  | some data =>
    have hnull : NullIsEmpty pk := fun h => absurd (hd.symm.trans h) (Option.some_ne_none data)
    rw [if_pos hnull]
    rfl
  | none => simp [NullIsEmpty, hd]

/-- The copying loop succeeds unless it copies from a null pointer. -/
theorem foldlM_appendPack (packs : List FramePack) (bytes : List UInt8) :
    packs.foldlM appendPack bytes =
      if ∀ pk ∈ packs, NullIsEmpty pk then some (bytes ++ packs.flatMap packBytes) else none := by
  induction packs generalizing bytes with
  | nil => simp
  | cons pk packs ih =>
    rw [List.foldlM_cons, appendPack_eq]
    by_cases hpk : NullIsEmpty pk
    · rw [if_pos hpk]
      show packs.foldlM appendPack _ = _
      rw [ih, List.flatMap_cons, List.append_assoc]
      simp only [List.forall_mem_cons, hpk, true_and]
    · rw [if_neg hpk, if_neg fun h => hpk (h pk List.mem_cons_self)]
      rfl

theorem assemble_eq {frame : StreamFrame} {entry : WriteEntry} (h : assemble frame = some entry) :
    entry = ⟨frame.data.used.flatMap packBytes, frame.isIdr⟩ := by
  unfold assemble at h
  split_ifs at h
  rw [foldlM_appendPack] at h
  split_ifs at h
  · cases h
    rfl
  · cases h

/-! ## The invariant -/

/-- What every step keeps of a recorder with a queue of that size. -/
structure Inv (writeQueueSize : ℕ) (r : RecorderConsumer) : Prop where
  size_eq : r.maxQueueSize = writeQueueSize
  worker : r.worker.Inv
  length_le : r.worker.queue.length ≤ writeQueueSize
  stamped : r.worker.ledger.Stamped
  accepted_eq : r.accepted = r.worker.ledger.entered.length
  cleared_eq : r.worker.ledger.cleared = []
  left_eq : r.worker.ledger.left = r.worker.returned ++ r.worker.place.inHand
  file_eq : r.file = r.worker.returned.flatMap fun e => e.1.data

variable {n : ℕ} {r r' : RecorderConsumer} {a : Action}

theorem inv_new (n : ℕ) : (new n).Inv n :=
  ⟨rfl, Worker.inv_new, Nat.zero_le _, Ledger.stamped_empty, rfl, rfl, rfl, rfl⟩

theorem written_eq {b : Worker.Act (WriteEntry × ℕ)} (hb : allows b = true) :
    r.written b = (r.worker.ends b).flatMap fun e => e.1.data := by
  unfold written Worker.ends
  cases b with
  | finish ok =>
    have hok : ok = true := hb
    subst hok
    cases hp : r.worker.place with
    | process x => simp [Place.inHand]
    | test | lock | check | block | waiting | ready | done => simp [Place.inHand]
  | work | spurious | notifyOne | beginStop | store | notifyAll | join => rfl
  | enqueue | clear => cases hb

theorem Inv.act (hi : r.Inv n) {b : Worker.Act (WriteEntry × ℕ)} {w : Worker (WriteEntry × ℕ)}
    (hb : allows b = true) (h : r.worker.Step (policy r.maxQueueSize) b w) :
    Inv n { r with worker := w, file := r.file ++ r.written b } := by
  have hadds : b.adds = [] := by
    cases b with
    | enqueue => cases hb
    | work | finish | spurious | notifyOne | beginStop | store | notifyAll | join | clear => rfl
  have hentered : w.ledger.entered = r.worker.ledger.entered := by
    rw [h.entered_eq, hadds, List.append_nil]
  have hfinish : b ≠ .finish false := by
    rintro rfl
    cases hb
  have hclear : b ≠ .clear := by
    rintro rfl
    cases hb
  refine ⟨hi.size_eq, hi.worker.step h, ?_, ?_, ?_, ?_, h.left_eq hfinish hi.left_eq, ?_⟩
  · exact Nat.le_trans (h.queue_sublist hadds).length_le hi.length_le
  · unfold Ledger.Stamped
    rw [hentered]
    exact hi.stamped
  · show r.accepted = w.ledger.entered.length
    rw [hentered]
    exact hi.accepted_eq
  · show w.ledger.cleared = []
    rw [h.cleared_eq hclear]
    exact hi.cleared_eq
  · show r.file ++ r.written b = w.returned.flatMap fun e => e.1.data
    rw [h.returned_eq, List.flatMap_append, ← hi.file_eq, written_eq hb]

/-- A frame is accepted: its entry goes in at the end, behind what is left of the queue. -/
theorem Inv.onFrame (hi : r.Inv n) {entry : WriteEntry} {w : Worker (WriteEntry × ℕ)}
    (h : r.worker.Step (policy r.maxQueueSize) (.enqueue (entry, r.accepted)) w) :
    Inv n { r with worker := w, accepted := r.accepted + 1 } := by
  have hleft := h.left_eq (fun h => nomatch h) hi.left_eq
  have hworker := hi.worker.step h
  cases h with
  | @enqueue kept gone x hm hroom =>
    refine ⟨hi.size_eq, hworker, ?_, ?_, ?_, hi.cleared_eq, hleft, hi.file_eq⟩
    · show (kept ++ [(entry, r.accepted)]).length ≤ n
      have hle := hi.length_le
      have hsize := hi.size_eq
      rw [List.length_append, List.length_singleton]
      rcases room_cases hroom with ⟨hlt, rfl, -⟩ | ⟨before, e, after, -, hq, rfl, -, -⟩
      · omega
      · rw [hq, List.length_append, List.length_cons] at hle
        rw [List.length_append]
        omega
    · rw [hi.accepted_eq]
      exact hi.stamped.enter [entry]
    · show r.accepted + 1 = (r.worker.ledger.entered ++ [(entry, r.accepted)]).length
      rw [List.length_append, hi.accepted_eq]
      rfl

theorem Inv.step (hi : r.Inv n) (h : r.step a = some r') : r'.Inv n := by
  cases a with
  | onFrame frame =>
    obtain ⟨entry, -, h⟩ := Option.bind_eq_some_iff.mp h
    obtain ⟨w, hw, rfl⟩ := Option.map_eq_some_iff.mp h
    exact hi.onFrame (.of_step hw)
  | act b =>
    rw [RecorderConsumer.step] at h
    split_ifs at h with hb
    obtain ⟨w, hw, rfl⟩ := Option.map_eq_some_iff.mp h
    exact hi.act hb (.of_step hw)

theorem inv_of_run {as : List Action} (h : (machine n).run (new n) as = some r) : r.Inv n :=
  Machine.keep_run (inv_new n) (fun _ _ _ hi h => hi.step h) h

/-! ## The accounts -/

/-- The entry of a frame that an action has `on_frame` accept. -/
def accepts : Action → List WriteEntry
  | .onFrame frame => (assemble frame).toList
  | .act _ => []

theorem entered_step (hi : r.Inv n) (h : r.step a = some r') :
    r'.worker.ledger.entered =
      r.worker.ledger.entered ++ (accepts a).zipIdx r.worker.ledger.entered.length := by
  cases a with
  | onFrame frame =>
    obtain ⟨entry, he, h⟩ := Option.bind_eq_some_iff.mp h
    obtain ⟨w, hw, rfl⟩ := Option.map_eq_some_iff.mp h
    rw [(Worker.Step.of_step hw).entered_eq, accepts, he, hi.accepted_eq]
    rfl
  | act b =>
    rw [RecorderConsumer.step] at h
    split_ifs at h with hb
    obtain ⟨w, hw, rfl⟩ := Option.map_eq_some_iff.mp h
    rw [(Worker.Step.of_step hw).entered_eq]
    cases b with
    | enqueue => cases hb
    | work | finish | spurious | notifyOne | beginStop | store | notifyAll | join | clear => rfl

theorem entered_of_run {as : List Action} (hi : r.Inv n) (h : (machine n).run r as = some r') :
    r'.worker.ledger.entered =
      r.worker.ledger.entered ++ (as.flatMap accepts).zipIdx r.worker.ledger.entered.length := by
  induction as generalizing r with
  | nil =>
    rw [Machine.run_nil, Option.some.injEq] at h
    rw [h, List.flatMap_nil, List.zipIdx_nil, List.append_nil]
  | cons a as ih =>
    rw [Machine.run_cons, Option.bind_eq_some_iff] at h
    obtain ⟨r₁, h₁, h⟩ := h
    have hstep := entered_step hi h₁
    rw [ih (hi.step h₁) h, hstep, List.flatMap_cons, List.zipIdx_append, List.append_assoc,
      List.length_append, List.length_zipIdx, Nat.add_comm]

/-- The accounts of a recorder with a queue of that size. -/
structure Accounts (writeQueueSize : ℕ) (r : RecorderConsumer) : Prop where
  length_le : r.worker.queue.length ≤ writeQueueSize
  accepted_eq : r.accepted = r.worker.consumed + r.worker.dropped + r.worker.queue.length +
    r.worker.place.inHand.length
  file_eq : r.file = r.worker.returned.flatMap fun e => e.1.data
  consumed_eq : r.worker.consumed = r.worker.returned.length
  dropped_eq : r.worker.dropped = r.worker.ledger.dropped.length
  order : (r.worker.returned ++ r.worker.place.inHand ++ r.worker.queue).Sublist
    r.worker.ledger.entered
  partition : (r.worker.returned ++ r.worker.place.inHand ++ r.worker.ledger.dropped ++
    r.worker.queue).Perm r.worker.ledger.entered
  nodup : r.worker.ledger.entered.Nodup

theorem Inv.toAccounts (hi : r.Inv n) : r.Accounts n := by
  have hb := hi.worker.balanced
  have hpart := hb.partition
  rw [hi.left_eq, hi.cleared_eq, List.append_nil] at hpart
  have horder := hb.order
  rw [hi.left_eq] at horder
  refine ⟨hi.length_le, ?_, hi.file_eq, hi.worker.consumed_eq, hi.worker.dropped_eq, horder, hpart,
    hi.stamped.nodup⟩
  have hlen := hpart.length_eq
  simp only [List.length_append] at hlen
  rw [hi.accepted_eq, hi.worker.consumed_eq, hi.worker.dropped_eq]
  omega

/-- Between two moments nothing is dropped; or a frame has come to a full queue, its entry is the
last of the queue, and the victim, another one, is gone. -/
def DropsVictim (writeQueueSize : ℕ) (r : RecorderConsumer) (a : Action) (r' : RecorderConsumer) :
    Prop :=
  r'.worker.ledger.dropped = r.worker.ledger.dropped ∨
    ∃ entry before e after, accepts a = [entry] ∧ r.worker.queue.length = writeQueueSize ∧
      r.worker.queue = before ++ e :: after ∧ Victim r.worker.queue before e ∧
      r'.worker.queue = before ++ after ++ [(entry, r.accepted)] ∧ e ≠ (entry, r.accepted) ∧
      r'.worker.ledger.dropped = r.worker.ledger.dropped ++ [e]

theorem Inv.serial_lt (hi : r.Inv n) {e : WriteEntry × ℕ} (he : e ∈ r.worker.queue) :
    e.2 < r.accepted := by
  have hmem : e ∈ r.worker.ledger.entered :=
    hi.worker.balanced.mem_iff.mpr (.inr (.inr (.inr he)))
  rw [hi.stamped] at hmem
  have := List.snd_lt_of_mem_zipIdx hmem
  rw [List.length_map] at this
  rw [hi.accepted_eq]
  omega

theorem Inv.dropsVictim (hi : r.Inv n) (h : r.step a = some r') : DropsVictim n r a r' := by
  cases a with
  | onFrame frame =>
    obtain ⟨entry, hentry, h⟩ := Option.bind_eq_some_iff.mp h
    obtain ⟨w, hw, rfl⟩ := Option.map_eq_some_iff.mp h
    have hstep := Worker.Step.of_step hw
    cases hstep with
    | @enqueue kept gone x hm hroom =>
      rcases room_cases hroom with ⟨-, rfl, rfl⟩ | ⟨before, e, after, hfull, hq, rfl, rfl, hv⟩
      · left
        exact List.append_nil _
      · right
        have hsize := hi.size_eq
        have hle := hi.length_le
        have hlt : e.2 < r.accepted := by
          apply hi.serial_lt
          rw [hq]
          simp
        refine ⟨entry, before, e, after, ?_, by omega, hq, hv, rfl, ?_, rfl⟩
        · rw [accepts, hentry]
          rfl
        · rintro rfl
          exact Nat.lt_irrefl _ hlt
  | act b =>
    left
    rw [RecorderConsumer.step] at h
    split_ifs at h with hb
    obtain ⟨w, hw, rfl⟩ := Option.map_eq_some_iff.mp h
    apply (Worker.Step.of_step hw).dropped_eq
    cases b with
    | enqueue => cases hb
    | work | finish | spurious | notifyOne | beginStop | store | notifyAll | join | clear => rfl

theorem room_isSome (hn : 1 ≤ n) (queue : List (WriteEntry × ℕ)) : (room n queue).isSome := by
  unfold room
  split_ifs with hfull
  · exact tryDropFrame_isSome (List.length_pos_iff.mp (Nat.lt_of_lt_of_le hn hfull))
  · rfl

/-- **The accounts of the recorder.** After every run the accounts agree, the entries accepted are
those of the frames that `on_frame` was given, in their order, `on_frame` has room or can make it,
and the next step drops nothing or the victim. -/
theorem recorder_accounts (hn : 1 ≤ n) {as : List Action}
    (hrun : (machine n).run (new n) as = some r) :
    r.Accounts n ∧ r.worker.ledger.entered = (as.flatMap accepts).zipIdx ∧
      (room r.maxQueueSize r.worker.queue).isSome ∧
      ∀ a r', r.step a = some r' → DropsVictim n r a r' := by
  have hi := inv_of_run hrun
  refine ⟨hi.toAccounts, entered_of_run (inv_new n) hrun, ?_, fun _ _ h => hi.dropsVictim h⟩
  rw [hi.size_eq]
  exact room_isSome hn _

/-- A frame of two packs of one byte. -/
def twoPacks (naluType : NaluType) (b : UInt8) : StreamFrame where
  channel := .chn0
  type := .videoMain
  codecType := .h264
  timestamp := 1
  data :=
    { packs := Vector.replicate _ ⟨some ⟨[b], by simp⟩, 1, naluType,
        fun _ h => Option.some.inj h ▸ rfl⟩
      packCount := 2
      seq := 0
      packCount_le := by decide }

/-- The writer writes a first frame; a second one waits and gives way to an IDR. -/
def idrComes : List Action :=
  [.onFrame (twoPacks .pSlice 7), .act .notifyOne, .act .work, .act .work, .act .work, .act .work,
    .act (.finish true), .onFrame (twoPacks .pSlice 8), .onFrame (twoPacks .idrSlice 9)]

theorem recorder_accounts_idrComes :
    ∃ r, (machine 1).run (new 1) idrComes = some r ∧ r.file = [7, 7] ∧ r.accepted = 3 ∧
      r.worker.consumed = 1 ∧ r.worker.ledger.dropped = [(⟨[8, 8], false⟩, 1)] ∧
      r.worker.queue = [(⟨[9, 9], true⟩, 2)] ∧ r.Accounts 1 ∧
      ∀ a r', r.step a = some r' → DropsVictim 1 r a r' := by
  have h : ∀ r, (machine 1).run (new 1) idrComes = some r →
      r.Accounts 1 ∧ ∀ a r', r.step a = some r' → DropsVictim 1 r a r' := by
    intro r hrun
    obtain ⟨haccounts, -, -, hdrops⟩ := recorder_accounts (Nat.le_refl 1) hrun
    exact ⟨haccounts, hdrops⟩
  exact ⟨_, rfl, rfl, rfl, rfl, rfl, rfl, h _ rfl⟩

end RecorderConsumer

end Eye
