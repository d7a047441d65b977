import Eye.Core.CommonTypes
import Eye.Lib.Machine
import Eye.Lib.Worker

/-!
# The recorder

`RecorderConsumer`: `on_frame` assembles the packs of a frame into one entry and queues it,
`write_loop` is the worker that writes entries to the file, and the destructor stops it. A full
queue gives up its oldest entry without an IDR, or its oldest entry if all have one.

Entries are paired with the number of the frame they were made from.
-/

namespace Eye

/-- `WriteEntry` -/
structure WriteEntry where
  data : List UInt8
  isIdr : Bool
  deriving DecidableEq

/-- `RecorderConsumer`: `accepted` counts the frames queued so far. -/
structure RecorderConsumer where
  maxQueueSize : ℕ
  worker : Worker (WriteEntry × ℕ)
  accepted : ℕ
  file : List UInt8

namespace RecorderConsumer

/-- `RecorderConsumer::RecorderConsumer` -/
def new (writeQueueSize : ℕ) : RecorderConsumer := ⟨writeQueueSize, .new, 0, []⟩

/-- The copying loop of `on_frame`, one pack; copying from a null pointer is undefined. -/
def appendPack (bytes : List UInt8) (pk : FramePack) : Option (List UInt8) :=
  match pk.data with
  | some data => some (bytes ++ data.bytes)
  | none => if pk.len = 0 then some bytes else none

/-- The first loop of `on_frame`. -/
def totalLen (packs : List FramePack) : ℕ := packs.foldl (fun len pk => len + pk.len.toNat) 0

/-- The entry that `on_frame` makes of a frame, whose size has to fit a `size_t`. -/
def assemble (frame : StreamFrame) : Option WriteEntry :=
  if totalLen frame.data.used < 2 ^ 32 then
    (frame.data.used.foldlM appendPack []).map fun data => ⟨data, frame.isIdr⟩
  else none

/-- The loop of `try_drop_frame`: the first entry that is not an IDR, and the others. -/
def dropNonIdr : List (WriteEntry × ℕ) → Option (List (WriteEntry × ℕ) × (WriteEntry × ℕ))
  | [] => none
  | e :: rest =>
    if e.1.isIdr then (dropNonIdr rest).map fun r => (e :: r.1, r.2) else some (rest, e)

/-- `try_drop_frame`: what stays and what is dropped. Without an entry `pop_front` is undefined. -/
def tryDropFrame (queue : List (WriteEntry × ℕ)) :
    Option (List (WriteEntry × ℕ) × List (WriteEntry × ℕ)) :=
  match dropNonIdr queue with
  | some (kept, e) => some (kept, [e])
  | none =>
    match queue with
    | [] => none
    | e :: rest => some (rest, [e])

theorem tryDropFrame_isSome {queue : List (WriteEntry × ℕ)} (h : queue ≠ []) :
    (tryDropFrame queue).isSome = true := by
  unfold tryDropFrame
  cases dropNonIdr queue with
  | some r => rfl
  | none =>
    cases queue with
    | nil => exact absurd rfl h
    | cons e rest => rfl

/-- How `on_frame` makes room. -/
def room (maxQueueSize : ℕ) (queue : List (WriteEntry × ℕ)) :
    Option (List (WriteEntry × ℕ) × List (WriteEntry × ℕ)) :=
  if maxQueueSize ≤ queue.length then tryDropFrame queue else some (queue, [])

theorem dropNonIdr_spec {queue kept : List (WriteEntry × ℕ)} {e : WriteEntry × ℕ}
    (h : dropNonIdr queue = some (kept, e)) :
    ∃ before after, queue = before ++ e :: after ∧ kept = before ++ after ∧
      e.1.isIdr = false ∧ ∀ x ∈ before, x.1.isIdr = true := by
  induction queue generalizing kept with
  | nil => cases h
  | cons x rest ih =>
    unfold dropNonIdr at h
    split_ifs at h with hx
    · obtain ⟨⟨kept', e'⟩, hr, heq⟩ := Option.map_eq_some_iff.mp h
      cases heq
      obtain ⟨before, after, rfl, rfl, he, hall⟩ := ih hr
      refine ⟨x :: before, after, rfl, rfl, he, ?_⟩
      intro y hy
      rcases List.mem_cons.mp hy with rfl | hy
      · exact hx
      · exact hall y hy
    · cases h
      exact ⟨[], rest, rfl, rfl, by simpa using hx, fun _ h => absurd h List.not_mem_nil⟩

theorem dropNonIdr_none {queue : List (WriteEntry × ℕ)} (h : dropNonIdr queue = none) :
    ∀ e ∈ queue, e.1.isIdr = true := by
  induction queue with
  | nil =>
    intro e he
    simp at he
  | cons x rest ih =>
    unfold dropNonIdr at h
    split_ifs at h with hx
    · rw [Option.map_eq_none_iff] at h
      intro e he
      rcases List.mem_cons.mp he with rfl | he
      · exact hx
      · exact ih h e he

/-- Behind `before` in the queue, `e` is the oldest entry without an IDR; or it is the oldest entry
and all have one. -/
def Victim (queue before : List (WriteEntry × ℕ)) (e : WriteEntry × ℕ) : Prop :=
  (e.1.isIdr = false ∧ ∀ x ∈ before, x.1.isIdr = true) ∨
    (before = [] ∧ ∀ x ∈ queue, x.1.isIdr = true)

/-- Room is there, or made by taking the victim out. -/
theorem room_cases {maxQueueSize : ℕ} {queue kept gone : List (WriteEntry × ℕ)}
    (h : room maxQueueSize queue = some (kept, gone)) :
    (queue.length < maxQueueSize ∧ kept = queue ∧ gone = []) ∨
      ∃ before e after, maxQueueSize ≤ queue.length ∧ queue = before ++ e :: after ∧
        kept = before ++ after ∧ gone = [e] ∧ Victim queue before e := by
  unfold room at h
  split_ifs at h with hfull
  · right
    unfold tryDropFrame at h
    cases hd : dropNonIdr queue with
    | some r =>
      obtain ⟨kept', e⟩ := r
      rw [hd] at h
      cases h
      obtain ⟨before, after, hq, hk, he, hall⟩ := dropNonIdr_spec hd
      exact ⟨before, e, after, hfull, hq, hk, rfl, .inl ⟨he, hall⟩⟩
    | none =>
      rw [hd] at h
      cases queue with
      | nil => cases h
      | cons e rest =>
        cases h
        exact ⟨[], e, kept, hfull, rfl, rfl, rfl, .inr ⟨rfl, dropNonIdr_none hd⟩⟩
  · cases h
    left
    exact ⟨by omega, rfl, rfl⟩

theorem room_spec {maxQueueSize : ℕ} {queue kept gone : List (WriteEntry × ℕ)}
    (h : room maxQueueSize queue = some (kept, gone)) :
    ∃ before after, queue = before ++ gone ++ after ∧ kept = before ++ after := by
  rcases room_cases h with ⟨-, rfl, rfl⟩ | ⟨before, e, after, -, hq, hk, rfl, -⟩
  · exact ⟨kept, [], by rw [List.append_nil, List.append_nil], (List.append_nil _).symm⟩
  · exact ⟨before, after, by rw [hq, List.append_assoc]; rfl, hk⟩

/-- The recorder's way to make room, as a policy. -/
def policy (maxQueueSize : ℕ) : Policy (WriteEntry × ℕ) where
  room := room maxQueueSize
  kept_sublist xs kept gone h := by
    obtain ⟨before, after, rfl, rfl⟩ := room_spec h
    rw [List.append_assoc]
    exact List.Sublist.append_left (List.sublist_append_right _ _) _
  perm xs kept gone h := by
    obtain ⟨before, after, rfl, rfl⟩ := room_spec h
    rw [List.append_assoc, List.append_assoc]
    exact List.Perm.append_left _ List.perm_append_comm

/-- A call of `on_frame` up to its unlock, and every other step of a thread: the `notify_one` of
such a call, the steps of `write_loop`, those of the destructor. -/
inductive Action
  | onFrame (frame : StreamFrame)
  | act (a : Worker.Act (WriteEntry × ℕ))

/-- A write to the file does not throw, and nothing clears the queue. -/
def allows : Worker.Act (WriteEntry × ℕ) → Bool
  | .work | .spurious | .notifyOne | .beginStop | .store | .notifyAll | .join => true
  | .finish ok => ok
  | .enqueue _ | .clear => false

/-- What a step writes to the file. -/
def written (r : RecorderConsumer) (a : Worker.Act (WriteEntry × ℕ)) : List UInt8 :=
  match a, r.worker.place with
  | .finish _, .process x => x.1.data
  | _, _ => []

def step (r : RecorderConsumer) : Action → Option RecorderConsumer
  | .onFrame frame =>
    (assemble frame).bind fun entry =>
      (r.worker.step (policy r.maxQueueSize) (.enqueue (entry, r.accepted))).map fun worker =>
        { r with worker := worker, accepted := r.accepted + 1 }
  | .act a =>
    if allows a then
      (r.worker.step (policy r.maxQueueSize) a).map fun worker =>
        { r with worker := worker, file := r.file ++ r.written a }
    else none

/-- All runs of a recorder with a queue of that size. -/
def machine (writeQueueSize : ℕ) : Machine RecorderConsumer Action where
  init r := r = new writeQueueSize
  step := step

theorem step_worker {r r' : RecorderConsumer} {a : Action} (h : r.step a = some r') :
    ∃ b, (a = .act b ∨ ∃ frame x, a = .onFrame frame ∧ b = .enqueue x) ∧
      r.worker.Step (policy r.maxQueueSize) b r'.worker ∧ r'.maxQueueSize = r.maxQueueSize := by
  cases a with
  | onFrame frame =>
    obtain ⟨entry, -, h⟩ := Option.bind_eq_some_iff.mp h
    obtain ⟨worker, hw, rfl⟩ := Option.map_eq_some_iff.mp h
    exact ⟨_, .inr ⟨frame, _, rfl, rfl⟩, .of_step hw, rfl⟩
  | act a =>
    rw [step] at h
    split_ifs at h
    obtain ⟨worker, hw, rfl⟩ := Option.map_eq_some_iff.mp h
    exact ⟨a, .inl rfl, .of_step hw, rfl⟩

end RecorderConsumer

end Eye
