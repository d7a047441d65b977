import Mathlib.Data.List.Flatten
import Eye.Core.CommonTypes
import Eye.Lib.Queue

/-!
# The frame queue between the stream workers and the event loop

`RtspFrameQueue`: a queue of access units, filled by a stream worker one access unit at a time and
drained by the event loop one NAL unit at a time. Every method runs under the queue's mutex, so a
run of the queue is a sequence of calls. The queue moves NAL units and never looks into them; it is
generic in their type `ν`.

`queue_pushAccessUnit`: a push is `DropOldest.push`. `nals_popNalUnit`: a pop takes the first of the
NAL units held. Both need `Wf`, which every method keeps.
-/

namespace Eye

/-- A pointer to an `RtspStreamSource`. -/
abbrev SourceId := ℕ

/-- `RtspNalUnit` -/
structure RtspNalUnit where
  data : ByteVec
  timestamp : UInt64
  isIdr : Bool
  deriving DecidableEq

/-- `RtspAccessUnit`, its one field -/
abbrev RtspAccessUnit (ν : Type) := List ν

/-- `RtspFrameQueue`. The constructor replaces a size of zero, so the bound is positive. -/
structure RtspFrameQueue (ν : Type) where
  queue : List (RtspAccessUnit ν)
  activeSources : List SourceId
  maxQueueSize : ℕ
  maxQueueSize_pos : 0 < maxQueueSize
  deriving DecidableEq

namespace RtspFrameQueue

variable {ν : Type}

/-- `RtspFrameQueue::RtspFrameQueue` -/
def new (maxQueueSize : ℕ) : RtspFrameQueue ν where
  queue := []
  activeSources := []
  maxQueueSize := if maxQueueSize = 0 then 1 else maxQueueSize
  maxQueueSize_pos := by split_ifs <;> omega

/-- The overflow loop of `push_access_unit`: `drop_oldest_access_unit_locked` while the queue is
full. -/
def dropWhileFull (maxQueueSize : ℕ) : List (RtspAccessUnit ν) → List (RtspAccessUnit ν)
  | [] => []
  | u :: rest =>
    if maxQueueSize ≤ (u :: rest).length then dropWhileFull maxQueueSize rest else u :: rest

/-- `RtspFrameQueue::push_access_unit` -/
def pushAccessUnit (q : RtspFrameQueue ν) (nals : List ν) : RtspFrameQueue ν :=
  if nals.isEmpty then q
  else { q with queue := dropWhileFull q.maxQueueSize q.queue ++ [nals] }

/-- `RtspFrameQueue::push_nal_unit` -/
def pushNalUnit (q : RtspFrameQueue ν) (nal : ν) : RtspFrameQueue ν := q.pushAccessUnit [nal]

/-- The loop of `pop_nal_unit` that skips access units without NAL units. -/
def skipEmpty : List (RtspAccessUnit ν) → List (RtspAccessUnit ν)
  | [] => []
  | u :: rest => if u.isEmpty then skipEmpty rest else u :: rest

/-- `RtspFrameQueue::pop_nal_unit`: the NAL unit if there is one, and the queue afterwards. -/
def popNalUnit (q : RtspFrameQueue ν) : Option ν × RtspFrameQueue ν :=
  match skipEmpty q.queue with
  | (nal :: nals) :: rest =>
    (some nal, { q with queue := if nals.isEmpty then rest else nals :: rest })
  | units => (none, { q with queue := units })

/-- `RtspFrameQueue::register_source` -/
def registerSource (q : RtspFrameQueue ν) (source : SourceId) : RtspFrameQueue ν :=
  { q with activeSources := q.activeSources ++ [source] }

/-- `RtspFrameQueue::unregister_source` -/
def unregisterSource (q : RtspFrameQueue ν) (source : SourceId) : RtspFrameQueue ν :=
  { q with activeSources := q.activeSources.erase source }

/-- `RtspFrameQueue::clear` -/
def clear (q : RtspFrameQueue ν) : RtspFrameQueue ν := { q with queue := [] }

/-- `RtspFrameQueue::has_active_sources` -/
def hasActiveSources (q : RtspFrameQueue ν) : Bool := !q.activeSources.isEmpty

/-- Every NAL unit the queue holds, in the order they will be popped. -/
def nals (q : RtspFrameQueue ν) : List ν := q.queue.flatten

/-! ## What each method does to the units -/

/-- No stored access unit is empty, and there are at most `max_queue_size` of them. -/
structure Wf (q : RtspFrameQueue ν) : Prop where
  ne_nil : ∀ u ∈ q.queue, u ≠ []
  length_le : q.queue.length ≤ q.maxQueueSize

theorem wf_new (n : ℕ) : (new n : RtspFrameQueue ν).Wf :=
  ⟨fun _ hu => absurd hu List.not_mem_nil, Nat.zero_le _⟩

theorem maxQueueSize_new (n : ℕ) : (new n : RtspFrameQueue ν).maxQueueSize = max 1 n := by
  show (if n = 0 then 1 else n) = max 1 n
  split_ifs <;> omega

theorem dropWhileFull_cons (n : ℕ) (u : RtspAccessUnit ν) (rest : List (RtspAccessUnit ν)) :
    dropWhileFull n (u :: rest) =
      if n ≤ rest.length + 1 then dropWhileFull n rest else u :: rest := rfl

theorem dropWhileFull_of_lt {n : ℕ} {units : List (RtspAccessUnit ν)} (h : units.length < n) :
    dropWhileFull n units = units := by
  cases units with
  | nil => rfl
  | cons u rest =>
    rw [dropWhileFull_cons, if_neg (by rw [List.length_cons] at h; omega)]

/-- Within its bound the overflow loop runs at most once. -/
theorem dropWhileFull_eq_kept {n : ℕ} {units : List (RtspAccessUnit ν)} (h : units.length ≤ n) :
    dropWhileFull n units = DropOldest.kept n units := by
  unfold DropOldest.kept
  split_ifs with hlt
  · exact dropWhileFull_of_lt hlt
  · cases units with
    | nil => rfl
    | cons u rest =>
      rw [List.length_cons] at h hlt
      rw [dropWhileFull_cons, if_pos (by omega), List.tail_cons]
      exact dropWhileFull_of_lt (by omega)

@[simp] theorem pushAccessUnit_nil (q : RtspFrameQueue ν) : q.pushAccessUnit [] = q := rfl

theorem queue_pushAccessUnit {q : RtspFrameQueue ν} (hq : q.Wf) {nals : List ν} (h : nals ≠ []) :
    (q.pushAccessUnit nals).queue = DropOldest.push q.maxQueueSize q.queue nals := by
  unfold pushAccessUnit
  rw [if_neg (by simpa using h)]
  show dropWhileFull q.maxQueueSize q.queue ++ [nals] = _
  rw [dropWhileFull_eq_kept hq.length_le]
  rfl

@[simp] theorem pushAccessUnit_maxQueueSize (q : RtspFrameQueue ν) (nals : List ν) :
    (q.pushAccessUnit nals).maxQueueSize = q.maxQueueSize := by
  unfold pushAccessUnit
  split_ifs <;> rfl

@[simp] theorem pushAccessUnit_activeSources (q : RtspFrameQueue ν) (nals : List ν) :
    (q.pushAccessUnit nals).activeSources = q.activeSources := by
  unfold pushAccessUnit
  split_ifs <;> rfl

theorem popNalUnit_nil {q : RtspFrameQueue ν} (h : q.queue = []) : q.popNalUnit = (none, q) := by
  cases q with
  | mk queue sources n hn =>
    cases h
    rfl

theorem popNalUnit_cons {q : RtspFrameQueue ν} {nal : ν} {nals : List ν}
    {rest : List (RtspAccessUnit ν)} (h : q.queue = (nal :: nals) :: rest) :
    q.popNalUnit =
      (some nal, { q with queue := if nals.isEmpty then rest else nals :: rest }) := by
  unfold popNalUnit
  rw [h]
  rfl

@[simp] theorem popNalUnit_maxQueueSize (q : RtspFrameQueue ν) :
    q.popNalUnit.2.maxQueueSize = q.maxQueueSize := by
  unfold popNalUnit
  split <;> rfl

@[simp] theorem popNalUnit_activeSources (q : RtspFrameQueue ν) :
    q.popNalUnit.2.activeSources = q.activeSources := by
  unfold popNalUnit
  split <;> rfl

/-- The two shapes of a well-formed queue: empty, or with a NAL unit at the front. -/
theorem Wf.cases {q : RtspFrameQueue ν} (hq : q.Wf) :
    q.queue = [] ∨ ∃ nal nals rest, q.queue = (nal :: nals) :: rest := by
  cases hu : q.queue with
  | nil => exact .inl rfl
  | cons u rest =>
    cases u with
    | nil => exact absurd rfl (hq.ne_nil [] (hu ▸ List.mem_cons_self))
    | cons nal nals => exact .inr ⟨nal, nals, rest, rfl⟩

theorem Wf.pushAccessUnit {q : RtspFrameQueue ν} (hq : q.Wf) (nals : List ν) :
    (q.pushAccessUnit nals).Wf := by
  by_cases h : nals = []
  · rw [h, pushAccessUnit_nil]
    exact hq
  · constructor
    · rw [queue_pushAccessUnit hq h]
      intro u hu
      rcases List.mem_append.mp hu with hu | hu
      · exact hq.ne_nil u ((DropOldest.kept_sublist _ _).subset hu)
      · rw [List.mem_singleton.mp hu]
        exact h
    · rw [queue_pushAccessUnit hq h, pushAccessUnit_maxQueueSize]
      exact DropOldest.length_push_le q.maxQueueSize_pos hq.length_le

theorem Wf.popNalUnit {q : RtspFrameQueue ν} (hq : q.Wf) : q.popNalUnit.2.Wf := by
  rcases hq.cases with h | ⟨nal, nals, rest, h⟩
  · rw [popNalUnit_nil h]
    exact hq
  · rw [popNalUnit_cons h]
    have hne := hq.ne_nil
    have hlen := hq.length_le
    rw [h] at hne hlen
    rw [List.length_cons] at hlen
    constructor
    · intro u hu
      dsimp only at hu
      split_ifs at hu with he
      · exact hne u (List.mem_cons_of_mem _ hu)
      · rcases List.mem_cons.mp hu with rfl | hu
        · simpa using he
        · exact hne u (List.mem_cons_of_mem _ hu)
    · dsimp only
      split_ifs
      · omega
      · rw [List.length_cons]
        omega

theorem Wf.clear {q : RtspFrameQueue ν} (_ : q.Wf) : q.clear.Wf :=
  ⟨fun _ hu => absurd hu List.not_mem_nil, Nat.zero_le _⟩

/-- A pop removes the first of the NAL units held, and only it. -/
theorem nals_popNalUnit {q : RtspFrameQueue ν} (hq : q.Wf) :
    (q.popNalUnit.1 = none ∧ q.nals = [] ∧ q.popNalUnit.2 = q) ∨
      ∃ nal, q.popNalUnit.1 = some nal ∧ q.nals = nal :: q.popNalUnit.2.nals := by
  rcases hq.cases with h | ⟨nal, nals, rest, h⟩
  · rw [popNalUnit_nil h]
    exact .inl ⟨rfl, by unfold RtspFrameQueue.nals; rw [h]; rfl, rfl⟩
  · rw [popNalUnit_cons h]
    refine .inr ⟨nal, rfl, ?_⟩
    unfold RtspFrameQueue.nals
    rw [h]
    dsimp only
    split_ifs with he
    · rw [List.isEmpty_iff] at he
      rw [he]
      rfl
    · rfl

theorem popNalUnit_eq_none {q : RtspFrameQueue ν} (hq : q.Wf) :
    q.popNalUnit.1 = none ↔ q.nals = [] := by
  rcases nals_popNalUnit hq with ⟨h1, h2, -⟩ | ⟨nal, h1, h2⟩
  · rw [h1, h2]
    exact ⟨fun _ => rfl, fun _ => rfl⟩
  · rw [h1, h2]
    exact ⟨fun h => absurd h (by simp), fun h => absurd h (by simp)⟩

/-- A push leaves a part of the NAL units held, and adds its own behind them. -/
theorem nals_pushAccessUnit {q : RtspFrameQueue ν} (hq : q.Wf) (unit : RtspAccessUnit ν) :
    ∃ kept, kept.Sublist q.nals ∧ (q.pushAccessUnit unit).nals = kept ++ unit := by
  by_cases h : unit = []
  · exact ⟨q.nals, List.Sublist.refl _, by rw [h, pushAccessUnit_nil, List.append_nil]⟩
  · refine ⟨(DropOldest.kept q.maxQueueSize q.queue).flatten,
      (DropOldest.kept_sublist _ _).flatten, ?_⟩
    unfold RtspFrameQueue.nals
    rw [queue_pushAccessUnit hq h]
    unfold DropOldest.push
    rw [List.flatten_append, List.flatten_singleton]

theorem nals_eq_nil {q : RtspFrameQueue ν} (hq : q.Wf) : q.nals = [] ↔ q.queue = [] := by
  rcases hq.cases with h | ⟨nal, nals, rest, h⟩ <;> simp [RtspFrameQueue.nals, h]

end RtspFrameQueue

end Eye
