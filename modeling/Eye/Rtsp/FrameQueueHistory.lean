import Eye.Rtsp.FrameQueue

/-!
# Runs of the frame queue

A `History` is a frame queue together with the access units pushed to it and a ledger of its NAL
units. The pushed NAL units are numbered, so that the ledger follows each of them and not only its
value; the queue is generic and cannot tell (`erase_after`).

* `inv_after`: every stored access unit is non-empty, the bound holds, and the ledger agrees with
  the queue, after any calls;
* `refines_dropOldest`: the queue is a bounded list of access units that gives up its oldest.
-/

namespace Eye

variable {ν : Type}

/-- A call of one of the methods that touch the stored access units. -/
inductive QueueCall (ν : Type)
  | pushNalUnit (nal : ν)
  | pushAccessUnit (nals : List ν)
  | popNalUnit
  | clear
  deriving DecidableEq

/-- The queue itself, under one call. -/
def RtspFrameQueue.call (q : RtspFrameQueue ν) : QueueCall ν → RtspFrameQueue ν
  | .pushNalUnit nal => q.pushNalUnit nal
  | .pushAccessUnit nals => q.pushAccessUnit nals
  | .popNalUnit => q.popNalUnit.2
  | .clear => q.clear

/-- The NAL units a call pushes. -/
def QueueCall.pushedNals : QueueCall ν → List ν
  | .pushNalUnit nal => [nal]
  | .pushAccessUnit nals => nals
  | .popNalUnit => []
  | .clear => []

/-- The NAL units that the pops among the calls return. -/
def RtspFrameQueue.popped : RtspFrameQueue ν → List (QueueCall ν) → List ν
  | _, [] => []
  | q, .popNalUnit :: calls => q.popNalUnit.1.toList ++ (q.call .popNalUnit).popped calls
  | q, c :: calls => (q.call c).popped calls

/-- A queue of numbered NAL units and what has happened to them. -/
structure History (ν : Type) where
  queue : RtspFrameQueue (ν × ℕ)
  pushed : List (RtspAccessUnit (ν × ℕ))
  ledger : Ledger (ν × ℕ)

namespace History

/-- The history of a queue just constructed. -/
def new (maxQueueSize : ℕ) : History ν := ⟨.new maxQueueSize, [], .empty⟩

/-- Push an access unit: what the overflow loop takes from the front is dropped. -/
def pushAccessUnit (h : History ν) (nals : List ν) : History ν :=
  if nals.isEmpty then h
  else
    let unit := h.ledger.stamp nals
    let lost := h.queue.queue.take (h.queue.queue.length -
      (RtspFrameQueue.dropWhileFull h.queue.maxQueueSize h.queue.queue).length)
    { queue := h.queue.pushAccessUnit unit
      pushed := h.pushed ++ [unit]
      ledger := (h.ledger.drop lost.flatten).enter unit }

def call (h : History ν) : QueueCall ν → History ν
  | .pushNalUnit nal => h.pushAccessUnit [nal]
  | .pushAccessUnit nals => h.pushAccessUnit nals
  | .popNalUnit =>
    match h.queue.popNalUnit with
    | (some nal, queue) => { h with queue := queue, ledger := h.ledger.leave nal }
    | (none, queue) => { h with queue := queue }
  | .clear => { h with queue := h.queue.clear, ledger := h.ledger.clear h.queue.nals }

/-- The history after a sequence of calls on a queue of size `n`. -/
def after (n : ℕ) (calls : List (QueueCall ν)) : History ν := calls.foldl call (new n)

/-! ## The queue under the history -/

/-- The queue with the numbers taken off. -/
def erase (q : RtspFrameQueue (ν × ℕ)) : RtspFrameQueue ν :=
  { q with queue := q.queue.map (List.map Prod.fst) }

theorem map_dropWhileFull (n : ℕ) (units : List (RtspAccessUnit (ν × ℕ))) :
    (RtspFrameQueue.dropWhileFull n units).map (List.map Prod.fst) =
      RtspFrameQueue.dropWhileFull n (units.map (List.map Prod.fst)) := by
  induction units with
  | nil => rfl
  | cons u rest ih =>
    rw [List.map_cons, RtspFrameQueue.dropWhileFull_cons, RtspFrameQueue.dropWhileFull_cons,
      List.length_map]
    split_ifs
    · exact ih
    · rfl

theorem map_skipEmpty (units : List (RtspAccessUnit (ν × ℕ))) :
    (RtspFrameQueue.skipEmpty units).map (List.map Prod.fst) =
      RtspFrameQueue.skipEmpty (units.map (List.map Prod.fst)) := by
  induction units with
  | nil => rfl
  | cons u rest ih =>
    cases u with
    | nil => exact ih
    | cons nal nals => rfl

theorem erase_push (q : RtspFrameQueue (ν × ℕ)) (unit : RtspAccessUnit (ν × ℕ)) :
    erase (q.pushAccessUnit unit) = (erase q).pushAccessUnit (unit.map Prod.fst) := by
  unfold RtspFrameQueue.pushAccessUnit
  rw [List.isEmpty_map]
  split_ifs with he
  · rfl
  · unfold erase
    simp only [List.map_append, List.map_singleton, map_dropWhileFull]

theorem erase_pushAccessUnit (h : History ν) (nals : List ν) :
    erase (h.pushAccessUnit nals).queue = (erase h.queue).pushAccessUnit nals := by
  unfold pushAccessUnit
  split_ifs with he
  · rw [List.isEmpty_iff.mp he]
    rfl
  · show erase (h.queue.pushAccessUnit (h.ledger.stamp nals)) = _
    rw [erase_push, Ledger.map_fst_stamp]

theorem erase_popNalUnit (q : RtspFrameQueue (ν × ℕ)) :
    (erase q).popNalUnit = (q.popNalUnit.1.map Prod.fst, erase q.popNalUnit.2) := by
  unfold RtspFrameQueue.popNalUnit
  have hskip := map_skipEmpty q.queue
  rw [show (erase q).queue = q.queue.map (List.map Prod.fst) from rfl, ← hskip]
  cases RtspFrameQueue.skipEmpty q.queue with
  | nil => rfl
  | cons u rest =>
    cases u with
    | nil => rfl
    | cons nal nals => cases nals <;> rfl

theorem erase_call (h : History ν) (c : QueueCall ν) :
    erase (h.call c).queue = (erase h.queue).call c := by
  cases c with
  | pushNalUnit nal => exact erase_pushAccessUnit h [nal]
  | pushAccessUnit nals => exact erase_pushAccessUnit h nals
  | popNalUnit =>
    show _ = (erase h.queue).popNalUnit.2
    rw [erase_popNalUnit]
    unfold call
    rcases h.queue.popNalUnit with ⟨_ | nal, queue⟩ <;> rfl
  | clear => rfl

/-- Numbering the NAL units changes nothing: under the numbers is the run of the queue itself. -/
theorem erase_after (n : ℕ) (calls : List (QueueCall ν)) :
    erase (after n calls).queue = calls.foldl RtspFrameQueue.call (.new n) := by
  unfold after
  suffices ∀ h : History ν, erase (calls.foldl call h).queue =
      calls.foldl RtspFrameQueue.call (erase h.queue) from this _
  induction calls with
  | nil => exact fun h => rfl
  | cons c calls ih =>
    intro h
    rw [List.foldl_cons, List.foldl_cons, ih, erase_call]

/-! ## The invariant -/

/-- What holds after any calls on a queue of size `n`. -/
structure Inv (n : ℕ) (h : History ν) : Prop where
  wf : h.queue.Wf
  size : h.queue.maxQueueSize = max 1 n
  balanced : h.ledger.Balanced h.queue.nals
  stamped : h.ledger.Stamped
  entered : h.pushed.flatten = h.ledger.entered
  ne_nil : ∀ u ∈ h.pushed, u ≠ []

theorem inv_new (n : ℕ) : (new n : History ν).Inv n where
  wf := RtspFrameQueue.wf_new n
  size := RtspFrameQueue.maxQueueSize_new n
  balanced := Ledger.balanced_empty
  stamped := Ledger.stamped_empty
  entered := rfl
  ne_nil _ hu := absurd hu List.not_mem_nil

variable {n : ℕ} {h : History ν}

theorem pushAccessUnit_eq (hi : h.Inv n) {nals : List ν} (hne : nals ≠ []) :
    h.pushAccessUnit nals =
      { queue := h.queue.pushAccessUnit (h.ledger.stamp nals)
        pushed := h.pushed ++ [h.ledger.stamp nals]
        ledger := (h.ledger.drop (DropOldest.evicted (max 1 n) h.queue.queue).flatten).enter
          (h.ledger.stamp nals) } := by
  have hlost : h.queue.queue.take (h.queue.queue.length -
      (RtspFrameQueue.dropWhileFull h.queue.maxQueueSize h.queue.queue).length) =
      DropOldest.evicted (max 1 n) h.queue.queue := by
    rw [RtspFrameQueue.dropWhileFull_eq_kept hi.wf.length_le, hi.size]
    have happ := DropOldest.evicted_append_kept (max 1 n) h.queue.queue
    have hlen := congrArg List.length happ
    rw [List.length_append] at hlen
    rw [show h.queue.queue.length - (DropOldest.kept (max 1 n) h.queue.queue).length =
      (DropOldest.evicted (max 1 n) h.queue.queue).length by omega]
    calc h.queue.queue.take (DropOldest.evicted (max 1 n) h.queue.queue).length
        = (DropOldest.evicted (max 1 n) h.queue.queue ++
            DropOldest.kept (max 1 n) h.queue.queue).take
              (DropOldest.evicted (max 1 n) h.queue.queue).length := by rw [happ]
      _ = DropOldest.evicted (max 1 n) h.queue.queue := List.take_left
  unfold pushAccessUnit
  rw [if_neg (by simpa using hne)]
  dsimp only
  rw [hlost]

theorem queue_pushAccessUnit (hi : h.Inv n) {nals : List ν} (hne : nals ≠ []) :
    (h.pushAccessUnit nals).queue.queue =
      DropOldest.kept (max 1 n) h.queue.queue ++ [h.ledger.stamp nals] := by
  rw [pushAccessUnit_eq hi hne]
  dsimp only
  rw [RtspFrameQueue.queue_pushAccessUnit hi.wf (by rwa [ne_eq, Ledger.stamp_eq_nil]), hi.size]
  rfl

theorem Inv.pushAccessUnit (hi : h.Inv n) (nals : List ν) : (h.pushAccessUnit nals).Inv n := by
  by_cases hne : nals = []
  · rw [hne]
    exact hi
  have hq := queue_pushAccessUnit hi hne
  have hb := hi.balanced
  rw [pushAccessUnit_eq hi hne] at hq ⊢
  dsimp only at hq
  refine ⟨hi.wf.pushAccessUnit _, ?_, ?_, hi.stamped.enter nals, ?_, ?_⟩
  · rw [RtspFrameQueue.pushAccessUnit_maxQueueSize, hi.size]
  · unfold RtspFrameQueue.nals
    rw [hq, List.flatten_append, List.flatten_singleton]
    refine (hb.drop (DropOldest.kept_sublist (max 1 n) h.queue.queue).flatten ?_).enter _
    rw [← List.flatten_append]
    exact (DropOldest.kept_append_evicted_perm (max 1 n) h.queue.queue).flatten
  · dsimp only
    rw [List.flatten_append, List.flatten_singleton, hi.entered]
    rfl
  · intro u hu
    rcases List.mem_append.mp hu with hu | hu
    · exact hi.ne_nil u hu
    · rw [List.mem_singleton.mp hu, ne_eq, Ledger.stamp_eq_nil]
      exact hne

theorem call_popNalUnit (hi : h.Inv n) :
    (h.queue.queue = [] ∧ h.call .popNalUnit = h) ∨
      ∃ nal nals rest, h.queue.queue = (nal :: nals) :: rest ∧
        h.call .popNalUnit =
          { h with
            queue := { h.queue with queue := if nals.isEmpty then rest else nals :: rest }
            ledger := h.ledger.leave nal } := by
  rcases hi.wf.cases with hq | ⟨nal, nals, rest, hq⟩
  · refine .inl ⟨hq, ?_⟩
    unfold call
    rw [RtspFrameQueue.popNalUnit_nil hq]
  · refine .inr ⟨nal, nals, rest, hq, ?_⟩
    unfold call
    rw [RtspFrameQueue.popNalUnit_cons hq]

theorem Inv.popNalUnit (hi : h.Inv n) : (h.call .popNalUnit).Inv n := by
  have hwf := hi.wf.popNalUnit
  have hsize := RtspFrameQueue.popNalUnit_maxQueueSize h.queue
  have hb := hi.balanced
  rcases RtspFrameQueue.nals_popNalUnit hi.wf with ⟨hnone, -, hq⟩ | ⟨nal, hsome, hq⟩
  · unfold call
    rw [show h.queue.popNalUnit = (none, h.queue) from Prod.ext hnone hq]
    exact hi
  · unfold call
    rw [show h.queue.popNalUnit = (some nal, h.queue.popNalUnit.2) from Prod.ext hsome rfl]
    rw [hq] at hb
    exact ⟨hwf, hsize.trans hi.size, hb.leave, hi.stamped, hi.entered, hi.ne_nil⟩

theorem Inv.clear (hi : h.Inv n) : (h.call .clear).Inv n :=
  ⟨hi.wf.clear, hi.size, hi.balanced.clear, hi.stamped, hi.entered, hi.ne_nil⟩

theorem Inv.call (hi : h.Inv n) (c : QueueCall ν) : (h.call c).Inv n := by
  cases c with
  | pushNalUnit nal => exact hi.pushAccessUnit [nal]
  | pushAccessUnit nals => exact hi.pushAccessUnit nals
  | popNalUnit => exact hi.popNalUnit
  | clear => exact hi.clear

theorem inv_foldl (hi : h.Inv n) (calls : List (QueueCall ν)) :
    (calls.foldl History.call h).Inv n := by
  induction calls generalizing h with
  | nil => exact hi
  | cons c calls ih => exact ih (hi.call c)

theorem inv_after (n : ℕ) (calls : List (QueueCall ν)) : (after n calls).Inv n :=
  inv_foldl (inv_new n) calls

/-! ## The ledger and the calls -/

theorem entered_call (h : History ν) (c : QueueCall ν) :
    (h.call c).ledger.entered.map Prod.fst = h.ledger.entered.map Prod.fst ++ c.pushedNals := by
  have hpush : ∀ nals : List ν, (h.pushAccessUnit nals).ledger.entered.map Prod.fst =
      h.ledger.entered.map Prod.fst ++ nals := by
    intro nals
    unfold History.pushAccessUnit
    split_ifs with he
    · rw [List.isEmpty_iff.mp he, List.append_nil]
    · show (h.ledger.entered ++ h.ledger.stamp nals).map Prod.fst = _
      rw [List.map_append, Ledger.map_fst_stamp]
  cases c with
  | pushNalUnit nal => exact hpush [nal]
  | pushAccessUnit nals => exact hpush nals
  | popNalUnit =>
    unfold History.call QueueCall.pushedNals
    rw [List.append_nil]
    rcases h.queue.popNalUnit with ⟨_ | nal, queue⟩ <;> rfl
  | clear => exact (List.append_nil _).symm

theorem entered_after (n : ℕ) (calls : List (QueueCall ν)) :
    (after n calls).ledger.entered.map Prod.fst = calls.flatMap QueueCall.pushedNals := by
  unfold after
  suffices ∀ h : History ν, (calls.foldl History.call h).ledger.entered.map Prod.fst =
      h.ledger.entered.map Prod.fst ++ calls.flatMap QueueCall.pushedNals from this _
  induction calls with
  | nil => exact fun h => (List.append_nil _).symm
  | cons c calls ih =>
    intro h
    rw [List.foldl_cons, ih, entered_call, List.flatMap_cons, List.append_assoc]

theorem left_pushAccessUnit (h : History ν) (nals : List ν) :
    (h.pushAccessUnit nals).ledger.left = h.ledger.left := by
  unfold History.pushAccessUnit
  split_ifs <;> rfl

theorem left_call_popNalUnit (h : History ν) :
    (h.call .popNalUnit).ledger.left.map Prod.fst =
      h.ledger.left.map Prod.fst ++ (erase h.queue).popNalUnit.1.toList := by
  rw [erase_popNalUnit]
  unfold History.call
  rcases h.queue.popNalUnit with ⟨_ | nal, queue⟩
  · exact (List.append_nil _).symm
  · exact List.map_append

theorem left_after (n : ℕ) (calls : List (QueueCall ν)) :
    (after n calls).ledger.left.map Prod.fst = (RtspFrameQueue.new n).popped calls := by
  unfold after
  suffices ∀ h : History ν, (calls.foldl History.call h).ledger.left.map Prod.fst =
      h.ledger.left.map Prod.fst ++ (erase h.queue).popped calls from this _
  induction calls with
  | nil => exact fun h => (List.append_nil _).symm
  | cons c calls ih =>
    intro h
    rw [List.foldl_cons, ih, erase_call]
    cases c with
    | pushNalUnit nal =>
      rw [show (h.call (.pushNalUnit nal)).ledger.left = h.ledger.left from
        left_pushAccessUnit h [nal]]
      rfl
    | pushAccessUnit nals =>
      rw [show (h.call (.pushAccessUnit nals)).ledger.left = h.ledger.left from
        left_pushAccessUnit h nals]
      rfl
    | popNalUnit =>
      rw [left_call_popNalUnit, List.append_assoc]
      rfl
    | clear => rfl

end History

/-! ## The purpose of the queue -/

namespace UnitList

/-- Take the first element of the first unit, and the unit with it if it was the last. -/
def popFirst : List (List ν) → List (List ν)
  | (_ :: xs) :: rest => if xs.isEmpty then rest else xs :: rest
  | units => units

/-- A list of at most `cap` units that gives up the oldest for a new one. -/
def call (cap : ℕ) (units : List (List ν)) : QueueCall ν → List (List ν)
  | .pushNalUnit nal => DropOldest.push cap units [nal]
  | .pushAccessUnit nals => if nals.isEmpty then units else DropOldest.push cap units nals
  | .popNalUnit => popFirst units
  | .clear => []

end UnitList

namespace RtspFrameQueue

variable {q : RtspFrameQueue ν}

theorem Wf.call (hq : q.Wf) (c : QueueCall ν) : (q.call c).Wf := by
  cases c with
  | pushNalUnit nal => exact hq.pushAccessUnit [nal]
  | pushAccessUnit nals => exact hq.pushAccessUnit nals
  | popNalUnit => exact hq.popNalUnit
  | clear => exact hq.clear

@[simp] theorem call_maxQueueSize (q : RtspFrameQueue ν) (c : QueueCall ν) :
    (q.call c).maxQueueSize = q.maxQueueSize := by
  cases c with
  | pushNalUnit nal => exact pushAccessUnit_maxQueueSize q [nal]
  | pushAccessUnit nals => exact pushAccessUnit_maxQueueSize q nals
  | popNalUnit => exact popNalUnit_maxQueueSize q
  | clear => rfl

/-- One call does to the stored access units what it does to the abstract list. -/
theorem queue_call (hq : q.Wf) (c : QueueCall ν) :
    (q.call c).queue = UnitList.call q.maxQueueSize q.queue c := by
  cases c with
  | pushNalUnit nal => exact queue_pushAccessUnit hq (List.cons_ne_nil nal [])
  | pushAccessUnit nals =>
    by_cases hne : nals = []
    · rw [hne]
      rfl
    · exact (queue_pushAccessUnit hq hne).trans (if_neg (by simpa using hne)).symm
  | popNalUnit =>
    show q.popNalUnit.2.queue = UnitList.popFirst q.queue
    rcases hq.cases with h | ⟨nal, nals, rest, h⟩
    · rw [popNalUnit_nil h, h]
      rfl
    · rw [popNalUnit_cons h, h]
      rfl
  | clear => rfl

theorem Wf.foldl_call (hq : q.Wf) (calls : List (QueueCall ν)) :
    (calls.foldl RtspFrameQueue.call q).Wf := by
  induction calls generalizing q with
  | nil => exact hq
  | cons c calls ih => exact ih (hq.call c)

theorem queue_foldl_call (hq : q.Wf) (calls : List (QueueCall ν)) :
    (calls.foldl call q).queue = calls.foldl (UnitList.call q.maxQueueSize) q.queue := by
  induction calls generalizing q with
  | nil => rfl
  | cons c calls ih =>
    rw [List.foldl_cons, List.foldl_cons, ih (hq.call c), call_maxQueueSize, queue_call hq]

/-- What the queue is for, of the queue of size `n` after `calls`. -/
structure Refines (n : ℕ) (calls : List (QueueCall ν)) : Prop where
  /-- it holds what the bounded drop-oldest list of access units holds, … -/
  contents : (calls.foldl call (.new n)).queue = calls.foldl (UnitList.call (max 1 n)) []
  /-- … at most `max 1 n` access units … -/
  bound : (calls.foldl call (.new n)).queue.length ≤ max 1 n
  /-- … and none of them empty; -/
  ne_nil : ∀ u ∈ (calls.foldl call (.new n)).queue, u ≠ []
  /-- a push drops at most one access unit, of a full queue, the oldest, and is last and intact; -/
  push : ∀ nals : List ν, nals ≠ [] → ∃ gone kept,
    (calls.foldl call (.new n)).queue = gone ++ kept ∧
      ((calls.foldl call (.new n)).pushAccessUnit nals).queue = kept ++ [nals] ∧
      (gone = [] ∨ gone.length = 1 ∧ (calls.foldl call (.new n)).queue.length = max 1 n)
  /-- the ledger's NAL units are the ones pushed and popped by the calls, numbered apart, -/
  entered : (History.after n calls).ledger.entered.map Prod.fst = calls.flatMap QueueCall.pushedNals
  left : (History.after n calls).ledger.left.map Prod.fst = (RtspFrameQueue.new n).popped calls
  nodup : (History.after n calls).ledger.entered.Nodup
  /-- and what is queued by number is what the queue holds; -/
  held : (History.after n calls).queue.nals.map Prod.fst = (calls.foldl call (.new n)).nals
  /-- a pop fails exactly when every pushed NAL unit was popped, dropped or cleared; -/
  pop_false : (calls.foldl call (.new n)).popNalUnit.1 = none ↔
    ∀ x ∈ (History.after n calls).ledger.entered, x ∈ (History.after n calls).ledger.left ∨
      x ∈ (History.after n calls).ledger.dropped ∨ x ∈ (History.after n calls).ledger.cleared
  /-- NAL units are popped in the order they were pushed, -/
  order : (History.after n calls).ledger.left.Sublist (History.after n calls).ledger.entered
  /-- and each is popped, dropped, cleared or queued, exactly one of them. -/
  partition : ((History.after n calls).ledger.left ++ (History.after n calls).ledger.dropped ++
    (History.after n calls).ledger.cleared ++ (History.after n calls).queue.nals).Perm
      (History.after n calls).ledger.entered

theorem nals_erase (q : RtspFrameQueue (ν × ℕ)) :
    q.nals.map Prod.fst = (History.erase q).nals := List.map_flatten

/-- **The frame queue is a bounded drop-oldest list of access units**, for every size and every
sequence of calls. -/
theorem refines_dropOldest (n : ℕ) (calls : List (QueueCall ν)) : Refines n calls := by
  have hi := History.inv_after n calls
  have herase := History.erase_after n calls
  have hwf := (wf_new n : (new n : RtspFrameQueue ν).Wf).foldl_call calls
  have hsize : (calls.foldl call (.new n : RtspFrameQueue ν)).maxQueueSize = max 1 n := by
    rw [← herase]
    exact hi.size
  have hheld : (History.after n calls).queue.nals.map Prod.fst =
      (calls.foldl call (.new n)).nals := by
    rw [nals_erase, herase]
  refine ⟨?_, ?_, hwf.ne_nil, ?_, History.entered_after n calls, History.left_after n calls,
    hi.stamped.nodup, hheld, ?_, hi.balanced.left_sublist, hi.balanced.partition⟩
  · rw [queue_foldl_call (wf_new n), maxQueueSize_new]
    rfl
  · rw [← hsize]
    exact hwf.length_le
  · intro nals hne
    refine ⟨DropOldest.evicted (max 1 n) (calls.foldl call (.new n)).queue,
      DropOldest.kept (max 1 n) (calls.foldl call (.new n)).queue,
      (DropOldest.evicted_append_kept _ _).symm, ?_, ?_⟩
    · rw [queue_pushAccessUnit hwf hne, hsize]
      rfl
    · rcases DropOldest.evicted_spec (show 0 < max 1 n by omega) (hsize ▸ hwf.length_le) with
        ⟨h, -⟩ | ⟨u, h, -, hfull⟩
      · exact .inl h
      · exact .inr ⟨by rw [h]; rfl, hfull⟩
  · rw [popNalUnit_eq_none hwf, ← hheld, List.map_eq_nil_iff]
    have hn := hi.balanced.nodup hi.stamped.nodup
    constructor
    · intro hnil x hx
      have := hi.balanced.mem_iff.mp hx
      rw [hnil] at this
      simpa using this
    · intro hall
      rw [List.eq_nil_iff_forall_not_mem]
      intro x hx
      have hgone := hall x (hi.balanced.mem_iff.mpr (.inr (.inr (.inr hx))))
      rw [List.nodup_append] at hn
      exact hn.2.2 x (by simpa only [List.mem_append, or_assoc] using hgone) x hx rfl

end RtspFrameQueue

end Eye
