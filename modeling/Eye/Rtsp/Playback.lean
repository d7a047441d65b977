import Mathlib.Logic.Function.Basic
import Mathlib.Data.List.Pairwise
import Eye.Lib.Machine
import Eye.Rtsp.FrameQueueHistory

/-!
# What the sources of a queue are handed

One frame queue, the workers that push access units to it and the sources that register, pop and
unregister: those of the clients and the temporary ones of a DESCRIBE. Every NAL unit carries the
number of its push; the queue cannot tell (`erase_push`, `erase_pop`).

A worker asks `has_active_sources` first and pushes later, so a push can come when the source that
let it through is gone.
-/

namespace Eye

/-- A frame queue and its sources. `admitted` has the access units that `has_active_sources` has let
through and that are not pushed yet, `registeredAt` how many pushes there were before a source
registered, `handed` what it has been handed since. `foundLeftover` says that some source has
registered, as the only one, on a queue that held a NAL unit. -/
structure Playback where
  queue : RtspFrameQueue (RtspNalUnit × ℕ)
  pushed : List (RtspAccessUnit RtspNalUnit)
  admitted : List (RtspAccessUnit RtspNalUnit)
  registeredAt : SourceId → ℕ
  handed : SourceId → List (RtspNalUnit × ℕ)
  foundLeftover : Bool

namespace Playback

/-- A new queue, without sources. -/
def new (maxQueueSize : ℕ) : Playback :=
  ⟨.new maxQueueSize, [], [], fun _ => 0, fun _ => [], false⟩

/-- The NAL units of the `n`-th push. -/
def number (n : ℕ) (nals : RtspAccessUnit RtspNalUnit) : RtspAccessUnit (RtspNalUnit × ℕ) :=
  nals.map fun nal => (nal, n)

/-- `RtspStreamSource::RtspStreamSource` -/
def register (w : Playback) (s : SourceId) : Playback :=
  { w with
    queue := w.queue.registerSource s
    registeredAt := Function.update w.registeredAt s w.pushed.length
    handed := Function.update w.handed s []
    foundLeftover := w.foundLeftover || (!w.queue.hasActiveSources && !w.queue.nals.isEmpty) }

/-- `RtspStreamSource::~RtspStreamSource` -/
def unregister (w : Playback) (s : SourceId) : Playback :=
  { w with queue := w.queue.unregisterSource s }

/-- The last condition of `process_frame_nals`. -/
def check (w : Playback) (nals : RtspAccessUnit RtspNalUnit) : Playback :=
  if w.queue.hasActiveSources && !nals.isEmpty then { w with admitted := nals :: w.admitted } else w

/-- The push that follows it. -/
def push (w : Playback) (i : ℕ) (nals : RtspAccessUnit RtspNalUnit) : Playback :=
  { w with
    queue := w.queue.pushAccessUnit (number w.pushed.length nals)
    pushed := w.pushed ++ [nals]
    admitted := w.admitted.eraseIdx i }

/-- The pop of `deliver_frame`. -/
def pop (w : Playback) (s : SourceId) : Playback :=
  match w.queue.popNalUnit with
  | (some nal, queue) =>
    { w with queue := queue, handed := Function.update w.handed s (w.handed s ++ [nal]) }
  | (none, queue) => { w with queue := queue }

/-- What the workers and the sources do. -/
inductive Action
  | register (s : SourceId)
  | unregister (s : SourceId)
  | check (nals : RtspAccessUnit RtspNalUnit)
  | push (i : ℕ)
  | pop (s : SourceId)

/-- A source lives, and pops, from its registration to its unregistration. -/
def step (w : Playback) : Action → Option Playback
  | .register s => if s ∈ w.queue.activeSources then none else some (w.register s)
  | .unregister s => if s ∈ w.queue.activeSources then some (w.unregister s) else none
  | .check nals => some (w.check nals)
  | .push i => (w.admitted[i]?).map (w.push i)
  | .pop s => if s ∈ w.queue.activeSources then some (w.pop s) else none

/-- All runs of the workers and the sources of a queue. -/
def machine : Machine Playback Action where
  init w := ∃ n, w = new n
  step := step

variable {w w' : Playback} {a : Action} {s : SourceId} {i n : ℕ}
  {nals : RtspAccessUnit RtspNalUnit}

/-! ## The numbers -/

theorem number_eq_nil : number n nals = [] ↔ nals = [] := List.map_eq_nil_iff

theorem erase_push (w : Playback) (i : ℕ) (nals : RtspAccessUnit RtspNalUnit) :
    History.erase (w.push i nals).queue = (History.erase w.queue).pushAccessUnit nals := by
  show History.erase (w.queue.pushAccessUnit (number w.pushed.length nals)) = _
  rw [History.erase_push]
  unfold number
  rw [List.map_map]
  congr 1
  exact List.map_id nals

/-- A worker that pushes right after the check does what `process_frame_nals` does at its end. -/
theorem erase_check_push (w : Playback) (nals : RtspAccessUnit RtspNalUnit) :
    ∃ k w', machine.run w (.check nals :: List.replicate k (.push 0)) = some w' ∧
      History.erase w'.queue =
        if (History.erase w.queue).hasActiveSources && !nals.isEmpty then
          (History.erase w.queue).pushAccessUnit nals
        else History.erase w.queue := by
  have hactive : (History.erase w.queue).hasActiveSources = w.queue.hasActiveSources := rfl
  rw [hactive]
  by_cases h : (w.queue.hasActiveSources && !nals.isEmpty) = true
  · have hcheck : w.check nals = { w with admitted := nals :: w.admitted } := if_pos h
    refine ⟨1, (w.check nals).push 0 nals, ?_, ?_⟩
    · rw [hcheck]
      show machine.run (w.check nals) [.push 0] = _
      rw [hcheck]
      rfl
    · rw [if_pos h, erase_push, hcheck]
  · have hcheck : w.check nals = w := if_neg h
    refine ⟨0, w, ?_, ?_⟩
    · show some (w.check nals) = some w
      rw [hcheck]
    · rw [if_neg h]

theorem erase_pop (w : Playback) (s : SourceId) :
    History.erase (w.pop s).queue = (History.erase w.queue).popNalUnit.2 ∧
      ((w.pop s).handed s).map Prod.fst =
        (w.handed s).map Prod.fst ++ (History.erase w.queue).popNalUnit.1.toList := by
  rw [History.erase_popNalUnit]
  unfold pop
  rcases w.queue.popNalUnit with ⟨_ | nal, queue⟩
  · exact ⟨rfl, (List.append_nil _).symm⟩
  · refine ⟨rfl, ?_⟩
    dsimp only
    rw [Function.update_self, List.map_append]
    rfl

/-! ## One step -/

/-- The outcomes of `step`. -/
inductive Step (w : Playback) : Action → Playback → Prop
  | register {s : SourceId} : s ∉ w.queue.activeSources → Step w (.register s) (w.register s)
  | unregister {s : SourceId} : s ∈ w.queue.activeSources → Step w (.unregister s) (w.unregister s)
  | ignored {nals : RtspAccessUnit RtspNalUnit} :
      ¬ (w.queue.hasActiveSources = true ∧ nals ≠ []) → Step w (.check nals) w
  | admitted {nals : RtspAccessUnit RtspNalUnit} : w.queue.hasActiveSources = true → nals ≠ [] →
      Step w (.check nals) { w with admitted := nals :: w.admitted }
  | push {i : ℕ} {nals : RtspAccessUnit RtspNalUnit} : w.admitted[i]? = some nals →
      Step w (.push i) (w.push i nals)
  | pop {s : SourceId} : s ∈ w.queue.activeSources → Step w (.pop s) (w.pop s)

theorem Step.of_step (h : w.step a = some w') : Step w a w' := by
  cases a with
  | register s =>
    rw [Playback.step] at h
    split_ifs at h with hs
    cases h
    exact .register hs
  | unregister s =>
    rw [Playback.step] at h
    split_ifs at h with hs
    cases h
    exact .unregister hs
  | check nals =>
    cases h
    unfold check
    split_ifs with hc
    · rw [Bool.and_eq_true] at hc
      exact .admitted hc.1 (by simpa using hc.2)
    · exact .ignored fun hn => hc (by simpa using hn)
  | push i =>
    obtain ⟨nals, hi, rfl⟩ := Option.map_eq_some_iff.mp h
    exact .push hi
  | pop s =>
    rw [Playback.step] at h
    split_ifs at h with hs
    cases h
    exact .pop hs

/-- The two outcomes of a pop. -/
theorem pop_cases (hq : w.queue.Wf) (s : SourceId) :
    (w.queue.nals = [] ∧ w.pop s = w) ∨
      ∃ x, w.queue.nals = x :: (w.pop s).queue.nals ∧ (w.pop s).queue = w.queue.popNalUnit.2 ∧
        w.pop s = { w with
          queue := (w.pop s).queue
          handed := Function.update w.handed s (w.handed s ++ [x]) } := by
  unfold pop
  rcases RtspFrameQueue.nals_popNalUnit hq with ⟨hnone, hnil, hsame⟩ | ⟨x, hsome, hcons⟩
  · rw [show w.queue.popNalUnit = (none, w.queue) from Prod.ext hnone hsame]
    exact .inl ⟨hnil, rfl⟩
  · rw [show w.queue.popNalUnit = (some x, w.queue.popNalUnit.2) from Prod.ext hsome rfl]
    exact .inr ⟨x, hcons, rfl, rfl⟩

/-! ## What every step keeps -/

/-- The access units are queued in the order of their pushes, and none that waits is empty. -/
structure Inv (w : Playback) : Prop where
  wf : w.queue.Wf
  sorted : w.queue.nals.Pairwise fun x y => x.2 ≤ y.2
  lt : ∀ x ∈ w.queue.nals, x.2 < w.pushed.length
  admitted_ne : ∀ nals ∈ w.admitted, nals ≠ []

theorem inv_new (n : ℕ) : (new n).Inv := by
  refine ⟨RtspFrameQueue.wf_new n, .nil, ?_, ?_⟩
  · intro x hx
    simp [new, RtspFrameQueue.new, RtspFrameQueue.nals] at hx
  · intro nals h
    simp [new] at h

theorem mem_number {x : RtspNalUnit × ℕ} (h : x ∈ number n nals) : x.2 = n := by
  obtain ⟨nal, -, rfl⟩ := List.mem_map.mp h
  rfl

theorem Inv.push (hi : w.Inv) (i : ℕ) (nals : RtspAccessUnit RtspNalUnit) :
    (w.push i nals).Inv := by
  obtain ⟨kept, hsub, hnals⟩ :=
    RtspFrameQueue.nals_pushAccessUnit hi.wf (number w.pushed.length nals)
  refine ⟨hi.wf.pushAccessUnit _, ?_, ?_, ?_⟩
  · show ((w.queue.pushAccessUnit _).nals).Pairwise _
    rw [hnals, List.pairwise_append]
    refine ⟨hi.sorted.sublist hsub, ?_, ?_⟩
    · apply List.pairwise_of_forall_mem_list
      intro x hx y hy
      have hnx := mem_number hx
      have hny := mem_number hy
      omega
    · intro x hx y hy
      have hlt := hi.lt x (hsub.subset hx)
      have hny := mem_number hy
      omega
  · intro x hx
    have hx : x ∈ (w.queue.pushAccessUnit _).nals := hx
    rw [hnals] at hx
    show x.2 < (w.pushed ++ [nals]).length
    simp only [List.length_append, List.length_singleton]
    rcases List.mem_append.mp hx with hx | hx
    · have hlt := hi.lt x (hsub.subset hx)
      omega
    · have hn := mem_number hx
      omega
  · intro nals h
    exact hi.admitted_ne nals (List.mem_of_mem_eraseIdx h)

theorem Inv.pop (hi : w.Inv) (s : SourceId) : (w.pop s).Inv := by
  rcases pop_cases hi.wf s with ⟨-, h⟩ | ⟨x, hnals, hq, h⟩
  · rw [h]
    exact hi
  · have hsorted := hi.sorted
    have hlt := hi.lt
    rw [hnals] at hsorted hlt
    rw [h]
    refine ⟨hq ▸ hi.wf.popNalUnit, hsorted.of_cons, ?_, hi.admitted_ne⟩
    intro y hy
    exact hlt y (List.mem_cons_of_mem _ hy)

theorem Inv.step (hi : w.Inv) (h : Step w a w') : w'.Inv := by
  cases h with
  | register hs => exact ⟨⟨hi.wf.ne_nil, hi.wf.length_le⟩, hi.sorted, hi.lt, hi.admitted_ne⟩
  | unregister hs => exact ⟨⟨hi.wf.ne_nil, hi.wf.length_le⟩, hi.sorted, hi.lt, hi.admitted_ne⟩
  | ignored hc => exact hi
  | @admitted nals hactive hn =>
    refine ⟨hi.wf, hi.sorted, hi.lt, ?_⟩
    intro nals' h
    rcases List.mem_cons.mp h with rfl | h
    · exact hn
    · exact hi.admitted_ne nals' h
  | push ha => exact hi.push _ _
  | pop hs => exact hi.pop _

end Playback

end Eye
